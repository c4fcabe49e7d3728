import NumaFabric.RuntimeRecovery

/-! When a recovery that throws leaves the runtime as it found it. -/
namespace NumaFabric
open Std FaultState FaultRun LedgerCounter Persistence

namespace ReservationStore
variable {cap : CapacityFn} {s : ReservationStore} {x : PersistedReservation}

/-- No identifier and no node total disappears. -/
structure Grows (s t : ReservationStore) : Prop where
  reservations : ∀ k, s.reservations.contains k = true → t.reservations.contains k = true
  nodeMem : ∀ n, s.nodeMem.contains n = true → t.nodeMem.contains n = true

theorem Grows.refl (s : ReservationStore) : Grows s s := ⟨fun _ h => h, fun _ h => h⟩

theorem Grows.trans {s t u : ReservationStore} (h : Grows s t) (k : Grows t u) : Grows s u :=
  ⟨fun i hi => k.reservations i (h.reservations i hi), fun n hn => k.nodeMem n (h.nodeMem n hn)⟩

theorem grows_reinstate (r : Reservation) (s : ReservationStore) : Grows s (reinstate r s) := by
  constructor
  · intro k hk
    simp [reinstate, record, chargeAll, hk]
  · intro n hn
    simp only [reinstate, record, chargeAll]
    split_ifs
    · exact hn
    · simp [charge, hn]

theorem grows_takeBack (cap : CapacityFn) (s : ReservationStore) (x : PersistedReservation) :
    Grows s (s.takeBack cap x) := by
  change Grows s (stateAfter (restore cap x.recovered) s)
  rw [stateAfter]
  have outcome := restore_outcome cap x.recovered s
  generalize (restore cap x.recovered).run s = res at outcome
  cases outcome with
  | invalid => exact .refl s
  | duplicate => exact .refl s
  | inactive => exact ⟨fun k hk => by simp [record, hk], fun _ hn => hn⟩
  | refused => exact ⟨fun _ hk => hk, fun n hn => by simp [touch, hn]⟩
  | readmitted => exact grows_reinstate _ s

theorem grows_foldl (cap : CapacityFn) (xs : List PersistedReservation) (s : ReservationStore) :
    Grows s (xs.foldl (takeBack cap) s) := by
  induction xs generalizing s with
  | nil => exact .refl s
  | cons x xs ih => exact (grows_takeBack cap s x).trans (ih _)

/-- The record is dropped for want of capacity on a node that already has a total. -/
structure ShutOut (cap : CapacityFn) (s : ReservationStore) (x : PersistedReservation) : Prop where
  fresh : s.Fresh x
  active : x.active = true
  exceeds : restoreOver cap x.recovered s = true
  known : s.nodeMem.contains x.node = true

theorem ShutOut.takeBack (h : ShutOut cap s x) : s.takeBack cap x = s := by
  change stateAfter (restore cap x.recovered) s = s
  rw [stateAfter]
  have outcome := restore_outcome cap x.recovered s
  have known : touch s.nodeMem x.node = s.nodeMem := by
    have present := h.known
    rw [ExtTreeMap.contains_eq_isSome_getElem?] at present
    obtain ⟨v, hv⟩ := Option.isSome_iff_exists.mp present
    exact touch_of_some hv
  generalize (restore cap x.recovered).run s = res at outcome
  cases outcome with
  | invalid => rfl
  | duplicate => rfl
  | inactive valid fresh closed => exact absurd (h.active.symm.trans closed) (by decide)
  | refused =>
    change { s with nodeMem := touch s.nodeMem x.node } = s
    rw [known]
  | readmitted valid fresh live fits => exact absurd (h.exceeds.symm.trans fits) (by decide)

/-- Only a record that is shut out leaves the store without a new key. -/
theorem shutOut_of_grows (fresh : s.Fresh x) (h : Grows (s.takeBack cap x) s) :
    ShutOut cap s x := by
  have taken : (s.takeBack cap x).reservations.contains x.id = false := by
    rw [← Bool.not_eq_true]
    intro present
    exact absurd (fresh.2.symm.trans (h.reservations _ present)) (by decide)
  have nodes := h.nodeMem x.node
  change (stateAfter (restore cap x.recovered) s).reservations.contains x.id = false at taken
  change (stateAfter (restore cap x.recovered) s).nodeMem.contains x.node = true → _ at nodes
  rw [stateAfter] at taken nodes
  have outcome := restore_outcome cap x.recovered s
  generalize (restore cap x.recovered).run s = res at outcome taken nodes
  cases outcome with
  | invalid bad => exact absurd (fresh.1.symm.trans bad) (by decide)
  | duplicate present => exact absurd (fresh.2.symm.trans present) (by decide)
  | inactive => simp [record, PersistedReservation.recovered] at taken
  | readmitted => simp [reinstate, record, chargeAll, PersistedReservation.recovered] at taken
  | refused valid absent live exceeds =>
    exact ⟨fresh, live, exceeds, nodes (by simp [touch, PersistedReservation.recovered])⟩

/-- Records that are accepted in turn leave the store as it was exactly when each of them is
shut out. -/
theorem foldl_takeBack_eq {xs : List PersistedReservation} :
    Meets (takeBack cap) Fresh s xs ∧ xs.foldl (takeBack cap) s = s ↔ ∀ x ∈ xs, ShutOut cap s x := by
  induction xs with
  | nil => simp
  | cons x xs ih =>
    rw [List.forall_mem_cons, ← ih, List.foldl_cons, Meets]
    constructor
    · rintro ⟨⟨fresh, others⟩, same⟩
      have back := grows_foldl cap xs (s.takeBack cap x)
      rw [same] at back
      have shut := shutOut_of_grows fresh back
      rw [shut.takeBack] at others same
      exact ⟨shut, others, same⟩
    · rintro ⟨shut, others, same⟩
      rw [shut.takeBack]
      exact ⟨⟨shut.fresh, others⟩, same⟩

end ReservationStore

namespace Runtime
variable {β : Type}

/-- Epoch, policy generation, registry and reservation store are what they were. -/
structure SameCore (s t : Runtime β) : Prop where
  epoch : t.epoch = s.epoch
  policyGeneration : t.policyGeneration = s.policyGeneration
  registry : t.registry = s.registry
  reservations : t.reservations = s.reservations

/-- The file has the epoch and the policy generation the runtime is at. -/
def AtCurrent (s : Runtime β) (p : PersistedState) : Prop :=
  p.coordinatorEpoch = s.epoch.value ∧ p.policyGeneration = s.policyGeneration

/-- No record of the file is refused when its turn comes. -/
structure Accepted (s : Runtime β) (p : PersistedState) : Prop where
  workers : ∀ x ∈ p.workers, x.recovered.identified = true
  reservations : Meets (ReservationStore.takeBack s.nodeCapacityProvider) ReservationStore.Fresh
    s.reservations p.reservations

/-- A worker record is refused, and those before it put back what the registry holds. -/
def StopsAtWorker (s : Runtime β) (p : PersistedState) : Prop :=
  ∃ pre x post, p.workers = pre ++ x :: post ∧ (∀ y ∈ pre, y.recovered.identified = true) ∧
    x.recovered.identified = false ∧ pre.foldl WorkerRegistry.takeBack s.registry = s.registry

/-- The worker records put back what the registry holds; a reservation record is refused,
and those before it are all shut out. -/
def StopsAtReservation (s : Runtime β) (p : PersistedState) : Prop :=
  (∀ x ∈ p.workers, x.recovered.identified = true) ∧
    p.workers.foldl WorkerRegistry.takeBack s.registry = s.registry ∧
    ∃ pre x post, p.reservations = pre ++ x :: post ∧
      (∀ y ∈ pre, ReservationStore.ShutOut s.nodeCapacityProvider s.reservations y) ∧
      ¬s.reservations.Fresh x

/-- The first worker record without a valid identity, when there is one. -/
theorem identified_or_stops (xs : List PersistedWorker) :
    (∀ x ∈ xs, x.recovered.identified = true) ∨ ∃ pre x post, xs = pre ++ x :: post ∧
      (∀ y ∈ pre, y.recovered.identified = true) ∧ x.recovered.identified = false := by
  induction xs with
  | nil => simp
  | cons y xs ih =>
    cases hy : y.recovered.identified with
    | false => exact .inr ⟨[], y, xs, rfl, by simp, hy⟩
    | true =>
      rcases ih with all | ⟨pre, x, post, rfl, before, bad⟩
      · exact .inl (List.forall_mem_cons.mpr ⟨hy, all⟩)
      · exact .inr ⟨y :: pre, x, post, rfl, List.forall_mem_cons.mpr ⟨hy, before⟩, bad⟩

theorem stops_unchanged {s t : Runtime β} {p : PersistedState} {disk : Disk} {path : ByteString}
    {e : Exn} (read : loaded disk path = .ok p) (current : AtCurrent s p)
    (h : StopsAtWorker s p ∨ StopsAtReservation s p)
    (threw : (recover disk path).run s = .error e t) : SameCore s t := by
  have adopted : s.adopt p = s := by
    rw [adopt, current.1, current.2]
  rw [recover_run read, adopted] at threw
  rcases h with ⟨pre, x, post, split, before, bad, put⟩ | ⟨all, put, pre, x, post, split, out, stale⟩
  · rw [split, restoreWorkers_stops _ before bad, put] at threw
    cases threw
    exact ⟨rfl, rfl, rfl, rfl⟩
  · obtain ⟨meets, same⟩ := ReservationStore.foldl_takeBack_eq.mpr out
    rw [← same] at stale
    obtain ⟨e', stops⟩ := restoreReservations_stops post meets stale
    rw [restoreWorkers_run _ all, put, split] at threw
    dsimp only at threw
    rw [stops, same] at threw
    cases threw
    exact ⟨rfl, rfl, rfl, rfl⟩

theorem accepted_returns {s : Runtime β} {p : PersistedState} {disk : Disk} {path : ByteString}
    (read : loaded disk path = .ok p) (h : Accepted s p) :
    ∃ t, (recover disk path).run s = .ok () t := by
  rw [recover_run read, restoreWorkers_run _ h.workers]
  dsimp only
  rw [restoreReservations_run h.reservations]
  exact ⟨_, rfl⟩

/-- A recovery that throws leaves epoch, policy, registry and reservations alone exactly when
no record of the file is refused, or the file agrees with the runtime up to the record
that is. -/
theorem recover_atomic_iff (s : Runtime β) (disk : Disk) (path : ByteString) :
    (∀ e t, (recover disk path).run s = .error e t → SameCore s t) ↔
      ∀ p, loaded disk path = .ok p →
        Accepted s p ∨ AtCurrent s p ∧ (StopsAtWorker s p ∨ StopsAtReservation s p) := by
  constructor
  · intro same p read
    have ran := recover_run read s
    rcases identified_or_stops p.workers with all | ⟨pre, x, post, split, before, bad⟩
    · rw [restoreWorkers_run _ all] at ran
      dsimp only at ran
      rcases meets_or_stops (ReservationStore.takeBack s.nodeCapacityProvider)
        ReservationStore.Fresh s.reservations p.reservations with ok | ⟨pre, x, post, split, meets, stale⟩
      · exact .inl ⟨all, ok⟩
      · obtain ⟨e, stops⟩ := restoreReservations_stops post meets stale
        rw [split, stops] at ran
        have kept := same e _ ran
        have store : pre.foldl (ReservationStore.takeBack s.nodeCapacityProvider) s.reservations =
          s.reservations := kept.reservations
        rw [store] at stale
        refine .inr ⟨⟨congrArg Generation.value kept.epoch, kept.policyGeneration⟩, .inr ⟨all,
          kept.registry, pre, x, post, split, ?_, stale⟩⟩
        exact ReservationStore.foldl_takeBack_eq.mp ⟨meets, store⟩
    · rw [split, restoreWorkers_stops _ before bad] at ran
      have kept := same _ _ ran
      exact .inr ⟨⟨congrArg Generation.value kept.epoch, kept.policyGeneration⟩,
        .inl ⟨pre, x, post, split, before, bad, kept.registry⟩⟩
  · intro cond e t threw
    cases read : loaded disk path with
    | error e' =>
      rw [recover_unread read] at threw
      cases threw
      exact ⟨rfl, rfl, rfl, rfl⟩
    | ok p =>
      rcases cond p read with accepted | ⟨current, stops⟩
      · obtain ⟨u, returned⟩ := accepted_returns read accepted
        rw [returned] at threw
        cases threw
      · exact stops_unchanged read current stops threw

/-- A worker record without a boot passes `load`, and is refused after the epoch of the file
has been taken over. -/
theorem recovery_half_applied :
    let s : Runtime Unit := { migrator := MigrationManager.initial () fun _ => 0 }
    let p : PersistedState := { coordinatorEpoch := 9, workers := [{ id := ⟨1⟩ }] }
    ∃ disk, loaded disk (ascii "state") = .ok p ∧
      ¬∀ e t, (recover disk (ascii "state")).run s = .error e t → SameCore s t := by
  intro s p
  have storable : Storable p := by constructor <;> decide
  obtain ⟨disk, -, read⟩ := loaded_of_saved storable (fun _ => none) (ascii "state")
  refine ⟨disk, read, fun same => ?_⟩
  have threw : (recover disk (ascii "state")).run s =
      .error (.worker .restoreInvalid) (s.adopt p) := recover_run read s
  have epoch := (same _ _ threw).epoch
  exact absurd epoch (by decide)

end Runtime

end NumaFabric
