import NumaFabric.MemoryAccounting
import NumaFabric.RecoveryRebuild
import NumaFabric.RuntimeFrames

/-! A runtime that is written to disk and read into a fresh one. In every run whose
counters do not wrap, the recovered runtime has the same logical state. -/
namespace NumaFabric.RecoveryRefinement
open Std FaultState FaultRun LedgerCounter LedgerTotal KeyedTable Persistence ReservationStore
  ReservationIdentity ReservationLedger ReservationTotals RecoveryRebuild RuntimeFrames

variable {β : Type} {topo : HostTopology}

/-- Worker, binding, observation, reservation, epoch and policy operations. -/
inductive Op
  | registerWorker (id : WorkerId) (pid : ProcessId)
  | restartWorker (id : WorkerId) (pid : ProcessId)
  | markWorkerDead (id : WorkerId) (boot : WorkerBootId)
  | bindWorker (id : WorkerId) (boot : WorkerBootId) (node : NumaNodeId) (applyAffinity : Bool)
  | observe (id : WorkerId) (boot : WorkerBootId)
  | reserve (req : ReserveRequest)
  | releaseReservation (id : ReservationId)
  | advanceEpoch
  | advancePolicyGeneration
  deriving DecidableEq, Repr

/-- The runtime after an operation, whether it returned or threw. -/
def step (b : Backend β) (s : Runtime β) : Op → Runtime β
  | .registerWorker id pid => stateAfter (Runtime.registerWorker id pid) s
  | .restartWorker id pid => stateAfter (Runtime.restartWorker id pid) s
  | .markWorkerDead id boot => s.markWorkerDead id boot
  | .bindWorker id boot node applyAffinity =>
    stateAfter (Runtime.bindWorker b id boot node applyAffinity) s
  | .observe id boot => stateAfter (Runtime.observe id boot) s
  | .reserve req => stateAfter (Runtime.reserve req) s
  | .releaseReservation id => stateAfter (Runtime.releaseReservation id) s
  | .advanceEpoch => stateAfter Runtime.advanceEpoch s
  | .advancePolicyGeneration => s.advancePolicyGeneration

/-- A runtime that has discovered its host and done nothing else. -/
def discovered (topo : HostTopology) (accelerators : List AcceleratorInfo)
    (migrator : MigrationManager β) : Runtime β := { topo, accelerators, migrator }

/-- A boot is issued by a counter that has not wrapped, and a granted reservation wraps none
of the totals it is added to. -/
def Unwrapped (s : Runtime β) : Op → Prop
  | .registerWorker id _ =>
    id.isValid = true → s.registry.workers[id]? = none → s.registry.nextBoot ≠ 0
  | .restartWorker id _ =>
    id.isValid = true → s.registry.workers[id]? ≠ none → s.registry.nextBoot ≠ 0
  | .reserve req => Admitted s.nodeCapacityProvider s.reservations req →
    NoWrap AllNodes s.reservations req
  | _ => True

instance (s : Runtime β) : (op : Op) → Decidable (Unwrapped s op)
  | .registerWorker _ _ => inferInstanceAs (Decidable (_ → _))
  | .restartWorker _ _ => inferInstanceAs (Decidable (_ → _))
  | .reserve _ => inferInstanceAs (Decidable (_ → _))
  | .markWorkerDead _ _ => inferInstanceAs (Decidable True)
  | .bindWorker _ _ _ _ => inferInstanceAs (Decidable True)
  | .observe _ _ => inferInstanceAs (Decidable True)
  | .releaseReservation _ => inferInstanceAs (Decidable True)
  | .advanceEpoch => inferInstanceAs (Decidable True)
  | .advancePolicyGeneration => inferInstanceAs (Decidable True)

/-- Epoch, policy, workers, active reservations and totals are the same. The persisted form
of a record is the part of it that a file keeps. -/
structure Reproduced (s t : Runtime β) : Prop where
  epoch : t.epoch = s.epoch
  policyGeneration : t.policyGeneration = s.policyGeneration
  workers : ∀ id : WorkerId, t.registry.workers[id]?.map Worker.persisted =
    s.registry.workers[id]?.map Worker.persisted
  reservations : ∀ id : ReservationId, t.reservations.reservations[id]?.map Reservation.persisted =
    (s.reservations.reservations[id]?.filter (·.active)).map Reservation.persisted
  nodeMem : ∀ n, entry t.reservations.nodeMem n = entry s.reservations.nodeMem n
  nodeSlots : ∀ n, entry t.reservations.nodeSlots n = entry s.reservations.nodeSlots n
  accelMem : ∀ a, entry t.reservations.accelMem a = entry s.reservations.accelMem a

section Numbered

/-- Every record is stored under its own valid identifier, and the next one is valid too
unless the watermark is exhausted. -/
structure Numbered (s : ReservationStore) : Prop where
  running : s.watermark.value ≠ u64Max → s.nextId ≠ 0
  keyed : ∀ (k : ReservationId) r, s.reservations[k]? = some r → r.id = k ∧ k.isValid = true

variable {s t : ReservationStore}

theorem Numbered.advanced {g : ReservationGeneration} (h : Numbered s) (d : Dominated s)
    (next : s.watermark.next = .ok g) (hr : t.reservations = s.reservations)
    (hi : t.nextId = s.nextId + 1) (hw : t.watermark = g) : Numbered t := by
  refine ⟨fun hm => ?_, by rw [hr]; exact h.keyed⟩
  rw [hw] at hm
  have small := value_lt_max hm
  have value := Generation.next_ok next
  have succ := u64_succ (d.next_le (Generation.ne_max_of_next next)) (by omega)
  rw [hi]
  intro zero
  rw [zero] at succ
  exact absurd succ (by simp)

theorem reserve_numbered (cap : CapacityFn) (req : ReserveRequest) (h : Numbered s)
    (d : Dominated s) : Numbered (stateAfter (ReservationStore.reserve cap req) s) := by
  have outcome := reserve_outcome cap req s
  generalize ran : (ReservationStore.reserve cap req).run s = res at outcome
  cases outcome with
  | malformed e bad =>
    rw [stateAfter_of_error ran]
    exact h
  | exhausted wf last =>
    rw [stateAfter_of_error ran]
    exact ⟨fun hm => absurd last hm, h.keyed⟩
  | overMemory g wf next exceeds =>
    rw [stateAfter_of_error ran, touchMemory_eq]
    exact h.advanced d next rfl rfl rfl
  | overAccelerator g wf next fits exceeds =>
    rw [stateAfter_of_error ran, touchMemory_eq]
    exact h.advanced d next rfl rfl rfl
  | granted g wf next fits below r hr =>
    rw [stateAfter_of_ok ran]
    have moved : Numbered (advanced g s) := h.advanced d next rfl rfl rfl
    refine ⟨moved.running, fun k q hk => ?_⟩
    rcases getElem?_record hk with ⟨rfl, rfl⟩ | old
    · have running := h.running (Generation.ne_max_of_next next)
      refine ⟨rfl, ?_⟩
      rw [hr]
      exact bne_iff_ne.mpr running
    · exact h.keyed k q old

theorem release_numbered (id : ReservationId) (expected : Option ReservationGeneration)
    (h : Numbered s) : Numbered (stateAfter (ReservationStore.release id expected) s) := by
  obtain ⟨hi, hw, hr | ⟨r, found, hr⟩⟩ := release_table id expected s
  · exact ⟨by rw [hi, hw]; exact h.running, by rw [hr]; exact h.keyed⟩
  · refine ⟨by rw [hi, hw]; exact h.running, fun k q hk => ?_⟩
    rw [hr, ExtTreeMap.getElem?_insert] at hk
    split_ifs at hk with same
    · cases hk
      rw [← Std.compare_eq_iff_eq.mp same]
      exact h.keyed id r found
    · exact h.keyed k q hk

end Numbered

section Registry

/-- Every worker is stored under its own identifier, with an identity `restore` accepts. -/
def Named (s : WorkerRegistry) : Prop :=
  ∀ (id : WorkerId) w, s.workers[id]? = some w → w.id = id ∧ w.identified = true

theorem Named.insert {s t : WorkerRegistry} {id : WorkerId} {w : Worker} (h : Named s)
    (workers : t.workers = s.workers.insert id w) (named : w.id = id ∧ w.identified = true) :
    Named t := by
  intro k v hk
  rw [workers, ExtTreeMap.getElem?_insert] at hk
  split_ifs at hk with same
  · cases hk
    rw [← Std.compare_eq_iff_eq.mp same]
    exact named
  · exact h k v hk

theorem Named.rewrite {s t : WorkerRegistry} {id : WorkerId} {old new : Worker} (h : Named s)
    (found : s.workers[id]? = some old) (workers : t.workers = s.workers.insert id new)
    (name : new.id = old.id) (boot : new.bootId = old.bootId) : Named t := by
  refine h.insert workers ?_
  rw [Worker.identified, name, boot]
  exact h id old found

/-- Topology and reservations stay, and the registry stays well named. -/
structure Aside (s t : Runtime β) : Prop where
  topo : t.topo = s.topo
  reservations : t.reservations = s.reservations
  named : Named s.registry → Named t.registry

instance : Std.Refl (Aside (β := β)) := ⟨fun _ => ⟨rfl, rfl, id⟩⟩

instance : IsTrans (Runtime β) Aside :=
  ⟨fun _ _ _ h g => ⟨g.topo.trans h.topo, g.reservations.trans h.reservations,
    fun n => g.named (h.named n)⟩⟩

theorem observe_aside (id : WorkerId) (boot : WorkerBootId) :
    Preserves (Aside (β := β)) (Runtime.observe id boot) :=
  preserves_observe fun _ _ found _ => ⟨rfl, rfl, fun h => h.rewrite found rfl rfl rfl⟩

theorem recordBinding_aside (id : WorkerId) (node : NumaNodeId) (set : AffinitySet)
    (applied : Bool) : Preserves (Aside (β := β)) (Runtime.recordBinding id node set applied) :=
  preserves_recordBinding fun _ _ _ found _ => ⟨rfl, rfl, fun h => h.rewrite found rfl rfl rfl⟩

theorem ignoresMemory_aside : IgnoresMemory (Aside (β := β)) := fun _ _ => ⟨rfl, rfl, id⟩

theorem advanceEpoch_aside : Preserves (Aside (β := β)) Runtime.advanceEpoch :=
  Preserves.get.bind fun _ => (Preserves.ofExcept _).bind fun _ =>
    Preserves.modify fun _ => ⟨rfl, rfl, id⟩

theorem markWorkerDead_aside (id : WorkerId) (boot : WorkerBootId) (s : Runtime β) :
    Aside s (s.markWorkerDead id boot) := by
  refine ⟨rfl, rfl, fun h => ?_⟩
  change Named (s.registry.markDead id boot)
  unfold WorkerRegistry.markDead
  cases hw : s.registry.workers[id]? with
  | none => exact h
  | some w =>
    dsimp only
    split_ifs
    · exact h.rewrite hw rfl rfl rfl
    · exact h

theorem issued_identified {id : WorkerId} {n : U64} {w : Worker} (valid : id.isValid = true)
    (running : n ≠ 0) (named : w.id = id) (boot : w.bootId = ⟨n⟩) :
    w.id = id ∧ w.identified = true := by
  refine ⟨named, ?_⟩
  rw [Worker.identified, named, boot, valid]
  exact bne_iff_ne.mpr running

theorem registerWorker_aside {s : Runtime β} {id : WorkerId} {pid : ProcessId}
    (unwrapped : Unwrapped s (.registerWorker id pid)) :
    Aside s (stateAfter (Runtime.registerWorker id pid) s) := by
  rw [Runtime.registerWorker, Runtime.onRegistry, stateAfter_zoom]
  refine ⟨rfl, rfl, fun h => ?_⟩
  change Named (stateAfter (WorkerRegistry.registerWorker id pid) s.registry)
  rcases WorkerRegistry.registerWorker_cases id pid s.registry with same | ⟨valid, absent, issued⟩
  · rw [same]
    exact h
  · rw [issued]
    exact h.insert rfl (issued_identified valid (unwrapped valid absent) rfl rfl)

theorem restartWorker_aside {s : Runtime β} {id : WorkerId} {pid : ProcessId}
    (unwrapped : Unwrapped s (.restartWorker id pid)) :
    Aside s (stateAfter (Runtime.restartWorker id pid) s) := by
  rw [Runtime.restartWorker, Runtime.onRegistry, stateAfter_zoom]
  refine ⟨rfl, rfl, fun h => ?_⟩
  change Named (stateAfter (WorkerRegistry.restartWorker id pid) s.registry)
  rcases WorkerRegistry.restartWorker_cases id pid s.registry with same | ⟨w, valid, found, issued⟩
  · rw [same]
    exact h
  · rw [issued]
    have known := unwrapped valid (by simp [found])
    exact h.insert rfl (issued_identified valid known (h id w found).1 rfl)

end Registry

/-- What holds of every state that is reached without a wrap. -/
structure Intact (topo : HostTopology) (s : Runtime β) : Prop where
  host : s.topo = topo
  named : Named s.registry
  numbered : Numbered s.reservations
  within : WithinCapacity s.nodeCapacityProvider s.reservations
  tracks : Tracks AllNodes s.reservations

theorem intact_discovered (topo : HostTopology) (accelerators : List AcceleratorInfo)
    (migrator : MigrationManager β) : Intact topo (discovered topo accelerators migrator) where
  host := rfl
  named id w h := by simp [discovered] at h
  numbered := ⟨fun _ => by change (1 : U64) ≠ 0; decide, fun k r h => by simp [discovered] at h⟩
  within := initial_withinCapacity _
  tracks := initial_tracks _

theorem nodeCapacityProvider_congr {s t : Runtime β} (h : t.topo = s.topo) :
    t.nodeCapacityProvider = s.nodeCapacityProvider := by
  rw [Runtime.nodeCapacityProvider, h, Runtime.nodeCapacityProvider]

theorem Intact.aside {s t : Runtime β} (h : Intact topo s) (aside : Aside s t) : Intact topo t where
  host := aside.topo.trans h.host
  named := aside.named h.named
  numbered := by
    rw [aside.reservations]
    exact h.numbered
  within := by
    rw [aside.reservations, nodeCapacityProvider_congr aside.topo]
    exact h.within
  tracks := by
    rw [aside.reservations]
    exact h.tracks

theorem exact_limited {cap : CapacityFn} {s : ReservationStore} {c : Call}
    (h : Exact cap AllNodes s c) : Exact cap (Limited cap) s c := by
  cases c with
  | reserve req => exact fun admitted => ⟨fun _ => (h admitted).1 trivial, (h admitted).2⟩
  | release id expected => trivial
  | restore r => exact h.elim

theorem Intact.call {s : Runtime β} (h : Intact topo s) {c : Call}
    (exact : Exact s.nodeCapacityProvider AllNodes s.reservations c)
    (numbered : Numbered (s.reservations.step s.nodeCapacityProvider c)) :
    Intact topo { s with reservations := s.reservations.step s.nodeCapacityProvider c } where
  host := h.host
  named := h.named
  numbered := numbered
  within := step_withinCapacity _ _ c h.within (exact_limited exact)
  tracks := (step_tracks h.within.dominated h.tracks exact).2

theorem step_intact (b : Backend β) (s : Runtime β) (op : Op) (h : Intact topo s)
    (unwrapped : Unwrapped s op) : Intact topo (step b s op) := by
  cases op with
  | registerWorker id pid => exact h.aside (registerWorker_aside unwrapped)
  | restartWorker id pid => exact h.aside (restartWorker_aside unwrapped)
  | markWorkerDead id boot => exact h.aside (markWorkerDead_aside id boot s)
  | bindWorker id boot node applyAffinity =>
    exact h.aside (ignoresMemory_aside.bindWorker b id boot node applyAffinity
      (recordBinding_aside id node) s)
  | observe id boot => exact h.aside (observe_aside id boot s)
  | reserve req =>
    have after := h.call (c := .reserve req) unwrapped
      (reserve_numbered _ req h.numbered h.within.dominated)
    change Intact topo (stateAfter (Runtime.onReservations
      (ReservationStore.reserve s.nodeCapacityProvider req)) s)
    rw [Runtime.onReservations, stateAfter_zoom]
    exact after
  | releaseReservation id =>
    have after := h.call (c := .release id none) trivial (release_numbered id none h.numbered)
    change Intact topo (stateAfter (Runtime.onReservations (ReservationStore.release id none)) s)
    rw [Runtime.onReservations, stateAfter_zoom]
    exact after
  | advanceEpoch => exact h.aside (advanceEpoch_aside s)
  | advancePolicyGeneration => exact h.aside ⟨rfl, rfl, fun n => n⟩

theorem sum_filter_active (f : Reservation → ℕ) (l : List Reservation) :
    ((l.filter (·.active)).map f).sum = (l.map fun r => if r.active then f r else 0).sum := by
  induction l with
  | nil => rfl
  | cons r l ih =>
    cases hr : r.active with
    | true => simp [hr, ih]
    | false => simp [hr, ih]

theorem sum_active (f : Reservation → ℕ) (s : ReservationStore) :
    ((s.all.filter (·.active)).map f).sum = activeTotal f s := by
  rw [sum_filter_active, activeTotal, total, ReservationStore.all, values_eq, List.map_map]
  rfl

/-- The sums over what is written are the exact totals of the store. -/
theorem sum_written (f : Reservation → ℕ) (s : ReservationStore)
    (kept : ∀ r : Reservation, f r.persisted.recovered = f r) :
    ((((s.all.filter (·.active)).map Reservation.persisted).map
      PersistedReservation.recovered).map f).sum = activeTotal f s := by
  have forms : (f ∘ PersistedReservation.recovered) ∘ Reservation.persisted = f := funext kept
  rw [List.map_map, List.map_map, forms, sum_active]

theorem keyed_workers {s : WorkerRegistry} (h : Named s) :
    ∀ (id : WorkerId) w, s.workers[id]? = some w → w.id = id := fun id w hw => (h id w hw).1

theorem identified_of_mem {s : WorkerRegistry} (h : Named s) {w : Worker} (mem : w ∈ s.all) :
    w.identified = true := by
  obtain ⟨id, hw⟩ := mem_values.mp mem
  exact (h id w hw).2

theorem valid_of_mem {s : ReservationStore} (h : Numbered s) {r : Reservation} (mem : r ∈ s.all) :
    r.id.isValid = true := by
  obtain ⟨k, hr⟩ := mem_values.mp mem
  obtain ⟨rfl, valid⟩ := h.keyed k r hr
  exact valid

theorem storable_of_intact {s : Runtime β} (h : Intact topo s)
    (workers : s.registry.all.length ≤ kMaxPersistedRecords)
    (reservations : (s.reservations.all.filter (·.active)).length ≤ kMaxPersistedRecords) :
    Storable s.persistedState where
  workers_le := by
    rw [Runtime.persistedState, List.length_map]
    exact workers
  reservations_le := by
    rw [Runtime.persistedState, List.length_map]
    exact reservations
  placements_le := Nat.zero_le _
  observations_le := Nat.zero_le _
  workers_valid x hx := by
    obtain ⟨w, mem, rfl⟩ := List.mem_map.mp hx
    exact (Bool.and_eq_true_iff.mp (identified_of_mem h.named mem)).1
  reservations_valid x hx := by
    obtain ⟨r, mem, rfl⟩ := List.mem_map.mp hx
    exact valid_of_mem h.numbered (List.mem_of_mem_filter mem)
  placements_valid x hx := by cases hx
  observations_valid x hx := by cases hx

/-- The registry that the worker records of a runtime are restored into. -/
theorem recovered_workers {s : Runtime β} (h : Named s.registry) (id : WorkerId) :
    ((s.persistedState.workers.foldl WorkerRegistry.takeBack {}).workers[id]?).map
      Worker.persisted = s.registry.workers[id]?.map Worker.persisted := by
  have listed := lists_values (keyed_workers h)
  have apart : (s.persistedState.workers.map PersistedWorker.id).Nodup := by
    rw [Runtime.persistedState, List.map_map]
    exact nodup_keys_values (keyed_workers h)
  have built := registry_lists apart
  rw [Runtime.persistedState, List.map_map] at built
  have same := listed.lookup_map built (fun _ => rfl) id
  dsimp only at same
  rw [Runtime.persistedState, same, Option.map_map]
  rfl

theorem fitting_written {s : Runtime β} (h : Intact topo s) :
    Fitting s.nodeCapacityProvider
      (s.persistedState.reservations.map PersistedReservation.recovered) := by
  have bounded := bounded_of_tracks h.tracks
  refine ⟨fun n hn => ?_, fun n => ?_, fun n => ?_, fun a => ?_⟩
  · rw [Runtime.persistedState, sum_written (bytesOn n) _ fun _ => rfl]
    exact h.within.bounded n hn
  · rw [Runtime.persistedState, sum_written (bytesOn n) _ fun _ => rfl]
    exact bounded.bytes n
  · rw [Runtime.persistedState, sum_written (slotsOn n) _ fun _ => rfl]
    exact bounded.slots n
  · rw [Runtime.persistedState, sum_written (bytesAt a) _ fun _ => rfl]
    exact bounded.accel a

theorem recovered_reservations {s : Runtime β} (h : Intact topo s) :
    Meets (ReservationStore.takeBack s.nodeCapacityProvider) ReservationStore.Fresh {}
        s.persistedState.reservations ∧
      Rebuilt (s.persistedState.reservations.map PersistedReservation.recovered)
        (s.persistedState.reservations.foldl (ReservationStore.takeBack s.nodeCapacityProvider) {}) := by
  have keyed : ∀ (k : ReservationId) r, s.reservations.reservations[k]? = some r → r.id = k :=
    fun k r hr => (h.numbered.keyed k r hr).1
  have live : ∀ x ∈ s.persistedState.reservations, x.id.isValid = true ∧ x.active = true := by
    intro x hx
    obtain ⟨r, mem, rfl⟩ := List.mem_map.mp hx
    exact ⟨valid_of_mem h.numbered (List.mem_of_mem_filter mem), (List.mem_filter.mp mem).2⟩
  have nodup : (s.persistedState.reservations.map PersistedReservation.id).Nodup := by
    rw [Runtime.persistedState, List.map_map]
    exact (nodup_keys_values keyed).sublist (List.filter_sublist.map Reservation.id)
  exact reservations_rebuilt live nodup (fitting_written h)

/-- A rebuilt store has the active records and the totals of the one that was written. -/
theorem reproduced_of_rebuilt {s t : Runtime β} (h : Intact topo s) (epoch : t.epoch = s.epoch)
    (policy : t.policyGeneration = s.policyGeneration)
    (registry : t.registry = s.persistedState.workers.foldl WorkerRegistry.takeBack {})
    (rebuilt : Rebuilt (s.persistedState.reservations.map PersistedReservation.recovered)
      t.reservations) : Reproduced s t where
  epoch := epoch
  policyGeneration := policy
  workers id := by
    rw [registry]
    exact recovered_workers h.named id
  reservations id := by
    have keyed : ∀ (k : ReservationId) r, s.reservations.reservations[k]? = some r → r.id = k :=
      fun k r hr => (h.numbered.keyed k r hr).1
    have table := rebuilt.table
    rw [Runtime.persistedState, List.map_map] at table
    have same := ((lists_values keyed).filter (·.active)).lookup_map table (fun _ => rfl) id
    rw [same, Option.map_map]
    rfl
  nodeMem n := by
    rw [← BitVec.toNat_inj, rebuilt.mem, Runtime.persistedState,
      sum_written (bytesOn n) _ fun _ => rfl, h.tracks.mem n trivial]
  nodeSlots n := by
    rw [← BitVec.toNat_inj, rebuilt.slots, Runtime.persistedState,
      sum_written (slotsOn n) _ fun _ => rfl, h.tracks.slots n trivial]
  accelMem a := by
    rw [← BitVec.toNat_inj, rebuilt.accel, Runtime.persistedState,
      sum_written (bytesAt a) _ fun _ => rfl, h.tracks.accel a]

/-- Recovery of a written runtime into any fresh one with the same nodes. -/
theorem recover_reproduces {s : Runtime β} (h : Intact topo s) {disk : Disk} {path : ByteString}
    (read : Runtime.loaded disk path = .ok s.persistedState) (accelerators : List AcceleratorInfo)
    (migrator : MigrationManager β) :
    ∃ t, (Runtime.recover disk path).run (discovered s.topo accelerators migrator) = .ok () t ∧
      Reproduced s t := by
  have identified : ∀ x ∈ s.persistedState.workers, x.recovered.identified = true := by
    intro x hx
    obtain ⟨w, mem, rfl⟩ := List.mem_map.mp hx
    change w.identified = true
    exact identified_of_mem h.named mem
  obtain ⟨meets, rebuilt⟩ := recovered_reservations h
  have same : (discovered s.topo accelerators migrator).nodeCapacityProvider =
      s.nodeCapacityProvider := nodeCapacityProvider_congr rfl
  rw [Runtime.recover_run read, restoreWorkers_run _ identified, same]
  dsimp only
  rw [discovered, restoreReservations_run meets]
  exact ⟨_, rfl, reproduced_of_rebuilt h rfl rfl rfl rebuilt⟩

/-- In every run whose counters do not wrap, a runtime with at most 2^20 workers and active
reservations is written to disk, and recovery into a fresh runtime of the same host brings
back its logical state, every record and every total. -/
theorem persist_recover_reproduces (b : Backend β) (topo : HostTopology)
    (accelerators : List AcceleratorInfo) (migrator : MigrationManager β) (ops : List Op)
    (meets : Meets (step b) Unwrapped (discovered topo accelerators migrator) ops) :
    let s := ops.foldl (step b) (discovered topo accelerators migrator)
    s.registry.all.length ≤ kMaxPersistedRecords →
    (s.reservations.all.filter (·.active)).length ≤ kMaxPersistedRecords →
    ∀ (path : ByteString) (disk : Disk) (accelerators' : List AcceleratorInfo)
      (migrator' : MigrationManager β),
      ∃ disk' t, (s.persist none path).run disk = .ok () disk' ∧
        (Runtime.recover disk' path).run (discovered topo accelerators' migrator') = .ok () t ∧
        Reproduced s t := by
  intro s workers reservations path disk accelerators' migrator'
  have intact : Intact topo s :=
    foldl_invariant (step_intact b) (intact_discovered topo accelerators migrator) meets
  obtain ⟨disk', saved, read⟩ :=
    Runtime.loaded_of_saved (storable_of_intact intact workers reservations) disk path
  obtain ⟨t, recovered, same⟩ := recover_reproduces intact read accelerators' migrator'
  rw [intact.host] at recovered
  exact ⟨disk', t, saved, recovered, same⟩

/-- A restarted and bound worker, a released and an open reservation. -/
theorem persist_recover_reproduces_mixed :
    let topo : HostTopology := { nodes := [{ id := ⟨1⟩, memoryCapacity := ⟨4096⟩ }] }
    let ops : List Op :=
      [.registerWorker ⟨31⟩ ⟨1⟩, .restartWorker ⟨31⟩ ⟨2⟩, .bindWorker ⟨31⟩ ⟨2⟩ ⟨1⟩ false,
        .reserve { node := ⟨1⟩, bytes := ⟨1024⟩ }, .reserve { node := ⟨1⟩, cpuSlots := 2 },
        .releaseReservation ⟨1⟩, .advanceEpoch]
    let migrator := MigrationManager.initial () fun _ => 0
    let s := ops.foldl (step (MemoryAccounting.budgeted 64)) (discovered topo [] migrator)
    ∃ disk' t, (s.persist none []).run (fun _ => none) = .ok () disk' ∧
      (Runtime.recover disk' []).run (discovered topo [] migrator) = .ok () t ∧
      Reproduced s t := by
  intro topo ops migrator s
  have meets : Meets (step (MemoryAccounting.budgeted 64)) Unwrapped
      (discovered topo [] migrator) ops := by decide
  exact persist_recover_reproduces _ topo [] migrator ops meets (by decide) (by decide) []
    (fun _ => none) [] migrator

/-- Two reservations whose slots add up to 2^32: the total wraps to zero, the release of a
third erases it, and the release of the first then finds nothing to discharge. -/
def wrappedSlots : Runtime Unit :=
  [Op.reserve { node := ⟨1⟩, cpuSlots := 0x80000000 },
    .reserve { node := ⟨1⟩, cpuSlots := 0x80000000 }, .reserve { node := ⟨1⟩, bytes := ⟨1⟩ },
    .releaseReservation ⟨3⟩, .releaseReservation ⟨1⟩].foldl (step (MemoryAccounting.budgeted 64))
    (discovered {} [] (MigrationManager.initial () fun _ => 0))

theorem wrappedSlots_total (f : Reservation → ℕ) :
    activeTotal f wrappedSlots.reservations =
      f { id := ⟨2⟩, generation := ⟨2⟩, node := ⟨1⟩, cpuSlots := 0x80000000 } := by
  have table : wrappedSlots.reservations.reservations.toList =
      [(⟨1⟩, { id := ⟨1⟩, generation := ⟨1⟩, node := ⟨1⟩, cpuSlots := 0x80000000, active := false }),
        (⟨2⟩, { id := ⟨2⟩, generation := ⟨2⟩, node := ⟨1⟩, cpuSlots := 0x80000000 }),
        (⟨3⟩, { id := ⟨3⟩, generation := ⟨3⟩, node := ⟨1⟩, bytes := ⟨1⟩, active := false })] := by
    decide
  simp [activeTotal, total, table]

/-- The one reservation left has 2^31 slots; the totals of the runtime say zero and those of
the recovered one 2^31. -/
theorem wrapped_slots_not_reproduced :
    Bounded wrappedSlots.reservations ∧
    (∀ n, wrappedSlots.nodeCapacityProvider.limit n ≠ 0 →
      activeTotal (bytesOn n) wrappedSlots.reservations ≤
        (wrappedSlots.nodeCapacityProvider.limit n).toNat) ∧
    wrappedSlots.registry.all.length ≤ kMaxPersistedRecords ∧
    (wrappedSlots.reservations.all.filter (·.active)).length ≤ kMaxPersistedRecords ∧
    ¬∀ (path : ByteString) (disk : Disk), ∃ disk' t,
      (wrappedSlots.persist none path).run disk = .ok () disk' ∧
      (Runtime.recover disk' path).run
        (discovered {} [] (MigrationManager.initial () fun _ => 0)) = .ok () t ∧
      Reproduced wrappedSlots t := by
  have bytes : ∀ n, activeTotal (bytesOn n) wrappedSlots.reservations = 0 := by
    intro n
    rw [wrappedSlots_total, bytesOn]
    exact ite_self 0
  refine ⟨⟨fun n => ?_, fun n => ?_, fun a => ?_⟩, fun n _ => ?_, by decide, by decide, ?_⟩
  · rw [bytes]
    decide
  · rw [wrappedSlots_total, slotsOn]
    split_ifs <;> decide
  · rw [wrappedSlots_total, bytesAt]
    split_ifs <;> decide
  · rw [bytes]
    exact Nat.zero_le _
  · intro reproduces
    obtain ⟨disk', t, saved, recovered, same⟩ := reproduces [] fun _ => none
    have storable : Storable wrappedSlots.persistedState := by constructor <;> decide
    obtain ⟨disk'', saved', read⟩ := Runtime.loaded_of_saved storable (fun _ => none) []
    have disks : disk'' = disk' := by
      rw [Runtime.persist, saved'] at saved
      cases saved
      rfl
    rw [disks] at read
    have meets : Meets (ReservationStore.takeBack (some fun _ => .zero)) ReservationStore.Fresh {}
        wrappedSlots.persistedState.reservations := by decide
    have workers : wrappedSlots.persistedState.workers = [] := by decide
    have loop : (restoreReservations (discovered {} [] (MigrationManager.initial ()
        fun _ => 0)).nodeCapacityProvider wrappedSlots.persistedState.reservations).run {} = _ :=
      restoreReservations_run meets
    rw [Runtime.recover_run read, workers, restoreWorkers_run _ (by simp)] at recovered
    dsimp only at recovered
    rw [discovered] at recovered loop
    rw [loop] at recovered
    cases recovered
    have total := same.nodeSlots ⟨1⟩
    exact absurd total (by decide)

end NumaFabric.RecoveryRefinement
