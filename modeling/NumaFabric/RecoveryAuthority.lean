import NumaFabric.CoordinatorFencing
import NumaFabric.RecoveryAtomicity

/-! Whose boots are current after a recovery. Recovery takes the life of a worker over
from the file, so the first living record of a worker is accepted as if its process
were still there. -/
namespace NumaFabric.RecoveryAuthority
open Std FaultState ByteCodec Persistence Coordinator CoordinatorAuthority CoordinatorFencing

variable {β : Type}

/-- The worker records that recovery gets to: it throws at the first one without a valid
identity. -/
def reached (xs : List PersistedWorker) : List PersistedWorker :=
  xs.takeWhile fun x => x.recovered.identified

/-- Until its worker registers again, a recorded boot is not current, and a request under
it is answered without a change. -/
def ClaimsNoBoot (b : Backend β) (float : FloatCosts) (t : Runtime β)
    (workers : List PersistedWorker) : Prop :=
  ∀ x ∈ workers, ∀ s : Coordinator β, s.runtime = t →
    ∀ events : List Event, (∀ ev ∈ events, registers ev ≠ some x.id) →
      (run b float s events).runtime.registry.validateBoot x.id x.boot = false ∧
      ∀ (conn : U64) (frame : Frame) (kind : MsgType), MsgType.ofU16? frame.type = some kind →
        kind ∈ fencedRequests → Carries frame.payload x.id x.boot →
        ∃ payload, (handleFrame b float conn frame).run (run b float s events) =
          .ok (frameBytes MsgType.error.toU16 payload) (run b float s events)

theorem validateBoot_iff {r : WorkerRegistry} {w : WorkerId} {boot : WorkerBootId} :
    r.validateBoot w boot = true ↔ authority r w = some (boot, true) := by
  unfold WorkerRegistry.validateBoot authority
  cases r.workers[w]? with
  | none => simp
  | some x => simp [and_comm]

section Registry
variable {r : WorkerRegistry} {x : PersistedWorker}

/-- No worker of the registry is alive. -/
def AllDead (r : WorkerRegistry) : Prop := ∀ w boot, authority r w ≠ some (boot, true)

theorem authority_reinstated_self (x : PersistedWorker) :
    authority (r.reinstated x.recovered) x.id = some (x.boot, x.alive) :=
  authority_insert_self r x.id x.recovered _

theorem authority_reinstated_ne {w : WorkerId} (h : w ≠ x.id) :
    authority (r.reinstated x.recovered) w = authority r w :=
  authority_insert_ne x.recovered _ h

theorem AllDead.takeBack (dead : AllDead r) (hx : x.alive = false) : AllDead (r.takeBack x) := by
  intro w boot live
  unfold WorkerRegistry.takeBack at live
  split_ifs at live
  · exact dead w boot live
  · by_cases hw : w = x.id
    · subst hw
      rw [authority_reinstated_self, hx] at live
      simp at live
    · rw [authority_reinstated_ne hw] at live
      exact dead w boot live

theorem AllDead.foldl {xs : List PersistedWorker} (dead : AllDead r)
    (hx : ∀ x ∈ xs, x.alive = false) : AllDead (xs.foldl WorkerRegistry.takeBack r) := by
  induction xs generalizing r with
  | nil => exact dead
  | cons x xs ih => exact ih (dead.takeBack (hx x (by simp))) fun y hy => hx y (by simp [hy])

/-- A registry without a living worker takes any record as it stands. -/
theorem AllDead.admits (dead : AllDead r) (x : PersistedWorker) :
    authority (r.takeBack x) x.id = some (x.boot, x.alive) := by
  have free : ¬ r.workers[x.id]?.any (·.alive) = true := by
    intro live
    have none := dead x.id
    rw [authority] at none
    cases found : r.workers[x.id]? with
    | none => simp [found] at live
    | some w =>
      have alive : w.alive = true := by simpa [found] using live
      exact none w.bootId (by rw [found, Option.map_some, alive])
  rw [WorkerRegistry.takeBack, if_neg free, authority_reinstated_self]

/-- A living worker stays as it is. -/
theorem live_takeBack {w : WorkerId} {boot : WorkerBootId} (x : PersistedWorker)
    (live : authority r w = some (boot, true)) : authority (r.takeBack x) w = some (boot, true) := by
  unfold WorkerRegistry.takeBack
  split_ifs with taken
  · exact live
  · by_cases hw : w = x.id
    · subst hw
      rw [authority, Option.map_eq_some_iff] at live
      obtain ⟨y, found, same⟩ := live
      rw [found] at taken
      simp_all
    · rw [authority_reinstated_ne hw]
      exact live

theorem live_foldl {w : WorkerId} {boot : WorkerBootId} (xs : List PersistedWorker)
    (live : authority r w = some (boot, true)) :
    authority (xs.foldl WorkerRegistry.takeBack r) w = some (boot, true) := by
  induction xs generalizing r with
  | nil => exact live
  | cons x xs ih => exact ih (live_takeBack x live)

/-- The first living record becomes current and stays so. -/
theorem live_of_alive {xs : List PersistedWorker} (dead : AllDead r) (hx : x ∈ xs)
    (alive : x.alive = true) :
    ∃ y ∈ xs, authority (xs.foldl WorkerRegistry.takeBack r) y.id = some (y.boot, true) := by
  induction xs generalizing r with
  | nil => cases hx
  | cons y xs ih =>
    cases hy : y.alive with
    | true =>
      have live := dead.admits y
      rw [hy] at live
      exact ⟨y, by simp, live_foldl xs live⟩
    | false =>
      rcases List.mem_cons.mp hx with rfl | later
      · exact absurd (alive.symm.trans hy) (by decide)
      · obtain ⟨z, hz, live⟩ := ih (dead.takeBack hy) later
        exact ⟨z, by simp [hz], live⟩

end Registry

/-- Whether recovery returns or throws, the registry holds the records it got to. -/
theorem registry_after_recover {disk : Disk} {path : ByteString} {p : PersistedState}
    (read : Runtime.loaded disk path = .ok p) (s : Runtime β) :
    (stateAfter (Runtime.recover disk path) s).registry =
      (reached p.workers).foldl WorkerRegistry.takeBack s.registry := by
  have ran := Runtime.recover_run read s
  rcases Runtime.identified_or_stops p.workers with all | ⟨pre, x, post, split, before, bad⟩
  · have whole : reached p.workers = p.workers := List.takeWhile_eq_self_iff.mpr all
    rw [restoreWorkers_run _ all] at ran
    dsimp only at ran
    rw [whole]
    cases put : (restoreReservations s.nodeCapacityProvider p.reservations).run s.reservations with
    | ok u q =>
      rw [put] at ran
      rw [stateAfter_of_ok ran]
    | error e q =>
      rw [put] at ran
      rw [stateAfter_of_error ran]
  · have cut : reached p.workers = pre := by
      rw [split, reached, List.takeWhile_append_of_pos before, List.takeWhile_cons_of_neg (by simp [bad]),
        List.append_nil]
    rw [split, restoreWorkers_stops _ before bad] at ran
    rw [stateAfter_of_error ran, cut]

section Runs
variable (b : Backend β) (float : FloatCosts) {s : Coordinator β} {w : WorkerId}

/-- A dead worker comes back to life only by a registration of its own. -/
theorem not_live_step {ev : Event} (dead : ∀ boot, authority s.runtime.registry w ≠ some (boot, true))
    (h : registers ev ≠ some w) (boot : WorkerBootId) :
    authority (step b float s ev).runtime.registry w ≠ some (boot, true) := by
  intro live
  cases hr : registers ev with
  | none => exact dead boot ((step_fades b float hr s).live w boot live)
  | some v =>
    have other : w ≠ v := fun hv => h (by rw [hr, hv])
    rw [(step_issues b float hr s).others w other] at live
    exact dead boot live

theorem not_live_run {events : List Event}
    (dead : ∀ boot, authority s.runtime.registry w ≠ some (boot, true))
    (h : ∀ ev ∈ events, registers ev ≠ some w) (boot : WorkerBootId) :
    authority (run b float s events).runtime.registry w ≠ some (boot, true) := by
  induction events generalizing s with
  | nil => exact dead boot
  | cons ev events ih =>
    exact ih (not_live_step b float dead (h ev (by simp))) fun e he => h e (by simp [he])

end Runs

/-- After a recovery on a fresh registry no recorded boot is accepted before its worker has
registered again, exactly when no record that recovery got to is alive. -/
theorem recovered_claims_no_boot_iff (b : Backend β) (float : FloatCosts) {s : Runtime β}
    (fresh : s.registry = {}) {disk : Disk} {path : ByteString} {p : PersistedState}
    (read : Runtime.loaded disk path = .ok p) :
    ClaimsNoBoot b float (stateAfter (Runtime.recover disk path) s) p.workers ↔
      ∀ x ∈ reached p.workers, x.alive = false := by
  have empty : AllDead s.registry := by
    intro w boot live
    rw [fresh] at live
    simp [authority] at live
  have registry := registry_after_recover read s
  constructor
  · intro none x hx
    rw [← Bool.not_eq_true]
    intro alive
    obtain ⟨y, hy, live⟩ := live_of_alive empty hx alive
    have refused := (none y ((List.takeWhile_sublist _).subset hy) ⟨_, ∅, false⟩ rfl [] (by simp)).1
    rw [← registry, ← validateBoot_iff] at live
    exact absurd (live.symm.trans refused) (by decide)
  · intro dead x hx t ht events quiet
    have off : AllDead t.runtime.registry := by
      rw [ht, registry]
      exact empty.foldl dead
    have stale := not_live_run b float (off x.id) quiet x.boot
    refine ⟨?_, fun conn frame kind type fenced carries => ?_⟩
    · rw [← Bool.not_eq_true, validateBoot_iff]
      exact stale
    · exact handleFrame_of_refuses b float
        (refuses_dispatch b float conn type fenced carries stale)

theorem recovered_claims_no_boot_iff_dead_worker :
    let s : Runtime Unit := { migrator := MigrationManager.initial () fun _ => 0 }
    let p : PersistedState := { workers := [{ id := ⟨1⟩, boot := ⟨3⟩ }] }
    ∃ disk, Runtime.loaded disk (ascii "state") = .ok p ∧
      ClaimsNoBoot (MemoryAccounting.budgeted 64) ⟨fun _ _ => 0, fun _ => 0⟩
        (stateAfter (Runtime.recover disk (ascii "state")) s) p.workers := by
  intro s p
  have storable : Storable p := by constructor <;> decide
  obtain ⟨disk, -, read⟩ := Runtime.loaded_of_saved storable (fun _ => none) (ascii "state")
  exact ⟨disk, read, (recovered_claims_no_boot_iff _ _ rfl read).mpr (by decide)⟩

/-- A worker that was alive when it was saved is current again after a restart. -/
theorem recovered_boot_still_accepted :
    ¬ ∀ (s : Runtime Unit) (disk : Disk) (path : ByteString) (p : PersistedState),
      s.registry = {} → Runtime.loaded disk path = .ok p →
      ClaimsNoBoot (MemoryAccounting.budgeted 64) ⟨fun _ _ => 0, fun _ => 0⟩
        (stateAfter (Runtime.recover disk path) s) p.workers := by
  intro claims
  let p : PersistedState := { workers := [{ id := ⟨1⟩, boot := ⟨1⟩, alive := true }] }
  have storable : Storable p := by constructor <;> decide
  obtain ⟨disk, -, read⟩ := Runtime.loaded_of_saved storable (fun _ => none) (ascii "state")
  let s : Runtime Unit := { migrator := MigrationManager.initial () fun _ => 0 }
  let t := stateAfter (Runtime.recover disk (ascii "state")) s
  have refused := (claims s disk _ p rfl read { id := ⟨1⟩, boot := ⟨1⟩, alive := true }
    (by simp [p]) { runtime := t } rfl [] (by simp)).1
  have registry : t.registry = (reached p.workers).foldl WorkerRegistry.takeBack {} :=
    registry_after_recover read s
  change t.registry.validateBoot ⟨1⟩ ⟨1⟩ = false at refused
  rw [registry] at refused
  exact absurd refused (by decide)

end NumaFabric.RecoveryAuthority
