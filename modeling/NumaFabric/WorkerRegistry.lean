import NumaFabric.AffinitySet

/-! Worker identities. A worker keeps its identifier over restarts; each registration or
restart is a new incarnation with a boot identifier of its own. -/
namespace NumaFabric
open Std FaultState

structure Worker where
  id : WorkerId := .invalid
  bootId : WorkerBootId := .invalid
  incarnation : U64 := 0
  processId : ProcessId := .invalid
  requestedAffinity : AffinitySet := {}
  currentAffinity : AffinitySet := {}
  bound : Bool := false
  node : NumaNodeId := .invalid
  placementId : PlacementId := .invalid
  placementGeneration : PlacementGeneration := .initial
  bindingId : BindingId := .invalid
  bindingGeneration : BindingGeneration := .initial
  policyId : PolicyId := .invalid
  policyGeneration : PolicyGeneration := .initial
  alive : Bool := true
  lastObservationGeneration : ObservationGeneration := .initial
  deriving DecidableEq, Repr

structure WorkerRegistry where
  workers : ExtTreeMap WorkerId Worker := ∅
  nextBoot : U64 := 1

/-- The first incarnation of a worker. -/
def Worker.registered (id : WorkerId) (boot : WorkerBootId) (pid : ProcessId) : Worker where
  id := id
  bootId := boot
  incarnation := 1
  processId := pid

/-- A new incarnation: every gate of the old one is reset. -/
def Worker.restarted (w : Worker) (boot : WorkerBootId) (pid : ProcessId) : Worker where
  id := w.id
  bootId := boot
  incarnation := w.incarnation + 1
  processId := pid

namespace WorkerRegistry

/-- `next_boot_++`. -/
def takeBoot : Exec WorkerRegistry WorkerBootId := do
  let boot : WorkerBootId := ⟨(← get).nextBoot⟩
  modify fun s => { s with nextBoot := s.nextBoot + 1 }
  return boot

def putWorker (id : WorkerId) (w : Worker) : Exec WorkerRegistry Unit :=
  modify fun s => { s with workers := s.workers.insert id w }

def registerWorker (id : WorkerId) (pid : ProcessId) : Exec WorkerRegistry Worker := do
  throwIf (!id.isValid) (.worker .registerInvalid)
  throwIf ((← get).workers.contains id) (.worker (.alreadyRegistered id))
  let w := Worker.registered id (← takeBoot) pid
  putWorker id w
  return w

def restartWorker (id : WorkerId) (pid : ProcessId) : Exec WorkerRegistry Worker := do
  throwIf (!id.isValid) (.worker .restartInvalid)
  match (← get).workers[id]? with
  | none => throw (.worker (.restartUnknown id))
  | some w =>
    let w := w.restarted (← takeBoot) pid
    putWorker id w
    return w

/-- A live worker of the same id is left alone. -/
def restore (w : Worker) : Exec WorkerRegistry Bool := do
  throwIf (!w.id.isValid || !w.bootId.isValid) (.worker .restoreInvalid)
  if (← get).workers[w.id]?.any (·.alive) then return false
  modify fun s =>
    { s with nextBoot := if s.nextBoot ≤ w.bootId.value then w.bootId.value + 1 else s.nextBoot }
  putWorker w.id w
  return true

def markDead (id : WorkerId) (boot : WorkerBootId) (s : WorkerRegistry) : WorkerRegistry :=
  match s.workers[id]? with
  | none => s
  | some w =>
    if w.bootId = boot then { s with workers := s.workers.insert id { w with alive := false } }
    else s

def find (s : WorkerRegistry) (id : WorkerId) : Option Worker := s.workers[id]?

def validateBoot (s : WorkerRegistry) (id : WorkerId) (claimedBoot : WorkerBootId) : Bool :=
  match s.workers[id]? with
  | none => false
  | some w => w.alive && w.bootId == claimedBoot

def all (s : WorkerRegistry) : List Worker := s.workers.values

theorem takeBoot_run (s : WorkerRegistry) :
    takeBoot.run s = .ok ⟨s.nextBoot⟩ { s with nextBoot := s.nextBoot + 1 } := rfl

theorem registerWorker_run {s : WorkerRegistry} {id : WorkerId} (pid : ProcessId)
    (valid : id.isValid = true) (absent : s.workers[id]? = none) :
    (registerWorker id pid).run s =
      .ok (Worker.registered id ⟨s.nextBoot⟩ pid)
        { workers := s.workers.insert id (Worker.registered id ⟨s.nextBoot⟩ pid)
          nextBoot := s.nextBoot + 1 } := by
  have missing : s.workers.contains id = false := by
    rw [ExtTreeMap.contains_eq_isSome_getElem?, absent]
    rfl
  simp only [registerWorker, valid, Bool.not_true, EStateM.run_bind, run_throwIf_false,
    EStateM.run_get, missing, takeBoot_run]
  rfl

theorem restartWorker_run {s : WorkerRegistry} {id : WorkerId} {w : Worker} (pid : ProcessId)
    (valid : id.isValid = true) (found : s.workers[id]? = some w) :
    (restartWorker id pid).run s =
      .ok (w.restarted ⟨s.nextBoot⟩ pid)
        { workers := s.workers.insert id (w.restarted ⟨s.nextBoot⟩ pid)
          nextBoot := s.nextBoot + 1 } := by
  simp only [restartWorker, valid, Bool.not_true, EStateM.run_bind, run_throwIf_false,
    EStateM.run_get, found, takeBoot_run]
  rfl

/-- A registration is refused, or issues the next boot to a worker not known before. -/
theorem registerWorker_cases (id : WorkerId) (pid : ProcessId) (s : WorkerRegistry) :
    stateAfter (registerWorker id pid) s = s ∨
      id.isValid = true ∧ s.workers[id]? = none ∧
        stateAfter (registerWorker id pid) s =
          { workers := s.workers.insert id (Worker.registered id ⟨s.nextBoot⟩ pid)
            nextBoot := s.nextBoot + 1 } := by
  by_cases valid : id.isValid = true
  · cases found : s.workers[id]? with
    | none => exact .inr ⟨valid, rfl, stateAfter_of_ok (registerWorker_run pid valid found)⟩
    | some w =>
      have present : s.workers.contains id = true := by
        rw [ExtTreeMap.contains_eq_isSome_getElem?, found]
        rfl
      have refused : (registerWorker id pid).run s = .error (.worker (.alreadyRegistered id)) s := by
        simp only [registerWorker, valid, Bool.not_true, EStateM.run_bind, run_throwIf_false,
          EStateM.run_get, present, run_throwIf_true]
      exact .inl (stateAfter_of_error refused)
  · have refused : (registerWorker id pid).run s = .error (.worker .registerInvalid) s := by
      simp only [registerWorker, valid, Bool.not_false, EStateM.run_bind, run_throwIf_true]
    exact .inl (stateAfter_of_error refused)

/-- A restart is refused, or issues the next boot to a known worker. -/
theorem restartWorker_cases (id : WorkerId) (pid : ProcessId) (s : WorkerRegistry) :
    stateAfter (restartWorker id pid) s = s ∨
      ∃ w, id.isValid = true ∧ s.workers[id]? = some w ∧
        stateAfter (restartWorker id pid) s =
          { workers := s.workers.insert id (w.restarted ⟨s.nextBoot⟩ pid)
            nextBoot := s.nextBoot + 1 } := by
  by_cases valid : id.isValid = true
  · cases found : s.workers[id]? with
    | none =>
      have refused : (restartWorker id pid).run s = .error (.worker (.restartUnknown id)) s := by
        simp only [restartWorker, valid, Bool.not_true, EStateM.run_bind, run_throwIf_false,
          EStateM.run_get, found, run_throw_any]
      exact .inl (stateAfter_of_error refused)
    | some w => exact .inr ⟨w, valid, rfl, stateAfter_of_ok (restartWorker_run pid valid found)⟩
  · have refused : (restartWorker id pid).run s = .error (.worker .restartInvalid) s := by
      simp only [restartWorker, valid, Bool.not_false, EStateM.run_bind, run_throwIf_true]
    exact .inl (stateAfter_of_error refused)

/-- The registry with a record put back and the counter moved past its boot. -/
def reinstated (w : Worker) (s : WorkerRegistry) : WorkerRegistry where
  workers := s.workers.insert w.id w
  nextBoot := if s.nextBoot ≤ w.bootId.value then w.bootId.value + 1 else s.nextBoot

theorem restore_run (w : Worker) (s : WorkerRegistry) :
    (restore w).run s =
      if !w.id.isValid || !w.bootId.isValid then .error (.worker .restoreInvalid) s
      else if s.workers[w.id]?.any (·.alive) then .ok false s
      else .ok true (reinstated w s) := by
  rw [restore, EStateM.run_bind, run_throwIf]
  cases !w.id.isValid || !w.bootId.isValid with
  | true => rfl
  | false =>
    simp only [Bool.false_eq_true, if_false, EStateM.run_bind, EStateM.run_get]
    cases s.workers[w.id]?.any (·.alive) with
    | true => rfl
    | false => rfl

end WorkerRegistry

end NumaFabric
