import NumaFabric.MemoryOutcome

/-! What one call of the migration manager can do to the attempts and to the memory below. -/
namespace NumaFabric.MigrationManager
open Std FaultState LedgerCounter LedgerTotal

variable {β : Type}

theorem onMemory_run {α : Type} (x : Exec (MemoryManager β) α) (s : MigrationManager β) :
    (onMemory x).run s =
      match x.run s.mem with
      | .ok a m => .ok a { s with mem := m }
      | .error e m => .error e { s with mem := m } := by
  rw [onMemory, run_zoom]
  cases x.run s.mem <;> rfl

theorem stateAfter_onMemory {α : Type} (x : Exec (MemoryManager β) α) (s : MigrationManager β) :
    stateAfter (onMemory x) s = { s with mem := stateAfter x s.mem } :=
  stateAfter_zoom _ _ x s

/-- The identity the next attempt gets. -/
def nextAttemptId (s : MigrationManager β) : AttemptId := ⟨s.nextAttempt⟩

/-- The managers once an attempt is recorded and its region is pending. -/
def started (req : MigrateRequest) (r : MemoryRegion) (s : MigrationManager β) :
    MigrationManager β where
  mem := { s.mem with
           regions := s.mem.regions.insert req.memoryRegion { r with state := .migrationPending } }
  attempts := s.attempts.insert s.nextAttemptId (req.attempt s.nextAttemptId)
  nextAttempt := s.nextAttempt + 1

inductive BeginOutcome (req : MigrateRequest) (s : MigrationManager β) :
    EStateM.Result Exn (MigrationManager β) AttemptId → Prop
  | malformed (e : MigrationError) (bad : req.malformed = some e) :
      BeginOutcome req s (.error (.migration e) s)
  | refused (e : Exn) (wellFormed : req.malformed = none)
      (bad : (MemoryManager.transition req.memoryRegion .migrationPending).run s.mem =
        .error e s.mem) :
      BeginOutcome req s (.error e
        { s with
          attempts := (s.attempts.insert s.nextAttemptId
            (req.attempt s.nextAttemptId)).erase s.nextAttemptId
          nextAttempt := s.nextAttempt + 1 })
  | started (r : MemoryRegion) (wellFormed : req.malformed = none)
      (found : s.mem.regions[req.memoryRegion]? = some r)
      (good : canTransition r.state .migrationPending = true) :
      BeginOutcome req s (.ok s.nextAttemptId (started req r s))

theorem begin_outcome (req : MigrateRequest) (s : MigrationManager β) :
    BeginOutcome req s ((begin req).run s) := by
  unfold MigrationManager.begin
  cases hm : req.malformed with
  | some e => exact .malformed e hm
  | none =>
    simp only [EStateM.run_bind, EStateM.run_get, EStateM.run_modify, putAttempt]
    have out := MemoryManager.transition_outcome req.memoryRegion .migrationPending s.mem
    cases hx : (MemoryManager.transition req.memoryRegion .migrationPending).run s.mem with
    | error e m =>
      rw [hx] at out
      have same : m = s.mem := by cases out <;> rfl
      subst same
      have res := BeginOutcome.refused (s := s) e hm hx
      simp only [run_tryCatch, onMemory_run, hx, EStateM.run_bind, EStateM.run_modify,
        run_throw_any]
      exact res
    | ok u m =>
      rw [hx] at out
      cases out with
      | moved r found good =>
        simp only [run_tryCatch, onMemory_run, hx]
        exact .started r hm found good

theorem begin_run {req : MigrateRequest} {s : MigrationManager β} {r : MemoryRegion}
    (wellFormed : req.malformed = none) (found : s.mem.regions[req.memoryRegion]? = some r)
    (good : canTransition r.state .migrationPending = true) :
    (MigrationManager.begin req).run s = .ok s.nextAttemptId (started req r s) := by
  have ho := begin_outcome req s
  generalize (MigrationManager.begin req).run s = res at ho
  cases ho with
  | malformed e bad => rw [wellFormed] at bad; cases bad
  | refused e wf bad => rw [MemoryManager.transition_run found good] at bad; cases bad
  | started q wf found' good' => cases found.symm.trans found'; rfl

inductive ExecuteOutcome (b : Backend β) (id : AttemptId) (s : MigrationManager β) :
    EStateM.Result Exn (MigrationManager β) Unit → Prop
  | unknown (absent : s.attempts[id]? = none) :
      ExecuteOutcome b id s (.error (.migration (.unknownAttempt id)) s)
  | refused (m : Migration) (e : MigrationError) (found : s.attempts[id]? = some m)
      (bad : executeRefusal m id = some e) : ExecuteOutcome b id s (.error (.migration e) s)
  | threw (m : Migration) (e : Exn) (mem : MemoryManager β) (found : s.attempts[id]? = some m)
      (good : executeRefusal m id = none)
      (call : (MemoryManager.governedReallocate b m.memoryRegion m.targetNode m.copyData).run s.mem =
        .error e mem) :
      ExecuteOutcome b id s (.error e
        { s with mem := mem, attempts := s.attempts.insert id { m with lifecycle := .migrating } })
  | finished (m : Migration) (view : MigrationView) (mem : MemoryManager β)
      (found : s.attempts[id]? = some m) (good : executeRefusal m id = none)
      (call : (MemoryManager.governedReallocate b m.memoryRegion m.targetNode m.copyData).run s.mem =
        .ok view mem) :
      ExecuteOutcome b id s (.ok ()
        { s with
          mem := mem
          attempts := s.attempts.insert id
            { m with
              lifecycle := if view.committed then .rebound else .failed
              committed := view.committed, active := false } })

theorem execute_outcome (b : Backend β) (id : AttemptId) (s : MigrationManager β) :
    ExecuteOutcome b id s ((execute b id).run s) := by
  unfold execute
  simp only [EStateM.run_bind, EStateM.run_get]
  cases hm : s.attempts[id]? with
  | none => exact .unknown hm
  | some m =>
    dsimp only
    cases hf : executeRefusal m id with
    | some e => exact .refused m e hm hf
    | none =>
      simp only [EStateM.run_bind, putAttempt, EStateM.run_modify, onMemory_run]
      cases hc : (MemoryManager.governedReallocate b m.memoryRegion m.targetNode m.copyData).run
          s.mem with
      | error e mem => exact .threw m e mem hm hf hc
      | ok view mem =>
        have out := ExecuteOutcome.finished m view mem hm hf hc
        cases hv : view.committed with
        | true =>
          simp only [hv, if_true] at out
          simp only [hv, if_true, EStateM.run_modify, insert_insert]
          exact out
        | false =>
          simp only [hv, Bool.false_eq_true, if_false] at out
          simp only [hv, Bool.false_eq_true, if_false, EStateM.run_modify, insert_insert]
          exact out

inductive RollbackOutcome (id : AttemptId) (s : MigrationManager β) :
    EStateM.Result Exn (MigrationManager β) Unit → Prop
  | unknown (absent : s.attempts[id]? = none) :
      RollbackOutcome id s (.error (.migration (.unknownAttempt id)) s)
  | committed (m : Migration) (found : s.attempts[id]? = some m) (bad : m.committed = true) :
      RollbackOutcome id s (.error (.migration (.rollbackCommitted id)) s)
  | idle (m : Migration) (found : s.attempts[id]? = some m) (ended : m.active = false) :
      RollbackOutcome id s (.ok () s)
  | undone (m : Migration) (found : s.attempts[id]? = some m) (pending : m.active = true) :
      RollbackOutcome id s (.ok ()
        { s with
          mem := stateAfter (MemoryManager.transition m.memoryRegion .active) s.mem
          attempts := s.attempts.insert id { m with lifecycle := .active, active := false } })

theorem rollback_outcome (id : AttemptId) (s : MigrationManager β) :
    RollbackOutcome id s ((rollback id).run s) := by
  unfold rollback
  simp only [EStateM.run_bind, EStateM.run_get]
  cases hm : s.attempts[id]? with
  | none => exact .unknown hm
  | some m =>
    simp only [EStateM.run_bind, run_throwIf]
    cases hc : m.committed with
    | true => exact .committed m hm hc
    | false =>
      cases ha : m.active with
      | false => exact .idle m hm ha
      | true =>
        have out := RollbackOutcome.undone m hm ha
        simp only [hc, stateAfter] at out
        simp only [Bool.false_eq_true, if_false, if_true, EStateM.run_bind, run_tryCatch,
          onMemory_run, putAttempt]
        cases hx : (MemoryManager.transition m.memoryRegion .active).run s.mem <;>
          (rw [hx] at out; exact out)

section Memory
variable {P : MemoryManager β → Prop} {s : MigrationManager β}

/-- The memory after a `begin` is as before it or has the region pending. -/
theorem begin_memory (h : P s.mem) (req : MigrateRequest)
    (moved : P (stateAfter (MemoryManager.transition req.memoryRegion .migrationPending) s.mem)) :
    P (stateAfter (MigrationManager.begin req) s).mem := by
  have ho := begin_outcome req s
  generalize hres : (MigrationManager.begin req).run s = res at ho
  cases ho with
  | malformed e bad => rw [stateAfter_of_error hres]; exact h
  | refused e wf bad => rw [stateAfter_of_error hres]; exact h
  | started r wf found good =>
    rw [stateAfter_of_ok hres]
    rw [stateAfter_of_ok (MemoryManager.transition_run found good)] at moved
    exact moved

/-- The memory after an `execute` is as before it or as its reallocation leaves it. -/
theorem execute_memory {b : Backend β} (h : P s.mem) (id : AttemptId)
    (governed : ∀ m : Migration, s.attempts[id]? = some m → executeRefusal m id = none →
      P (stateAfter (MemoryManager.governedReallocate b m.memoryRegion m.targetNode m.copyData)
        s.mem)) : P (stateAfter (execute b id) s).mem := by
  have ho := execute_outcome b id s
  generalize hres : (MigrationManager.execute b id).run s = res at ho
  cases ho with
  | unknown absent => rw [stateAfter_of_error hres]; exact h
  | refused m e found bad => rw [stateAfter_of_error hres]; exact h
  | threw m e mem found good call =>
    have moved := governed m found good
    rw [stateAfter_of_error call] at moved
    rw [stateAfter_of_error hres]
    exact moved
  | finished m view mem found good call =>
    have moved := governed m found good
    rw [stateAfter_of_ok call] at moved
    rw [stateAfter_of_ok hres]
    exact moved

theorem rollback_memory (h : P s.mem) (id : AttemptId)
    (undone : ∀ m : Migration,
      P (stateAfter (MemoryManager.transition m.memoryRegion .active) s.mem)) :
    P (stateAfter (rollback id) s).mem := by
  have ho := rollback_outcome id s
  generalize hres : (MigrationManager.rollback id).run s = res at ho
  cases ho with
  | unknown absent => rw [stateAfter_of_error hres]; exact h
  | committed m found bad => rw [stateAfter_of_error hres]; exact h
  | idle m found ended => rw [stateAfter_of_ok hres]; exact h
  | undone m found pending => rw [stateAfter_of_ok hres]; exact undone m

/-- What every call of the memory manager keeps, every operation keeps. Only a transition that is
asked for by name ends a region. -/
theorem op_memory {b : Backend β} (op : Op) (stays : P s.mem)
    (allocated : ∀ req, P (stateAfter (MemoryManager.allocate b req) s.mem))
    (released : ∀ id expected, P (stateAfter (MemoryManager.release b id expected) s.mem))
    (stale : P s.mem.invalidateLocalityStale)
    (moved : ∀ id next, (next.isReleased = true → op = .transition id next) →
      P (stateAfter (MemoryManager.transition id next) s.mem))
    (governed : ∀ id (m : Migration), op = .execute id → s.attempts[id]? = some m →
      executeRefusal m id = none →
      P (stateAfter (MemoryManager.governedReallocate b m.memoryRegion m.targetNode m.copyData)
        s.mem)) : P (step b s op).mem := by
  cases op with
  | allocate req => rw [step, stateAfter_onMemory]; exact allocated req
  | release id expected => rw [step, stateAfter_onMemory]; exact released id expected
  | invalidateLocalityStale => exact stale
  | transition id next => rw [step, stateAfter_onMemory]; exact moved id next fun _ => rfl
  | begin req => exact begin_memory stays req (moved _ _ fun ended => by cases ended)
  | execute id => exact execute_memory stays id fun m found good => governed id m rfl found good
  | rollback id => exact rollback_memory stays id fun m => moved _ _ fun ended => by cases ended

end Memory

end NumaFabric.MigrationManager
