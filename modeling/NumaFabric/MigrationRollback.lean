import NumaFabric.FaultRun
import NumaFabric.MigrationCommit
import NumaFabric.RegionWrites
import NumaFabric.SyntheticBackend

/-! Migration attempts under several threads. An execution is three steps, and the manager is unlocked
between them: another thread may roll the attempt back in the middle of it. -/
namespace NumaFabric

namespace MigrationManager
open FaultState
variable {β : Type}

/-- The first step of `execute`: the attempt is checked and marked under the lock. -/
def markAttempt (id : AttemptId) : Exec (MigrationManager β) Migration := do
  match (← get).attempts[id]? with
  | none => throw (.migration (.unknownAttempt id))
  | some m =>
    if let some e := executeRefusal m id then throw (.migration e)
    let snapshot := { m with lifecycle := .migrating }
    putAttempt id snapshot
    return snapshot

/-- The second step: the region of the attempt as it was marked is reallocated. -/
def reallocate (b : Backend β) (snapshot : Migration) : Exec (MigrationManager β) MigrationView :=
  onMemory (MemoryManager.governedReallocate b snapshot.memoryRegion snapshot.targetNode
    snapshot.copyData)

/-- The third step: the outcome is recorded under the lock, in the attempt as it is by then. -/
def recordOutcome (id : AttemptId) (view : MigrationView) : Exec (MigrationManager β) Unit := do
  match (← get).attempts[id]? with
  | none => return ()
  | some m =>
    if view.committed then
      putAttempt id { m with lifecycle := .rebound, committed := true, active := false }
    else
      putAttempt id { m with lifecycle := .failed, committed := false, active := false }

/-- Nothing happens between the steps of an execution that runs alone. -/
theorem execute_steps (b : Backend β) (id : AttemptId) (s : MigrationManager β) :
    (execute b id).run s = (do
      let snapshot ← markAttempt id
      let view ← reallocate b snapshot
      recordOutcome id view : Exec (MigrationManager β) Unit).run s := by
  unfold execute markAttempt
  simp only [EStateM.run_bind, EStateM.run_get]
  cases s.attempts[id]? with
  | none => rfl
  | some m =>
    dsimp only
    cases executeRefusal m id with
    | some e => rfl
    | none =>
      simp only [EStateM.run_bind, putAttempt, EStateM.run_modify, EStateM.run_pure, reallocate,
        onMemory_run]
      cases (MemoryManager.governedReallocate b m.memoryRegion m.targetNode m.copyData).run s.mem with
      | error e mem => rfl
      | ok view mem =>
        simp only [recordOutcome, EStateM.run_bind, EStateM.run_get,
          Std.ExtTreeMap.getElem?_insert_self, putAttempt]

end MigrationManager

namespace MigrationRollback
open Std FaultState FaultRun LedgerCounter MemoryManager MigrationManager RegionWrites

variable {β : Type}

/-- Where an execution stands between its steps. -/
inductive Executor
  | marked (id : AttemptId) (snapshot : Migration)
  | moved (id : AttemptId) (view : MigrationView)
  | ended
  deriving DecidableEq, Repr

structure Race (β : Type) where
  manager : MigrationManager β
  executors : List Executor := []

/-- A call that is one step, a thread that enters `execute`, or the next step of one that has. -/
inductive Event
  | allocate (req : AllocateRequest)
  | release (id : MemoryRegionId) (expected : Option MemoryGeneration)
  | begin (req : MigrateRequest)
  | rollback (id : AttemptId)
  | enter (id : AttemptId)
  | turn (i : ℕ)
  deriving DecidableEq, Repr

/-- The next step of an execution; a throw ends it. -/
def Executor.advance (b : Backend β) : Executor → MigrationManager β → Executor × MigrationManager β
  | .marked id snapshot, s =>
    match (reallocate b snapshot).run s with
    | .ok view t => (.moved id view, t)
    | .error _ t => (.ended, t)
  | .moved id view, s => (.ended, stateAfter (recordOutcome id view) s)
  | .ended, s => (.ended, s)

def step (b : Backend β) (s : Race β) : Event → Race β
  | .allocate req => { s with manager := MigrationManager.step b s.manager (.allocate req) }
  | .release id expected =>
    { s with manager := MigrationManager.step b s.manager (.release id expected) }
  | .begin req => { s with manager := stateAfter (MigrationManager.begin req) s.manager }
  | .rollback id => { s with manager := stateAfter (MigrationManager.rollback id) s.manager }
  | .enter id =>
    match (markAttempt id).run s.manager with
    | .ok snapshot t => { manager := t, executors := s.executors ++ [.marked id snapshot] }
    | .error _ t => { s with manager := t }
  | .turn i =>
    match s.executors[i]? with
    | none => s
    | some e =>
      { manager := (e.advance b s.manager).2, executors := s.executors.set i (e.advance b s.manager).1 }

def run (b : Backend β) (backend : β) (heap : Heap) (events : List Event) : Race β :=
  events.foldl (step b) { manager := initial backend heap }

/-- The rollback returns normally. -/
def Returns (s : Race β) (id : AttemptId) : Prop :=
  ∃ t, (MigrationManager.rollback id).run s.manager = .ok () t

/-- The next attempt gets a number that was in use before. -/
def Reissues (id : AttemptId) (s : Race β) : Event → Prop
  | .begin _ => s.manager.nextAttemptId = id
  | _ => False

/-- The region keeps its buffer, and no buffer is given back. -/
structure KeepsBuffer (s t : MemoryManager β) (id : MemoryRegionId) : Prop where
  buffer : ∀ r, s.regions[id]? = some r →
    ∃ r', t.regions[id]? = some r' ∧ r'.backendResult = r.backendResult
  frees : t.world.frees = s.world.frees

/-- As long as its number is not issued again, an attempt that was rolled back is not committed, and
nothing that is done for it takes the buffer of its region. -/
def NeverCommits (b : Backend β) (backend : β) (heap : Heap) (events : List Event) : Prop :=
  ∀ pre id mid, pre ++ Event.rollback id :: mid <+: events → Returns (run b backend heap pre) id →
    Meets (step b) (fun s e => ¬ Reissues id s e) (run b backend heap (pre ++ [Event.rollback id])) mid →
    (∀ m, (run b backend heap (pre ++ Event.rollback id :: mid)).manager.attempts[id]? = some m →
      m.committed = false) ∧
    ∀ mid' i snapshot, mid = mid' ++ [Event.turn i] →
      (run b backend heap (pre ++ Event.rollback id :: mid')).executors[i]? =
        some (Executor.marked id snapshot) →
      KeepsBuffer (run b backend heap (pre ++ Event.rollback id :: mid')).manager.mem
        (run b backend heap (pre ++ Event.rollback id :: mid)).manager.mem snapshot.memoryRegion

/-- The reallocation finds the region pending and gets a buffer for it. -/
def Takes (b : Backend β) (s : MemoryManager β) (id : MemoryRegionId) (target : NumaNodeId) : Prop :=
  ∃ r, s.regions[id]? = some r ∧ r.state = .migrationPending ∧ ¬ Declines b r target s.world

/-- A rollback does not come between a reallocation that went through and its record, and a
reallocation that takes the region does so for an attempt that is still active. -/
def Apart (b : Backend β) (s : Race β) : Event → Prop
  | .rollback id => Returns s id → ∀ view, .moved id view ∈ s.executors → view.committed = false
  | .turn i => ∀ id snapshot, s.executors[i]? = some (.marked id snapshot) →
      Takes b s.manager.mem snapshot.memoryRegion snapshot.targetNode →
      ∃ m, s.manager.attempts[id]? = some m ∧ m.active = true
  | _ => True

section Undone
variable {b : Backend β} {s : Race β} {id : AttemptId}

/-- The attempt is neither active nor committed, and no execution is about to record a commit of it. -/
structure Undone (id : AttemptId) (s : Race β) : Prop where
  attempt : ∀ m, s.manager.attempts[id]? = some m → m.active = false ∧ m.committed = false
  pending : ∀ view, .moved id view ∈ s.executors → view.committed = false

/-- A committed attempt is not rolled back. -/
theorem rollback_committed {q : Migration} {m : MigrationManager β} (found : m.attempts[id]? = some q)
    (committed : q.committed = true) :
    (MigrationManager.rollback id).run m = .error (.migration (.rollbackCommitted id)) m := by
  simp only [MigrationManager.rollback, EStateM.run_bind, EStateM.run_get, found, run_throwIf,
    committed, if_true]

theorem rollback_returned {m m' : MigrationManager β}
    (returned : (MigrationManager.rollback id).run m = .ok () m') :
    ∀ q, m'.attempts[id]? = some q → q.active = false ∧ q.committed = false := by
  have standing (q : Migration) (found : m.attempts[id]? = some q) : q.committed = false := by
    by_contra committed
    rw [rollback_committed found (by simpa using committed)] at returned
    cases returned
  have ho := rollback_outcome id m
  rw [returned] at ho
  cases ho with
  | idle q found ended =>
    intro q' after
    rw [found] at after
    cases after
    exact ⟨ended, standing q found⟩
  | undone q found pending =>
    intro q' after
    rw [ExtTreeMap.getElem?_insert_self] at after
    cases after
    exact ⟨rfl, standing q found⟩

/-- A number that is not issued again keeps what stands under it. -/
theorem begin_attempts {req : MigrateRequest} {m : MigrationManager β} (other : m.nextAttemptId ≠ id) :
    (stateAfter (MigrationManager.begin req) m).attempts[id]? = m.attempts[id]? := by
  have ne : compare m.nextAttemptId id ≠ .eq := fun same => other (Std.compare_eq_iff_eq.mp same)
  have ho := begin_outcome req m
  generalize hres : (MigrationManager.begin req).run m = res at ho
  cases ho with
  | malformed e bad => rw [stateAfter_of_error hres]
  | refused e wellFormed bad =>
    rw [stateAfter_of_error hres]
    simp [ExtTreeMap.getElem?_erase, ExtTreeMap.getElem?_insert, ne]
  | started r wellFormed found good =>
    rw [stateAfter_of_ok hres]
    simp [started, ExtTreeMap.getElem?_insert, ne]

/-- An attempt that is over stays so, whoever rolls back. -/
theorem rollback_attempts {j : AttemptId} {m : MigrationManager β}
    (closed : ∀ q, m.attempts[id]? = some q → q.active = false ∧ q.committed = false) :
    ∀ q, (stateAfter (MigrationManager.rollback j) m).attempts[id]? = some q →
      q.active = false ∧ q.committed = false := by
  have ho := rollback_outcome j m
  generalize hres : (MigrationManager.rollback j).run m = res at ho
  cases ho with
  | unknown absent =>
    rw [stateAfter_of_error hres]
    exact closed
  | committed q found bad =>
    rw [stateAfter_of_error hres]
    exact closed
  | idle q found ended =>
    rw [stateAfter_of_ok hres]
    exact closed
  | undone q found pending =>
    rw [stateAfter_of_ok hres]
    intro q' after
    rw [ExtTreeMap.getElem?_insert] at after
    split_ifs at after with here
    · obtain rfl := Std.compare_eq_iff_eq.mp here
      rw [(closed q found).1] at pending
      cases pending
    · exact closed q' after

/-- The first step passes over an attempt that is not active. -/
theorem markAttempt_attempts {j : AttemptId} {m m' : MigrationManager β} {snapshot : Migration}
    (marked : (markAttempt j).run m = .ok snapshot m') :
    ∃ q, m.attempts[j]? = some q ∧ q.active = true ∧
      m'.attempts = m.attempts.insert j { q with lifecycle := .migrating } := by
  unfold markAttempt at marked
  simp only [EStateM.run_bind, EStateM.run_get] at marked
  cases found : m.attempts[j]? with
  | none =>
    rw [found] at marked
    cases marked
  | some q =>
    simp only [found] at marked
    cases refusal : executeRefusal q j with
    | some e =>
      rw [refusal] at marked
      cases marked
    | none =>
      rw [refusal] at marked
      cases marked
      refine ⟨q, rfl, ?_, rfl⟩
      unfold executeRefusal at refusal
      split_ifs at refusal with idle
      simpa using idle

theorem markAttempt_error {j : AttemptId} {m m' : MigrationManager β} {e : Exn}
    (marked : (markAttempt j).run m = .error e m') : m' = m := by
  unfold markAttempt at marked
  simp only [EStateM.run_bind, EStateM.run_get] at marked
  cases found : m.attempts[j]? with
  | none =>
    rw [found] at marked
    cases marked
    rfl
  | some q =>
    simp only [found] at marked
    cases refusal : executeRefusal q j with
    | some e =>
      rw [refusal] at marked
      cases marked
      rfl
    | none =>
      rw [refusal] at marked
      cases marked

theorem recordOutcome_attempts (j : AttemptId) (view : MigrationView) (m : MigrationManager β) :
    ∀ q, (stateAfter (recordOutcome j view) m).attempts[id]? = some q →
      m.attempts[id]? = some q ∨ j = id ∧ q.active = false ∧ q.committed = view.committed := by
  intro q after
  cases found : m.attempts[j]? with
  | none =>
    have same : stateAfter (recordOutcome j view) m = m := by
      simp only [stateAfter, recordOutcome, EStateM.run_bind, EStateM.run_get, found]
      rfl
    rw [same] at after
    exact .inl after
  | some p =>
    have written : ∃ p', p'.active = false ∧ p'.committed = view.committed ∧
        stateAfter (recordOutcome j view) m = { m with attempts := m.attempts.insert j p' } := by
      simp only [stateAfter, recordOutcome, EStateM.run_bind, EStateM.run_get, found]
      cases view.committed with
      | true => exact ⟨_, rfl, rfl, rfl⟩
      | false => exact ⟨_, rfl, rfl, rfl⟩
    obtain ⟨p', ended, outcome, state⟩ := written
    rw [state, ExtTreeMap.getElem?_insert] at after
    split_ifs at after with here
    · cases after
      exact .inr ⟨Std.compare_eq_iff_eq.mp here, ended, outcome⟩
    · exact .inl after

theorem reallocate_attempts {snapshot : Migration} {m : MigrationManager β} :
    (stateAfter (reallocate b snapshot) m).attempts = m.attempts := by
  rw [reallocate, stateAfter_onMemory]

/-- A reallocation that takes nothing commits nothing, and leaves the buffer of its region. -/
theorem governed_of_not_takes {m : MemoryManager β} {j : MemoryRegionId} {target : NumaNodeId}
    {copyData : Bool} (left : ¬ Takes b m j target) :
    KeepsBuffer m (stateAfter (governedReallocate b j target copyData) m) j ∧
      ∀ view t, (governedReallocate b j target copyData).run m = .ok view t → view.committed = false := by
  have same : KeepsBuffer m m j := ⟨fun r found => ⟨r, found, rfl⟩, rfl⟩
  have takes {r : MemoryRegion} {result : AllocationResult} {w : World β}
      (found : m.regions[j]? = some r) (good : migrateRefusal r j = none)
      (call : migrationCall b r target m.world = .ok result w) (usable : result.ok = true) : False := by
    refine left ⟨r, found, pending_of_migrateRefusal good, fun declines => ?_⟩
    rw [declines result w call] at usable
    cases usable
  have ho := governed_outcome b j target copyData m
  generalize hres : (governedReallocate b j target copyData).run m = res at ho
  cases ho with
  | unknown absent =>
    rw [stateAfter_of_error hres]
    exact ⟨same, fun view t returned => by cases returned⟩
  | refused r e found bad =>
    rw [stateAfter_of_error hres]
    exact ⟨same, fun view t returned => by cases returned⟩
  | retained r found good declined =>
    rw [stateAfter_of_ok hres]
    refine ⟨⟨fun q there => ?_, MigrationCommit.frees_allocate _ _ _⟩, ?_⟩
    · rw [found] at there
      cases there
      exact ⟨_, ExtTreeMap.getElem?_insert_self, rfl⟩
    · intro view t returned
      cases returned
      rfl
  | underflow r result w found good call usable under => exact (takes found good call usable).elim
  | exhausted r result w found good call usable covered last => exact (takes found good call usable).elim
  | committed r result w g found good call usable covered next view done =>
    exact (takes found good call usable).elim

/-- A call of the manager that changes no attempt but those it may. -/
theorem Undone.manager (h : Undone id s) {m : MigrationManager β}
    (kept : ∀ q, m.attempts[id]? = some q → q.active = false ∧ q.committed = false) :
    Undone id { s with manager := m } := ⟨kept, h.pending⟩

theorem Undone.enter (h : Undone id s) (j : AttemptId) : Undone id (step b s (.enter j)) := by
  rw [step]
  cases marked : (markAttempt j).run s.manager with
  | error e t =>
    rw [markAttempt_error marked]
    exact h
  | ok snapshot t =>
    obtain ⟨q, found, active, attempts⟩ := markAttempt_attempts marked
    refine ⟨?_, ?_⟩
    · intro q' after
      rw [attempts, ExtTreeMap.getElem?_insert] at after
      split_ifs at after with here
      · obtain rfl := Std.compare_eq_iff_eq.mp here
        rw [(h.attempt q found).1] at active
        cases active
      · exact h.attempt q' after
    · intro view there
      rcases List.mem_append.mp there with before | here
      · exact h.pending view before
      · cases List.mem_singleton.mp here

theorem advance_marked (j : AttemptId) (snapshot : Migration) (m : MigrationManager β) :
    ((Executor.marked j snapshot).advance b m).2 = stateAfter (reallocate b snapshot) m := by
  rw [Executor.advance, stateAfter]
  cases (reallocate b snapshot).run m <;> rfl

/-- Only a reallocation that returned has an outcome to record. -/
theorem advance_moved {j : AttemptId} {snapshot : Migration} {m : MigrationManager β}
    {view : MigrationView} (moved : ((Executor.marked j snapshot).advance b m).1 = .moved id view) :
    j = id ∧ ∃ t, (governedReallocate b snapshot.memoryRegion snapshot.targetNode
      snapshot.copyData).run m.mem = .ok view t := by
  rw [Executor.advance, reallocate, onMemory_run] at moved
  cases call : (governedReallocate b snapshot.memoryRegion snapshot.targetNode
    snapshot.copyData).run m.mem with
  | error e t =>
    rw [call] at moved
    cases moved
  | ok v t =>
    rw [call] at moved
    cases moved
    exact ⟨rfl, t, rfl⟩

/-- The execution of an attempt that is over takes nothing. -/
theorem Undone.not_takes (h : Undone id s) {i : ℕ} (apart : Apart b s (.turn i)) {snapshot : Migration}
    (thread : s.executors[i]? = some (.marked id snapshot)) :
    ¬ Takes b s.manager.mem snapshot.memoryRegion snapshot.targetNode := by
  intro takes
  obtain ⟨q, found, active⟩ := apart id snapshot thread takes
  rw [(h.attempt q found).1] at active
  cases active

theorem Undone.turn (h : Undone id s) {i : ℕ} (apart : Apart b s (.turn i)) :
    Undone id (step b s (.turn i)) := by
  rw [step]
  cases thread : s.executors[i]? with
  | none => exact h
  | some e =>
    -- An execution that is about to record a commit was so before, or has just been moved.
    refine ⟨?_, fun view there => ?_⟩
    · intro q after
      cases e with
      | ended => exact h.attempt q after
      | moved j view =>
        rcases recordOutcome_attempts j view s.manager q after with before | ⟨rfl, ended, outcome⟩
        · exact h.attempt q before
        · rw [outcome]
          exact ⟨ended, h.pending view (List.mem_of_getElem? thread)⟩
      | marked j snapshot =>
        dsimp only at after
        rw [advance_marked, reallocate_attempts] at after
        exact h.attempt q after
    · rcases List.mem_or_eq_of_mem_set there with before | now
      · exact h.pending view before
      · cases e with
        | ended => cases now
        | moved j view => cases now
        | marked j snapshot =>
          obtain ⟨rfl, t, returned⟩ := advance_moved now.symm
          exact (governed_of_not_takes (h.not_takes apart thread)).2 view t returned

theorem Undone.step (h : Undone id s) {e : Event} (apart : Apart b s e) (same : ¬ Reissues id s e) :
    Undone id (step b s e) := by
  cases e with
  | allocate req =>
    refine h.manager fun q after => h.attempt q ?_
    rwa [MigrationManager.step, stateAfter_onMemory] at after
  | release j expected =>
    refine h.manager fun q after => h.attempt q ?_
    rwa [MigrationManager.step, stateAfter_onMemory] at after
  | begin req =>
    refine h.manager fun q after => h.attempt q ?_
    rwa [begin_attempts same] at after
  | rollback j => exact h.manager (rollback_attempts h.attempt)
  | enter j => exact h.enter j
  | turn i => exact h.turn apart

/-- A rollback that returns leaves the attempt undone. -/
theorem undone_of_rollback (returns : Returns s id) (apart : Apart b s (.rollback id)) :
    Undone id (MigrationRollback.step b s (.rollback id)) := by
  obtain ⟨t, returned⟩ := returns
  refine ⟨?_, apart ⟨t, returned⟩⟩
  rw [MigrationRollback.step, stateAfter_of_ok returned]
  exact rollback_returned returned

theorem turn_mem {i : ℕ} {snapshot : Migration} (thread : s.executors[i]? = some (.marked id snapshot)) :
    (MigrationRollback.step b s (.turn i)).manager.mem =
      stateAfter (governedReallocate b snapshot.memoryRegion snapshot.targetNode snapshot.copyData)
        s.manager.mem := by
  rw [MigrationRollback.step, thread]
  dsimp only
  rw [advance_marked, reallocate, stateAfter_onMemory]

end Undone

section Run
variable {b : Backend β} {backend : β} {heap : Heap}

theorem run_append (pre post : List Event) :
    run b backend heap (pre ++ post) = post.foldl (step b) (run b backend heap pre) := by
  simp [run]

/-- From the rollback on the attempt stays undone. -/
theorem undone_run {pre mid : List Event} {id : AttemptId}
    (apart : Meets (step b) (Apart b) { manager := initial backend heap } (pre ++ .rollback id :: mid))
    (returns : Returns (run b backend heap pre) id)
    (fresh : Meets (step b) (fun s e => ¬ Reissues id s e)
      (run b backend heap (pre ++ [.rollback id])) mid) :
    Undone id (run b backend heap (pre ++ .rollback id :: mid)) := by
  obtain ⟨-, here, after⟩ := meets_append.mp apart
  have undone : Undone id (step b (run b backend heap pre) (.rollback id)) :=
    undone_of_rollback returns here
  have keep : ∀ (s : Race β) e, Undone id s → Apart b s e ∧ ¬ Reissues id s e →
      Undone id (step b s e) := fun s e h both => h.step both.1 both.2
  rw [run_append] at fresh
  rw [run_append, List.foldl_cons]
  refine foldl_invariant keep undone (meets_iff.mpr fun mid' e before => ?_)
  exact ⟨meets_iff.mp after mid' e before, meets_iff.mp fresh mid' e before⟩

/-- In a run that keeps rollbacks and executions apart, no attempt commits that was rolled back. -/
theorem never_commits_of_apart (b : Backend β) (backend : β) (heap : Heap) (events : List Event)
    (apart : Meets (step b) (Apart b) { manager := initial backend heap } events) :
    NeverCommits b backend heap events := by
  rintro pre id mid ⟨post, rfl⟩ returns fresh
  obtain ⟨reached, -⟩ := meets_append.mp apart
  refine ⟨fun m found => ((undone_run reached returns fresh).attempt m found).2, ?_⟩
  rintro mid' i snapshot rfl thread
  rw [← List.cons_append, ← List.append_assoc] at reached ⊢
  obtain ⟨earlier, here, -⟩ := meets_append.mp reached
  have undone := undone_run earlier returns (meets_append.mp fresh).1
  have next : run b backend heap (pre ++ .rollback id :: mid' ++ [.turn i]) =
      step b (run b backend heap (pre ++ .rollback id :: mid')) (.turn i) := run_append _ _
  rw [next, turn_mem thread]
  exact (governed_of_not_takes (undone.not_takes here thread)).1

end Run

/-- Enough for a turn: the region that its execution is about is not pending. -/
theorem apart_turn {b : Backend β} {s : Race β} {i : ℕ} (check : s.executors[i]?.all (fun e =>
      match e with
      | .marked _ snapshot =>
        s.manager.mem.regions[snapshot.memoryRegion]?.all (·.state != .migrationPending)
      | _ => true) = true) : Apart b s (.turn i) := by
  rintro id snapshot thread ⟨r, found, pending, -⟩
  rw [thread, Option.all_some] at check
  dsimp only at check
  rw [found, Option.all_some, pending] at check
  cases check

/-- The attempt is rolled back before its reallocation, which then finds the region active. -/
theorem never_commits_of_apart_early_rollback :
    NeverCommits (SyntheticBackend.backend {}) {} (fun _ => 0)
      [.allocate { bytes := ⟨1⟩ }, .begin { memoryRegion := ⟨1⟩, targetNode := ⟨2⟩ }, .enter ⟨1⟩,
        .rollback ⟨1⟩, .turn 0] := by
  refine never_commits_of_apart _ _ _ _ ⟨trivial, trivial, trivial, ?_, ?_, trivial⟩
  · intro _ view there
    have none : (run (SyntheticBackend.backend {}) {} (fun _ => 0) [.allocate { bytes := ⟨1⟩ },
        .begin { memoryRegion := ⟨1⟩, targetNode := ⟨2⟩ }, .enter ⟨1⟩]).executors.all (fun e =>
          match e with
          | .moved _ _ => false
          | _ => true) = true := by decide +kernel
    cases List.all_eq_true.mp none _ there
  · exact apart_turn (by decide +kernel)

/-- The rollback comes after the reallocation and before its record: it returns, and the attempt is
committed all the same. -/
theorem late_rollback_commits :
    ¬ ∀ {β : Type} (b : Backend β) (backend : β) (heap : Heap) (events : List Event),
      NeverCommits b backend heap events := by
  intro neverCommits
  let b := SyntheticBackend.backend {}
  let pre : List Event := [.allocate { bytes := ⟨1⟩ },
    .begin { memoryRegion := ⟨1⟩, targetNode := ⟨2⟩ }, .enter ⟨1⟩, .turn 0]
  have returns : Returns (run b {} (fun _ => 0) pre) ⟨1⟩ := by
    have ok : (match (MigrationManager.rollback ⟨1⟩).run (run b {} (fun _ => 0) pre).manager with
        | .ok _ _ => true
        | .error _ _ => false) = true := by decide +kernel
    unfold Returns
    cases call : (MigrationManager.rollback ⟨1⟩).run (run b {} (fun _ => 0) pre).manager with
    | ok u t => exact ⟨t, rfl⟩
    | error e t =>
      rw [call] at ok
      cases ok
  have uncommitted := (neverCommits b {} (fun _ => 0) (pre ++ [.rollback ⟨1⟩, .turn 0]) pre ⟨1⟩ [.turn 0]
    List.prefix_rfl returns ⟨fun reissues => reissues, trivial⟩).1
  have committed : ((run b {} (fun _ => 0) (pre ++ [.rollback ⟨1⟩, .turn 0])).manager.attempts[
      (⟨1⟩ : AttemptId)]?).any (·.committed) = true := by decide +kernel
  obtain ⟨m, found, holds⟩ := (Option.any_eq_true _ _).mp committed
  rw [uncommitted m found] at holds
  cases holds

end MigrationRollback

end NumaFabric
