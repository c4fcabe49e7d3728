import NumaFabric.RaceSafety
import NumaFabric.ThreadPool

/-! Any number of threads that call the memory manager at once. A call is the sequence of its
locked phases, and any other call may run between two of them. A thread that makes one call
after another is several threads here, whose turns do not overlap. -/
namespace NumaFabric
open Std FaultState LedgerCounter

namespace MemoryManager
variable {β : Type}

/-- The first phase of `allocate`: the backend is asked, and nothing is recorded yet. -/
def requestBuffer (b : Backend β) (req : AllocateRequest) :
    Exec (MemoryManager β) (Option AllocationResult) := do
  throwIf req.bytes.isZero (.invalidTransition .zeroBytes)
  tryAllocate b req.spec

/-- The second phase: the region is numbered, charged and recorded. -/
def recordRegion (req : AllocateRequest) (result : Option AllocationResult) :
    Exec (MemoryManager β) MemoryRegion := do
  let (id, generation) ← takeIdentity
  let r := MemoryRegion.requested id generation req
  match result with
  | none =>
    let r := { r with state := .failed, localityCurrent := false }
    putRegion id r
    return r
  | some result =>
    let r := r.granted req result
    let node := r.chooseObservedNode
    if node.isValid then addNodeUsage node r.grantedBytes.value
    else if req.intendedNode.isValid then addNodeUsage req.intendedNode r.grantedBytes.value
    putRegion id r
    return r

/-- Nothing happens between the phases of an allocation that runs alone. -/
theorem allocate_phases (b : Backend β) (req : AllocateRequest) (s : MemoryManager β) :
    (allocate b req).run s = (requestBuffer b req >>= recordRegion req).run s := by
  unfold allocate requestBuffer
  simp only [EStateM.run_bind, run_throwIf]
  cases req.bytes.isZero with
  | true => rfl
  | false =>
    simp only [Bool.false_eq_true, if_false, tryAllocate_run]
    cases (World.allocate b req.spec).run s.world with
    | error e w => rfl
    | ok result w => rfl

/-- What the first phase of an allocation can do. -/
inductive RequestBufferOutcome (b : Backend β) (req : AllocateRequest) (s : MemoryManager β) :
    EStateM.Result Exn (MemoryManager β) (Option AllocationResult) → Prop
  | zero : RequestBufferOutcome b req s (.error (.invalidTransition .zeroBytes) s)
  | failed (e : BackendError) (w : World β)
      (call : (World.allocate b req.spec).run s.world = .error e w) :
      RequestBufferOutcome b req s (.ok none { s with world := w })
  | granted (result : AllocationResult) (w : World β) (nonzero : req.bytes.isZero = false)
      (call : (World.allocate b req.spec).run s.world = .ok result w) :
      RequestBufferOutcome b req s (.ok (some result) { s with world := w })

theorem requestBuffer_outcome (b : Backend β) (req : AllocateRequest) (s : MemoryManager β) :
    RequestBufferOutcome b req s ((requestBuffer b req).run s) := by
  simp only [requestBuffer, EStateM.run_bind, run_throwIf]
  cases hz : req.bytes.isZero with
  | true => exact .zero
  | false =>
    simp only [Bool.false_eq_true, if_false, tryAllocate_run]
    cases hc : (World.allocate b req.spec).run s.world with
    | error e w => exact .failed e w hc
    | ok result w => exact .granted result w hz hc

/-- What the second phase can do. -/
inductive RecordRegionOutcome (req : AllocateRequest) (s : MemoryManager β) :
    Option AllocationResult → EStateM.Result Exn (MemoryManager β) MemoryRegion → Prop
  | exhausted (result : Option AllocationResult) (last : s.watermark.value = u64Max) :
      RecordRegionOutcome req s result (.error .invalidId { s with nextId := s.nextId + 1 })
  | failed (g : MemoryGeneration) (next : s.watermark.next = .ok g) :
      RecordRegionOutcome req s none (.ok (failedRegion ⟨s.nextId⟩ g req)
        { s with
          regions := s.regions.insert ⟨s.nextId⟩ (failedRegion ⟨s.nextId⟩ g req)
          nextId := s.nextId + 1, watermark := g })
  | granted (g : MemoryGeneration) (result : AllocationResult) (next : s.watermark.next = .ok g)
      (r : MemoryRegion) (region_eq : r = grantedRegion ⟨s.nextId⟩ g req result) :
      RecordRegionOutcome req s (some result) (.ok r
        { s with
          regions := s.regions.insert ⟨s.nextId⟩ r, nodeUsage := charged r s.nodeUsage
          nextId := s.nextId + 1, watermark := g })

theorem recordRegion_outcome (req : AllocateRequest) (result : Option AllocationResult)
    (s : MemoryManager β) :
    RecordRegionOutcome req s result ((recordRegion req result).run s) := by
  simp only [recordRegion, EStateM.run_bind, takeIdentity_run]
  cases hn : s.watermark.next with
  | error e =>
    cases next_error_invalidId hn
    exact .exhausted result (Generation.next_error hn)
  | ok g =>
    cases result with
    | none => exact .failed g hn
    | some result =>
      have out : RecordRegionOutcome req s (some result) _ := .granted g result hn
        (grantedRegion ⟨s.nextId⟩ g req result) rfl
      have intended : (grantedRegion ⟨s.nextId⟩ g req result).intendedNode = req.intendedNode := rfl
      simp only [charged] at out
      dsimp only
      cases hv : (grantedRegion ⟨s.nextId⟩ g req result).chooseObservedNode.isValid with
      | true =>
        rw [hv] at out
        simp only [grantedRegion] at hv out
        simp only [hv, if_true]
        exact out
      | false =>
        have hi := intendedNode_of_chooseObservedNode hv
        rw [intended] at hi
        rw [hv] at out
        simp only [grantedRegion] at hv out
        simp only [hv, hi, Bool.false_eq_true, if_false]
        exact out

end MemoryManager

namespace MemoryThreads
open MemoryManager MigrationRace ThreadPool

variable {β : Type}

/-- Where an allocation stands between its phases. -/
inductive Allocator
  | ready (req : AllocateRequest)
  | obtained (req : AllocateRequest) (result : Option AllocationResult)
  | returned (r : MemoryRegion)
  | threw (e : Exn)
  deriving DecidableEq, Repr

/-- The calls that hold the lock from their start to their end. -/
inductive Edit
  | transition (id : MemoryRegionId) (next : LifecycleState)
  | invalidateLocalityStale
  deriving DecidableEq, Repr

inductive Editor
  | ready (edit : Edit)
  | returned
  | threw (e : Exn)
  deriving DecidableEq, Repr

inductive Thread
  | allocating (p : Allocator)
  | releasing (p : Releaser)
  | migrating (m : Reallocation) (p : Migrator)
  | editing (p : Editor)
  deriving DecidableEq, Repr

def Edit.exec : Edit → Exec (MemoryManager β) Unit
  | .transition id next => MemoryManager.transition id next
  | .invalidateLocalityStale => modify MemoryManager.invalidateLocalityStale

def Allocator.advance (b : Backend β) :
    Allocator → MemoryManager β → Allocator × MemoryManager β
  | .ready req => phase (requestBuffer b req) (.obtained req) .threw
  | .obtained req result => phase (recordRegion req result) .returned .threw
  | .returned r => fun s => (.returned r, s)
  | .threw e => fun s => (.threw e, s)

def Editor.advance : Editor → MemoryManager β → Editor × MemoryManager β
  | .ready edit => phase edit.exec (fun _ => .returned) .threw
  | .returned => fun s => (.returned, s)
  | .threw e => fun s => (.threw e, s)

/-- The next phase of a call. A call that has returned or thrown does nothing more. -/
def Thread.advance (b : Backend β) (t : Thread) (s : MemoryManager β) :
    Thread × MemoryManager β :=
  match t with
  | .allocating p => ((p.advance b s).map .allocating id)
  | .releasing p => ((p.advance b s).map .releasing id)
  | .migrating m p => ((p.advance b m s).map (.migrating m) id)
  | .editing p => ((p.advance s).map .editing id)

/-- A call and its arguments. -/
inductive Call
  | allocate (req : AllocateRequest)
  | release (id : MemoryRegionId) (expected : Option MemoryGeneration)
  | reallocate (m : Reallocation)
  | edit (edit : Edit)
  deriving DecidableEq, Repr

/-- What a call hands back. -/
inductive Answer
  | region (r : MemoryRegion)
  | view (v : MigrationView)
  | done
  deriving DecidableEq, Repr

def Call.exec (b : Backend β) : Call → Exec (MemoryManager β) Answer
  | .allocate req => .region <$> MemoryManager.allocate b req
  | .release id expected => (fun _ => .done) <$> MemoryManager.release b id expected
  | .reallocate m => .view <$> governedReallocate b m.id m.target m.copyData
  | .edit e => (fun _ => .done) <$> e.exec

def Call.start : Call → Thread
  | .allocate req => .allocating (.ready req)
  | .release id expected => .releasing (.ready id expected)
  | .reallocate m => .migrating m .ready
  | .edit e => .editing (.ready e)

/-- How a thread has ended, if it has. -/
def Thread.outcome : Thread → Option (Except Exn Answer)
  | .allocating (.returned r) => some (.ok (.region r))
  | .allocating (.threw e) => some (.error e)
  | .releasing (.returned _) => some (.ok .done)
  | .releasing (.threw _ e) => some (.error e)
  | .migrating _ (.returned v) => some (.ok (.view v))
  | .migrating _ (.threw e) => some (.error e)
  | .editing .returned => some (.ok .done)
  | .editing (.threw e) => some (.error e)
  | _ => none

/-- The phases a call still has before it at most. -/
def Thread.left : Thread → ℕ
  | .allocating (.ready _) => 2
  | .allocating (.obtained _ _) => 1
  | .releasing (.ready _ _) => 2
  | .releasing (.marked _ _) => 1
  | .migrating _ .ready => 4
  | .migrating _ (.marked _) => 3
  | .migrating _ (.allocated _ _) => 2
  | .migrating _ (.freed _ _) => 1
  | .migrating _ .declined => 1
  | .editing (.ready _) => 1
  | _ => 0

/-- The calls before any of their phases. -/
def start {ι : Type*} (s : MemoryManager β) (calls : ι → Call) :
    Pool ι (MemoryManager β) Thread :=
  { shared := s, threads := fun i => (calls i).start }

section Alone
variable (b : Backend β)

theorem solo_allocating (n : ℕ) (p : Allocator) (s : MemoryManager β) :
    solo (Thread.advance b) n (.allocating p, s) =
      (solo (Allocator.advance b) n (p, s)).map .allocating id := by
  induction n generalizing p s with
  | zero => rfl
  | succ n ih => simp only [solo, Thread.advance, Prod.map, id, ih]

theorem solo_releasing (n : ℕ) (p : Releaser) (s : MemoryManager β) :
    solo (Thread.advance b) n (.releasing p, s) =
      (solo (Releaser.advance b) n (p, s)).map .releasing id := by
  induction n generalizing p s with
  | zero => rfl
  | succ n ih => simp only [solo, Thread.advance, Prod.map, id, ih]

theorem solo_migrating (n : ℕ) (m : Reallocation) (p : Migrator) (s : MemoryManager β) :
    solo (Thread.advance b) n (.migrating m p, s) =
      (solo (Migrator.advance b m) n (p, s)).map (.migrating m) id := by
  induction n generalizing p s with
  | zero => rfl
  | succ n ih => simp only [solo, Thread.advance, Prod.map, id, ih]

theorem solo_editing (n : ℕ) (p : Editor) (s : MemoryManager β) :
    solo (Thread.advance b) n (.editing p, s) =
      (solo Editor.advance n (p, s)).map .editing id := by
  induction n generalizing p s with
  | zero => rfl
  | succ n ih => simp only [solo, Thread.advance, Prod.map, id, ih]

def Allocator.ended : EStateM.Result Exn (MemoryManager β) MemoryRegion → Allocator
  | .ok r _ => .returned r
  | .error e _ => .threw e

def Editor.ended : EStateM.Result Exn (MemoryManager β) Unit → Editor
  | .ok _ _ => .returned
  | .error e _ => .threw e

theorem solo_allocate (req : AllocateRequest) (s : MemoryManager β) :
    solo (Allocator.advance b) 4 (.ready req, s) =
      (.ended ((allocate b req).run s), stateAfter (allocate b req) s) := by
  have whole := allocate_phases b req s
  cases hq : (requestBuffer b req).run s with
  | error e t =>
    rw [run_bind_of_error hq] at whole
    simp [solo, Allocator.advance, phase, hq, whole, stateAfter_of_error whole, Allocator.ended]
  | ok result t =>
    rw [run_bind_of_ok hq] at whole
    cases hr : (recordRegion req result).run t with
    | error e u =>
      rw [hr] at whole
      simp [solo, Allocator.advance, phase, hq, hr, whole, stateAfter_of_error whole,
        Allocator.ended]
    | ok r u =>
      rw [hr] at whole
      simp [solo, Allocator.advance, phase, hq, hr, whole, stateAfter_of_ok whole,
        Allocator.ended]

theorem solo_release (id : MemoryRegionId) (expected : Option MemoryGeneration)
    (s : MemoryManager β) :
    solo (Releaser.advance b) 4 (.ready id expected, s) =
      (.ended id ((release b id expected).run s), stateAfter (release b id expected) s) := by
  have whole := release_phases b id expected s
  cases hm : (markReleased id expected).run s with
  | error e t =>
    rw [run_bind_of_error hm] at whole
    simp [solo, Releaser.advance, phase, hm, whole, stateAfter_of_error whole, Releaser.ended]
  | ok buffer t =>
    have freed : (freeAllocation b buffer).run t = .ok () { t with world := t.world.free b buffer } :=
      rfl
    rw [run_bind_of_ok hm, freed] at whole
    simp [solo, Releaser.advance, phase, hm, freed, whole, stateAfter_of_ok whole, Releaser.ended]

/-- The migration of the race is the one here. -/
theorem solo_reallocate (m : Reallocation) (s : MemoryManager β) :
    solo (Migrator.advance b m) 4 (.ready, s) =
      (.ended ((governedReallocate b m.id m.target m.copyData).run s),
        stateAfter (governedReallocate b m.id m.target m.copyData) s) := by
  have alone := run_migrator_alone b m { mem := s } rfl
  exact Prod.ext (congrArg Race.migrator alone) (congrArg Race.mem alone)

theorem solo_edit (e : Edit) (s : MemoryManager β) :
    solo Editor.advance 4 (.ready e, s) = (.ended (e.exec.run s), stateAfter e.exec s) := by
  cases hr : e.exec.run s with
  | error x t => simp [solo, Editor.advance, phase, hr, stateAfter_of_error hr, Editor.ended]
  | ok x t => simp [solo, Editor.advance, phase, hr, stateAfter_of_ok hr, Editor.ended]

/-- What the caller of a whole call sees. -/
def answered {α : Type} : EStateM.Result Exn (MemoryManager β) α → Except Exn α
  | .ok a _ => .ok a
  | .error e _ => .error e

/-- A call that is not interrupted ends, with the answer and the state of the whole call. -/
theorem solo_start (c : Call) (s : MemoryManager β) :
    (solo (Thread.advance b) 4 (c.start, s)).1.outcome = some (answered ((c.exec b).run s)) ∧
      (solo (Thread.advance b) 4 (c.start, s)).2 = stateAfter (c.exec b) s := by
  cases c with
  | allocate req =>
    simp only [Call.start, solo_allocating, solo_allocate, Prod.map, id, Call.exec, stateAfter,
      EStateM.run_map]
    cases (allocate b req).run s <;> exact ⟨rfl, rfl⟩
  | release region expected =>
    simp only [Call.start, solo_releasing, solo_release, Prod.map, id, Call.exec, stateAfter,
      EStateM.run_map]
    cases (release b region expected).run s <;> exact ⟨rfl, rfl⟩
  | reallocate m =>
    simp only [Call.start, solo_migrating, solo_reallocate, Prod.map, id, Call.exec, stateAfter,
      EStateM.run_map]
    cases (governedReallocate b m.id m.target m.copyData).run s <;> exact ⟨rfl, rfl⟩
  | edit e =>
    simp only [Call.start, solo_editing, solo_edit, Prod.map, id, Call.exec, stateAfter,
      EStateM.run_map]
    cases e.exec.run s <;> exact ⟨rfl, rfl⟩

/-- Calls that do not overlap are the calls of one thread in that order. -/
theorem run_one_by_one {ι : Type*} [DecidableEq ι] (calls : ι → Call) {order : List ι}
    (once : order.Nodup) {p : Pool ι (MemoryManager β) Thread}
    (ready : ∀ i ∈ order, p.threads i = (calls i).start) :
    (run (Thread.advance b) p (order.flatMap (List.replicate 4))).shared =
      order.foldl (fun s i => stateAfter ((calls i).exec b) s) p.shared := by
  induction order generalizing p with
  | nil => rfl
  | cons i rest ih =>
    obtain ⟨fresh, once⟩ := List.nodup_cons.mp once
    obtain ⟨-, ran⟩ := solo_start b (calls i) p.shared
    have first := run_replicate (Thread.advance b) 4 p i
    rw [ready i (by simp)] at first
    rw [List.flatMap_cons, run_append, first, List.foldl_cons, ← ran]
    refine ih once fun j later => ?_
    have other : j ≠ i := fun same => fresh (same ▸ later)
    rw [Pool.put_threads_of_ne p i _ _ other]
    exact ready j (by simp [later])

theorem phase_le {α τ : Type} (f : τ → ℕ) {n : ℕ} {x : Exec (MemoryManager β) α} {next : α → τ}
    {fail : Exn → τ} {s : MemoryManager β} (returns : ∀ a, f (next a) ≤ n)
    (throws : ∀ e, f (fail e) ≤ n) : f (phase x next fail s).1 ≤ n := by
  unfold phase
  cases x.run s with
  | ok a t => exact returns a
  | error e t => exact throws e

/-- Every phase brings its call nearer to its end. -/
theorem left_advance (t : Thread) (s : MemoryManager β) : (t.advance b s).1.left ≤ t.left - 1 := by
  cases t with
  | allocating p =>
    simp only [Thread.advance, Prod.map]
    cases p with
    | ready req =>
      exact phase_le (fun p => (Thread.allocating p).left) (fun _ => le_rfl) fun _ => Nat.zero_le _
    | obtained req result =>
      exact phase_le (fun p => (Thread.allocating p).left) (fun _ => le_rfl) fun _ => Nat.zero_le _
    | returned r => exact Nat.zero_le _
    | threw e => exact Nat.zero_le _
  | releasing p =>
    simp only [Thread.advance, Prod.map]
    cases p with
    | ready region expected =>
      exact phase_le (fun p => (Thread.releasing p).left) (fun _ => le_rfl) fun _ => Nat.zero_le _
    | marked region buffer =>
      exact phase_le (fun p => (Thread.releasing p).left) (fun _ => le_rfl) fun _ => Nat.zero_le _
    | returned region => exact Nat.zero_le _
    | threw region e => exact Nat.zero_le _
  | migrating m p =>
    simp only [Thread.advance, Prod.map]
    cases p with
    | ready =>
      exact phase_le (fun p => (Thread.migrating m p).left) (fun _ => le_rfl) fun _ => Nat.zero_le _
    | marked snapshot =>
      refine phase_le (fun p => (Thread.migrating m p).left) (fun result => ?_) fun _ => Nat.zero_le _
      cases result <;> simp [Thread.left]
    | declined =>
      exact phase_le (fun p => (Thread.migrating m p).left) (fun _ => le_rfl) fun _ => Nat.zero_le _
    | allocated snapshot result =>
      exact phase_le (fun p => (Thread.migrating m p).left) (fun _ => le_rfl) fun _ => Nat.zero_le _
    | freed snapshot result =>
      exact phase_le (fun p => (Thread.migrating m p).left) (fun _ => le_rfl) fun _ => Nat.zero_le _
    | returned view => exact Nat.zero_le _
    | threw e => exact Nat.zero_le _
  | editing p =>
    simp only [Thread.advance, Prod.map]
    cases p with
    | ready e =>
      exact phase_le (fun p => (Thread.editing p).left) (fun _ => le_rfl) fun _ => Nat.zero_le _
    | returned => exact Nat.zero_le _
    | threw e => exact Nat.zero_le _

theorem outcome_of_left {t : Thread} (last : t.left = 0) : t.outcome.isSome = true := by
  cases t with
  | allocating p => cases p <;> first | rfl | cases last
  | releasing p => cases p <;> first | rfl | cases last
  | migrating m p => cases p <;> first | rfl | cases last
  | editing p => cases p <;> first | rfl | cases last

/-- A call that has had four turns is over, in whatever order the others had theirs. -/
theorem outcome_run {ι : Type*} [DecidableEq ι] (s : MemoryManager β) (calls : ι → Call)
    (schedule : List ι) {i : ι} (turns : 4 ≤ schedule.count i) :
    ((run (Thread.advance b) (start s calls) schedule).threads i).outcome.isSome = true := by
  have most : ((start s calls).threads i).left ≤ 4 := by
    simp only [start]
    cases calls i <;> simp [Call.start, Thread.left]
  have used := measure_run (Thread.advance b) (left_advance b) (start s calls) i schedule
  exact outcome_of_left (by omega)

end Alone

end MemoryThreads

end NumaFabric
