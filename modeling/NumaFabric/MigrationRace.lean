import NumaFabric.MemoryOutcome

/-! One migration against any number of releases. A call is the sequence of its locked
phases; between two phases of one call the manager is unlocked and the others may run. -/
namespace NumaFabric
open Std FaultState LedgerCounter

namespace MemoryManager
variable {β : Type}

/-- The first phase of `release`: the region is discharged and marked, its buffer kept for
the second. -/
def markReleased (id : MemoryRegionId) (expected : Option MemoryGeneration) :
    Exec (MemoryManager β) AllocationResult := do
  match (← get).regions[id]? with
  | none => throw (.invalidTransition (.releaseUnknown id))
  | some r =>
    if let some e := releaseRefusal r id expected then throw (.invalidTransition e)
    dischargeNode r.chooseObservedNode r.grantedBytes.value
    putRegion id { r with state := .released, localityCurrent := false }
    return r.backendResult

/-- The first phase of a migration: the region is marked, and copied as it is then. -/
def markMigrating (id : MemoryRegionId) : Exec (MemoryManager β) MemoryRegion := do
  match (← get).regions[id]? with
  | none => throw (.invalidTransition (.migrateUnknown id))
  | some r =>
    if let some e := migrateRefusal r id then throw (.invalidTransition e)
    let snapshot := { r with state := .migrating }
    putRegion id snapshot
    return snapshot

/-- The second phase: a new buffer, if the backend hands out a usable one. -/
def obtainTarget (b : Backend β) (snapshot : MemoryRegion) (target : NumaNodeId) :
    Exec (MemoryManager β) (Option AllocationResult) := do
  return (← tryAllocate b (migrationSpec snapshot.grantedBytes target)).filter (·.ok)

/-- The third phase: the payload is copied under no lock, and the old buffer given back. -/
def giveBack (b : Backend β) (snapshot : MemoryRegion) (result : AllocationResult)
    (copyData : Bool) : Exec (MemoryManager β) Unit := do
  let n := minWord snapshot.grantedBytes.value result.grantedBytes.value
  modify fun s => { s with world := s.world.copy snapshot.backendResult result copyData n }
  freeAllocation b snapshot.backendResult

section Phases
variable {b : Backend β}

/-- Nothing happens between the phases of a release that runs alone. -/
theorem release_phases (b : Backend β) (id : MemoryRegionId) (expected : Option MemoryGeneration)
    (s : MemoryManager β) :
    (release b id expected).run s = (markReleased id expected >>= freeAllocation b).run s := by
  unfold release markReleased
  simp only [EStateM.run_bind, EStateM.run_get]
  cases s.regions[id]? with
  | none => rfl
  | some r =>
    dsimp only
    cases releaseRefusal r id expected with
    | some e => rfl
    | none =>
      simp only [EStateM.run_bind, dischargeNode_run]
      cases underflows r s.nodeUsage with
      | true => rfl
      | false => rfl

theorem governedReallocate_phases (b : Backend β) (id : MemoryRegionId) (target : NumaNodeId)
    (copyData : Bool) (s : MemoryManager β) :
    (governedReallocate b id target copyData).run s = (do
      let snapshot ← markMigrating id
      match ← obtainTarget b snapshot target with
      | none =>
        retainOriginal id
        return {}
      | some result =>
        giveBack b snapshot result copyData
        commitMove id snapshot result target : Exec (MemoryManager β) MigrationView).run s := by
  unfold governedReallocate markMigrating
  simp only [EStateM.run_bind, EStateM.run_get]
  cases s.regions[id]? with
  | none => rfl
  | some r =>
    dsimp only
    cases migrateRefusal r id with
    | some e => rfl
    | none =>
      simp only [EStateM.run_bind, putRegion, EStateM.run_modify, obtainTarget, tryAllocate_run,
        EStateM.run_pure]
      cases (World.allocate b (migrationSpec r.grantedBytes target)).run s.world with
      | error e w => rfl
      | ok result w =>
        dsimp only
        cases Option.filter (·.ok) (some result) with
        | none => rfl
        | some q => rfl

/-- What the first phase of a release can do. -/
inductive MarkReleasedOutcome (id : MemoryRegionId) (expected : Option MemoryGeneration)
    (s : MemoryManager β) : EStateM.Result Exn (MemoryManager β) AllocationResult → Prop
  | refused (e : InvalidTransitionError) :
      MarkReleasedOutcome id expected s (.error (.invalidTransition e) s)
  | underflow (r : MemoryRegion) (found : s.regions[id]? = some r)
      (good : releaseRefusal r id expected = none) (under : underflows r s.nodeUsage = true) :
      MarkReleasedOutcome id expected s (.error (.invalidTransition .underflow)
        { s with nodeUsage := touch s.nodeUsage r.chooseObservedNode })
  | marked (r : MemoryRegion) (found : s.regions[id]? = some r)
      (good : releaseRefusal r id expected = none) (covered : underflows r s.nodeUsage = false) :
      MarkReleasedOutcome id expected s (.ok r.backendResult
        { s with
          regions := s.regions.insert id { r with state := .released, localityCurrent := false }
          nodeUsage := discharged r s.nodeUsage })

theorem markReleased_outcome (id : MemoryRegionId) (expected : Option MemoryGeneration)
    (s : MemoryManager β) :
    MarkReleasedOutcome id expected s ((markReleased id expected).run s) := by
  unfold markReleased
  simp only [EStateM.run_bind, EStateM.run_get]
  cases hr : s.regions[id]? with
  | none => exact .refused (.releaseUnknown id)
  | some r =>
    dsimp only
    cases hf : releaseRefusal r id expected with
    | some e => exact .refused e
    | none =>
      simp only [EStateM.run_bind, dischargeNode_run]
      cases hu : underflows r s.nodeUsage with
      | true => exact .underflow r hr hf hu
      | false => exact .marked r hr hf hu

/-- What the first phase of a migration can do. -/
inductive MarkMigratingOutcome (id : MemoryRegionId) (s : MemoryManager β) :
    EStateM.Result Exn (MemoryManager β) MemoryRegion → Prop
  | refused (e : InvalidTransitionError) :
      MarkMigratingOutcome id s (.error (.invalidTransition e) s)
  | marked (r : MemoryRegion) (found : s.regions[id]? = some r)
      (good : migrateRefusal r id = none) :
      MarkMigratingOutcome id s (.ok { r with state := .migrating }
        { s with regions := s.regions.insert id { r with state := .migrating } })

theorem markMigrating_outcome (id : MemoryRegionId) (s : MemoryManager β) :
    MarkMigratingOutcome id s ((markMigrating id).run s) := by
  unfold markMigrating
  simp only [EStateM.run_bind, EStateM.run_get]
  cases hr : s.regions[id]? with
  | none => exact .refused (.migrateUnknown id)
  | some r =>
    dsimp only
    cases hf : migrateRefusal r id with
    | some e => exact .refused e
    | none => exact .marked r hr hf

/-- What the second phase can do: the backend throws, hands out nothing usable, or answers. -/
inductive ObtainTargetOutcome (b : Backend β) (snapshot : MemoryRegion) (target : NumaNodeId)
    (s : MemoryManager β) : EStateM.Result Exn (MemoryManager β) (Option AllocationResult) → Prop
  | declined :
      ObtainTargetOutcome b snapshot target s (.ok none
        { s with
          world := stateAfter (World.allocate b (migrationSpec snapshot.grantedBytes target))
            s.world })
  | granted (result : AllocationResult) (w : World β)
      (call : migrationCall b snapshot target s.world = .ok result w) :
      ObtainTargetOutcome b snapshot target s (.ok (some result) { s with world := w })

theorem obtainTarget_outcome (b : Backend β) (snapshot : MemoryRegion) (target : NumaNodeId)
    (s : MemoryManager β) :
    ObtainTargetOutcome b snapshot target s ((obtainTarget b snapshot target).run s) := by
  have nothing : ObtainTargetOutcome b snapshot target s _ := .declined
  simp only [obtainTarget, EStateM.run_bind, tryAllocate_run, EStateM.run_pure]
  cases hc : (World.allocate b (migrationSpec snapshot.grantedBytes target)).run s.world with
  | error e w =>
    rw [stateAfter_of_error hc] at nothing
    exact nothing
  | ok result w =>
    rw [stateAfter_of_ok hc] at nothing
    simp only [Option.filter_some]
    split_ifs
    · exact .granted result w hc
    · exact nothing

theorem giveBack_run (b : Backend β) (snapshot : MemoryRegion) (result : AllocationResult)
    (copyData : Bool) (s : MemoryManager β) :
    (giveBack b snapshot result copyData).run s =
      .ok () { s with world := handedOver b snapshot result copyData s.world } := rfl

end Phases

end MemoryManager

namespace MigrationRace
open MemoryManager

/-- The arguments of the migration. -/
structure Reallocation where
  id : MemoryRegionId
  target : NumaNodeId
  copyData : Bool := true
  deriving DecidableEq, Repr

/-- Where the migration stands between its phases. -/
inductive Migrator
  | ready
  | marked (snapshot : MemoryRegion)
  | declined
  | allocated (snapshot : MemoryRegion) (result : AllocationResult)
  | freed (snapshot : MemoryRegion) (result : AllocationResult)
  | returned (view : MigrationView)
  | threw (e : Exn)
  deriving DecidableEq, Repr

/-- Where a release stands between its phases. -/
inductive Releaser
  | ready (id : MemoryRegionId) (expected : Option MemoryGeneration)
  | marked (id : MemoryRegionId) (buffer : AllocationResult)
  | returned (id : MemoryRegionId)
  | threw (id : MemoryRegionId) (e : Exn)
  deriving DecidableEq, Repr

structure Race (β : Type) where
  mem : MemoryManager β
  migrator : Migrator := .ready
  releasers : List Releaser := []

/-- Whose next phase runs. -/
inductive Turn
  | migrator
  | releaser (i : ℕ)
  deriving DecidableEq, Repr

variable {β : Type}

/-- Run one phase of a call; a throw ends the call. -/
def phase {α τ : Type} (x : Exec (MemoryManager β) α) (next : α → τ) (fail : Exn → τ)
    (s : MemoryManager β) : τ × MemoryManager β :=
  match x.run s with
  | .ok a t => (next a, t)
  | .error e t => (fail e, t)

def Migrator.advance (b : Backend β) (m : Reallocation) :
    Migrator → MemoryManager β → Migrator × MemoryManager β
  | .ready => phase (markMigrating m.id) .marked .threw
  | .marked snapshot =>
    phase (obtainTarget b snapshot m.target)
      (fun result => result.elim .declined (.allocated snapshot)) .threw
  | .declined => phase (retainOriginal m.id) (fun _ => .returned {}) .threw
  | .allocated snapshot result =>
    phase (giveBack b snapshot result m.copyData) (fun _ => .freed snapshot result) .threw
  | .freed snapshot result => phase (commitMove m.id snapshot result m.target) .returned .threw
  | .returned view => fun s => (.returned view, s)
  | .threw e => fun s => (.threw e, s)

def Releaser.advance (b : Backend β) : Releaser → MemoryManager β → Releaser × MemoryManager β
  | .ready id expected => phase (markReleased id expected) (.marked id) (.threw id)
  | .marked id buffer => phase (freeAllocation b buffer) (fun _ => .returned id) (.threw id)
  | .returned id => fun s => (.returned id, s)
  | .threw id e => fun s => (.threw id e, s)

/-- A call that has returned or thrown does nothing more. -/
def turn (b : Backend β) (m : Reallocation) (s : Race β) : Turn → Race β
  | .migrator =>
    let p := s.migrator.advance b m s.mem
    { s with migrator := p.1, mem := p.2 }
  | .releaser i =>
    match s.releasers[i]? with
    | none => s
    | some r =>
      let p := r.advance b s.mem
      { s with releasers := s.releasers.set i p.1, mem := p.2 }

/-- The calls before any of their phases. -/
def start (s : MemoryManager β) (calls : List (MemoryRegionId × Option MemoryGeneration)) :
    Race β :=
  { mem := s, releasers := calls.map fun c => .ready c.1 c.2 }

/-- The state after a schedule of phases. -/
def run (b : Backend β) (m : Reallocation) (s : Race β) (schedule : List Turn) : Race β :=
  schedule.foldl (turn b m) s

section Alone
variable (b : Backend β) (m : Reallocation)

/-- How a call of the migration ends. -/
def Migrator.ended : EStateM.Result Exn (MemoryManager β) MigrationView → Migrator
  | .ok view _ => .returned view
  | .error e _ => .threw e

def Releaser.ended (id : MemoryRegionId) : EStateM.Result Exn (MemoryManager β) Unit → Releaser
  | .ok _ _ => .returned id
  | .error e _ => .threw id e

/-- A migration whose phases run without a break is the whole call. -/
theorem run_migrator_alone (s : Race β) (ready : s.migrator = .ready) :
    let call := governedReallocate b m.id m.target m.copyData
    run b m s (List.replicate 4 .migrator) =
      { s with migrator := .ended (call.run s.mem), mem := stateAfter call s.mem } := by
  intro call
  have whole := governedReallocate_phases b m.id m.target m.copyData s.mem
  cases hm : (markMigrating m.id).run s.mem with
  | error e t =>
    rw [run_bind_of_error hm] at whole
    simp [run, turn, ready, Migrator.advance, phase, hm, call, whole,
      stateAfter_of_error whole, Migrator.ended]
  | ok snapshot t =>
    rw [run_bind_of_ok hm] at whole
    have answered := obtainTarget_outcome b snapshot m.target t
    generalize ho : (obtainTarget b snapshot m.target).run t = res at answered
    cases answered with
    | declined =>
      rw [run_bind_of_ok ho] at whole
      cases hr : (retainOriginal m.id).run _ with
      | error e u =>
        rw [run_bind_of_error hr] at whole
        simp [run, turn, ready, Migrator.advance, phase, hm, ho, hr, call, whole,
          stateAfter_of_error whole, Migrator.ended]
      | ok a u =>
        rw [run_bind_of_ok hr] at whole
        simp [run, turn, ready, Migrator.advance, phase, hm, ho, hr, call, whole,
          stateAfter_of_ok whole, Migrator.ended]
    | granted result w granted =>
      have gave := giveBack_run b snapshot result m.copyData { t with world := w }
      rw [run_bind_of_ok ho] at whole
      dsimp only at whole
      rw [run_bind_of_ok gave] at whole
      cases hc : (commitMove m.id snapshot result m.target).run _ with
      | error e u =>
        rw [hc] at whole
        simp [run, turn, ready, Migrator.advance, phase, hm, ho, gave, hc, call, whole,
          stateAfter_of_error whole, Migrator.ended]
      | ok a u =>
        rw [hc] at whole
        simp [run, turn, ready, Migrator.advance, phase, hm, ho, gave, hc, call, whole,
          stateAfter_of_ok whole, Migrator.ended]

theorem turn_releaser {s : Race β} {i : ℕ} {r : Releaser} (thread : s.releasers[i]? = some r) :
    turn b m s (.releaser i) =
      { s with
        releasers := s.releasers.set i (r.advance b s.mem).1, mem := (r.advance b s.mem).2 } := by
  rw [turn, thread]

theorem run_releaser_alone (s : Race β) {i : ℕ} {id : MemoryRegionId}
    {expected : Option MemoryGeneration} (ready : s.releasers[i]? = some (.ready id expected)) :
    run b m s (List.replicate 2 (.releaser i)) =
      { s with
        releasers := s.releasers.set i (.ended id ((release b id expected).run s.mem))
        mem := stateAfter (release b id expected) s.mem } := by
  have inside : i < s.releasers.length := (List.getElem?_eq_some_iff.mp ready).1
  have whole := release_phases b id expected s.mem
  change turn b m (turn b m s (.releaser i)) (.releaser i) = _
  rw [turn_releaser b m ready, turn_releaser b m (List.getElem?_set_self inside)]
  cases hm : (markReleased id expected).run s.mem with
  | error e t =>
    rw [run_bind_of_error hm] at whole
    simp [Releaser.advance, phase, hm, whole, stateAfter_of_error whole, Releaser.ended]
  | ok buffer t =>
    have freed : (freeAllocation b buffer).run t = .ok () { t with world := t.world.free b buffer } :=
      rfl
    rw [run_bind_of_ok hm, freed] at whole
    simp [Releaser.advance, phase, hm, freed, whole, stateAfter_of_ok whole, Releaser.ended]

end Alone

end MigrationRace

end NumaFabric
