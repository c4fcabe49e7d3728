import NumaFabric.MemoryManager

/-! Migration attempts over the memory manager, and the calls of both managers run one
after another. -/
namespace NumaFabric
open Std FaultState LedgerCounter

structure Migration where
  attemptId : AttemptId := .invalid
  sourcePlacement : PlacementId := .invalid
  sourceGeneration : PlacementGeneration := .initial
  sourceNode : NumaNodeId := .invalid
  targetNode : NumaNodeId := .invalid
  memoryRegion : MemoryRegionId := .invalid
  worker : WorkerId := .invalid
  workerBoot : WorkerBootId := .invalid
  epoch : CoordinatorEpoch := .invalid
  policyGeneration : PolicyGeneration := .invalid
  reason : ByteString := []
  lifecycle : LifecycleState := .migrationPending
  active : Bool := true
  committed : Bool := false
  copyData : Bool := true
  deriving DecidableEq, Repr

structure MigrateRequest where
  worker : WorkerId := .invalid
  workerBoot : WorkerBootId := .invalid
  epoch : CoordinatorEpoch := .invalid
  memoryRegion : MemoryRegionId := .invalid
  sourceNode : NumaNodeId := .invalid
  targetNode : NumaNodeId := .invalid
  sourcePlacement : PlacementId := .invalid
  sourceGeneration : PlacementGeneration := .initial
  policyGeneration : PolicyGeneration := .invalid
  reason : ByteString := []
  copyData : Bool := true
  deriving DecidableEq, Repr

def MigrateRequest.attempt (req : MigrateRequest) (id : AttemptId) : Migration where
  attemptId := id
  sourceNode := req.sourceNode
  targetNode := req.targetNode
  memoryRegion := req.memoryRegion
  worker := req.worker
  workerBoot := req.workerBoot
  epoch := req.epoch
  sourcePlacement := req.sourcePlacement
  sourceGeneration := req.sourceGeneration
  policyGeneration := req.policyGeneration
  reason := req.reason
  copyData := req.copyData

def MigrateRequest.malformed (req : MigrateRequest) : Option MigrationError :=
  if !req.memoryRegion.isValid then some .requiresRegion
  else if !req.targetNode.isValid then some .requiresTarget
  else none

/-- The manager with the memory manager it refers to. -/
structure MigrationManager (β : Type) where
  mem : MemoryManager β
  attempts : ExtTreeMap AttemptId Migration := ∅
  nextAttempt : U64 := 1

namespace MigrationManager
variable {β : Type}

def onMemory {α : Type} (x : Exec (MemoryManager β) α) : Exec (MigrationManager β) α :=
  zoom MigrationManager.mem (fun s m => { s with mem := m }) x

def putAttempt (id : AttemptId) (m : Migration) : Exec (MigrationManager β) Unit :=
  modify fun s => { s with attempts := s.attempts.insert id m }

/-- A region that may not become pending erases the attempt again. -/
def begin (req : MigrateRequest) : Exec (MigrationManager β) AttemptId := do
  if let some e := req.malformed then throw (.migration e)
  let id : AttemptId := ⟨(← get).nextAttempt⟩
  modify fun s => { s with nextAttempt := s.nextAttempt + 1 }
  putAttempt id (req.attempt id)
  tryCatch (onMemory (MemoryManager.transition req.memoryRegion .migrationPending)) fun e => do
    modify fun s => { s with attempts := s.attempts.erase id }
    throw e
  return id

def executeRefusal (m : Migration) (id : AttemptId) : Option MigrationError :=
  if !m.active then some (.notActive id)
  else if m.committed then some (.alreadyCommitted id)
  else none

def execute (b : Backend β) (id : AttemptId) : Exec (MigrationManager β) Unit := do
  match (← get).attempts[id]? with
  | none => throw (.migration (.unknownAttempt id))
  | some m =>
    if let some e := executeRefusal m id then throw (.migration e)
    let snapshot := { m with lifecycle := .migrating }
    putAttempt id snapshot
    let view ← onMemory (MemoryManager.governedReallocate b snapshot.memoryRegion
      snapshot.targetNode snapshot.copyData)
    if view.committed then
      putAttempt id { snapshot with lifecycle := .rebound, committed := true, active := false }
    else
      putAttempt id { snapshot with lifecycle := .failed, committed := false, active := false }

/-- The region's own refusal to become active again is swallowed. -/
def rollback (id : AttemptId) : Exec (MigrationManager β) Unit := do
  match (← get).attempts[id]? with
  | none => throw (.migration (.unknownAttempt id))
  | some m =>
    throwIf m.committed (.migration (.rollbackCommitted id))
    if m.active then
      tryCatch (onMemory (MemoryManager.transition m.memoryRegion .active)) fun _ => pure ()
      putAttempt id { m with lifecycle := .active, active := false }

/-- A call on either manager. -/
inductive Op
  | allocate (req : AllocateRequest)
  | release (id : MemoryRegionId) (expected : Option MemoryGeneration)
  | invalidateLocalityStale
  | transition (id : MemoryRegionId) (next : LifecycleState)
  | begin (req : MigrateRequest)
  | execute (id : AttemptId)
  | rollback (id : AttemptId)
  deriving DecidableEq, Repr

/-- The managers after a call, whether it returned or threw. -/
def step (b : Backend β) (s : MigrationManager β) : Op → MigrationManager β
  | .allocate req => stateAfter (onMemory (MemoryManager.allocate b req)) s
  | .release id expected => stateAfter (onMemory (MemoryManager.release b id expected)) s
  | .invalidateLocalityStale => { s with mem := s.mem.invalidateLocalityStale }
  | .transition id next => stateAfter (onMemory (MemoryManager.transition id next)) s
  | .begin req => stateAfter (MigrationManager.begin req) s
  | .execute id => stateAfter (MigrationManager.execute b id) s
  | .rollback id => stateAfter (MigrationManager.rollback id) s

/-- Managers that have done nothing yet, in any surrounding. -/
def initial (backend : β) (heap : Heap) : MigrationManager β := { mem := { world := { backend, heap } } }

def run (b : Backend β) (backend : β) (heap : Heap) (ops : List Op) : MigrationManager β :=
  ops.foldl (step b) (initial backend heap)

end MigrationManager

end NumaFabric
