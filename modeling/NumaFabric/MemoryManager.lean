import NumaFabric.BackendInterface
import NumaFabric.LedgerCounter

/-! Governed host memory: guarded lifecycle, per-node accounting, and the reallocate,
copy and rebind that carries out a migration. -/
namespace NumaFabric
open Std FaultState LedgerCounter

structure MemoryRegion where
  id : MemoryRegionId := .invalid
  generation : MemoryGeneration := .invalid
  kind : AllocationKind := .host
  mode : PlacementMode := .any
  requestedBytes : Bytes := .zero
  grantedBytes : Bytes := .zero
  alignment : Alignment := .zero
  preferredNode : NumaNodeId := .invalid
  requiredNode : NumaNodeId := .invalid
  intendedNode : NumaNodeId := .invalid
  actualNode : NumaNodeId := .invalid
  localityKnown : Bool := false
  localityVerified : Bool := false
  localityCurrent : Bool := false
  owningProcess : ProcessId := .invalid
  associatedWorker : WorkerId := .invalid
  associatedAccelerator : AcceleratorId := .invalid
  workloadId : ByteString := []
  tag : ByteString := []
  provenance : Provenance := {}
  state : LifecycleState := .created
  touched : Bool := false
  backendResult : AllocationResult := {}
  deriving DecidableEq, Repr

namespace LifecycleState

def isLive : LifecycleState → Bool
  | allocated | active | migrationPending | migrating | rebound => true
  | _ => false

def isReleased : LifecycleState → Bool
  | released | invalidated | failed => true
  | _ => false

end LifecycleState

/-- The guarded transitions of a region. -/
def canTransition : LifecycleState → LifecycleState → Bool
  | .created, next => next == .reserved || next == .invalidated
  | .reserved, next => next == .allocated || next == .released || next == .invalidated
  | .allocated, next => next == .active || next == .failed || next == .invalidated
  | .active, next => next == .migrationPending || next == .releasePending || next == .invalidated
  | .migrationPending, next =>
      next == .migrating || next == .active || next == .failed || next == .invalidated
  | .migrating, next => next == .rebound || next == .failed || next == .invalidated
  | .rebound, next => next == .active || next == .releasePending || next == .invalidated
  | .releasePending, next => next == .released || next == .failed
  | .released, next => next == .invalidated
  | .failed, next => next == .invalidated
  | .invalidated, _ => false

structure AllocateRequest where
  bytes : Bytes := .zero
  alignment : Alignment := .zero
  mode : PlacementMode := .any
  intendedNode : NumaNodeId := .invalid
  preferredNode : NumaNodeId := .invalid
  requiredNode : NumaNodeId := .invalid
  interleaveNodes : List NumaNodeId := []
  kind : AllocationKind := .host
  touch : Bool := true
  owningProcess : ProcessId := .invalid
  associatedWorker : WorkerId := .invalid
  associatedAccelerator : AcceleratorId := .invalid
  workloadId : ByteString := []
  tag : ByteString := []
  provenance : Provenance := {}
  deriving DecidableEq, Repr

structure MigrationView where
  committed : Bool := false
  copySucceeded : Bool := false
  newNode : NumaNodeId := .invalid
  generation : MemoryGeneration := .invalid
  deriving DecidableEq, Repr

/-- The manager together with the world its backend acts on. -/
structure MemoryManager (β : Type) where
  regions : ExtTreeMap MemoryRegionId MemoryRegion := ∅
  nodeUsage : Ledger NumaNodeId 64 := ∅
  nextId : U64 := 1
  watermark : MemoryGeneration := .initial
  world : World β

def AllocateRequest.spec (req : AllocateRequest) : AllocationSpec where
  bytes := req.bytes
  alignment := req.alignment
  mode := req.mode
  preferredNode := req.preferredNode
  requiredNode := req.requiredNode
  interleaveNodes := req.interleaveNodes
  kind := req.kind
  touch := req.touch
  tag := req.tag

/-- The fields a region takes from its request. -/
def MemoryRegion.requested (id : MemoryRegionId) (generation : MemoryGeneration)
    (req : AllocateRequest) : MemoryRegion where
  id := id
  generation := generation
  kind := req.kind
  mode := req.mode
  requestedBytes := req.bytes
  alignment := req.alignment
  preferredNode := req.preferredNode
  requiredNode := req.requiredNode
  intendedNode := req.intendedNode
  owningProcess := req.owningProcess
  associatedWorker := req.associatedWorker
  associatedAccelerator := req.associatedAccelerator
  workloadId := req.workloadId
  tag := req.tag
  provenance := req.provenance

/-- The fields a region takes from its allocation. -/
def MemoryRegion.granted (r : MemoryRegion) (req : AllocateRequest) (result : AllocationResult) :
    MemoryRegion :=
  { r with
    kind := result.kind
    grantedBytes := result.grantedBytes
    actualNode := result.observedNode
    localityKnown := result.localityKnown
    localityVerified := false
    localityCurrent := true
    touched := result.touched
    backendResult := result
    state := if req.touch then .active else .allocated }

/-- The node a region is charged to. -/
def MemoryRegion.chooseObservedNode (r : MemoryRegion) : NumaNodeId :=
  if r.localityKnown && r.actualNode.isValid then r.actualNode
  else if r.actualNode.isValid then r.actualNode
  else r.intendedNode

/-- The strict placement a migration asks for. -/
def migrationSpec (bytes : Bytes) (target : NumaNodeId) : AllocationSpec where
  bytes := bytes
  kind := .host
  touch := true
  mode := .requiredNode
  requiredNode := target
  tag := ascii "migration"

/-- What a commit rewrites before it advances the generation. -/
def MemoryRegion.rebindTo (r : MemoryRegion) (result : AllocationResult) (target : NumaNodeId) :
    MemoryRegion :=
  { r with
    backendResult := result
    actualNode := result.observedNode
    intendedNode := target
    localityKnown := result.localityKnown
    localityVerified := false
    localityCurrent := true }

/-- `std::min`. -/
def minWord {w : ℕ} (a b : BitVec w) : BitVec w := if b < a then b else a

namespace MemoryManager
variable {β : Type}

def putRegion (id : MemoryRegionId) (r : MemoryRegion) : Exec (MemoryManager β) Unit :=
  modify fun s => { s with regions := s.regions.insert id r }

def addNodeUsage (node : NumaNodeId) (bytes : U64) : Exec (MemoryManager β) Unit :=
  modify fun s => { s with nodeUsage := charge s.nodeUsage node bytes }

/-- An absent entry is created before it is compared, and a failed comparison leaves it. -/
def subNodeUsage (node : NumaNodeId) (bytes : U64) (allowUnderflowError : Bool) :
    Exec (MemoryManager β) Unit := do
  modify fun s => { s with nodeUsage := touch s.nodeUsage node }
  let used := entry (← get).nodeUsage node
  throwIf (!allowUnderflowError && decide (used < bytes)) (.invalidTransition .underflow)
  modify fun s => { s with nodeUsage := settle s.nodeUsage node (used - minWord used bytes) }

/-- A region without a valid node is not accounted. -/
def chargeNode (node : NumaNodeId) (bytes : U64) : Exec (MemoryManager β) Unit :=
  if node.isValid then addNodeUsage node bytes else pure ()

def dischargeNode (node : NumaNodeId) (bytes : U64) : Exec (MemoryManager β) Unit :=
  if node.isValid then subNodeUsage node bytes false else pure ()

/-- A `BackendError` is caught here; every other backend behaviour is a result. -/
def tryAllocate (b : Backend β) (spec : AllocationSpec) :
    Exec (MemoryManager β) (Option AllocationResult) := fun s =>
  match (World.allocate b spec).run s.world with
  | .error _ w => .ok none { s with world := w }
  | .ok r w => .ok (some r) { s with world := w }

def freeAllocation (b : Backend β) (r : AllocationResult) : Exec (MemoryManager β) Unit :=
  modify fun s => { s with world := s.world.free b r }

/-- `next_id_++` and `watermark_.next()`, as for reservations. -/
def takeIdentity : Exec (MemoryManager β) (MemoryRegionId × MemoryGeneration) := do
  let id : MemoryRegionId := ⟨(← get).nextId⟩
  modify fun s => { s with nextId := s.nextId + 1 }
  let generation ← ofExcept (← get).watermark.next
  modify fun s => { s with watermark := generation }
  return (id, generation)

def allocate (b : Backend β) (req : AllocateRequest) : Exec (MemoryManager β) MemoryRegion := do
  throwIf req.bytes.isZero (.invalidTransition .zeroBytes)
  let result ← tryAllocate b req.spec
  let (id, generation) ← takeIdentity
  let r := MemoryRegion.requested id generation req
  match result with
  | none =>
    let r := { r with state := .failed, localityCurrent := false }
    putRegion id r
    return r
  | some result =>
    let r := r.granted req result
    let node := r.chooseObservedNode
    if node.isValid then addNodeUsage node r.grantedBytes.value
    else if req.intendedNode.isValid then addNodeUsage req.intendedNode r.grantedBytes.value
    putRegion id r
    return r

/-- The checks of `release` before it touches the ledger. -/
def releaseRefusal (r : MemoryRegion) (id : MemoryRegionId) (expected : Option MemoryGeneration) :
    Option InvalidTransitionError :=
  if expected.any (fun g => g != r.generation) then some (.releaseStale id)
  else if r.state.isReleased then some (.doubleRelease id)
  else if !canTransition r.state .released && !canTransition r.state .invalidated then
    some (.releaseNotPermitted r.state)
  else none

def release (b : Backend β) (id : MemoryRegionId) (expected : Option MemoryGeneration) :
    Exec (MemoryManager β) Unit := do
  match (← get).regions[id]? with
  | none => throw (.invalidTransition (.releaseUnknown id))
  | some r =>
    if let some e := releaseRefusal r id expected then throw (.invalidTransition e)
    dischargeNode r.chooseObservedNode r.grantedBytes.value
    putRegion id { r with state := .released, localityCurrent := false }
    freeAllocation b r.backendResult

def transition (id : MemoryRegionId) (next : LifecycleState) : Exec (MemoryManager β) Unit := do
  match (← get).regions[id]? with
  | none => throw (.invalidTransition (.transitionUnknown id))
  | some r =>
    throwIf (!canTransition r.state next) (.invalidTransition (.notGuarded r.state next))
    putRegion id { r with state := next }

def invalidateLocalityStale (s : MemoryManager β) : MemoryManager β :=
  { s with
    regions := s.regions.map fun _ r =>
      if r.state.isLive then { r with localityCurrent := false, localityVerified := false } else r }

def perNodeAllocated (s : MemoryManager β) (n : NumaNodeId) : U64 := entry s.nodeUsage n

def accountingClean (s : MemoryManager β) : Bool :=
  !s.regions.toList.any (fun p => p.2.state.isLive) && s.nodeUsage.isEmpty

/-- The checks of a migration before the region starts moving. -/
def migrateRefusal (r : MemoryRegion) (id : MemoryRegionId) : Option InvalidTransitionError :=
  if r.state.isReleased then some (.migrateReleased id)
  else if !canTransition r.state .migrating then some (.migrateNotPermitted r.state)
  else none

/-- The original stays authoritative: a region still migrating becomes active again. -/
def retainOriginal (id : MemoryRegionId) : Exec (MemoryManager β) Unit := do
  if let some r := (← get).regions[id]? then
    if r.state = .migrating then putRegion id { r with state := .active }

/-- The commit block. The old buffer has been freed; the region is rewritten field by
field, and a throw in the middle keeps what is already written. -/
def commitMove (id : MemoryRegionId) (snapshot : MemoryRegion) (result : AllocationResult)
    (target : NumaNodeId) : Exec (MemoryManager β) MigrationView := do
  match (← get).regions[id]? with
  | none => return {}
  | some r =>
    dischargeNode snapshot.chooseObservedNode r.grantedBytes.value
    let r := r.rebindTo result target
    putRegion id r
    let generation ← ofExcept r.generation.next
    let r := { r with generation, state := .rebound }
    putRegion id r
    chargeNode r.chooseObservedNode r.grantedBytes.value
    return { committed := true, copySucceeded := true
             newNode := if result.observedNode.isValid then result.observedNode else target
             generation }

def governedReallocate (b : Backend β) (id : MemoryRegionId) (target : NumaNodeId)
    (copyData : Bool) : Exec (MemoryManager β) MigrationView := do
  match (← get).regions[id]? with
  | none => throw (.invalidTransition (.migrateUnknown id))
  | some r =>
    if let some e := migrateRefusal r id then throw (.invalidTransition e)
    let snapshot := { r with state := .migrating }
    putRegion id snapshot
    match (← tryAllocate b (migrationSpec snapshot.grantedBytes target)).filter (·.ok) with
    | none =>
      retainOriginal id
      return {}
    | some result =>
      let n := minWord snapshot.grantedBytes.value result.grantedBytes.value
      modify fun s => { s with world := s.world.copy snapshot.backendResult result copyData n }
      freeAllocation b snapshot.backendResult
      commitMove id snapshot result target

end MemoryManager

end NumaFabric
