import NumaFabric.RuntimeRecovery

/-! The remaining operations of the runtime, and a runtime run through its public calls
one after another. Calls that only read are left out of the runs. -/
namespace NumaFabric
open Std FaultState

/-- The calls of the backend that look at the host; what they throw is a text. -/
structure HostProbe (β : Type) where
  discoverHost : Fault ByteString β HostTopology
  enumerateAccelerators : Fault ByteString β (List AcceleratorInfo)

structure ExecuteOptions where
  allocateMemory : Bool := false
  bindWorker : Bool := false
  verifyMemory : Bool := false
  memoryFootprint : Bytes := .zero
  existingRegion : MemoryRegionId := .invalid
  deriving DecidableEq, Repr

def PlacementDecisionKind.text : PlacementDecisionKind → ByteString
  | place => ascii "PLACE"
  | placeWithPenalty => ascii "PLACE_WITH_PENALTY"
  | rebind => ascii "REBIND"
  | migrate => ascii "MIGRATE"
  | defer => ascii "DEFER"
  | reject => ascii "REJECT"
  | revalidationRequired => ascii "REVALIDATION_REQUIRED"

/-- The decision puts the worker on a node. -/
def PlacementDecisionKind.places : PlacementDecisionKind → Bool
  | place | placeWithPenalty | rebind | migrate => true
  | defer | reject | revalidationRequired => false

def AllocationKind.text : AllocationKind → ByteString
  | host => ascii "HOST"
  | numaHost => ascii "NUMA_HOST"
  | pinned => ascii "PINNED"
  | synthetic => ascii "SYNTHETIC"

namespace Heap

/-- The byte that the proof of an allocation writes at an index. -/
def pattern (i : ℕ) : U8 := BitVec.ofNat 8 (i * 131 + 17)

def writePattern (h : Heap) (p n : ℕ) : Heap :=
  fun a => if p ≤ a ∧ a < p + n then pattern (a - p) else h a

/-- Each byte is compared and then cleared; the first difference ends the loop. -/
def verifyPattern (p : ℕ) : ℕ → ℕ → Heap → Bool × Heap
  | 0, _, h => (true, h)
  | n + 1, i, h =>
    if h (p + i) ≠ pattern i then (false, h)
    else verifyPattern p n (i + 1) fun a => if a = p + i then 0 else h a

end Heap

namespace Runtime
variable {β : Type}

/-- A runtime that has done nothing yet, in any surrounding. -/
def create (backend : β) (heap : Heap) : Runtime β := { migrator := .initial backend heap }

def onBackend {ε α : Type} (x : Fault ε β α) : Fault ε (Runtime β) α :=
  zoom (fun s => s.migrator.mem.world.backend)
    (fun s backend =>
      let mem := { s.migrator.mem with world := { s.migrator.mem.world with backend } }
      { s with migrator := { s.migrator with mem } }) x

def onMemory {α : Type} (x : Exec (MemoryManager β) α) : Exec (Runtime β) α :=
  onMigrator (MigrationManager.onMemory x)

def discover (probe : HostProbe β) : Fault ByteString (Runtime β) HostTopology := do
  let found ← onBackend probe.discoverHost
  modify fun s => { s with topo := found }
  return (← get).topo

def refreshAccelerators (probe : HostProbe β) : Fault ByteString (Runtime β) (List AcceleratorInfo) := do
  let found ← onBackend probe.enumerateAccelerators
  modify fun s => { s with accelerators := found }
  return (← get).accelerators

def registerAccelerators (accelerators : List AcceleratorInfo) (s : Runtime β) : Runtime β :=
  { s with accelerators := s.accelerators ++ accelerators }

def allocate (b : Backend β) (req : AllocateRequest) : Exec (Runtime β) MemoryRegion :=
  onMemory (MemoryManager.allocate b req)

def release (b : Backend β) (id : MemoryRegionId) : Exec (Runtime β) Unit :=
  onMemory (MemoryManager.release b id none)

def allocateOnNode (b : Backend β) (bytes : Bytes) (node : NumaNodeId) (kind : AllocationKind) :
    Exec (Runtime β) MemoryRegion :=
  allocate b
    { bytes, mode := .preferredNode, preferredNode := node, intendedNode := node, kind
      touch := true, alignment := ⟨64 * 1024⟩ }

/-- What `execute` asks the memory manager for. -/
def executeRequest (d : PlacementDecision) (opts : ExecuteOptions) : AllocateRequest where
  bytes := opts.memoryFootprint
  mode := .requiredNode
  requiredNode := d.selectedNode
  preferredNode := d.selectedNode
  intendedNode := d.selectedNode
  touch := true
  alignment := ⟨64 * 1024⟩
  provenance := d.provenance

/-- Write a pattern over the buffer of a region, read it back and clear it. -/
def verifyRegion (r : MemoryRegion) : Exec (Runtime β) Bool := fun s =>
  let world := s.migrator.mem.world
  let p := r.backendResult.ptr.toNat
  let n := r.grantedBytes.value.toNat
  let (verified, heap) := Heap.verifyPattern p n 0 (world.heap.writePattern p n)
  let mem := { s.migrator.mem with world := { world with heap } }
  .ok verified { s with migrator := { s.migrator with mem } }

def executeMemory (b : Backend β) (d : PlacementDecision) (opts : ExecuteOptions) :
    Exec (Runtime β) ByteString := do
  let region ← allocate b (executeRequest d opts)
  if opts.verifyMemory && region.kind != .synthetic && region.backendResult.hasBuffer then
    let verified ← verifyRegion region
    return ascii " region=" ++ region.id.text ++ ascii " granted=" ++
      decimal region.grantedBytes.value ++ ascii " verify=" ++
      if verified then ascii "ok" else ascii "FAILED"
  else return ascii " region=" ++ region.id.text ++ ascii " kind=" ++ region.kind.text

/-- A decision that places nothing is only reported. -/
def execute (b : Backend β) (d : PlacementDecision) (opts : ExecuteOptions) :
    Exec (Runtime β) ByteString := do
  if !d.kind.places then return d.kind.text ++ ascii ": " ++ d.reason
  let memory ← if opts.allocateMemory then executeMemory b d opts else pure []
  return d.kind.text ++ ascii " -> node " ++ d.selectedNode.text ++ ascii " (penalty " ++
    decimal d.expectedPenalty.value ++ ascii ")" ++ memory ++
    if opts.bindWorker then ascii " (binding delegated to bind_worker)" else []

/-- A public call that may change the runtime. -/
inductive Op
  | discover
  | refreshAccelerators
  | registerAccelerators (accelerators : List AcceleratorInfo)
  | allocate (req : AllocateRequest)
  | release (id : MemoryRegionId)
  | allocateOnNode (bytes : Bytes) (node : NumaNodeId) (kind : AllocationKind)
  | execute (d : PlacementDecision) (opts : ExecuteOptions)
  | reserve (req : ReserveRequest)
  | releaseReservation (id : ReservationId)
  | registerWorker (id : WorkerId) (pid : ProcessId)
  | restartWorker (id : WorkerId) (pid : ProcessId)
  | markWorkerDead (id : WorkerId) (boot : WorkerBootId)
  | bindWorker (id : WorkerId) (boot : WorkerBootId) (node : NumaNodeId) (applyAffinity : Bool)
  | observe (id : WorkerId) (boot : WorkerBootId)
  | migrate (region : MemoryRegionId) (target : NumaNodeId) (worker : WorkerId) (auth : Auth)
      (reason : ByteString)
  | advanceEpoch
  | advancePolicyGeneration
  | recover (disk : Persistence.Disk) (path : ByteString)

/-- The runtime after a call, whether it returned or threw. -/
def step (b : Backend β) (probe : HostProbe β) (s : Runtime β) : Op → Runtime β
  | .discover => stateAfter (discover probe) s
  | .refreshAccelerators => stateAfter (refreshAccelerators probe) s
  | .registerAccelerators accelerators => s.registerAccelerators accelerators
  | .allocate req => stateAfter (allocate b req) s
  | .release id => stateAfter (release b id) s
  | .allocateOnNode bytes node kind => stateAfter (allocateOnNode b bytes node kind) s
  | .execute d opts => stateAfter (execute b d opts) s
  | .reserve req => stateAfter (reserve req) s
  | .releaseReservation id => stateAfter (releaseReservation id) s
  | .registerWorker id pid => stateAfter (registerWorker id pid) s
  | .restartWorker id pid => stateAfter (restartWorker id pid) s
  | .markWorkerDead id boot => s.markWorkerDead id boot
  | .bindWorker id boot node applyAffinity => stateAfter (bindWorker b id boot node applyAffinity) s
  | .observe id boot => stateAfter (observe id boot) s
  | .migrate region target worker auth reason =>
    stateAfter (migrate b region target worker auth reason) s
  | .advanceEpoch => stateAfter advanceEpoch s
  | .advancePolicyGeneration => s.advancePolicyGeneration
  | .recover disk path => stateAfter (recover disk path) s

def run (b : Backend β) (probe : HostProbe β) (s : Runtime β) (ops : List Op) : Runtime β :=
  ops.foldl (step b probe) s

end Runtime

end NumaFabric
