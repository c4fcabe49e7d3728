import NumaFabric.RuntimeFacade
import NumaFabric.WireCodec

/-! The coordinator: it parses a request, checks the authority it carries, calls the
runtime, and answers every frame with one reply. -/
namespace NumaFabric
open Std FaultState ByteCodec

/-- What a connection is known as once it has registered. -/
structure ConnState where
  workerId : WorkerId := .invalid
  boot : WorkerBootId := .invalid
  isWorker : Bool := false
  deriving DecidableEq, Repr

/-- Connections are ordered by their numbers. -/
instance : TransOrd U64 := inferInstance

structure Coordinator (β : Type) where
  runtime : Runtime β
  conns : ExtTreeMap U64 ConnState := ∅
  running : Bool := false

namespace Coordinator
variable {β : Type}

def onRuntime {α : Type} (x : Exec (Runtime β) α) : Exec (Coordinator β) α :=
  zoom Coordinator.runtime (fun s r => { s with runtime := r }) x

/-- Parse a payload from its start; bytes behind the last field are ignored. -/
def parse {α : Type} (r : Reader Exn α) (payload : ByteString) : Exec (Coordinator β) α :=
  match r.run payload with
  | .ok a _ => pure a
  | .error e _ => throw e

def reply (type : MsgType) (payload : ByteString) : Exec (Coordinator β) ByteString :=
  ofExcept (encodeFrame type.toU16 payload)

def errorPayload (msg : ByteString) (av : AuthorityVerification) : ByteString :=
  WireWriter.u8 av.toU8 ++ WireWriter.str msg

def errorReply (msg : ByteString) (av : AuthorityVerification) : Exec (Coordinator β) ByteString :=
  reply .error (errorPayload msg av)

def validateAuthority (s : Coordinator β) (id : WorkerId) (boot : WorkerBootId) :
    AuthorityVerification :=
  match s.runtime.worker id with
  | none => .staleBoot
  | some w => if !w.alive then .staleBoot else if w.bootId ≠ boot then .staleBoot else .accepted

/-- Run a request only under the current boot of its worker. -/
def authorized (id : WorkerId) (boot : WorkerBootId) (refusal : ByteString)
    (body : Exec (Coordinator β) ByteString) : Exec (Coordinator β) ByteString := do
  let av := validateAuthority (← get) id boot
  if av ≠ .accepted then errorReply refusal av else body

/-- The worker and boot that every fenced request starts with. -/
def credentials : Reader Exn (WorkerId × WorkerBootId) := do
  let worker ← WireReader.u64
  let boot ← WireReader.u64
  return (⟨worker⟩, ⟨boot⟩)

def registerFields : Reader Exn (WorkerId × ProcessId) := do
  let worker ← WireReader.u64
  let process ← WireReader.u64
  return (⟨worker⟩, ⟨process⟩)

def registerAck (w : Worker) (s : Runtime β) : ByteString :=
  WireWriter.u64 w.bootId.value ++ WireWriter.u64 s.epoch.value ++
    WireWriter.u64 s.policyGeneration ++ WireWriter.u64 s.topo.generation.value ++
    WireWriter.count s.topo.numaNodeCount ++ WireWriter.u64 s.topo.semanticDigest

/-- An unknown worker is registered, a known one restarted: either way with a fresh boot. -/
def enroll (worker : WorkerId) (process : ProcessId) : Exec (Coordinator β) Worker := do
  match (← get).runtime.worker worker with
  | none => onRuntime (Runtime.registerWorker worker process)
  | some _ => onRuntime (Runtime.restartWorker worker process)

def handleRegister (conn : U64) (payload : ByteString) : Exec (Coordinator β) ByteString := do
  let (worker, process) ← parse registerFields payload
  if !worker.isValid then errorReply (ascii "invalid worker id") .rejectedUnknown
  else
    let w ← enroll worker process
    modify fun s => { s with conns := s.conns.insert conn ⟨worker, w.bootId, true⟩ }
    reply .registerAck (registerAck w (← get).runtime)

structure PlacementFields where
  epoch : U64
  footprint : U64
  preferred : NumaNodeId
  required : NumaNodeId
  hasRequired : Bool
  requireAccelerator : Bool
  accelerator : AcceleratorId
  cpu : U32
  allowFallback : Bool
  revalidation : Bool
  deriving DecidableEq, Repr

def placementFields : Reader Exn PlacementFields := do
  let epoch ← WireReader.u64
  let footprint ← WireReader.u64
  let preferred ← WireReader.u64
  let required ← WireReader.u64
  let hasRequired ← WireReader.flag
  let requireAccelerator ← WireReader.flag
  let accelerator ← WireReader.u64
  let cpu ← WireReader.u32
  let allowFallback ← WireReader.flag
  let revalidation ← WireReader.flag
  return { epoch, footprint, preferred := ⟨preferred⟩, required := ⟨required⟩, hasRequired
           requireAccelerator, accelerator := ⟨accelerator⟩, cpu, allowFallback, revalidation }

/-- The policy generation is the current one plus one, and wraps. -/
def PlacementFields.request (f : PlacementFields) (policyGeneration : U64) : PlacementRequest where
  workloadId := ascii "coordinated"
  memoryFootprint := ⟨f.footprint⟩
  preferredNode := f.preferred
  requiredNode := f.required
  hasRequiredNode := f.hasRequired
  requireAcceleratorLocality := f.requireAccelerator
  preferredAccelerator := f.accelerator
  requiredCpuCount := f.cpu
  allowFallback := f.allowFallback
  policyGeneration := ⟨policyGeneration + 1⟩
  revalidationPending := f.revalidation

def placementReply (d : PlacementDecision) : ByteString :=
  WireWriter.u8 d.kind.toU8 ++ WireWriter.u64 d.selectedNode.value ++
    WireWriter.u64 d.expectedPenalty.value ++ WireWriter.u8 d.expectedLocalityClass.toU8 ++
    WireWriter.str d.bindingConstraint ++ WireWriter.str d.reason ++ WireWriter.str d.wouldChange ++
    WireWriter.count d.rankedCandidates.length ++
    (d.rankedCandidates.flatMap fun c =>
      WireWriter.u64 c.node.value ++ WireWriter.u64 c.total.value ++ WireWriter.flag c.eligible) ++
    WireWriter.count d.eliminatedCandidates.length ++
    d.eliminatedCandidates.flatMap WireWriter.str

/-- The epoch is checked before the boot. -/
def handlePlacement (b : Backend β) (float : FloatCosts) (payload : ByteString) :
    Exec (Coordinator β) ByteString := do
  let ((worker, boot), f) ← parse (do return (← credentials, ← placementFields)) payload
  if f.epoch ≠ (← get).runtime.epoch.value then
    errorReply (ascii "stale coordinator epoch") .staleEpoch
  else
    authorized worker boot (ascii "stale placement authority") do
      let req := f.request (← get).runtime.policyGeneration
      let d ← onRuntime (Runtime.plan b float req)
      reply .placementReply (placementReply d)

def reserveFields (worker : WorkerId) : Reader Exn ReserveRequest := do
  let node ← WireReader.u64
  let bytes ← WireReader.u64
  let cpuSlots ← WireReader.u32
  let accelerator ← WireReader.u64
  let acceleratorCapacity ← WireReader.flag
  return { node := ⟨node⟩, bytes := ⟨bytes⟩, cpuSlots, accelerator := ⟨accelerator⟩
           acceleratorCapacity, worker }

def handleReserve (payload : ByteString) : Exec (Coordinator β) ByteString := do
  let ((worker, boot), req) ← parse (do
    let c ← credentials
    return (c, ← reserveFields c.1)) payload
  authorized worker boot (ascii "stale reserve authority") do
    let r ← onRuntime (Runtime.reserve req)
    reply .reserveReply (WireWriter.u64 r.id.value ++ WireWriter.u64 r.generation.value)

def handleRelease (payload : ByteString) : Exec (Coordinator β) ByteString := do
  let ((worker, boot), id) ← parse (do return (← credentials, ← WireReader.u64)) payload
  authorized worker boot (ascii "stale release authority") do
    onRuntime (Runtime.releaseReservation ⟨id⟩)
    reply .releaseReply (WireWriter.u8 1)

def bindFields : Reader Exn (NumaNodeId × Bool) := do
  let node ← WireReader.u64
  let apply ← WireReader.flag
  return (⟨node⟩, apply)

def handleBind (b : Backend β) (payload : ByteString) : Exec (Coordinator β) ByteString := do
  let ((worker, boot), node, apply) ← parse (do return (← credentials, ← bindFields)) payload
  authorized worker boot (ascii "stale bind authority") do
    let r ← onRuntime (Runtime.bindWorker b worker boot node apply)
    reply .bindReply
      (WireWriter.u64 r.bindingId.value ++ WireWriter.u64 r.generation.value ++
        WireWriter.flag r.applied)

def migrateFields : Reader Exn (MemoryRegionId × NumaNodeId × ByteString) := do
  let region ← WireReader.u64
  let target ← WireReader.u64
  let reason ← WireReader.str
  return (⟨region⟩, ⟨target⟩, reason)

def handleMigrate (b : Backend β) (payload : ByteString) : Exec (Coordinator β) ByteString := do
  let ((worker, boot), region, target, reason) ← parse (do
    return (← credentials, ← migrateFields)) payload
  authorized worker boot (ascii "stale migrate authority") do
    let auth : Auth := ⟨(← get).runtime.epoch, boot⟩
    let committed ← onRuntime (Runtime.migrate b region target worker auth reason)
    reply .migrateReply (WireWriter.flag committed)

/-- The source byte is cast to its enumeration unchecked and then ignored. -/
def observeFields : Reader Exn (NumaNodeId × U8 × Bool) := do
  let node ← WireReader.u64
  let src ← WireReader.u8
  let stale ← WireReader.flag
  return (⟨node⟩, src, stale)

def handleObserve (payload : ByteString) : Exec (Coordinator β) ByteString := do
  let ((worker, boot), _) ← parse (do return (← credentials, ← observeFields)) payload
  authorized worker boot (ascii "stale observe authority") do
    onRuntime (Runtime.observe worker boot)
    reply .observeAck (WireWriter.u8 1)

def handleRevalidate (payload : ByteString) : Exec (Coordinator β) ByteString := do
  let (worker, boot) ← parse credentials payload
  authorized worker boot (ascii "stale revalidate authority") do
    reply .revalidateReply (WireWriter.u8 1)

def discoverReply (t : HostTopology) : ByteString :=
  WireWriter.count t.numaNodeCount ++ WireWriter.count t.groups.length ++
    WireWriter.count t.processorCount ++ WireWriter.u64 t.semanticDigest ++
    WireWriter.flag t.isSingleNode

/-- The switch of `handle_frame`. -/
def dispatch (b : Backend β) (float : FloatCosts) (conn : U64) (frame : Frame) :
    Exec (Coordinator β) ByteString :=
  match MsgType.ofU16? frame.type with
  | some .register => handleRegister conn frame.payload
  | some .placementRequest => handlePlacement b float frame.payload
  | some .reserveRequest => handleReserve frame.payload
  | some .releaseRequest => handleRelease frame.payload
  | some .bindRequest => handleBind b frame.payload
  | some .migrateRequest => handleMigrate b frame.payload
  | some .observeReport => handleObserve frame.payload
  | some .ping => reply .pong (WireWriter.u64 1)
  | some .shutdown => do
    modify fun s => { s with running := false }
    reply .shutdown (WireWriter.u8 1)
  | some .discoverRequest => do
    reply .discoverReply (discoverReply (← get).runtime.topo)
  | some .revalidateRequest => handleRevalidate frame.payload
  | _ => errorReply (ascii "unhandled message type") .rejectedUnknown

/-- Every exception of the switch becomes an error reply with its text. -/
def handleFrame (b : Backend β) (float : FloatCosts) (conn : U64) (frame : Frame) :
    Exec (Coordinator β) ByteString :=
  tryCatch (dispatch b float conn frame) fun e => errorReply e.what .rejectedUnknown

/-- A new connection, or a controller opened in the process. -/
def openConnection (conn : U64) (s : Coordinator β) : Coordinator β :=
  { s with conns := s.conns.insert conn {} }

def closeController (conn : U64) (s : Coordinator β) : Coordinator β :=
  { s with conns := s.conns.erase conn }

/-- The end of a connection thread: the worker last registered over the connection is
marked dead under the boot it got there. -/
def connectionLost (conn : U64) (s : Coordinator β) : Coordinator β :=
  let st := s.conns[conn]?.getD {}
  let runtime := if st.isWorker && st.workerId.isValid then
      s.runtime.markWorkerDead st.workerId st.boot
    else s.runtime
  { s with runtime, conns := s.conns.erase conn }

def advanceEpoch : Exec (Coordinator β) Unit := onRuntime Runtime.advanceEpoch

end Coordinator

end NumaFabric
