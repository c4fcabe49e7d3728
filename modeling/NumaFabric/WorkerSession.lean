import NumaFabric.CoordinatorProtocol
import NumaFabric.FrameStream

/-! The protocol client: each call writes one request, waits for one reply and reads it. -/
namespace NumaFabric
open FaultState ByteCodec Coordinator

structure RegisterInfo where
  boot : WorkerBootId := .invalid
  epoch : U64 := 0
  policyGen : U64 := 0
  hostGen : U64 := 0
  nodeCount : U32 := 0
  digest : U64 := 0
  deriving DecidableEq, Repr

structure DiscoverInfo where
  nodeCount : U32 := 0
  groups : U32 := 0
  processors : U32 := 0
  digest : U64 := 0
  singleNode : Bool := false
  deriving DecidableEq, Repr

structure PlacementOut where
  ok : Bool := false
  decision : U8 := 0
  node : U64 := 0
  penalty : U64 := 0
  locality : U8 := 0
  bindingConstraint : ByteString := []
  reason : ByteString := []
  wouldChange : ByteString := []
  candidateCount : U32 := 0
  candidates : List (U64 × U64) := []
  deriving DecidableEq, Repr

/-- `incoming` is what the next calls of `recv` return; an empty chunk, or none at all, is
a connection that was closed or failed. -/
structure WorkerSession where
  connected : Bool := false
  decoder : FrameStreamDecoder := {}
  incoming : List ByteString := []
  sent : List ByteString := []
  lastError : Bool := false
  lastErrorCode : U8 := 0
  lastErrorMessage : ByteString := []
  deriving DecidableEq, Repr

namespace WorkerSession

/-- The outcome of `send` is ignored by every caller. -/
def sendFrame (frame : ByteString) : Exec WorkerSession Unit :=
  modify fun s => if s.connected then { s with sent := s.sent ++ [frame] } else s

/-- A code that could be read is kept even when the text behind it could not. -/
def recordError (f : Frame) (s : WorkerSession) : WorkerSession :=
  let s := { s with lastError := true, lastErrorCode := 0, lastErrorMessage := ascii "unknown error" }
  match WireReader.u8.run f.payload with
  | .error _ _ => s
  | .ok code rest =>
    let s := { s with lastErrorCode := code }
    match WireReader.str.run rest with
    | .error _ _ => s
    | .ok msg _ => { s with lastErrorMessage := msg }

def push (data : ByteString) : Exec WorkerSession (Option Frame) :=
  zoom WorkerSession.decoder (fun s d => { s with decoder := d }) (FrameStreamDecoder.push data)

/-- A received frame, noted when it is an error. -/
def noted (f : Frame) : Exec WorkerSession (Option Frame) := do
  if f.type = MsgType.error.toU16 then modify (recordError f)
  return some f

/-- `recv` and `push` until a frame is complete. -/
def recvChunks : List ByteString → Exec WorkerSession (Option Frame)
  | [] => return none
  | chunk :: rest => do
    modify fun s => { s with incoming := rest }
    if chunk = [] then return none
    match ← push chunk with
    | some f => noted f
    | none => recvChunks rest

def recvFrame : Exec WorkerSession (Option Frame) := do
  if !(← get).connected then return none
  match ← push [] with
  | some f => noted f
  | none => recvChunks (← get).incoming

def exchange (type : MsgType) (payload : ByteString) : Exec WorkerSession (Option Frame) := do
  sendFrame (← ofExcept (encodeFrame type.toU16 payload))
  recvFrame

/-- Read a reply from its start. -/
def readReply {α : Type} (r : Reader Exn α) (f : Frame) : Exec WorkerSession α :=
  match r.run f.payload with
  | .ok a _ => pure a
  | .error e _ => throw e

/-- The reply, unless none came or it is an error. -/
def accepted (reply : Option Frame) : Option Frame :=
  reply.filter fun f => f.type ≠ MsgType.error.toU16

def registerInfo : Reader Exn RegisterInfo := do
  let boot ← WireReader.u64
  let epoch ← WireReader.u64
  let policyGen ← WireReader.u64
  let hostGen ← WireReader.u64
  let nodeCount ← WireReader.u32
  let digest ← WireReader.u64
  return { boot := ⟨boot⟩, epoch, policyGen, hostGen, nodeCount, digest }

/-- An error reply is read as if it were an acknowledgement. -/
def sendRegister (id : WorkerId) (pid : ProcessId) : Exec WorkerSession RegisterInfo := do
  match ← exchange .register (WireWriter.u64 id.value ++ WireWriter.u64 pid.value) with
  | none => return {}
  | some f => readReply registerInfo f

def discoverInfo : Reader Exn DiscoverInfo := do
  let nodeCount ← WireReader.u32
  let groups ← WireReader.u32
  let processors ← WireReader.u32
  let digest ← WireReader.u64
  let singleNode ← WireReader.flag
  return { nodeCount, groups, processors, digest, singleNode }

def sendDiscover : Exec WorkerSession DiscoverInfo := do
  match ← exchange .discoverRequest [] with
  | none => return {}
  | some f => readReply discoverInfo f

def placementPayload (id : WorkerId) (boot : WorkerBootId) (f : PlacementFields) : ByteString :=
  [WireWriter.u64 id.value, WireWriter.u64 boot.value, WireWriter.u64 f.epoch,
    WireWriter.u64 f.footprint, WireWriter.u64 f.preferred.value, WireWriter.u64 f.required.value,
    WireWriter.flag f.hasRequired, WireWriter.flag f.requireAccelerator,
    WireWriter.u64 f.accelerator.value, WireWriter.u32 f.cpu, WireWriter.flag f.allowFallback,
    WireWriter.flag f.revalidation].flatten

/-- One ranked candidate; whether it is eligible is read and dropped. -/
def candidate : Reader Exn (U64 × U64) := do
  let node ← WireReader.u64
  let total ← WireReader.u64
  let _ ← WireReader.u8
  return (node, total)

/-- The count of eliminated candidates is read, their texts are not. -/
def placementOut : Reader Exn PlacementOut := do
  let decision ← WireReader.u8
  let node ← WireReader.u64
  let penalty ← WireReader.u64
  let locality ← WireReader.u8
  let bindingConstraint ← WireReader.str
  let reason ← WireReader.str
  let wouldChange ← WireReader.str
  let candidateCount ← WireReader.u32
  let candidates ← times candidateCount.toNat candidate
  let _ ← WireReader.u32
  return { ok := true, decision, node, penalty, locality, bindingConstraint, reason, wouldChange
           candidateCount, candidates }

def sendPlacement (id : WorkerId) (boot : WorkerBootId) (f : PlacementFields) :
    Exec WorkerSession PlacementOut := do
  match accepted (← exchange .placementRequest (placementPayload id boot f)) with
  | none => return {}
  | some f => readReply placementOut f

/-- Two words: an identifier and a generation. -/
def pair : Reader Exn (U64 × U64) := do
  let first ← WireReader.u64
  let second ← WireReader.u64
  return (first, second)

def sendReserve (id : WorkerId) (boot : WorkerBootId) (node bytes : U64) (cpu : U32) (accel : U64)
    (accelCap : Bool) : Exec WorkerSession (U64 × U64) := do
  match accepted (← exchange .reserveRequest
    [WireWriter.u64 id.value, WireWriter.u64 boot.value, WireWriter.u64 node, WireWriter.u64 bytes,
      WireWriter.u32 cpu, WireWriter.u64 accel, WireWriter.flag accelCap].flatten) with
  | none => return (0, 0)
  | some f => readReply pair f

def sendRelease (id : WorkerId) (boot : WorkerBootId) (reservationId : U64) :
    Exec WorkerSession Bool := do
  let reply ← exchange .releaseRequest
    [WireWriter.u64 id.value, WireWriter.u64 boot.value, WireWriter.u64 reservationId].flatten
  return (accepted reply).isSome

def sendBind (id : WorkerId) (boot : WorkerBootId) (node : U64) (apply : Bool) :
    Exec WorkerSession (U64 × U64) := do
  match accepted (← exchange .bindRequest
    [WireWriter.u64 id.value, WireWriter.u64 boot.value, WireWriter.u64 node,
      WireWriter.flag apply].flatten) with
  | none => return (0, 0)
  | some f => readReply pair f

def sendMigrate (id : WorkerId) (boot : WorkerBootId) (region target : U64) (reason : ByteString) :
    Exec WorkerSession Bool := do
  match accepted (← exchange .migrateRequest
    [WireWriter.u64 id.value, WireWriter.u64 boot.value, WireWriter.u64 region,
      WireWriter.u64 target, WireWriter.str reason].flatten) with
  | none => return false
  | some f => readReply WireReader.flag f

def sendObserve (id : WorkerId) (boot : WorkerBootId) (node : U64) (source : U8) (stale : Bool) :
    Exec WorkerSession Bool := do
  let reply ← exchange .observeReport
    [WireWriter.u64 id.value, WireWriter.u64 boot.value, WireWriter.u64 node, WireWriter.u8 source,
      WireWriter.flag stale].flatten
  return (accepted reply).isSome

/-- Any reply will do. -/
def sendPing : Exec WorkerSession Bool := do
  return (← exchange .ping []).isSome

end WorkerSession

end NumaFabric
