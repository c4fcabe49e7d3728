import NumaFabric.FrameCodec

/-! Versioned binary persistence: the four record formats, the payload that holds them,
and the checksummed container that is written to a temporary file and renamed. -/
namespace NumaFabric
open FaultState ByteCodec

/-- `NUMAFABRICP1`. -/
def kContainerMagic : ByteString :=
  [0x4E, 0x55, 0x4D, 0x41, 0x46, 0x41, 0x42, 0x52, 0x49, 0x43, 0x50, 0x31]

def kContainerVersion : U32 := 1

def kMaxPersistedRecords : ℕ := 2 ^ 20

def kHeaderSize : ℕ := 12 + 4 + 4 + 4

def kMaxPayload : ℕ := 2 ^ 28

structure PersistedWorker where
  id : WorkerId := .invalid
  boot : WorkerBootId := .invalid
  incarnation : U64 := 0
  alive : Bool := false
  node : NumaNodeId := .invalid
  placementGeneration : PlacementGeneration := .initial
  bindingGeneration : BindingGeneration := .initial
  policyGeneration : PolicyGeneration := .initial
  liveGeneration : U64 := 0
  deriving DecidableEq, Repr

structure PersistedReservation where
  id : ReservationId := .invalid
  node : NumaNodeId := .invalid
  bytes : U64 := 0
  cpuSlots : U32 := 0
  accelerator : AcceleratorId := .invalid
  acceleratorCapacity : Bool := false
  generation : ReservationGeneration := .initial
  active : Bool := false
  deriving DecidableEq, Repr

structure PersistedPlacement where
  id : PlacementId := .invalid
  generation : PlacementGeneration := .initial
  worker : WorkerId := .invalid
  workerBoot : WorkerBootId := .invalid
  node : NumaNodeId := .invalid
  source : ProvenanceSource := .unknown
  committedGeneration : U64 := 0
  deriving DecidableEq, Repr

structure PersistedObservation where
  id : ObservationId := .invalid
  generation : ObservationGeneration := .initial
  worker : WorkerId := .invalid
  boot : WorkerBootId := .invalid
  node : NumaNodeId := .invalid
  source : ProvenanceSource := .unknown
  stale : Bool := false
  deriving DecidableEq, Repr

structure PersistedState where
  coordinatorEpoch : U64 := 0
  hostGeneration : U64 := 0
  policyGeneration : U64 := 0
  workers : List PersistedWorker := []
  reservations : List PersistedReservation := []
  placements : List PersistedPlacement := []
  observations : List PersistedObservation := []
  deriving DecidableEq, Repr

namespace Persistence

def flag (b : Bool) : U8 := if b then 1 else 0

def u8 : Reader Exn U8 := word 8 1 (.persistence .truncatedPayload)

def u32 : Reader Exn U32 := word 32 4 (.persistence .truncatedPayload)

def u64 : Reader Exn U64 := word 64 8 (.persistence .truncatedPayload)

/-- The source byte of a placement or an observation. -/
def provenance : Reader Exn ProvenanceSource := do
  match ProvenanceSource.ofU8? (← u8) with
  | none => throw (.persistence .malformedProvenance)
  | some source => return source

def writeWorker (x : PersistedWorker) : ByteString :=
  [toBytes 8 x.id.value, toBytes 8 x.boot.value, toBytes 8 x.incarnation, toBytes 1 (flag x.alive),
    toBytes 8 x.node.value, toBytes 8 x.placementGeneration.value,
    toBytes 8 x.bindingGeneration.value, toBytes 8 x.policyGeneration.value,
    toBytes 8 x.liveGeneration].flatten

def readWorker : Reader Exn PersistedWorker := do
  let id ← u64
  let boot ← u64
  let incarnation ← u64
  let alive ← u8
  let node ← u64
  let placementGeneration ← u64
  let bindingGeneration ← u64
  let policyGeneration ← u64
  let liveGeneration ← u64
  let x : PersistedWorker :=
    { id := ⟨id⟩, boot := ⟨boot⟩, incarnation, alive := alive != 0, node := ⟨node⟩
      placementGeneration := ⟨placementGeneration⟩, bindingGeneration := ⟨bindingGeneration⟩
      policyGeneration := ⟨policyGeneration⟩, liveGeneration }
  throwIf (!x.id.isValid) (.persistence (.invalidId .worker))
  return x

def writeRes (x : PersistedReservation) : ByteString :=
  [toBytes 8 x.id.value, toBytes 8 x.node.value, toBytes 8 x.bytes, toBytes 4 x.cpuSlots,
    toBytes 8 x.accelerator.value, toBytes 1 (flag x.acceleratorCapacity),
    toBytes 8 x.generation.value, toBytes 1 (flag x.active)].flatten

def readRes : Reader Exn PersistedReservation := do
  let id ← u64
  let node ← u64
  let bytes ← u64
  let cpuSlots ← u32
  let accelerator ← u64
  let acceleratorCapacity ← u8
  let generation ← u64
  let active ← u8
  let x : PersistedReservation :=
    { id := ⟨id⟩, node := ⟨node⟩, bytes, cpuSlots, accelerator := ⟨accelerator⟩
      acceleratorCapacity := acceleratorCapacity != 0, generation := ⟨generation⟩
      active := active != 0 }
  throwIf (!x.id.isValid) (.persistence (.invalidId .reservation))
  return x

def writePlace (x : PersistedPlacement) : ByteString :=
  [toBytes 8 x.id.value, toBytes 8 x.generation.value, toBytes 8 x.worker.value,
    toBytes 8 x.workerBoot.value, toBytes 8 x.node.value, toBytes 1 x.source.toU8,
    toBytes 8 x.committedGeneration].flatten

def readPlace : Reader Exn PersistedPlacement := do
  let id ← u64
  let generation ← u64
  let worker ← u64
  let workerBoot ← u64
  let node ← u64
  let source ← provenance
  let committedGeneration ← u64
  let x : PersistedPlacement :=
    { id := ⟨id⟩, generation := ⟨generation⟩, worker := ⟨worker⟩, workerBoot := ⟨workerBoot⟩
      node := ⟨node⟩, source, committedGeneration }
  throwIf (!x.id.isValid) (.persistence (.invalidId .placement))
  return x

def writeObs (x : PersistedObservation) : ByteString :=
  [toBytes 8 x.id.value, toBytes 8 x.generation.value, toBytes 8 x.worker.value,
    toBytes 8 x.boot.value, toBytes 8 x.node.value, toBytes 1 x.source.toU8,
    toBytes 1 (flag x.stale)].flatten

def readObs : Reader Exn PersistedObservation := do
  let id ← u64
  let generation ← u64
  let worker ← u64
  let boot ← u64
  let node ← u64
  let source ← provenance
  let stale ← u8
  let x : PersistedObservation :=
    { id := ⟨id⟩, generation := ⟨generation⟩, worker := ⟨worker⟩, boot := ⟨boot⟩, node := ⟨node⟩
      source, stale := stale != 0 }
  throwIf (!x.id.isValid) (.persistence (.invalidId .observation))
  return x

/-- A count and the records, refused above the limit. -/
def writeMany {α : Type} (kind : RecordKind) (write : α → ByteString) (xs : List α) :
    Except Exn ByteString :=
  if kMaxPersistedRecords < xs.length then .error (.persistence (.tooMany kind))
  else .ok (toBytes 4 (BitVec.ofNat 32 xs.length) ++ xs.flatMap write)

def readMany {α : Type} (kind : RecordKind) (read : Reader Exn α) : Reader Exn (List α) := do
  let count ← u32
  throwIf (decide (kMaxPersistedRecords < count.toNat)) (.persistence (.impossibleCount kind))
  times count.toNat read

def serialize (state : PersistedState) : Except Exn ByteString := do
  let workers ← writeMany .worker writeWorker state.workers
  let reservations ← writeMany .reservation writeRes state.reservations
  let placements ← writeMany .placement writePlace state.placements
  let observations ← writeMany .observation writeObs state.observations
  return [toBytes 8 state.coordinatorEpoch, toBytes 8 state.hostGeneration,
    toBytes 8 state.policyGeneration, workers, reservations, placements, observations].flatten

def readState : Reader Exn PersistedState := do
  let coordinatorEpoch ← u64
  let hostGeneration ← u64
  let policyGeneration ← u64
  let workers ← readMany .worker readWorker
  let reservations ← readMany .reservation readRes
  let placements ← readMany .placement readPlace
  let observations ← readMany .observation readObs
  return { coordinatorEpoch, hostGeneration, policyGeneration, workers, reservations, placements
           observations }

def deserialize (data : ByteString) : Except Exn PersistedState :=
  if kMaxPayload < data.length then .error (.persistence .payloadTooLarge)
  else
    match readState.run data with
    | .error e _ => .error e
    | .ok s rest => if rest = [] then .ok s else .error (.persistence .trailingGarbage)

/-- The container header up to the checksum field. -/
def containerHead (payload : ByteString) : ByteString :=
  kContainerMagic ++ toBytes 4 kContainerVersion ++ toBytes 4 (BitVec.ofNat 32 payload.length)

def container (payload : ByteString) : ByteString :=
  let head := containerHead payload
  let crc := crc32 (head ++ payload)
  head ++ toBytes 4 crc ++ payload

/-- The content of each path. -/
abbrev Disk := ByteString → Option ByteString

def Disk.put (d : Disk) (path : ByteString) (content : Option ByteString) : Disk :=
  fun p => if p = path then content else d p

/-- Which system call of `save` fails; a failed write has put some bytes on the disk. -/
inductive SaveFault
  | openTemp
  | write (written : ByteString)
  | rename
  deriving DecidableEq, Repr

def save (fault : Option SaveFault) (state : PersistedState) (path : ByteString) :
    Exec Disk Unit := do
  let payload ← ofExcept (serialize state)
  let tmp := path ++ ascii ".tmp"
  match fault with
  | some .openTemp => throw (.persistence .cannotOpenTemp)
  | some (.write written) =>
    modify fun d => d.put tmp (some written)
    throw (.persistence .writeFailed)
  | some .rename =>
    modify fun d => d.put tmp (some (container payload))
    throw (.persistence .renameFailed)
  | none =>
    modify fun d => d.put tmp (some (container payload))
    modify fun d => (d.put path (d tmp)).put tmp none

/-- The strict checks of a container, and then its payload. -/
def openContainer (bytes : ByteString) : Except Exn ByteString := do
  if bytes.length < kHeaderSize then throw (.persistence .containerTruncated)
  if bytes.take 12 ≠ kContainerMagic then throw (.persistence .magicMismatch)
  if field 32 4 12 bytes ≠ kContainerVersion then throw (.persistence .unsupportedVersion)
  let len := (field 32 4 16 bytes).toNat
  if kMaxPayload < len then throw (.persistence .impossibleLength)
  if bytes.length ≠ kHeaderSize + len then throw (.persistence .lengthMismatch)
  let payload := bytes.drop kHeaderSize
  if crc32 (bytes.take (kHeaderSize - 4) ++ payload) ≠ field 32 4 20 bytes then
    throw (.persistence .checksumCorruption)
  return payload

def load (path : ByteString) : Exec Disk PersistedState := do
  match (← get) path with
  | none => throw (.persistence .cannotOpen)
  | some bytes =>
    let payload ← ofExcept (openContainer bytes)
    ofExcept (deserialize payload)

end Persistence

end NumaFabric
