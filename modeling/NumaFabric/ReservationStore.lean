import NumaFabric.CoreErrors
import NumaFabric.LedgerCounter

/-! The reservation store: an atomic check-and-commit of memory, execution slots and
accelerator-local capacity, and the three ledgers that account for it. -/
namespace NumaFabric
open Std FaultState LedgerCounter

structure Reservation where
  id : ReservationId := .invalid
  node : NumaNodeId := .invalid
  bytes : Bytes := .zero
  cpuSlots : U32 := 0
  accelerator : AcceleratorId := .invalid
  acceleratorCapacity : Bool := false
  generation : ReservationGeneration := .initial
  owner : ProcessId := .invalid
  worker : WorkerId := .invalid
  active : Bool := true
  deriving DecidableEq, Repr

structure ReserveRequest where
  node : NumaNodeId := .invalid
  bytes : Bytes := .zero
  cpuSlots : U32 := 0
  accelerator : AcceleratorId := .invalid
  acceleratorCapacity : Bool := false
  owner : ProcessId := .invalid
  worker : WorkerId := .invalid
  deriving DecidableEq, Repr

structure ReservationStore where
  reservations : ExtTreeMap ReservationId Reservation := ∅
  nodeMem : Ledger NumaNodeId 64 := ∅
  nodeSlots : Ledger NumaNodeId 32 := ∅
  accelMem : Ledger AcceleratorId 64 := ∅
  nextId : U64 := 1
  watermark : ReservationGeneration := .initial

def kAccelCeiling : U64 := 64 * 1024 * 1024 * 1024

/-- The constructor argument `node_capacity_`; `none` is a null `std::function`. -/
abbrev CapacityFn := Option (NumaNodeId → Capacity)

/-- Zero stands for a node without a declared limit, and for a null function. -/
def CapacityFn.limit (cap : CapacityFn) (n : NumaNodeId) : U64 :=
  match cap with
  | none => 0
  | some f => (f n).value

/-- `cap != 0 && want > cap`. -/
def CapacityFn.exceeded (cap : CapacityFn) (n : NumaNodeId) (want : U64) : Bool :=
  cap.limit n != 0 && decide (cap.limit n < want)

def ReserveRequest.malformed (req : ReserveRequest) : Option ReservationError :=
  if !req.node.isValid then some .requiresNode
  else if req.bytes.isZero && req.cpuSlots == 0 && !req.acceleratorCapacity then some .empty
  else none

def Reservation.usesAccelerator (r : Reservation) : Bool :=
  r.acceleratorCapacity && r.accelerator.isValid

def ReserveRequest.usesAccelerator (req : ReserveRequest) : Bool :=
  req.acceleratorCapacity && req.accelerator.isValid

/-- The record a granted request becomes. -/
def Reservation.granted (id : ReservationId) (generation : ReservationGeneration)
    (req : ReserveRequest) : Reservation where
  id := id
  generation := generation
  node := req.node
  bytes := req.bytes
  cpuSlots := req.cpuSlots
  accelerator := req.accelerator
  acceleratorCapacity := req.acceleratorCapacity
  owner := req.owner
  worker := req.worker
  active := true

namespace ReservationStore

/-- `next_id_++` and `watermark_.next()`: an exhausted watermark throws after the
identifier counter has moved. -/
def takeIdentity : Exec ReservationStore (ReservationId × ReservationGeneration) := do
  let id : ReservationId := ⟨(← get).nextId⟩
  modify fun s => { s with nextId := s.nextId + 1 }
  let generation ← ofExcept (← get).watermark.next
  modify fun s => { s with watermark := generation }
  return (id, generation)

/-- The oversubscription check. The total is looked up with `operator[]`, and the sum
is a 64-bit sum. -/
def admitMemory (cap : CapacityFn) (req : ReserveRequest) : Exec ReservationStore Unit :=
  if req.bytes.isZero then pure ()
  else do
    modify fun s => { s with nodeMem := touch s.nodeMem req.node }
    let already := entry (← get).nodeMem req.node
    throwIf (cap.exceeded req.node (already + req.bytes.value))
      (.reservation (.oversubscription req.node))

def admitAccelerator (req : ReserveRequest) : Exec ReservationStore Unit :=
  if req.usesAccelerator then do
    modify fun s => { s with accelMem := touch s.accelMem req.accelerator }
    let already := entry (← get).accelMem req.accelerator
    throwIf (decide (kAccelCeiling < already + req.bytes.value)) (.reservation .acceleratorCeiling)
  else pure ()

/-- The three `+=` of a granted or restored reservation. -/
def chargeAll (r : Reservation) (s : ReservationStore) : ReservationStore :=
  { s with
    nodeMem := if r.bytes.isZero then s.nodeMem else charge s.nodeMem r.node r.bytes.value
    nodeSlots := if r.cpuSlots = 0 then s.nodeSlots else charge s.nodeSlots r.node r.cpuSlots
    accelMem := if r.usesAccelerator then charge s.accelMem r.accelerator r.bytes.value
      else s.accelMem }

def record (r : Reservation) (s : ReservationStore) : ReservationStore :=
  { s with reservations := s.reservations.insert r.id r }

def reserve (cap : CapacityFn) (req : ReserveRequest) : Exec ReservationStore Reservation := do
  if let some e := req.malformed then throw (.reservation e)
  let (id, generation) ← takeIdentity
  admitMemory cap req
  admitAccelerator req
  let r := Reservation.granted id generation req
  modify fun s => record r (chargeAll r s)
  return r

def dischargeMemory (r : Reservation) : Exec ReservationStore Unit := fun s =>
  match discharge s.nodeMem r.node r.bytes.value with
  | none => .error (.reservation (.underflow r.node)) s
  | some m => .ok () { s with nodeMem := m }

def dischargeSlots (r : Reservation) : Exec ReservationStore Unit := fun s =>
  match discharge s.nodeSlots r.node r.cpuSlots with
  | none => .error (.reservation .slotUnderflow) s
  | some m => .ok () { s with nodeSlots := m }

def dischargeAccelerator (r : Reservation) : Exec ReservationStore Unit :=
  if r.usesAccelerator then fun s =>
    match discharge s.accelMem r.accelerator r.bytes.value with
    | none => .error (.reservation .acceleratorUnderflow) s
    | some m => .ok () { s with accelMem := m }
  else pure ()

/-- The checks of `release` before it touches a ledger. -/
def releaseRefusal (r : Reservation) (id : ReservationId)
    (expected : Option ReservationGeneration) : Option ReservationError :=
  if !r.active then some (.duplicateRelease id)
  else if expected.any (fun g => g != r.generation) then some (.staleRelease id)
  else none

/-- The ledgers are discharged one after another and the record is closed last, so
an underflow in a later ledger leaves the earlier ones already reduced. -/
def release (id : ReservationId) (expected : Option ReservationGeneration) :
    Exec ReservationStore Unit := do
  match (← get).reservations[id]? with
  | none => throw (.reservation (.unknown id))
  | some r =>
    if let some e := releaseRefusal r id expected then throw (.reservation e)
    dischargeMemory r
    dischargeSlots r
    dischargeAccelerator r
    modify fun s => { s with reservations := s.reservations.insert id { r with active := false } }

/-- The capacity test of `restore`. It looks the total up with `operator[]` only when
the node has a limit. -/
def restoreFits (cap : CapacityFn) (r : Reservation) : Exec ReservationStore Bool :=
  if !r.bytes.isZero && cap.limit r.node != 0 then do
    modify fun s => { s with nodeMem := touch s.nodeMem r.node }
    let already := entry (← get).nodeMem r.node
    return !cap.exceeded r.node (already + r.bytes.value)
  else pure true

/-- Only an active record moves the watermark, and no record moves `next_id_`. -/
def reinstate (r : Reservation) (s : ReservationStore) : ReservationStore :=
  let s := record r (chargeAll r s)
  { s with watermark := if s.watermark.value < r.generation.value then r.generation else s.watermark }

def restore (cap : CapacityFn) (r : Reservation) : Exec ReservationStore Bool := do
  throwIf (!r.id.isValid) (.reservation .restoreInvalid)
  throwIf ((← get).reservations.contains r.id) (.reservation (.restoreDuplicate r.id))
  if !r.active then
    modify (record r)
    return true
  else if ← restoreFits cap r then
    modify (reinstate r)
    return true
  else
    return false

def all (s : ReservationStore) : List Reservation := s.reservations.values

def nodeReservedMemory (s : ReservationStore) (n : NumaNodeId) : U64 := entry s.nodeMem n

def totalReservedMemory (s : ReservationStore) : U64 :=
  s.nodeMem.foldl (fun t _ b => t + b) 0

def acceleratorReserved (s : ReservationStore) (a : AcceleratorId) : U64 := entry s.accelMem a

def accountingClean (s : ReservationStore) : Bool :=
  !s.reservations.toList.any (fun p => p.2.active) &&
    (s.nodeMem.isEmpty && s.nodeSlots.isEmpty && s.accelMem.isEmpty)

end ReservationStore

end NumaFabric
