import Mathlib

/-! Machine words, tagged identifiers and generations, dimensioned quantities, and
the closed enumerations shared by every subsystem. -/
namespace NumaFabric
open Std

abbrev U8 := BitVec 8
abbrev U16 := BitVec 16
abbrev U32 := BitVec 32
abbrev U64 := BitVec 64

/-- `UINT64_MAX`. -/
def u64Max : U64 := BitVec.allOnes 64

/-- The bytes of a `std::string`. -/
abbrev ByteString := List U8

/-- The bytes of a literal whose characters are all ASCII. -/
def ascii (s : String) : ByteString := s.toList.map fun c => BitVec.ofNat 8 c.toNat

/-- `std::to_string` of an unsigned word. -/
def decimal (v : U64) : ByteString :=
  (Nat.toDigits 10 v.toNat).map fun c => BitVec.ofNat 8 c.toNat

theorem decimal_length_le (v : U64) : (decimal v).length ≤ 20 := by
  rw [decimal, List.length_map, Nat.length_toDigits_le_iff (by decide) (by decide)]
  exact Nat.lt_trans v.isLt (by decide)

/-- The marker structs that keep identifiers and generations of different entities apart. -/
inductive Tag
  | host | numaNode | processor | processorGroup | memoryRegion | worker | workerBoot | process
  | accelerator | placement | binding | policy | observation | coordinatorEpoch | attempt
  | reservation | source
  deriving DecidableEq, Repr

structure Id (t : Tag) where
  value : U64
  deriving DecidableEq, Repr

namespace Id
variable {t : Tag}

def invalid : Id t := ⟨0⟩

def isValid (i : Id t) : Bool := i.value != 0

/-- `to_string`. -/
def text (i : Id t) : ByteString := decimal i.value

instance : Ord (Id t) := ⟨compareOn Id.value⟩

instance : TransOrd (Id t) := inferInstanceAs (TransCmp (compareOn Id.value))

instance : LawfulEqOrd (Id t) where
  eq_of_compare {a b} h := by
    cases a
    cases b
    exact congrArg Id.mk (LawfulEqOrd.eq_of_compare h)

instance : Inhabited (Id t) := ⟨invalid⟩

@[simp] theorem isValid_invalid : (invalid : Id t).isValid = false := rfl

end Id

structure Generation (t : Tag) where
  value : U64
  deriving DecidableEq, Repr

namespace Generation
variable {t : Tag}

def initial : Generation t := ⟨0⟩

def invalid : Generation t := ⟨0⟩

instance : Inhabited (Generation t) := ⟨initial⟩

end Generation

abbrev HostId := Id .host
abbrev HostGeneration := Generation .host
abbrev NumaNodeId := Id .numaNode
abbrev NumaNodeGeneration := Generation .numaNode
abbrev ProcessorId := Id .processor
abbrev ProcessorGroupId := Id .processorGroup
abbrev MemoryRegionId := Id .memoryRegion
abbrev MemoryGeneration := Generation .memoryRegion
abbrev WorkerId := Id .worker
abbrev WorkerBootId := Id .workerBoot
abbrev ProcessId := Id .process
abbrev AcceleratorId := Id .accelerator
abbrev PlacementId := Id .placement
abbrev PlacementGeneration := Generation .placement
abbrev BindingId := Id .binding
abbrev BindingGeneration := Generation .binding
abbrev PolicyId := Id .policy
abbrev PolicyGeneration := Generation .policy
abbrev ObservationId := Id .observation
abbrev ObservationGeneration := Generation .observation
abbrev CoordinatorEpoch := Generation .coordinatorEpoch
abbrev AttemptId := Id .attempt
abbrev ReservationId := Id .reservation
abbrev ReservationGeneration := Generation .reservation
abbrev SourceId := Id .source
abbrev SourceGeneration := Generation .source

/-- The dimension carried by a quantity. -/
inductive Dimension
  | bytes | logicalProcessorIndex | processorGroupIndex | localityCost | capacity
  | availableMemory | pageSize | alignment
  deriving DecidableEq, Repr

structure Quantity (d : Dimension) (w : ℕ) where
  value : BitVec w
  deriving DecidableEq, Repr

namespace Quantity
variable {d : Dimension} {w : ℕ}

def zero : Quantity d w := ⟨0⟩

def isZero (q : Quantity d w) : Bool := q.value == 0

instance : Inhabited (Quantity d w) := ⟨zero⟩

end Quantity

abbrev Bytes := Quantity .bytes 64
abbrev LogicalProcessorIndex := Quantity .logicalProcessorIndex 32
abbrev ProcessorGroupIndex := Quantity .processorGroupIndex 16
abbrev LocalityCost := Quantity .localityCost 64
abbrev Capacity := Quantity .capacity 64
abbrev AvailableMemory := Quantity .availableMemory 64
abbrev PageSize := Quantity .pageSize 64
abbrev Alignment := Quantity .alignment 64

inductive PlacementMode
  | any | local | preferredNode | requiredNode | interleaved | synthetic
  deriving DecidableEq, Repr

inductive LifecycleState
  | created | reserved | allocated | active | migrationPending | migrating | rebound
  | releasePending | released | failed | invalidated
  deriving DecidableEq, Repr

namespace LifecycleState

/-- `to_string`, the text used in error messages. -/
def text : LifecycleState → ByteString
  | created => ascii "CREATED"
  | reserved => ascii "RESERVED"
  | allocated => ascii "ALLOCATED"
  | active => ascii "ACTIVE"
  | migrationPending => ascii "MIGRATION_PENDING"
  | migrating => ascii "MIGRATING"
  | rebound => ascii "REBOUND"
  | releasePending => ascii "RELEASE_PENDING"
  | released => ascii "RELEASED"
  | failed => ascii "FAILED"
  | invalidated => ascii "INVALIDATED"

end LifecycleState

inductive LocalityClass
  | sameNumaNode | sameSocket | sameHostRemoteNuma | unknown | synthetic
  deriving DecidableEq, Repr

inductive PlacementDecisionKind
  | place | placeWithPenalty | rebind | migrate | defer | reject | revalidationRequired
  deriving DecidableEq, Repr

inductive ProvenanceSource
  | measured | reported | derived | estimated | synthetic | unknown
  deriving DecidableEq, Repr

inductive AuthorityVerification
  | accepted | staleEpoch | staleBoot | stalePlacementGeneration | staleBindingGeneration
  | staleMemoryGeneration | staleObservationGeneration | staleReservation | staleAttempt
  | rejectedUnknown
  deriving DecidableEq, Repr

inductive AllocationKind
  | host | numaHost | pinned | synthetic
  deriving DecidableEq, Repr

/-- `static_cast<std::uint8_t>` of an enumerator. -/
def LocalityClass.toU8 (c : LocalityClass) : U8 := BitVec.ofNat 8 c.ctorIdx

def PlacementDecisionKind.toU8 (k : PlacementDecisionKind) : U8 := BitVec.ofNat 8 k.ctorIdx

def ProvenanceSource.toU8 (p : ProvenanceSource) : U8 := BitVec.ofNat 8 p.ctorIdx

def AuthorityVerification.toU8 (a : AuthorityVerification) : U8 := BitVec.ofNat 8 a.ctorIdx

/-- The enumerator with a given value; `none` past `Unknown`, the last one. -/
def ProvenanceSource.ofU8? (b : U8) : Option ProvenanceSource :=
  [.measured, .reported, .derived, .estimated, .synthetic, .unknown][b.toNat]?

@[simp] theorem ProvenanceSource.ofU8?_toU8 (p : ProvenanceSource) :
    ProvenanceSource.ofU8? p.toU8 = some p := by
  cases p <;> rfl

structure Provenance where
  source : ProvenanceSource := .unknown
  sourceId : SourceId := .invalid
  sourceGeneration : SourceGeneration := .initial
  note : ByteString := []
  deriving DecidableEq, Repr

namespace Provenance

def measured (note : ByteString) : Provenance := { source := .measured, note }

def derived (note : ByteString) : Provenance := { source := .derived, note }

def synthetic (note : ByteString) : Provenance := { source := .synthetic, note }

end Provenance

end NumaFabric
