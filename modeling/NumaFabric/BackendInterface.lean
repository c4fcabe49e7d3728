import NumaFabric.AffinitySet

/-! The backend boundary. A backend is any state machine behind the interface; the world
around it holds the process memory and a record of which allocations were handed out
and which were given back. -/
namespace NumaFabric
open FaultState

inductive BackendKind
  | windows | synthetic
  deriving DecidableEq, Repr

structure BackendError where
  text : ByteString
  deriving DecidableEq, Repr

structure AllocationSpec where
  bytes : Bytes := .zero
  alignment : Alignment := .zero
  mode : PlacementMode := .any
  preferredNode : NumaNodeId := .invalid
  requiredNode : NumaNodeId := .invalid
  interleaveNodes : List NumaNodeId := []
  kind : AllocationKind := .host
  touch : Bool := true
  persistent : Bool := false
  tag : ByteString := []
  deriving DecidableEq, Repr

/-- The field `handle` is not in the source: it numbers the allocation, so that two
allocations at one address stay apart. Zero stands for no allocation. -/
structure AllocationResult where
  regionId : MemoryRegionId := .invalid
  ptr : U64 := 0
  grantedBytes : Bytes := .zero
  ptrValid : Bool := false
  localityKnown : Bool := false
  observedNode : NumaNodeId := .invalid
  kind : AllocationKind := .host
  touched : Bool := false
  requestedMode : PlacementMode := .any
  handle : ℕ := 0
  deriving DecidableEq, Repr

namespace AllocationResult

def ok (r : AllocationResult) : Bool :=
  if r.grantedBytes.isZero then false else r.kind == .synthetic || r.ptrValid

/-- The result carries memory that can be read and written. -/
def hasBuffer (r : AllocationResult) : Bool := r.ptrValid && r.ptr != 0

/-- The addresses of the buffer. -/
def covers (r : AllocationResult) (a : ℕ) : Prop :=
  r.ptr.toNat ≤ a ∧ a < r.ptr.toNat + r.grantedBytes.value.toNat

end AllocationResult

/-- The bytes of the process, by address. -/
abbrev Heap := ℕ → U8

def Heap.memcpy (h : Heap) (dst src n : ℕ) : Heap :=
  fun a => if dst ≤ a ∧ a < dst + n then h (src + (a - dst)) else h a

/-- The calls of the interface that the runtime makes. -/
structure Backend (β : Type) where
  kind : BackendKind
  allocate : AllocationSpec → Fault BackendError (β × Heap) AllocationResult
  free : AllocationResult → β × Heap → β × Heap
  applyThreadAffinity : AffinitySet → β → Bool × β

structure World (β : Type) where
  backend : β
  heap : Heap
  given : List AllocationResult := []
  frees : List ℕ := []

namespace World
variable {β : Type}

def allocate (b : Backend β) (spec : AllocationSpec) :
    Fault BackendError (World β) AllocationResult := fun w =>
  match (b.allocate spec).run (w.backend, w.heap) with
  | .error e (s, h) => .error e { w with backend := s, heap := h }
  | .ok r (s, h) =>
    let r := { r with handle := w.given.length + 1 }
    .ok r { w with backend := s, heap := h, given := w.given ++ [r] }

def free (b : Backend β) (r : AllocationResult) (w : World β) : World β :=
  let (s, h) := b.free r (w.backend, w.heap)
  { w with backend := s, heap := h, frees := w.frees ++ [r.handle] }

/-- Only real memory on both sides is copied. -/
def copy (source target : AllocationResult) (copyData : Bool) (n : U64) (w : World β) : World β :=
  if copyData && source.hasBuffer && target.hasBuffer then
    { w with heap := w.heap.memcpy target.ptr.toNat source.ptr.toNat n.toNat }
  else w

variable {b : Backend β} {spec : AllocationSpec} {w w' : World β}

theorem allocate_run_error {e : BackendError} {x : β × Heap}
    (h : (b.allocate spec).run (w.backend, w.heap) = .error e x) :
    (allocate b spec).run w = .error e { w with backend := x.1, heap := x.2 } := by
  change allocate b spec w = _
  unfold allocate
  rw [h]

theorem allocate_run_ok {r : AllocationResult} {x : β × Heap}
    (h : (b.allocate spec).run (w.backend, w.heap) = .ok r x) :
    (allocate b spec).run w =
      .ok { r with handle := w.given.length + 1 }
        { w with
          backend := x.1, heap := x.2
          given := w.given ++ [{ r with handle := w.given.length + 1 }] } := by
  change allocate b spec w = _
  unfold allocate
  rw [h]

/-- A granted allocation is the backend's answer, numbered and recorded. -/
theorem allocate_eq_ok {result : AllocationResult} (h : (allocate b spec).run w = .ok result w') :
    ∃ r x, (b.allocate spec).run (w.backend, w.heap) = .ok r x ∧
      result = { r with handle := w.given.length + 1 } ∧
      w' = { w with backend := x.1, heap := x.2, given := w.given ++ [result] } := by
  cases hc : (b.allocate spec).run (w.backend, w.heap) with
  | error e x => rw [allocate_run_error hc] at h; cases h
  | ok r x =>
    rw [allocate_run_ok hc] at h
    cases h
    exact ⟨r, x, rfl, rfl, rfl⟩

/-- The allocation is handed out and not given back. -/
def Holds (w : World β) (r : AllocationResult) : Prop := r ∈ w.given ∧ r.handle ∉ w.frees

end World

end NumaFabric
