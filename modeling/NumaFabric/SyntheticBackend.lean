import NumaFabric.RuntimeOperations

/-! The synthetic backend: a host of so many nodes as its configuration says, and an
allocator that counts the bytes it has handed out on each of them. -/
namespace NumaFabric
open Std FaultState LedgerCounter

namespace HostTopology

def findGroup (t : HostTopology) (id : ProcessorGroupId) : Option ProcessorGroupInfo :=
  t.groups.find? (·.id == id)

/-- The processors of the register that pass the test, in ascending order. -/
def membersOf (register : List Processor) (test : Processor → Bool) : List ProcessorId :=
  ((register.filter test).map (·.id)).insertionSort fun a b => a.value ≤ b.value

/-- `std::sort` by ascending identifiers; the sorted ones are distinct. -/
def sortCanonical (t : HostTopology) : HostTopology :=
  let processors := t.processors.insertionSort fun a b => a.id.value ≤ b.id.value
  { t with
    processors
    nodes := (t.nodes.insertionSort fun a b => a.id.value ≤ b.id.value).map fun n =>
      { n with processors := membersOf processors (·.node == n.id) }
    groups := (t.groups.insertionSort fun a b => a.id.value ≤ b.id.value).map fun g =>
      { g with processors := membersOf processors (·.group == g.id) } }

/-- The first loop of `validate`: the node that claimed each processor first is kept. -/
def validateProcessors (t : HostTopology) (owner : ExtTreeMap ProcessorId NumaNodeId) :
    List Processor → Except ByteString Unit
  | [] => .ok ()
  | p :: rest =>
    if owner[p.id]?.any (· != p.node) then .error (ascii "processor claimed by multiple nodes")
    else if (t.findNode p.node).isNone then .error (ascii "processor references missing node")
    else if (t.findGroup p.group).isNone then .error (ascii "processor references missing group")
    else validateProcessors t (owner.insertIfNew p.id p.node) rest

def validateNodes : List NumaNode → Except ByteString Unit
  | [] => .ok ()
  | n :: rest =>
    if !n.id.isValid then .error (ascii "invalid node id")
    else if rest.any (·.id == n.id) then .error (ascii "duplicate node id")
    else validateNodes rest

/-- An `UnsupportedTopologyError` is its text. -/
def validate (t : HostTopology) : Except ByteString Unit := do
  validateProcessors t ∅ t.processors
  validateNodes t.nodes

theorem isValid_of_validateNodes {nodes : List NumaNode} (h : validateNodes nodes = .ok ()) :
    ∀ n ∈ nodes, n.id.isValid = true := by
  induction nodes with
  | nil => simp
  | cons n rest ih =>
    unfold validateNodes at h
    split_ifs at h with invalid duplicate
    simp only [List.forall_mem_cons]
    exact ⟨by simpa using invalid, ih h⟩

/-- A topology that is accepted has no invalid node. -/
theorem isValid_of_validate {t : HostTopology} (h : t.validate = .ok ()) :
    ∀ n ∈ t.nodes, n.id.isValid = true := by
  unfold validate at h
  cases first : validateProcessors t ∅ t.processors with
  | error e =>
    rw [first] at h
    cases h
  | ok u =>
    rw [first] at h
    exact isValid_of_validateNodes h

end HostTopology

structure AcceleratorPlacement where
  locality : LocalityClass
  node : NumaNodeId
  deriving DecidableEq, Repr

structure SyntheticConfig where
  nodeCount : U32 := 2
  processorsPerNode : U32 := 8
  groupCapacity : U32 := 64
  exposeMemory : Bool := true
  nodeCapacities : List Capacity := []
  distances : List (List LocalityCost) := []
  localThreadNode : U32 := 0
  accelerators : List AcceleratorPlacement := []
  deriving DecidableEq, Repr

def kDefaultNodeCapacity : U64 := 16 * 1024 * 1024 * 1024

namespace SyntheticConfig
variable (cfg : SyntheticConfig)

/-- The nodes are numbered from one. -/
def nodeId (n : ℕ) : NumaNodeId := ⟨BitVec.ofNat 64 n + 1⟩

/-- A node without a capacity of its own has the default one, and all of it is free. -/
def node (n : ℕ) : NumaNode :=
  let memoryCapacity := cfg.nodeCapacities[n]?.getD ⟨kDefaultNodeCapacity⟩
  { id := nodeId n, memoryCapacity, freeMemory := ⟨memoryCapacity.value⟩
    memoryInfoAvailable := cfg.exposeMemory, pageSizeKnown := true }

/-- The number of a processor on the host, from zero. -/
def globalIndex (n lp : ℕ) : U64 :=
  BitVec.ofNat 64 n * cfg.processorsPerNode.setWidth 64 + BitVec.ofNat 64 lp

/-- `std::max(1, group_capacity)`. -/
def groupSize : U64 := if cfg.groupCapacity = 0 then 1 else cfg.groupCapacity.setWidth 64

/-- The index of a group is cut to 32 bits. -/
def groupIndex (index : U64) : U32 := (index / cfg.groupSize).setWidth 32

def processor (n lp : ℕ) : Processor :=
  let index := cfg.globalIndex n lp
  { id := ⟨index + 1⟩, group := ⟨(cfg.groupIndex index).setWidth 64 + 1⟩
    indexInGroup := ⟨(index % cfg.groupSize).setWidth 32⟩, node := nodeId n, online := true }

/-- Node by node, and on each node processor by processor. -/
def processors : List Processor :=
  (List.range cfg.nodeCount.toNat).flatMap fun n =>
    (List.range cfg.processorsPerNode.toNat).map (cfg.processor n)

/-- The processors of each group, in the order they are found. -/
def groupRegister : ExtTreeMap U32 (List ProcessorId) :=
  cfg.processors.foldl (fun m p =>
    let index := cfg.groupIndex (p.id.value - 1)
    m.insert index (m[index]?.getD [] ++ [p.id])) ∅

/-- The index of a group is cut once more, to 16 bits. -/
def groups : List ProcessorGroupInfo :=
  (cfg.groupRegister.toList.map fun (index, processors) =>
    { id := ⟨index.setWidth 64 + 1⟩, index := ⟨(index + 1).setWidth 16⟩, processors :
      ProcessorGroupInfo }).insertionSort fun a b => a.id.value ≤ b.id.value

/-- The groups are added behind the canonical order of the rest. -/
def host : HostTopology :=
  { HostTopology.sortCanonical
      { hostId := ⟨1⟩, generation := ⟨1⟩, systemPageSize := ⟨4096⟩, allocationGranularity := ⟨4096⟩
        numaNodeCountCertain := true
        provenance := .synthetic (ascii "synthetic multi-node model")
        nodes := (List.range cfg.nodeCount.toNat).map cfg.node
        processors := cfg.processors } with
    groups := cfg.groups }

/-- One of the nodes of the host, by its number. -/
def InRange (n : NumaNodeId) : Prop := 1 ≤ n.value.toNat ∧ n.value.toNat ≤ cfg.nodeCount.toNat

section Range
variable {cfg}

theorem toNat_nodeId {i : ℕ} (below : i < cfg.nodeCount.toNat) : (nodeId i).value.toNat = i + 1 := by
  have := cfg.nodeCount.isLt
  simp only [nodeId, BitVec.toNat_add, BitVec.toNat_ofNat, BitVec.ofNat_eq_ofNat]
  omega

theorem inRange_nodeId {i : ℕ} (below : i < cfg.nodeCount.toNat) : cfg.InRange (nodeId i) := by
  rw [InRange, toNat_nodeId below]
  omega

theorem nodeId_of_inRange {n : NumaNodeId} (h : cfg.InRange n) :
    ∃ i, i < cfg.nodeCount.toNat ∧ nodeId i = n := by
  obtain ⟨positive, most⟩ := h
  have below : n.value.toNat - 1 < cfg.nodeCount.toNat := by omega
  have number := toNat_nodeId below
  rw [Nat.sub_add_cancel positive] at number
  exact ⟨_, below, congrArg Id.mk (BitVec.eq_of_toNat_eq number)⟩

theorem nodeId_inj {i j : ℕ} (hi : i < cfg.nodeCount.toNat) (hj : j < cfg.nodeCount.toNat) :
    nodeId i = nodeId j ↔ i = j := by
  constructor
  · intro same
    have numbers := congrArg (fun n : NumaNodeId => n.value.toNat) same
    simp only [toNat_nodeId hi, toNat_nodeId hj] at numbers
    omega
  · rintro rfl
    rfl

theorem exists_host_node_iff {n : NumaNodeId} : (∃ node ∈ cfg.host.nodes, node.id = n) ↔ cfg.InRange n := by
  constructor
  · rintro ⟨node, member, rfl⟩
    simp only [host, HostTopology.sortCanonical, List.mem_map, List.mem_insertionSort,
      List.mem_range] at member
    obtain ⟨_, ⟨i, below, rfl⟩, rfl⟩ := member
    exact inRange_nodeId below
  · intro inRange
    obtain ⟨i, below, rfl⟩ := nodeId_of_inRange inRange
    refine ⟨_, List.mem_map.mpr ⟨cfg.node i, ?_, rfl⟩, rfl⟩
    rw [List.mem_insertionSort]
    exact List.mem_map.mpr ⟨i, List.mem_range.mpr below, rfl⟩

end Range

/-- Accelerators are numbered from one, as they are configured. -/
def acceleratorInfos : List AcceleratorInfo :=
  cfg.accelerators.zipIdx.map fun (placement, i) =>
    let id : AcceleratorId := ⟨BitVec.ofNat 64 i + 1⟩
    { id, locality := { accelerator := id, locality := placement.locality, localNode := placement.node } }

/-- The cost between two nodes as it is configured. The matrix is only measured by its rows; past the
end of a row the source is undefined. -/
def distance (a b : NumaNodeId) : LocalityCost :=
  if a = b then .zero
  else if !cfg.distances.isEmpty && decide (a.value.toNat ≤ cfg.distances.length) &&
      decide (b.value.toNat ≤ cfg.distances.length) then
    (cfg.distances[(a.value - 1).toNat]?.bind fun row => row[(b.value - 1).toNat]?).getD .zero
  else ⟨100⟩

/-- The offset of a node wraps for the invalid one. -/
def capacityFor (n : NumaNodeId) : U64 :=
  (cfg.nodeCapacities[(n.value - 1).toNat]?.map (·.value)).getD kDefaultNodeCapacity

end SyntheticConfig

def AllocationSpec.validate (spec : AllocationSpec) : Except BackendError Unit :=
  if spec.bytes.isZero then .error ⟨ascii "allocation of zero bytes"⟩
  else if spec.mode == .requiredNode && !spec.requiredNode.isValid then
    .error ⟨ascii "REQUIRED_NODE without a node"⟩
  else if spec.mode == .preferredNode && !spec.preferredNode.isValid then
    .error ⟨ascii "PREFERRED_NODE without a node"⟩
  else .ok ()

/-- What the backend has handed out: the node of each allocation, and the bytes on each
node. -/
structure SyntheticBackend where
  nextRegion : U64 := 1
  regionNode : ExtTreeMap MemoryRegionId NumaNodeId := ∅
  used : Ledger NumaNodeId 64 := ∅

namespace SyntheticBackend
variable (cfg : SyntheticConfig)

def usedFor (s : SyntheticBackend) (n : NumaNodeId) : U64 := entry s.used n

/-- What is left of a node. The difference wraps when more is used than there is. -/
def remaining (s : SyntheticBackend) (n : NumaNodeId) : U64 := cfg.capacityFor n - s.usedFor n

/-- The node an allocation is meant for, if it is meant for one, and whether another will do. -/
def target (spec : AllocationSpec) : NumaNodeId × Bool :=
  match spec.mode with
  | .requiredNode => (spec.requiredNode, false)
  | .preferredNode => (spec.preferredNode, true)
  | .local => (⟨cfg.localThreadNode.setWidth 64 + 1⟩, true)
  | .interleaved => (.invalid, false)
  | .any | .synthetic => (.invalid, true)

def chooseNodeFor (s : SyntheticBackend) (bytes : U64) (target : NumaNodeId) (allowFallback : Bool) :
    NumaNodeId :=
  if target.isValid && decide (bytes ≤ s.remaining cfg target) then target
  else if target.isValid && !allowFallback then .invalid
  else
    (((List.range cfg.nodeCount.toNat).map SyntheticConfig.nodeId).find? fun n =>
      decide (bytes ≤ s.remaining cfg n)).getD .invalid

/-- Synthetic memory has no address. -/
def result (spec : AllocationSpec) (s : SyntheticBackend) (observedNode : NumaNodeId) :
    AllocationResult :=
  { regionId := ⟨s.nextRegion⟩, kind := .synthetic, requestedMode := spec.mode
    grantedBytes := spec.bytes, localityKnown := true, observedNode }

/-- The allocation is counted on its node. -/
def grant (spec : AllocationSpec) (chosen : NumaNodeId) (s : SyntheticBackend) : SyntheticBackend where
  nextRegion := s.nextRegion + 1
  regionNode := s.regionNode.insert ⟨s.nextRegion⟩ chosen
  used := charge s.used chosen spec.bytes.value

/-- The nodes an interleaved allocation is spread over. -/
def interleaveNodes (spec : AllocationSpec) : List NumaNodeId :=
  if spec.interleaveNodes.isEmpty then (List.range cfg.nodeCount.toNat).map SyntheticConfig.nodeId
  else spec.interleaveNodes

/-- The bytes counted on each of so many nodes. For no node at all the source divides by
zero. -/
def chunk (bytes : U64) (nodes : ℕ) : U64 :=
  let share := bytes / BitVec.ofNat 64 nodes
  if share = 0 then 1 else share

/-- No capacity is checked, and only the first node is remembered for the allocation. -/
def allocateInterleaved (spec : AllocationSpec) : Fault BackendError SyntheticBackend AllocationResult :=
  fun s =>
    let nodes := interleaveNodes cfg spec
    let observedNode := nodes.head?.getD .invalid
    .ok (result spec s observedNode)
      { nextRegion := s.nextRegion + 1
        regionNode := s.regionNode.insert ⟨s.nextRegion⟩ observedNode
        used := nodes.foldl (fun used n => charge used n (chunk spec.bytes.value nodes.length)) s.used }

def allocate (spec : AllocationSpec) : Fault BackendError SyntheticBackend AllocationResult := do
  ofExcept spec.validate
  if spec.mode = .interleaved then allocateInterleaved cfg spec
  else
    let (target, allowFallback) := target cfg spec
    let chosen := (← get).chooseNodeFor cfg spec.bytes.value target allowFallback
    throwIf (!chosen.isValid) ⟨ascii "no synthetic node has capacity for this allocation"⟩
    throwIf ((← get).remaining cfg chosen < spec.bytes.value)
      ⟨ascii "required synthetic node capacity exhausted"⟩
    let r := result spec (← get) chosen
    modify (grant spec chosen)
    return r

section Allocate
variable {spec : AllocationSpec} {s : SyntheticBackend}

/-- A valid allocation that is not spread goes to the node that is chosen for it. -/
theorem allocate_single {aim : NumaNodeId} {fallback : Bool} (validated : spec.validate = .ok ())
    (single : spec.mode ≠ .interleaved) (aimed : target cfg spec = (aim, fallback)) :
    (allocate cfg spec).run s =
      if (s.chooseNodeFor cfg spec.bytes.value aim fallback).isValid = false then
        .error ⟨ascii "no synthetic node has capacity for this allocation"⟩ s
      else if s.remaining cfg (s.chooseNodeFor cfg spec.bytes.value aim fallback) < spec.bytes.value then
        .error ⟨ascii "required synthetic node capacity exhausted"⟩ s
      else .ok (result spec s (s.chooseNodeFor cfg spec.bytes.value aim fallback))
        (grant spec (s.chooseNodeFor cfg spec.bytes.value aim fallback) s) := by
  rw [allocate, validated, if_neg single, aimed]
  simp only [EStateM.run_bind, run_ofExcept_ok, EStateM.run_get, run_throwIf, EStateM.run_modify,
    EStateM.run_pure]
  cases valid : (s.chooseNodeFor cfg spec.bytes.value aim fallback).isValid
  · simp
  · by_cases short : s.remaining cfg (s.chooseNodeFor cfg spec.bytes.value aim fallback) <
      spec.bytes.value
    · simp [short]
    · simp [short]

/-- A strict placement is granted exactly when its node has the bytes left, and a refused one
counts nothing. -/
theorem allocate_required (strict : spec.mode = .requiredNode) (nonzero : spec.bytes.isZero = false)
    (valid : spec.requiredNode.isValid = true) :
    (allocate cfg spec).run s =
      if spec.bytes.value ≤ s.remaining cfg spec.requiredNode then
        .ok (result spec s spec.requiredNode) (grant spec spec.requiredNode s)
      else .error ⟨ascii "no synthetic node has capacity for this allocation"⟩ s := by
  have validated : spec.validate = .ok () := by
    simp [AllocationSpec.validate, nonzero, strict, valid]
  have aimed : target cfg spec = (spec.requiredNode, false) := by rw [target, strict]
  rw [allocate_single cfg validated (by simp [strict]) aimed]
  by_cases fits : spec.bytes.value ≤ s.remaining cfg spec.requiredNode
  · have chosen : s.chooseNodeFor cfg spec.bytes.value spec.requiredNode false = spec.requiredNode := by
      simp [chooseNodeFor, valid, fits]
    rw [chosen, if_neg (by simp [valid]), if_neg (BitVec.not_lt.mpr fits), if_pos fits]
  · have chosen : s.chooseNodeFor cfg spec.bytes.value spec.requiredNode false = .invalid := by
      simp [chooseNodeFor, valid, fits]
    rw [chosen, if_pos Id.isValid_invalid, if_neg fits]

end Allocate

/-- The granted bytes are taken off the remembered node, down to zero. -/
def free (alloc : AllocationResult) (s : SyntheticBackend) : SyntheticBackend :=
  if !alloc.regionId.isValid then s
  else
    match s.regionNode[alloc.regionId]? with
    | none => s
    | some node =>
      let bytes := alloc.grantedBytes.value
      { s with
        used := match s.used[node]? with
          | none => s.used
          | some u => s.used.insert node (if u ≤ bytes then 0 else u - bytes)
        regionNode := s.regionNode.erase alloc.regionId }

/-- The backend behind the interface of the runtime. It has no memory of the process to
write to, and moves no thread. -/
def backend : Backend SyntheticBackend where
  kind := .synthetic
  allocate spec := zoom Prod.fst (fun x s => (s, x.2)) (allocate cfg spec)
  free alloc x := (free alloc x.1, x.2)
  applyThreadAffinity set s := (!set.masks.isEmpty, s)

section World
variable {cfg} {spec : AllocationSpec} {w : World SyntheticBackend} {t : SyntheticBackend}

/-- What the backend grants is granted behind the interface, with the handle that it gets there. -/
theorem worldAllocate_ok {r : AllocationResult} (granted : (allocate cfg spec).run w.backend = .ok r t) :
    ∃ w', (World.allocate (backend cfg) spec).run w = .ok { r with handle := w.given.length + 1 } w' := by
  have called : ((backend cfg).allocate spec).run (w.backend, w.heap) = _ := run_zoom _ _ _ _
  rw [granted] at called
  exact ⟨_, World.allocate_run_ok called⟩

theorem worldAllocate_error {e : BackendError} (refused : (allocate cfg spec).run w.backend = .error e t) :
    ∃ w', (World.allocate (backend cfg) spec).run w = .error e w' := by
  have called : ((backend cfg).allocate spec).run (w.backend, w.heap) = _ := run_zoom _ _ _ _
  rw [refused] at called
  exact ⟨_, World.allocate_run_error called⟩

end World

def probe : HostProbe SyntheticBackend where
  discoverHost := do
    ofExcept cfg.host.validate
    return cfg.host
  enumerateAccelerators := pure cfg.acceleratorInfos

end SyntheticBackend

end NumaFabric
