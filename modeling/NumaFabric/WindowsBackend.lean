import NumaFabric.TopologyCanonical

/-! The backend for Windows. The answers of the operating system are data; discovery joins
the masks it reports for each node with the number of processors it counts in each group. -/
namespace NumaFabric
open FaultState SortedLists

/-- `GROUP_AFFINITY`. -/
structure GroupAffinity where
  group : U16
  mask : U64
  deriving DecidableEq, Repr

/-- `NUMA_NODE_RELATIONSHIP`. -/
structure NumaNodeRelationship where
  nodeNumber : U32
  groupMasks : List GroupAffinity
  deriving DecidableEq, Repr

/-- What the calls of the operating system answer; nothing where a call fails. Nodes and groups
are numbered from zero. -/
structure WindowsSystem where
  pageSize : U32 := 4096
  allocationGranularity : U32 := 65536
  relationNumaNode : Option (List NumaNodeRelationship)
  activeProcessorGroupCount : U16
  activeProcessorCount : U16 → U32
  numaAvailableMemoryNode : U8 → Option U64 := fun _ => none
  totalPhys : Option U64 := none
  threadGroup : Option U16 := none

structure GroupBit where
  group : U16
  bit : U16
  deriving DecidableEq, Repr

/-- The order of the sort and of the search. -/
def GroupBit.less (a b : GroupBit) : Bool :=
  decide (a.group < b.group) || (a.group == b.group && decide (a.bit < b.bit))

namespace NumaNodeRelationship

/-- The set bits of the masks, in the order they are found. -/
def found (r : NumaNodeRelationship) : List GroupBit :=
  r.groupMasks.flatMap fun ga =>
    ((List.range 64).filter fun b => ga.mask.getLsbD b).map fun b => ⟨ga.group, BitVec.ofNat 16 b⟩

/-- Sorted, and without repetitions. -/
def bits (r : NumaNodeRelationship) : List GroupBit :=
  (r.found.insertionSort fun a b => b.less a = false).destutter (· ≠ ·)

def nodeId (r : NumaNodeRelationship) : NumaNodeId := ⟨r.nodeNumber.setWidth 64 + 1⟩

end NumaNodeRelationship

namespace WindowsSystem
variable (os : WindowsSystem)

/-- The records of the nodes; a failed query leaves no nodes. -/
def records : List NumaNodeRelationship := os.relationNumaNode.getD []

/-- `gather_numa_nodes`: the register of nodes, and for each of them its processors. -/
def gatherNumaNodes : List NumaNode × List (List GroupBit) :=
  (os.records.map fun r => { id := r.nodeId }, os.records.map (·.bits))

/-- The node is asked for under its identifier, cut to a byte. -/
def availableMemory (node : NumaNodeId) : Option U64 :=
  os.numaAvailableMemoryNode (node.value.setWidth 8)

/-- `std::lower_bound` on the processors of a node, and the comparison with what it finds. -/
def owns (bits : List GroupBit) (gi bit : ℕ) : Bool :=
  let x : GroupBit := ⟨BitVec.ofNat 16 gi, BitVec.ofNat 16 bit⟩
  bits[partitionPoint (fun a => a.less x) bits 0 bits.length]?.any fun it =>
    it.group.toNat == gi && it.bit == x.bit

/-- The first node that owns the bit. -/
def owner (gi bit : ℕ) : NumaNodeId :=
  let (nodes, nodeProcessors) := os.gatherNumaNodes
  (((nodes.zip nodeProcessors).find? fun (_, bits) => owns bits gi bit).map fun (n, _) => n.id).getD
    .invalid

def groupId (gi : ℕ) : ProcessorGroupId := ⟨BitVec.ofNat 64 gi + 1⟩

def processorId (gi bit : ℕ) : ProcessorId :=
  ⟨(BitVec.ofNat 64 (gi + 1) <<< 32) ||| (BitVec.ofNat 64 bit + 1)⟩

def processor (gi bit : ℕ) : Processor :=
  { id := processorId gi bit, group := groupId gi, indexInGroup := ⟨BitVec.ofNat 32 bit⟩
    node := os.owner gi bit, online := true }

/-- Group by group, the bits below the number of active processors. -/
def processors : List Processor :=
  (List.range os.activeProcessorGroupCount.toNat).flatMap fun gi =>
    (List.range (os.activeProcessorCount (BitVec.ofNat 16 gi)).toNat).map (os.processor gi)

def groups : List ProcessorGroupInfo :=
  (List.range os.activeProcessorGroupCount.toNat).map fun g =>
    { index := ⟨BitVec.ofNat 16 (g + 1)⟩, id := groupId g }

/-- The canonical inventory, before memory is added to it. -/
def inventory : HostTopology :=
  HostTopology.sortCanonical
    { hostId := ⟨1⟩, generation := ⟨1⟩, provenance := .measured (ascii "Win32 system topology")
      systemPageSize := ⟨os.pageSize.setWidth 64⟩
      allocationGranularity := ⟨os.allocationGranularity.setWidth 64⟩
      numaNodeCountCertain := true
      nodes := os.gatherNumaNodes.1, groups := os.groups, processors := os.processors }

def withMemory (n : NumaNode) : NumaNode :=
  match os.availableMemory n.id with
  | some avail => { n with freeMemory := ⟨avail⟩, memoryInfoAvailable := true }
  | none => n

/-- The physical memory is that of the node only where there is one node. -/
def withCapacity (nodes : List NumaNode) : List NumaNode :=
  match os.totalPhys, nodes with
  | some total, [n] => [{ n with memoryCapacity := ⟨total⟩ }]
  | _, nodes => nodes

def host : HostTopology :=
  { os.inventory with nodes := os.withCapacity (os.inventory.nodes.map os.withMemory) }

/-- An `UnsupportedTopologyError` is its text. -/
def discoverHost : Except ByteString HostTopology := do
  os.host.validate
  return os.host

/-- `node_of_current_thread`: the first node with a processor in the group of the thread. -/
def nodeOfCurrentThread : Except ByteString U32 :=
  match os.threadGroup with
  | none => .ok 0
  | some group => do
    let host ← os.discoverHost
    let here := host.nodes.find? fun n => n.processors.any fun pid =>
      (host.processors.find? (·.id == pid)).any fun p => p.group.value == group.setWidth 64 + 1
    return (here.map fun n => (n.id.value - 1).setWidth 32).getD 0

/-- The node choice of `allocate`: the number the operating system is given, and the node the
allocation is reported on. -/
def chooseNode (spec : AllocationSpec) : Except ByteString (U32 × NumaNodeId) :=
  match spec.mode with
  | .requiredNode => .ok (named spec.requiredNode)
  | .preferredNode => .ok (named spec.preferredNode)
  | .local => do
    let node ← os.nodeOfCurrentThread
    return (node, ⟨node.setWidth 64 + 1⟩)
  | _ => .ok (0, .invalid)
where
  named (nid : NumaNodeId) : U32 × NumaNodeId :=
    if nid.isValid then ((nid.value - 1).setWidth 32, nid) else (0, .invalid)

end WindowsSystem

end NumaFabric
