import NumaFabric.CoreErrors
import NumaFabric.ByteCodec

/-! The host-locality inventory: processors, groups and nodes, and the digest that
fingerprints them. -/
namespace NumaFabric
open ByteCodec

structure Processor where
  id : ProcessorId := .invalid
  group : ProcessorGroupId := .invalid
  indexInGroup : LogicalProcessorIndex := .zero
  node : NumaNodeId := .invalid
  online : Bool := false
  deriving DecidableEq, Repr

structure ProcessorGroupInfo where
  id : ProcessorGroupId := .invalid
  index : ProcessorGroupIndex := .zero
  processors : List ProcessorId := []
  deriving DecidableEq, Repr

structure NumaNode where
  id : NumaNodeId := .invalid
  generation : NumaNodeGeneration := .initial
  processors : List ProcessorId := []
  memoryCapacity : Capacity := .zero
  freeMemory : AvailableMemory := .zero
  memoryInfoAvailable : Bool := false
  pageSizeKnown : Bool := false
  deriving DecidableEq, Repr

def NumaNode.processorCount (n : NumaNode) : ℕ := n.processors.length

structure HostTopology where
  hostId : HostId := .invalid
  generation : HostGeneration := .initial
  groups : List ProcessorGroupInfo := []
  nodes : List NumaNode := []
  processors : List Processor := []
  systemPageSize : PageSize := .zero
  allocationGranularity : Alignment := .zero
  numaNodeCountCertain : Bool := false
  provenance : Provenance := {}
  deriving DecidableEq, Repr

/-- FNV-1a over 64 bits: the offset basis and one step per byte. -/
def fnv1a (bytes : ByteString) : U64 :=
  bytes.foldl (fun h c => (h ^^^ c.setWidth 64) * 0x100000001b3) 0xcbf29ce484222325

namespace SemanticDigest

/-- Every word is digested as eight bytes, least significant first. -/
def u64 {w : ℕ} (v : BitVec w) : ByteString := toBytes 8 (v.setWidth 64)

def size {α : Type} (l : List α) : ByteString := u64 (BitVec.ofNat 64 l.length)

def boolean (b : Bool) : ByteString := [if b then 1 else 0]

/-- A field name with its length in front and a separator behind. -/
def field (name : ByteString) : ByteString := size name ++ name ++ [0xFF]

end SemanticDigest

namespace HostTopology
open SemanticDigest

def isSingleNode (t : HostTopology) : Bool := t.nodes.length == 1

def numaNodeCount (t : HostTopology) : ℕ := t.nodes.length

def processorCount (t : HostTopology) : ℕ := t.processors.length

def findNode (t : HostTopology) (id : NumaNodeId) : Option NumaNode := t.nodes.find? (·.id == id)

def members (l : List ProcessorId) : ByteString :=
  size l ++ l.flatMap fun p => SemanticDigest.u64 p.value

def digestProcessor (p : Processor) : ByteString :=
  SemanticDigest.u64 p.id.value ++ SemanticDigest.u64 p.group.value ++
    SemanticDigest.u64 p.node.value ++ SemanticDigest.u64 p.indexInGroup.value ++ boolean p.online

def digestNode (n : NumaNode) : ByteString :=
  SemanticDigest.u64 n.id.value ++ SemanticDigest.u64 n.generation.value ++
    SemanticDigest.u64 n.memoryCapacity.value ++ boolean n.memoryInfoAvailable ++
    boolean n.pageSizeKnown ++ field [] ++ members n.processors

def digestGroup (g : ProcessorGroupInfo) : ByteString :=
  SemanticDigest.u64 g.id.value ++ SemanticDigest.u64 g.index.value ++ members g.processors

/-- The bytes `semantic_digest` feeds to the hash, in order. -/
def digestInput (t : HostTopology) : ByteString :=
  field (ascii "host_id") ++ SemanticDigest.u64 t.hostId.value ++
    field (ascii "host_gen") ++ SemanticDigest.u64 t.generation.value ++
    field (ascii "page_size") ++ SemanticDigest.u64 t.systemPageSize.value ++
    field (ascii "granularity") ++ SemanticDigest.u64 t.allocationGranularity.value ++
    field (ascii "node_count_certain") ++ boolean t.numaNodeCountCertain ++
    field (ascii "processors") ++ size t.processors ++ t.processors.flatMap digestProcessor ++
    field (ascii "nodes") ++ size t.nodes ++ t.nodes.flatMap digestNode ++
    field (ascii "groups") ++ size t.groups ++ t.groups.flatMap digestGroup

def semanticDigest (t : HostTopology) : U64 := fnv1a t.digestInput

end HostTopology

end NumaFabric
