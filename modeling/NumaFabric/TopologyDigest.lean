import NumaFabric.TopologyModel

/-! The bytes behind the topology digest can be read back. A reader that follows the writer recovers
every digested fact, so two topologies feed the hash the same bytes only when they agree on all of
them. -/
namespace NumaFabric.TopologyDigest
open FaultState ByteCodec HostTopology

/-- What the digest takes of a node. -/
structure NodeFacts where
  id : NumaNodeId
  generation : NumaNodeGeneration
  memoryCapacity : Capacity
  memoryInfoAvailable : Bool
  pageSizeKnown : Bool
  processors : List ProcessorId
  deriving DecidableEq, Repr

/-- What the digest takes of a topology. Processors and groups go in whole. -/
structure Facts where
  hostId : HostId
  generation : HostGeneration
  systemPageSize : PageSize
  allocationGranularity : Alignment
  numaNodeCountCertain : Bool
  processors : List Processor
  nodes : List NodeFacts
  groups : List ProcessorGroupInfo
  deriving DecidableEq, Repr

def nodeFacts (n : NumaNode) : NodeFacts :=
  ⟨n.id, n.generation, n.memoryCapacity, n.memoryInfoAvailable, n.pageSizeKnown, n.processors⟩

def facts (t : HostTopology) : Facts :=
  ⟨t.hostId, t.generation, t.systemPageSize, t.allocationGranularity, t.numaNodeCountCertain,
    t.processors, t.nodes.map nodeFacts, t.groups⟩

section Readers

def readWord : Reader Unit U64 := word 64 8 ()

def readFlag : Reader Unit Bool := do return (← take 1 ()) == [1]

/-- A field name is skipped with its length and its separator. -/
def skipField (name : ByteString) : Reader Unit Unit := do
  let _ ← take (SemanticDigest.field name).length ()
  return ()

/-- A list is read as many times as the count in front of it says. -/
def readList {α : Type} (item : Reader Unit α) : Reader Unit (List α) := do
  let count ← readWord
  times count.toNat item

def readMember : Reader Unit ProcessorId := do return ⟨← readWord⟩

def readProcessor : Reader Unit Processor := do
  let id ← readWord
  let group ← readWord
  let node ← readWord
  let index ← readWord
  let online ← readFlag
  return { id := ⟨id⟩, group := ⟨group⟩, node := ⟨node⟩, indexInGroup := ⟨index.setWidth 32⟩, online }

def readNode : Reader Unit NodeFacts := do
  let id ← readWord
  let generation ← readWord
  let memoryCapacity ← readWord
  let memoryInfoAvailable ← readFlag
  let pageSizeKnown ← readFlag
  skipField []
  let processors ← readList readMember
  return { id := ⟨id⟩, generation := ⟨generation⟩, memoryCapacity := ⟨memoryCapacity⟩
           memoryInfoAvailable, pageSizeKnown, processors }

def readGroup : Reader Unit ProcessorGroupInfo := do
  let id ← readWord
  let index ← readWord
  let processors ← readList readMember
  return { id := ⟨id⟩, index := ⟨index.setWidth 16⟩, processors }

def readFacts : Reader Unit Facts := do
  skipField (ascii "host_id")
  let hostId ← readWord
  skipField (ascii "host_gen")
  let generation ← readWord
  skipField (ascii "page_size")
  let systemPageSize ← readWord
  skipField (ascii "granularity")
  let allocationGranularity ← readWord
  skipField (ascii "node_count_certain")
  let numaNodeCountCertain ← readFlag
  skipField (ascii "processors")
  let processors ← readList readProcessor
  skipField (ascii "nodes")
  let nodes ← readList readNode
  skipField (ascii "groups")
  let groups ← readList readGroup
  return { hostId := ⟨hostId⟩, generation := ⟨generation⟩, systemPageSize := ⟨systemPageSize⟩
           allocationGranularity := ⟨allocationGranularity⟩, numaNodeCountCertain
           processors, nodes, groups }

end Readers

/-- The size of a vector is a 64-bit word. -/
def Fits {α : Type} (l : List α) : Prop := l.length < 2 ^ 64

/-- Every vector of the topology has such a size. -/
structure Sized (t : HostTopology) : Prop where
  processors : Fits t.processors
  nodes : Fits t.nodes
  groups : Fits t.groups
  nodeMembers : ∀ n ∈ t.nodes, Fits n.processors
  groupMembers : ∀ g ∈ t.groups, Fits g.processors

section Reads
variable {α β : Type}

theorem reads_word (v : U64) : Reads readWord (SemanticDigest.u64 v) v := by
  rw [SemanticDigest.u64, BitVec.setWidth_eq]
  exact ByteCodec.reads_word () v (by decide)

/-- A narrow word is widened by the writer. -/
theorem reads_wide {w : ℕ} (v : BitVec w) : Reads readWord (SemanticDigest.u64 v) (v.setWidth 64) :=
  ByteCodec.reads_word () (v.setWidth 64) (by decide)

theorem reads_flag (b : Bool) : Reads readFlag (SemanticDigest.boolean b) b := by
  have one : (SemanticDigest.boolean b).length = 1 := rfl
  have read := (reads_take 1 () one).pure_bind (f := (· == [1]))
  cases b <;> exact read

theorem reads_field (name : ByteString) : Reads (skipField name) (SemanticDigest.field name) () :=
  (reads_take _ () rfl).pure_bind

theorem reads_list {item : Reader Unit β} {write : α → ByteString} {f : α → β} {l : List α}
    (fits : Fits l) (each : ∀ a ∈ l, Reads item (write a) (f a)) :
    Reads (readList item) (SemanticDigest.size l ++ l.flatMap write) (l.map f) := by
  have count : (BitVec.ofNat 64 l.length).toNat = l.length := by
    rw [BitVec.toNat_ofNat, Nat.mod_eq_of_lt fits]
  refine (reads_word (BitVec.ofNat 64 l.length)).bind ?_
  rw [count]
  exact reads_times_map l each

theorem reads_members {l : List ProcessorId} (fits : Fits l) :
    Reads (readList readMember) (members l) l := by
  have read := reads_list (f := id) fits fun p _ => (reads_word p.value).pure_bind (f := Id.mk)
  rw [List.map_id] at read
  exact read

theorem reads_processor (p : Processor) : Reads readProcessor (digestProcessor p) p := by
  simp only [digestProcessor, List.append_assoc]
  refine (reads_word p.id.value).bind ?_
  refine (reads_word p.group.value).bind ?_
  refine (reads_word p.node.value).bind ?_
  refine (reads_wide p.indexInGroup.value).bind ?_
  have read := (reads_flag p.online).pure_bind (f := fun online => ({
    id := ⟨p.id.value⟩, group := ⟨p.group.value⟩, node := ⟨p.node.value⟩
    indexInGroup := ⟨(p.indexInGroup.value.setWidth 64).setWidth 32⟩, online } : Processor))
  rw [BitVec.setWidth_setWidth_of_le _ (by decide), BitVec.setWidth_eq] at read
  rw [BitVec.setWidth_setWidth_of_le _ (by decide), BitVec.setWidth_eq]
  exact read

theorem reads_node {n : NumaNode} (fits : Fits n.processors) :
    Reads readNode (digestNode n) (nodeFacts n) := by
  simp only [digestNode, List.append_assoc]
  refine (reads_word n.id.value).bind ?_
  refine (reads_word n.generation.value).bind ?_
  refine (reads_word n.memoryCapacity.value).bind ?_
  refine (reads_flag n.memoryInfoAvailable).bind ?_
  refine (reads_flag n.pageSizeKnown).bind ?_
  refine (reads_field []).bind ?_
  exact (reads_members fits).pure_bind

theorem reads_group {g : ProcessorGroupInfo} (fits : Fits g.processors) :
    Reads readGroup (digestGroup g) g := by
  simp only [digestGroup, List.append_assoc]
  refine (reads_word g.id.value).bind ?_
  refine (reads_wide g.index.value).bind ?_
  rw [BitVec.setWidth_setWidth_of_le _ (by decide), BitVec.setWidth_eq]
  exact (reads_members fits).pure_bind

/-- The reader recovers every digested fact. -/
theorem reads_facts {t : HostTopology} (sized : Sized t) :
    Reads readFacts t.digestInput (facts t) := by
  have processors := reads_list (f := id) sized.processors fun p _ => reads_processor p
  have nodes := reads_list sized.nodes fun n hn => reads_node (sized.nodeMembers n hn)
  have groups := reads_list (f := id) sized.groups fun g hg => reads_group (sized.groupMembers g hg)
  rw [List.map_id] at processors groups
  delta digestInput
  simp only [List.append_assoc]
  refine (reads_field _).bind ?_
  refine (reads_word t.hostId.value).bind ?_
  refine (reads_field _).bind ?_
  refine (reads_word t.generation.value).bind ?_
  refine (reads_field _).bind ?_
  refine (reads_word t.systemPageSize.value).bind ?_
  refine (reads_field _).bind ?_
  refine (reads_word t.allocationGranularity.value).bind ?_
  refine (reads_field _).bind ?_
  refine (reads_flag t.numaNodeCountCertain).bind ?_
  refine (reads_field _).bind ?_
  rw [← List.append_assoc]
  refine processors.bind ?_
  refine (reads_field _).bind ?_
  rw [← List.append_assoc]
  refine nodes.bind ?_
  refine (reads_field _).bind ?_
  exact groups.pure_bind

end Reads

section Injective
variable {t t' : HostTopology}

def digestNodeFacts (n : NodeFacts) : ByteString :=
  SemanticDigest.u64 n.id.value ++ SemanticDigest.u64 n.generation.value ++
    SemanticDigest.u64 n.memoryCapacity.value ++ SemanticDigest.boolean n.memoryInfoAvailable ++
    SemanticDigest.boolean n.pageSizeKnown ++ SemanticDigest.field [] ++ members n.processors

theorem flatMap_digestNode (l : List NumaNode) :
    l.flatMap digestNode = (l.map nodeFacts).flatMap digestNodeFacts := by
  rw [List.flatMap_map]
  rfl

/-- Nothing but the facts goes into the bytes. -/
theorem digestInput_of_facts (same : facts t = facts t') : t.digestInput = t'.digestInput := by
  simp only [facts, Facts.mk.injEq] at same
  obtain ⟨host, generation, page, granularity, certain, processors, nodes, groups⟩ := same
  have count : t.nodes.length = t'.nodes.length := by simpa using congrArg List.length nodes
  delta digestInput
  simp only [flatMap_digestNode, SemanticDigest.size, host, generation, page, granularity, certain,
    processors, nodes, groups, count]

/-- The bytes that are hashed are equal exactly when the facts are. -/
theorem digestInput_eq_iff (t t' : { t : HostTopology // Sized t }) :
    t.1.digestInput = t'.1.digestInput ↔ facts t.1 = facts t'.1 := by
  refine ⟨fun same => ?_, digestInput_of_facts⟩
  have here := reads_facts t.2 []
  have there := reads_facts t'.2 []
  rw [same, there] at here
  exact (EStateM.Result.ok.inj here).1.symm

end Injective

section Hosts

/-- Two nodes and three processors in one group, the second processor on the first node. -/
def frontLoaded (free : AvailableMemory) : HostTopology where
  hostId := ⟨1⟩
  nodes := [{ id := ⟨1⟩, processors := [⟨1⟩, ⟨2⟩], memoryCapacity := ⟨64⟩, freeMemory := free },
    { id := ⟨2⟩, processors := [⟨3⟩], memoryCapacity := ⟨64⟩ }]
  groups := [{ id := ⟨1⟩, processors := [⟨1⟩, ⟨2⟩, ⟨3⟩] }]
  processors := [{ id := ⟨1⟩, group := ⟨1⟩, node := ⟨1⟩ },
    { id := ⟨2⟩, group := ⟨1⟩, indexInGroup := ⟨1⟩, node := ⟨1⟩ },
    { id := ⟨3⟩, group := ⟨1⟩, indexInGroup := ⟨2⟩, node := ⟨2⟩ }]

/-- The second processor has gone to the second node. -/
def backLoaded : HostTopology :=
  { frontLoaded ⟨64⟩ with
    nodes := [{ id := ⟨1⟩, processors := [⟨1⟩], memoryCapacity := ⟨64⟩, freeMemory := ⟨64⟩ },
      { id := ⟨2⟩, processors := [⟨2⟩, ⟨3⟩], memoryCapacity := ⟨64⟩ }]
    processors := [{ id := ⟨1⟩, group := ⟨1⟩, node := ⟨1⟩ },
      { id := ⟨2⟩, group := ⟨1⟩, indexInGroup := ⟨1⟩, node := ⟨2⟩ },
      { id := ⟨3⟩, group := ⟨1⟩, indexInGroup := ⟨2⟩, node := ⟨2⟩ }] }

theorem sized_frontLoaded (free : AvailableMemory) : Sized (frontLoaded free) := by
  constructor <;> simp [frontLoaded, Fits]

theorem sized_backLoaded : Sized backLoaded := by
  constructor <;> simp [backLoaded, frontLoaded, Fits]

/-- Free memory is not digested, and the node of a processor is. -/
theorem digestInput_loaded :
    (frontLoaded ⟨64⟩).digestInput = (frontLoaded ⟨32⟩).digestInput ∧
      (frontLoaded ⟨64⟩).digestInput ≠ backLoaded.digestInput := by
  have front := digestInput_eq_iff ⟨_, sized_frontLoaded ⟨64⟩⟩
  refine ⟨(front ⟨_, sized_frontLoaded ⟨32⟩⟩).mpr rfl, ?_⟩
  intro same
  exact absurd ((front ⟨_, sized_backLoaded⟩).mp same) (by decide)

end Hosts

end NumaFabric.TopologyDigest
