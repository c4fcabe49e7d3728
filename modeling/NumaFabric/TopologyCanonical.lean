import NumaFabric.SortedLists
import NumaFabric.SyntheticBackend
import NumaFabric.TopologyDigest

/-! The canonical form of a topology. Its order and its membership lists come from the register
alone, and each node's list is the part of the register that is on the node. -/
namespace NumaFabric

def NumaNode.contains (n : NumaNode) (pid : ProcessorId) : Bool :=
  SortedLists.binarySearch (·.value) n.processors pid

namespace TopologyCanonical
open Std FaultState HostTopology SortedLists TopologyDigest

section Membership
variable {κ : Type} [Ord κ] [TransOrd κ] [LawfulEqOrd κ] [DecidableEq κ]

/-- `node_members` and `group_members`: the register is gone through once, and each processor is
added to the list of its node or group. -/
def memberMap (key : Processor → κ) (register : List Processor) : ExtTreeMap κ (List ProcessorId) :=
  register.foldl (fun m p => m.insert (key p) (m[key p]?.getD [] ++ [p.id])) ∅

theorem foldl_memberMap (key : Processor → κ) (k : κ) (register : List Processor)
    (m : ExtTreeMap κ (List ProcessorId)) :
    (register.foldl (fun m p => m.insert (key p) (m[key p]?.getD [] ++ [p.id])) m)[k]?.getD [] =
      m[k]?.getD [] ++ (register.filter fun p => key p == k).map (·.id) := by
  induction register generalizing m with
  | nil => simp
  | cons p register ih =>
    rw [List.foldl_cons, ih, ExtTreeMap.getElem?_insert]
    by_cases here : key p = k
    · simp [here]
    · have ne : compare (key p) k ≠ .eq := fun same => here (LawfulEqCmp.eq_of_compare same)
      simp [here, ne]

/-- What the maps hold for a node or group after their lists are sorted, and the empty list where
they hold nothing. -/
theorem memberMap_sorted (key : Processor → κ) (register : List Processor) (k : κ) :
    ((memberMap key register)[k]?.map (sortBy (·.value))).getD [] =
      membersOf register (key · == k) := by
  have collected := foldl_memberMap key k register ∅
  rw [ExtTreeMap.getElem?_empty, Option.getD_none, List.nil_append] at collected
  change _ = sortBy Id.value ((register.filter fun p => key p == k).map (·.id))
  rw [← collected]
  change _ = sortBy Id.value ((memberMap key register)[k]?.getD [])
  cases (memberMap key register)[k]? <;> rfl

end Membership

section Canonical
variable {t t' : HostTopology}

theorem sortCanonical_processors : t.sortCanonical.processors = sortBy (·.id.value) t.processors := rfl

theorem sortCanonical_nodes :
    t.sortCanonical.nodes = (sortBy (·.id.value) t.nodes).map fun n =>
      { n with processors := membersOf (sortBy (·.id.value) t.processors) (·.node == n.id) } := rfl

theorem sortCanonical_groups :
    t.sortCanonical.groups = (sortBy (·.id.value) t.groups).map fun g =>
      { g with processors := membersOf (sortBy (·.id.value) t.processors) (·.group == g.id) } := rfl

/-- A node as the digest takes it, but for the list of its members. -/
def bareNode (n : NumaNode) : NodeFacts := { nodeFacts n with processors := [] }

/-- A group without the list of its members. -/
def bareGroup (g : ProcessorGroupInfo) : ProcessorGroupInfo := { g with processors := [] }

/-- No identifier occurs twice. -/
structure Distinct (t : HostTopology) : Prop where
  processors : (t.processors.map (·.id)).Nodup
  nodes : (t.nodes.map (·.id)).Nodup
  groups : (t.groups.map (·.id)).Nodup

/-- The same host, with its processors, nodes and groups in another order. The membership lists may
be anything. -/
structure Reordered (t t' : HostTopology) : Prop where
  hostId : t.hostId = t'.hostId
  generation : t.generation = t'.generation
  systemPageSize : t.systemPageSize = t'.systemPageSize
  allocationGranularity : t.allocationGranularity = t'.allocationGranularity
  numaNodeCountCertain : t.numaNodeCountCertain = t'.numaNodeCountCertain
  processors : t.processors.Perm t'.processors
  nodes : (t.nodes.map bareNode).Perm (t'.nodes.map bareNode)
  groups : (t.groups.map bareGroup).Perm (t'.groups.map bareGroup)

/-- Identifiers are distinct as their values are. -/
theorem nodup_value {α : Type} {tag : Tag} {id : α → Id tag} {l : List α}
    (distinct : (l.map id).Nodup) : (l.map fun a => (id a).value).Nodup := by
  have mapped := distinct.map (f := Id.value) (by rintro ⟨a⟩ ⟨b⟩ rfl; rfl)
  rwa [List.map_map] at mapped

/-- Sorting and then filling in what depends on the key only: the stale part of an element makes no
difference. -/
theorem sortBy_map_congr {α β γ : Type} {tag : Tag} {l l' : List α} (id : α → Id tag)
    (bare : α → β) (bareId : β → Id tag) (keeps : ∀ a, bareId (bare a) = id a)
    (perm : (l.map bare).Perm (l'.map bare)) (distinct : (l.map id).Nodup) (fill : β → γ) :
    (sortBy (fun a => (id a).value) l).map (fun a => fill (bare a)) =
      (sortBy (fun a => (id a).value) l').map fun a => fill (bare a) := by
  have sorted (l : List α) : (sortBy (fun a => (id a).value) l).map (fun a => fill (bare a)) =
      (sortBy (fun b => (bareId b).value) (l.map bare)).map fill := by
    rw [← sortBy_map bare fun a => by rw [keeps], List.map_map]
    rfl
  have apart : ((l.map bare).map fun b => (bareId b).value).Nodup := by
    rw [List.map_map]
    simpa only [Function.comp_def, keeps] using nodup_value distinct
  rw [sorted, sorted, sortBy_congr perm apart]

/-- The digested part of the canonical form depends on the register only up to its order, and on no
membership list. -/
theorem facts_sortCanonical (same : Reordered t t') (distinct : Distinct t) :
    facts t.sortCanonical = facts t'.sortCanonical := by
  have register : sortBy (·.id.value) t.processors = sortBy (·.id.value) t'.processors :=
    sortBy_congr same.processors (nodup_value distinct.processors)
  have nodes := sortBy_map_congr NumaNode.id bareNode NodeFacts.id (fun _ => rfl) same.nodes
    distinct.nodes fun n =>
      { n with processors := membersOf (sortBy (·.id.value) t'.processors) (·.node == n.id) }
  have groups := sortBy_map_congr ProcessorGroupInfo.id bareGroup ProcessorGroupInfo.id (fun _ => rfl)
    same.groups distinct.groups fun g =>
      { g with processors := membersOf (sortBy (·.id.value) t'.processors) (·.group == g.id) }
  simp only [facts, sortCanonical_processors, sortCanonical_nodes, sortCanonical_groups, List.map_map,
    register]
  exact Facts.mk.injEq .. |>.mpr ⟨same.hostId, same.generation, same.systemPageSize,
    same.allocationGranularity, same.numaNodeCountCertain, rfl, nodes, groups⟩

/-- Filling in the same lists again changes nothing. -/
theorem sortBy_map_map {α : Type} {tag : Tag} (l : List α) (id : α → Id tag) (fill : α → α)
    (keeps : ∀ a, id (fill a) = id a) (again : ∀ a, fill (fill a) = fill a) :
    (sortBy (fun a => (id a).value) ((sortBy (fun a => (id a).value) l).map fill)).map fill =
      (sortBy (fun a => (id a).value) l).map fill := by
  rw [← sortBy_map fill fun a => by rw [keeps], sortBy_sortBy, List.map_map]
  exact List.map_congr_left fun a _ => again a

theorem sortCanonical_idem (t : HostTopology) : t.sortCanonical.sortCanonical = t.sortCanonical := by
  have register : sortBy (·.id.value) (sortBy (·.id.value) t.processors) =
      sortBy (·.id.value) t.processors := sortBy_sortBy
  have nodes := sortBy_map_map t.nodes NumaNode.id (fun n =>
    { n with processors := membersOf (sortBy (·.id.value) t.processors) (·.node == n.id) })
    (fun _ => rfl) fun _ => rfl
  have groups := sortBy_map_map t.groups ProcessorGroupInfo.id (fun g =>
    { g with processors := membersOf (sortBy (·.id.value) t.processors) (·.group == g.id) })
    (fun _ => rfl) fun _ => rfl
  have sameNodes : t.sortCanonical.sortCanonical.nodes = t.sortCanonical.nodes := by
    simp only [sortCanonical_processors, sortCanonical_nodes, register]
    exact nodes
  have sameGroups : t.sortCanonical.sortCanonical.groups = t.sortCanonical.groups := by
    simp only [sortCanonical_processors, sortCanonical_groups, register]
    exact groups
  have rest : t.sortCanonical.sortCanonical = { t.sortCanonical with
    processors := sortBy (·.id.value) (sortBy (·.id.value) t.processors)
    nodes := t.sortCanonical.sortCanonical.nodes
    groups := t.sortCanonical.sortCanonical.groups } := rfl
  rw [rest, register, sameNodes, sameGroups]
  rfl

/-- Two orders of one host have one canonical form as far as the digest goes, and sorting once is
enough. -/
theorem canonical_digest (same : Reordered t t') (distinct : Distinct t) :
    facts t.sortCanonical = facts t'.sortCanonical ∧
      t.sortCanonical.semanticDigest = t'.sortCanonical.semanticDigest ∧
      t.sortCanonical.sortCanonical = t.sortCanonical := by
  have equal := facts_sortCanonical same distinct
  refine ⟨equal, ?_, sortCanonical_idem t⟩
  rw [semanticDigest, semanticDigest, digestInput_of_facts equal]

/-- A host of two nodes and one group, found in order. -/
def smallHost : HostTopology where
  hostId := ⟨1⟩
  groups := [{ id := ⟨1⟩, index := ⟨1⟩ }]
  nodes := [{ id := ⟨1⟩ }, { id := ⟨2⟩ }]
  processors := [{ id := ⟨1⟩, group := ⟨1⟩, node := ⟨1⟩ }, { id := ⟨2⟩, group := ⟨1⟩, node := ⟨2⟩ },
    { id := ⟨3⟩, group := ⟨1⟩, node := ⟨1⟩ }]

/-- The same host, found in reverse, with a membership list left from before. -/
def reversedHost : HostTopology where
  hostId := ⟨1⟩
  groups := [{ id := ⟨1⟩, index := ⟨1⟩, processors := [⟨9⟩] }]
  nodes := [{ id := ⟨2⟩, processors := [⟨3⟩] }, { id := ⟨1⟩ }]
  processors := smallHost.processors.reverse

theorem canonical_digest_smallHost :
    smallHost ≠ reversedHost ∧ smallHost.sortCanonical.semanticDigest =
      reversedHost.sortCanonical.semanticDigest := by
  refine ⟨by decide, ?_⟩
  have same : Reordered smallHost reversedHost :=
    ⟨rfl, rfl, rfl, rfl, rfl, (List.reverse_perm _).symm, by decide, by decide⟩
  exact (canonical_digest same ⟨by decide, by decide, by decide⟩).2.1

end Canonical

section Partition
variable {t : HostTopology}

theorem nodup_of_validateNodes {nodes : List NumaNode} (accepted : validateNodes nodes = .ok ()) :
    (nodes.map (·.id)).Nodup := by
  induction nodes with
  | nil => simp
  | cons n rest ih =>
    unfold validateNodes at accepted
    split_ifs at accepted with invalid duplicate
    rw [List.map_cons, List.nodup_cons]
    refine ⟨?_, ih accepted⟩
    intro mem
    obtain ⟨n', mem, same⟩ := List.mem_map.mp mem
    exact duplicate (List.any_eq_true.mpr ⟨n', mem, by simp [same]⟩)

theorem node_of_validateProcessors {owner : ExtTreeMap ProcessorId NumaNodeId} {register : List Processor}
    (accepted : t.validateProcessors owner register = .ok ()) :
    ∀ p ∈ register, p.node ∈ t.nodes.map (·.id) := by
  induction register generalizing owner with
  | nil => simp
  | cons p rest ih =>
    unfold validateProcessors at accepted
    split_ifs at accepted with twice missing missingGroup
    simp only [List.forall_mem_cons]
    refine ⟨?_, ih accepted⟩
    obtain ⟨n, mem, same⟩ : ∃ n ∈ t.nodes, n.id = p.node := by simpa [findNode] using missing
    exact List.mem_map.mpr ⟨n, mem, same⟩

/-- Processors on nodes and in groups that exist are accepted, if no two share an identifier and not
the node. -/
theorem validateProcessors_eq_ok {owner : ExtTreeMap ProcessorId NumaNodeId} {register : List Processor}
    (known : ∀ p ∈ register, (t.findNode p.node).isSome ∧ (t.findGroup p.group).isSome)
    (claimed : ∀ p ∈ register, ∀ n, owner[p.id]? = some n → n = p.node)
    (agree : ∀ p ∈ register, ∀ q ∈ register, p.id = q.id → p.node = q.node) :
    t.validateProcessors owner register = .ok () := by
  induction register generalizing owner with
  | nil => rfl
  | cons p rest ih =>
    obtain ⟨node, group⟩ := known p List.mem_cons_self
    have once : owner[p.id]?.any (· != p.node) = false := by
      cases first : owner[p.id]? with
      | none => rfl
      | some n => simp [claimed p List.mem_cons_self n first]
    have next : t.validateProcessors (owner.insertIfNew p.id p.node) rest = .ok () := by
      refine ih (fun q hq => known q (List.mem_cons_of_mem p hq)) ?_
        fun q hq q' hq' => agree q (List.mem_cons_of_mem p hq) q' (List.mem_cons_of_mem p hq')
      intro q hq n found
      rw [ExtTreeMap.getElem?_insertIfNew] at found
      split_ifs at found with fresh
      · obtain rfl : p.node = n := by simpa using found
        exact agree p List.mem_cons_self q (List.mem_cons_of_mem p hq)
          (LawfulEqCmp.eq_of_compare fresh.1)
      · exact claimed q (List.mem_cons_of_mem p hq) n found
    rw [validateProcessors, once, next]
    simp [Option.isSome_iff_ne_none.mp node, Option.isSome_iff_ne_none.mp group]

theorem validateNodes_eq_ok {nodes : List NumaNode} (valid : ∀ n ∈ nodes, n.id.isValid = true)
    (distinct : (nodes.map (·.id)).Nodup) : validateNodes nodes = .ok () := by
  induction nodes with
  | nil => rfl
  | cons n rest ih =>
    obtain ⟨fresh, distinct⟩ := List.nodup_cons.mp distinct
    have once : (rest.any fun m => m.id == n.id) = false := by
      rw [List.any_eq_false]
      intro m mem same
      exact fresh (List.mem_map.mpr ⟨m, mem, by simpa using same⟩)
    rw [validateNodes, valid n List.mem_cons_self, once,
      ih (fun m hm => valid m (List.mem_cons_of_mem n hm)) distinct]
    rfl

theorem validate_iff : t.validate = .ok () ↔
    t.validateProcessors ∅ t.processors = .ok () ∧ validateNodes t.nodes = .ok () := by
  unfold validate
  cases t.validateProcessors ∅ t.processors with
  | error e => simp [bind, Except.bind]
  | ok u => simp [bind, Except.bind]

theorem membersOf_perm (register : List Processor) (test : Processor → Bool) :
    (membersOf register test).Perm ((register.filter test).map (·.id)) := List.perm_insertionSort _ _

theorem mem_membersOf {register : List Processor} {test : Processor → Bool} {pid : ProcessorId} :
    pid ∈ membersOf register test ↔ ∃ p ∈ register, p.id = pid ∧ test p = true := by
  rw [(membersOf_perm register test).mem_iff, List.mem_map]
  simp only [List.mem_filter]
  exact ⟨fun ⟨p, ⟨mem, here⟩, same⟩ => ⟨p, mem, same, here⟩,
    fun ⟨p, mem, same, here⟩ => ⟨p, ⟨mem, here⟩, same⟩⟩

theorem membersOf_strict {register : List Processor} (distinct : (register.map (·.id)).Nodup)
    (test : Processor → Bool) :
    (membersOf register test).Pairwise fun a b => a.value < b.value := by
  have part : ((register.filter test).map (·.id)).Nodup := distinct.sublist (List.filter_sublist.map _)
  refine sortBy_strict (nodup_value (l := (register.filter test).map (·.id)) ?_)
  rwa [List.map_id']

/-- The members of the nodes, node by node, are the processors of the register. -/
theorem flatMap_members_perm (distinct : (t.nodes.map (·.id)).Nodup)
    (cover : ∀ p ∈ t.processors, p.node ∈ t.nodes.map (·.id)) :
    (t.sortCanonical.nodes.flatMap (·.processors)).Perm (t.processors.map (·.id)) := by
  have ids : (t.sortCanonical.nodes.map (·.id)).Perm (t.nodes.map (·.id)) := by
    rw [sortCanonical_nodes, List.map_map]
    exact sortBy_perm.map _
  have parts : t.sortCanonical.nodes.flatMap (·.processors) =
      (t.sortCanonical.nodes.map (·.id)).flatMap fun k =>
        membersOf t.sortCanonical.processors fun p => p.node == k := by
    rw [sortCanonical_nodes, List.map_map, List.flatMap_map, List.flatMap_map]
    rfl
  rw [parts]
  refine (List.Perm.flatMap_left _ fun k _ => membersOf_perm _ _).trans ?_
  rw [← List.map_flatMap]
  refine ((flatMap_filter_perm (ids.nodup_iff.mpr distinct) ?_).trans sortBy_perm).map _
  intro p mem
  exact ids.mem_iff.mpr (cover p (mem_sortBy.mp mem))

/-- Each node of the canonical form lists its processors in ascending order, every processor is
listed once, and the search of a node finds exactly those the register has on it. -/
theorem membership_partition (distinct : (t.processors.map (·.id)).Nodup)
    (accepted : t.validate = .ok ()) :
    (∀ n ∈ t.sortCanonical.nodes, n.processors.Pairwise fun a b => a.value < b.value) ∧
      (t.sortCanonical.nodes.flatMap (·.processors)).Perm (t.sortCanonical.processors.map (·.id)) ∧
      ∀ n ∈ t.sortCanonical.nodes, ∀ q, n.contains q = true ↔
        ∃ p ∈ t.sortCanonical.processors, p.id = q ∧ p.node = n.id := by
  obtain ⟨first, second⟩ := validate_iff.mp accepted
  have strict : ∀ n ∈ t.sortCanonical.nodes, n.processors.Pairwise fun a b => a.value < b.value := by
    intro n mem
    rw [sortCanonical_nodes] at mem
    obtain ⟨n, _, rfl⟩ := List.mem_map.mp mem
    exact membersOf_strict (((sortBy_perm.map _).nodup_iff).mpr distinct) _
  refine ⟨strict, ?_, ?_⟩
  · exact (flatMap_members_perm (nodup_of_validateNodes second)
      (node_of_validateProcessors first)).trans (sortBy_perm.map _).symm
  · intro n mem q
    have sorted := (strict n mem).imp fun lt => Std.le_of_lt lt
    rw [NumaNode.contains, binarySearch_iff sorted]
    rw [sortCanonical_nodes] at mem
    obtain ⟨n, _, rfl⟩ := List.mem_map.mp mem
    constructor
    · rintro ⟨a, here, same⟩
      obtain rfl : a = q := by
        cases a
        cases q
        exact congrArg Id.mk same
      obtain ⟨p, registered, same, node⟩ := mem_membersOf.mp here
      exact ⟨p, registered, same, eq_of_beq node⟩
    · rintro ⟨p, registered, same, node⟩
      exact ⟨q, mem_membersOf.mpr ⟨p, registered, same, beq_iff_eq.mpr node⟩, rfl⟩

theorem membership_partition_reversedHost :
    reversedHost.validate = .ok () ∧
      (reversedHost.sortCanonical.nodes.flatMap (·.processors)).Perm [⟨1⟩, ⟨2⟩, ⟨3⟩] := by
  have accepted : reversedHost.validate = .ok () := by decide +kernel
  exact ⟨accepted, (membership_partition (by decide) accepted).2.1⟩

end Partition

end TopologyCanonical

end NumaFabric
