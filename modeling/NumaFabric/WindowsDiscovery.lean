import NumaFabric.WindowsBackend

/-! What discovery on Windows makes of a report. A bit of a mask finds its node by the search, but
only the lowest bits of a group are ever looked up; and the memory of a node is asked for under the
number of the next one. -/
namespace NumaFabric
open FaultState SortedLists

/-- The node's mask of the group has the bit. -/
def NumaNodeRelationship.Owns (r : NumaNodeRelationship) (g : U16) (b : ℕ) : Prop :=
  ∃ ga ∈ r.groupMasks, ga.group = g ∧ ga.mask.getLsbD b = true

instance (r : NumaNodeRelationship) (g : U16) (b : ℕ) : Decidable (r.Owns g b) :=
  inferInstanceAs (Decidable (∃ ga ∈ r.groupMasks, _))

namespace WindowsDiscovery
open WindowsSystem HostTopology TopologyCanonical

section Search

/-- The order of group and bit is that of one number. -/
def key (a : GroupBit) : ℕ := a.group.toNat * 2 ^ 16 + a.bit.toNat

theorem less_iff (a b : GroupBit) : a.less b = true ↔ key a < key b := by
  have ha := a.bit.isLt
  have hb := b.bit.isLt
  simp only [GroupBit.less, key, Bool.or_eq_true, Bool.and_eq_true, decide_eq_true_eq, beq_iff_eq,
    BitVec.lt_def, ← BitVec.toNat_inj]
  omega

theorem key_inj {a b : GroupBit} (same : key a = key b) : a = b := by
  have ha := a.bit.isLt
  have hb := b.bit.isLt
  unfold key at same
  have group : a.group = b.group := BitVec.eq_of_toNat_eq (by omega)
  have bit : a.bit = b.bit := BitVec.eq_of_toNat_eq (by omega)
  cases a
  cases b
  simp_all

variable {r : NumaNodeRelationship} {gi bit : ℕ}

theorem bits_sorted (r : NumaNodeRelationship) : r.bits.Pairwise fun a b => key a ≤ key b := by
  have order : ∀ a b : GroupBit, b.less a = false ↔ key a ≤ key b := by
    intro a b
    rw [← Bool.not_eq_true, less_iff]
    omega
  have total : Std.Total fun a b : GroupBit => b.less a = false :=
    ⟨fun a b => by rw [order, order]; omega⟩
  have trans : IsTrans GroupBit fun a b => b.less a = false :=
    ⟨fun a b c => by rw [order, order, order]; omega⟩
  have sorted := List.pairwise_insertionSort (fun a b : GroupBit => b.less a = false) r.found
  refine (sorted.sublist (List.destutter_sublist _ _)).imp ?_
  intro a b le
  exact (order a b).mp le

theorem mem_bits {x : GroupBit} :
    x ∈ r.bits ↔ ∃ b < 64, x.bit = BitVec.ofNat 16 b ∧ r.Owns x.group b := by
  rw [NumaNodeRelationship.bits, mem_destutter_ne, List.mem_insertionSort, NumaNodeRelationship.found,
    List.mem_flatMap]
  constructor
  · rintro ⟨ga, member, inner⟩
    obtain ⟨b, here, rfl⟩ := List.mem_map.mp inner
    obtain ⟨below, set⟩ := List.mem_filter.mp here
    exact ⟨b, List.mem_range.mp below, rfl, ga, member, rfl, set⟩
  · rintro ⟨b, below, here, ga, member, group, set⟩
    refine ⟨ga, member, List.mem_map.mpr ⟨b, List.mem_filter.mpr ⟨List.mem_range.mpr below, set⟩, ?_⟩⟩
    rw [group, ← here]

/-- The search finds exactly the bits of the node's masks. -/
theorem owns_iff (group : gi < 2 ^ 16) (index : bit < 2 ^ 16) :
    owns r.bits gi bit = true ↔ r.Owns (BitVec.ofNat 16 gi) bit := by
  have sameGroup : (BitVec.ofNat 16 gi).toNat = gi := by
    rw [BitVec.toNat_ofNat, Nat.mod_eq_of_lt group]
  have listed : (⟨BitVec.ofNat 16 gi, BitVec.ofNat 16 bit⟩ : GroupBit) ∈ r.bits ↔
      r.Owns (BitVec.ofNat 16 gi) bit := by
    rw [mem_bits]
    constructor
    · rintro ⟨b, below, same, owned⟩
      have numbers := congrArg BitVec.toNat same
      simp only [BitVec.toNat_ofNat, Nat.mod_eq_of_lt index, Nat.mod_eq_of_lt (by omega : b < 2 ^ 16)]
        at numbers
      rwa [numbers]
    · rintro ⟨ga, member, group, set⟩
      refine ⟨bit, ?_, rfl, ga, member, group, set⟩
      by_contra past
      rw [BitVec.getLsbD_of_ge _ _ (by omega)] at set
      cases set
  have less : (fun a : GroupBit => a.less ⟨BitVec.ofNat 16 gi, BitVec.ofNat 16 bit⟩) =
      fun a => decide (key a < key ⟨BitVec.ofNat 16 gi, BitVec.ofNat 16 bit⟩) := by
    funext a
    rw [Bool.eq_iff_iff, less_iff, decide_eq_true_eq]
  rw [← listed, owns]
  simp only [less]
  constructor
  · intro found
    obtain ⟨it, here, same⟩ := (Option.any_eq_true _ _).mp found
    have member := List.mem_of_getElem? here
    simp only [Bool.and_eq_true, beq_iff_eq] at same
    have group' : it.group = BitVec.ofNat 16 gi := BitVec.eq_of_toNat_eq (same.1.trans sameGroup.symm)
    rwa [← group', ← same.2]
  · intro member
    obtain ⟨it, -, here, same⟩ := getElem?_partitionPoint (bits_sorted r) member rfl
    rw [here, Option.any_some, key_inj same]
    simp [sameGroup]

end Search

section Reports
variable {os : WindowsSystem}

/-- Some node has the bit. -/
def Owned (os : WindowsSystem) (g : U16) (b : ℕ) : Prop := ∃ r ∈ os.records, r.Owns g b

instance (os : WindowsSystem) (g : U16) (b : ℕ) : Decidable (Owned os g b) :=
  inferInstanceAs (Decidable (∃ r ∈ os.records, _))

/-- What the operating system promises: distinct node numbers, masks of active groups that no two
nodes share, and in each group as many active processors as bits. -/
structure Report (os : WindowsSystem) : Prop where
  numbers : (os.records.map (·.nodeNumber)).Nodup
  disjoint : ∀ r ∈ os.records, ∀ r' ∈ os.records, ∀ g b, r.Owns g b → r'.Owns g b → r = r'
  groups : ∀ r ∈ os.records, ∀ g b, r.Owns g b → g < os.activeProcessorGroupCount
  active : ∀ g < os.activeProcessorGroupCount,
    (os.activeProcessorCount g).toNat = ((Finset.range 64).filter fun b => Owned os g b).card

theorem Report.active_le (report : Report os) {g : U16} (h : g < os.activeProcessorGroupCount) :
    (os.activeProcessorCount g).toNat ≤ 64 := by
  rw [report.active g h]
  exact (Finset.card_filter_le _ _).trans (Finset.card_range 64).le

theorem owner_eq (gi bit : ℕ) :
    os.owner gi bit = ((os.records.find? fun r => owns r.bits gi bit).map (·.nodeId)).getD .invalid := by
  have joined : os.gatherNumaNodes.1.zip os.gatherNumaNodes.2 =
      os.records.map fun r => (({ id := r.nodeId } : NumaNode), r.bits) := List.zip_map'
  change (((os.gatherNumaNodes.1.zip os.gatherNumaNodes.2).find? _).map _).getD _ = _
  rw [joined, List.find?_map, Option.map_map]
  rfl

theorem owner_of_owns (report : Report os) {r : NumaNodeRelationship} (member : r ∈ os.records)
    {gi bit : ℕ} (group : gi < 2 ^ 16) (index : bit < 2 ^ 16) (owned : r.Owns (BitVec.ofNat 16 gi) bit) :
    os.owner gi bit = r.nodeId := by
  have found : (os.records.find? fun r => owns r.bits gi bit).isSome := by
    rw [List.find?_isSome]
    exact ⟨r, member, (owns_iff group index).mpr owned⟩
  obtain ⟨r', first⟩ := Option.isSome_iff_exists.mp found
  have owned' : r'.Owns (BitVec.ofNat 16 gi) bit := by
    have found := List.find?_some first
    exact (owns_iff group index).mp found
  rw [owner_eq, first, report.disjoint r' (List.mem_of_find?_eq_some first) r member _ _ owned' owned]
  rfl

theorem owner_of_not_owned {gi bit : ℕ} (group : gi < 2 ^ 16) (index : bit < 2 ^ 16)
    (none : ¬ Owned os (BitVec.ofNat 16 gi) bit) : os.owner gi bit = .invalid := by
  have absent : (os.records.find? fun r => owns r.bits gi bit) = Option.none := by
    rw [List.find?_eq_none]
    intro r member owned
    exact none ⟨r, member, (owns_iff group index).mp owned⟩
  rw [owner_eq, absent]
  rfl

theorem toNat_nodeId (r : NumaNodeRelationship) : r.nodeId.value.toNat = r.nodeNumber.toNat + 1 := by
  have := r.nodeNumber.isLt
  simp only [NumaNodeRelationship.nodeId, BitVec.toNat_add, BitVec.toNat_setWidth,
    BitVec.ofNat_eq_ofNat, BitVec.toNat_ofNat]
  omega

theorem nodeId_inj {r r' : NumaNodeRelationship} (same : r.nodeId = r'.nodeId) :
    r.nodeNumber = r'.nodeNumber := by
  have numbers := congrArg (fun n : NumaNodeId => n.value.toNat) same
  simp only [toNat_nodeId] at numbers
  exact BitVec.eq_of_toNat_eq (by omega)

theorem toNat_processorId {gi bit : ℕ} (group : gi < 2 ^ 16) (index : bit < 2 ^ 16) :
    (processorId gi bit).value.toNat = (gi + 1) * 2 ^ 32 + (bit + 1) := by
  have low : (BitVec.ofNat 64 bit + 1).toNat = bit + 1 := by
    rw [BitVec.toNat_add, BitVec.toNat_ofNat]
    simp
    omega
  have high : (BitVec.ofNat 64 (gi + 1) <<< 32).toNat = (gi + 1) <<< 32 := by
    rw [BitVec.toNat_shiftLeft, BitVec.toNat_ofNat, Nat.shiftLeft_eq, Nat.shiftLeft_eq]
    omega
  rw [processorId, BitVec.toNat_or, low, high, ← Nat.shiftLeft_add_eq_or_of_lt (by omega),
    Nat.shiftLeft_eq]

theorem processorId_inj {gi gj bit bit' : ℕ} (hi : gi < 2 ^ 16) (hj : gj < 2 ^ 16) (hb : bit < 2 ^ 16)
    (hb' : bit' < 2 ^ 16) (same : processorId gi bit = processorId gj bit') : gi = gj ∧ bit = bit' := by
  have numbers := congrArg (fun p : ProcessorId => p.value.toNat) same
  simp only [toNat_processorId hi hb, toNat_processorId hj hb'] at numbers
  omega

theorem mem_processors {p : Processor} : p ∈ os.host.processors ↔
    ∃ g < os.activeProcessorGroupCount, ∃ bit < (os.activeProcessorCount g).toNat,
      p = os.processor g.toNat bit := by
  change p ∈ sortBy (·.id.value) os.processors ↔ _
  rw [mem_sortBy, WindowsSystem.processors, List.mem_flatMap]
  constructor
  · rintro ⟨gi, group, inner⟩
    rw [List.mem_range] at group
    have number : (BitVec.ofNat 16 gi).toNat = gi := by
      have := os.activeProcessorGroupCount.isLt
      rw [BitVec.toNat_ofNat, Nat.mod_eq_of_lt (by omega)]
    obtain ⟨bit, index, rfl⟩ := List.mem_map.mp inner
    exact ⟨BitVec.ofNat 16 gi, by rwa [BitVec.lt_def, number], bit, List.mem_range.mp index, by rw [number]⟩
  · rintro ⟨g, group, bit, index, rfl⟩
    refine ⟨g.toNat, List.mem_range.mpr group, List.mem_map.mpr ⟨bit, List.mem_range.mpr ?_, rfl⟩⟩
    rwa [BitVec.ofNat_toNat, BitVec.setWidth_eq]

theorem map_id_withCapacity (nodes : List NumaNode) :
    (os.withCapacity nodes).map (·.id) = nodes.map (·.id) := by
  unfold withCapacity
  split <;> rfl

theorem id_withMemory (n : NumaNode) : (os.withMemory n).id = n.id := by
  unfold withMemory
  split <;> rfl

/-- The nodes of the host are those of the report. -/
theorem ids_host : (os.host.nodes.map (·.id)).Perm (os.records.map (·.nodeId)) := by
  have sorted : os.inventory.nodes.map (·.id) =
      (sortBy (·.id.value) os.gatherNumaNodes.1).map (·.id) := List.map_map
  have inventory : (os.inventory.nodes.map (·.id)).Perm (os.gatherNumaNodes.1.map (·.id)) := by
    rw [sorted]
    exact sortBy_perm.map _
  have reported : os.gatherNumaNodes.1.map (·.id) = os.records.map (·.nodeId) := List.map_map
  rw [host, map_id_withCapacity, List.map_map, ← reported]
  simpa only [Function.comp_def, id_withMemory] using inventory

theorem isSome_findNode {t : HostTopology} {id : NumaNodeId} :
    (t.findNode id).isSome ↔ id ∈ t.nodes.map (·.id) := by
  simp [findNode, List.find?_isSome]

theorem isSome_findGroup {g : U16} (active : g < os.activeProcessorGroupCount) :
    (os.host.findGroup (groupId g.toNat)).isSome := by
  have member : ({ index := ⟨BitVec.ofNat 16 (g.toNat + 1)⟩, id := groupId g.toNat } : ProcessorGroupInfo) ∈
      sortBy (·.id.value) os.groups := by
    rw [mem_sortBy]
    exact List.mem_map.mpr ⟨g.toNat, List.mem_range.mpr active, rfl⟩
  rw [findGroup, List.find?_isSome]
  exact ⟨_, List.mem_map.mpr ⟨_, member, rfl⟩, by simp⟩

theorem discoverHost_eq_ok {h : HostTopology} :
    os.discoverHost = .ok h ↔ os.host.validate = .ok () ∧ os.host = h := by
  unfold discoverHost
  cases os.host.validate with
  | error e => simp [bind, Except.bind]
  | ok u => simp [bind, Except.bind, pure, Except.pure]

theorem validateNodes_host (report : Report os) : validateNodes os.host.nodes = .ok () := by
  have distinct : (os.records.map (·.nodeId)).Nodup := by
    refine List.pairwise_map.mpr ((List.pairwise_map.mp report.numbers).imp ?_)
    intro r r' differ same
    exact differ (nodeId_inj same)
  refine validateNodes_eq_ok ?_ (ids_host.nodup_iff.mpr distinct)
  intro n member
  have reported := ids_host.mem_iff.mp (List.mem_map_of_mem (f := (·.id)) member)
  obtain ⟨r, -, same⟩ := List.mem_map.mp reported
  have number := toNat_nodeId r
  rw [same] at number
  rw [Id.isValid, bne_iff_ne]
  intro zero
  rw [zero] at number
  simp at number

/-- In every active group the processors fill the lowest bits. -/
def Lowest (os : WindowsSystem) : Prop :=
  ∀ g < os.activeProcessorGroupCount, ∀ b, Owned os g b ↔ b < (os.activeProcessorCount g).toNat

/-- If every bit that is looked up has a node, no bit is left out: there are as many. -/
theorem lowest_of_cover (report : Report os)
    (cover : ∀ g < os.activeProcessorGroupCount, ∀ b < (os.activeProcessorCount g).toNat, Owned os g b) :
    Lowest os := by
  intro g active b
  have few := report.active_le active
  have inside : Finset.range (os.activeProcessorCount g).toNat ⊆
      (Finset.range 64).filter fun b => Owned os g b := by
    intro b member
    have below := Finset.mem_range.mp member
    exact Finset.mem_filter.mpr ⟨Finset.mem_range.mpr (by omega), cover g active b below⟩
  have all := Finset.eq_of_subset_of_card_le inside (by rw [← report.active g active, Finset.card_range])
  refine ⟨?_, cover g active b⟩
  rintro ⟨r, member, ga, mask, group, set⟩
  have below : b < 64 := by
    by_contra past
    rw [BitVec.getLsbD_of_ge _ _ (by omega)] at set
    cases set
  rw [← Finset.mem_range, all]
  exact Finset.mem_filter.mpr ⟨Finset.mem_range.mpr below, r, member, ga, mask, group, set⟩

/-- A report that is accepted has a node for every bit that is looked up. -/
theorem cover_of_accepted (report : Report os) (accepted : os.host.validate = .ok ()) :
    ∀ g < os.activeProcessorGroupCount, ∀ b < (os.activeProcessorCount g).toNat, Owned os g b := by
  intro g active b below
  have few := report.active_le active
  have group := g.isLt
  by_contra none
  have place : os.processor g.toNat b ∈ os.host.processors := mem_processors.mpr ⟨g, active, b, below, rfl⟩
  have known := node_of_validateProcessors (validate_iff.mp accepted).1 _ place
  have lost : (os.processor g.toNat b).node = .invalid := by
    refine owner_of_not_owned group (by omega) ?_
    rwa [BitVec.ofNat_toNat, BitVec.setWidth_eq]
  rw [lost] at known
  obtain ⟨n, member, same⟩ := List.mem_map.mp known
  have valid := isValid_of_validate accepted n member
  rw [same] at valid
  cases valid

/-- The group, the index and the node of a processor. -/
def place (p : Processor) : ProcessorGroupId × LogicalProcessorIndex × NumaNodeId :=
  (p.group, p.indexInGroup, p.node)

/-- Discovery returns, and registers one processor for each bit of each mask. -/
def Complete (os : WindowsSystem) : Prop :=
  ∃ host, os.discoverHost = .ok host ∧ (host.processors.map place).Nodup ∧
    ∀ x, x ∈ host.processors.map place ↔ ∃ r ∈ os.records, ∃ g b, r.Owns g b ∧
      x = (groupId g.toNat, ⟨BitVec.ofNat 32 b⟩, ⟨r.nodeNumber.setWidth 64 + 1⟩)

theorem place_processor (report : Report os) {r : NumaNodeRelationship} (member : r ∈ os.records) {g : U16}
    {b : ℕ} (owned : r.Owns g b) (below : b < 2 ^ 16) :
    place (os.processor g.toNat b) =
      (groupId g.toNat, ⟨BitVec.ofNat 32 b⟩, ⟨r.nodeNumber.setWidth 64 + 1⟩) := by
  have found := owner_of_owns report member g.isLt below (by rwa [BitVec.ofNat_toNat, BitVec.setWidth_eq])
  rw [place, processor, found]
  rfl

theorem groupId_inj {gi gj : ℕ} (hi : gi < 2 ^ 16) (hj : gj < 2 ^ 16) (same : groupId gi = groupId gj) :
    gi = gj := by
  have values := congrArg (fun g : ProcessorGroupId => g.value - 1) same
  simp only [groupId, BitVec.add_sub_cancel] at values
  have numbers := congrArg BitVec.toNat values
  simp only [BitVec.toNat_ofNat] at numbers
  omega

/-- No two processors have one place. -/
theorem nodup_places (report : Report os) : (os.host.processors.map place).Nodup := by
  have active : ∀ gi ∈ List.range os.activeProcessorGroupCount.toNat, gi < 2 ^ 16 ∧
      (os.activeProcessorCount (BitVec.ofNat 16 gi)).toNat ≤ 64 := by
    intro gi member
    have below := List.mem_range.mp member
    have count := os.activeProcessorGroupCount.isLt
    refine ⟨by omega, report.active_le ?_⟩
    rw [BitVec.lt_def, BitVec.toNat_ofNat, Nat.mod_eq_of_lt (by omega)]
    exact below
  have sorted : (os.host.processors.map place).Perm (os.processors.map place) := sortBy_perm.map _
  rw [sorted.nodup_iff, WindowsSystem.processors, List.map_flatMap, List.nodup_flatMap]
  constructor
  · intro gi member
    have few := (active gi member).2
    rw [List.map_map]
    refine List.nodup_range.map_on ?_
    intro b hb b' hb' same
    rw [List.mem_range] at hb hb'
    have index := congrArg (fun x => (Prod.fst (Prod.snd x)).value.toNat) same
    simp only [Function.comp_apply, place, processor, BitVec.toNat_ofNat] at index
    omega
  · refine List.nodup_range.imp_of_mem ?_
    intro gi gj hi hj differ
    rw [Function.onFun, List.disjoint_left]
    intro x first second
    obtain ⟨p, left, rfl⟩ := List.mem_map.mp first
    obtain ⟨q, right, same⟩ := List.mem_map.mp second
    obtain ⟨b, -, rfl⟩ := List.mem_map.mp left
    obtain ⟨b', -, rfl⟩ := List.mem_map.mp right
    exact differ (groupId_inj (active gi hi).1 (active gj hj).1 (congrArg Prod.fst same).symm)

/-- A report without gaps is accepted. -/
theorem accepted_of_lowest (report : Report os) (lowest : Lowest os) : os.host.validate = .ok () := by
  have located : ∀ p ∈ os.host.processors, ∃ g < os.activeProcessorGroupCount,
      ∃ bit < (os.activeProcessorCount g).toNat, p = os.processor g.toNat bit ∧
        p.node ∈ os.host.nodes.map (·.id) := by
    intro p member
    obtain ⟨g, active, bit, index, rfl⟩ := mem_processors.mp member
    have few := report.active_le active
    obtain ⟨r, known, owned⟩ := (lowest g active bit).mpr index
    have node := place_processor report known owned (by omega)
    refine ⟨g, active, bit, index, rfl, ids_host.mem_iff.mpr (List.mem_map.mpr ⟨r, known, ?_⟩)⟩
    exact (congrArg (fun x => Prod.snd (Prod.snd x)) node).symm
  refine validate_iff.mpr ⟨validateProcessors_eq_ok ?_ ?_ ?_, validateNodes_host report⟩
  · intro p member
    obtain ⟨g, active, bit, index, rfl, node⟩ := located p member
    exact ⟨isSome_findNode.mpr node, isSome_findGroup active⟩
  · intro p member n found
    rw [Std.ExtTreeMap.getElem?_empty] at found
    cases found
  · intro p hp q hq same
    obtain ⟨g, active, bit, index, rfl, -⟩ := located p hp
    obtain ⟨g', active', bit', index', rfl, -⟩ := located q hq
    have few := report.active_le active
    have few' := report.active_le active'
    obtain ⟨group, position⟩ := processorId_inj g.isLt g'.isLt (by omega) (by omega) same
    rw [group, position]

/-- Discovery is complete exactly for the reports in which the processors of each group fill its
lowest bits. -/
theorem complete_iff_lowest (os : WindowsSystem) (report : Report os) : Complete os ↔ Lowest os := by
  constructor
  · rintro ⟨host, discovered, -⟩
    exact lowest_of_cover report (cover_of_accepted report (discoverHost_eq_ok.mp discovered).1)
  · intro lowest
    refine ⟨os.host, discoverHost_eq_ok.mpr ⟨accepted_of_lowest report lowest, rfl⟩, nodup_places report,
      ?_⟩
    intro x
    rw [List.mem_map]
    constructor
    · rintro ⟨p, member, rfl⟩
      obtain ⟨g, active, bit, index, rfl⟩ := mem_processors.mp member
      have few := report.active_le active
      obtain ⟨r, known, owned⟩ := (lowest g active bit).mpr index
      exact ⟨r, known, g, bit, owned, place_processor report known owned (by omega)⟩
    · rintro ⟨r, known, g, b, owned, rfl⟩
      have active := report.groups r known g b owned
      have few := report.active_le active
      have index := (lowest g active b).mp ⟨r, known, owned⟩
      exact ⟨os.processor g.toNat b, mem_processors.mpr ⟨g, active, b, index, rfl⟩,
        place_processor report known owned (by omega)⟩

theorem owns_singleton {k : U32} {g g' : U16} {mask : U64} {b : ℕ} :
    (⟨k, [⟨g', mask⟩]⟩ : NumaNodeRelationship).Owns g b ↔ g' = g ∧ mask.getLsbD b = true := by
  simp [NumaNodeRelationship.Owns]

theorem eq_zero_of_lt_one {g : U16} (h : g < 1) : g = 0 := by
  apply BitVec.eq_of_toNat_eq
  rw [BitVec.lt_def] at h
  simp at h ⊢
  omega

/-- Two nodes that share a group, each with two processors and memory of its own. -/
def sharedGroup : WindowsSystem where
  relationNumaNode := some [⟨0, [⟨0, 0b0011⟩]⟩, ⟨1, [⟨0, 0b1100⟩]⟩]
  activeProcessorGroupCount := 1
  activeProcessorCount := fun _ => 4
  numaAvailableMemoryNode := fun k => if k = 0 then some 4096 else if k = 1 then some 8192 else none

theorem report_sharedGroup : Report sharedGroup where
  numbers := by decide
  disjoint := by
    intro r hr r' hr' g b owned owned'
    have apart : ¬ ((0b0011 : U64).getLsbD b = true ∧ (0b1100 : U64).getLsbD b = true) := by
      rintro ⟨low, high⟩
      have bit : ((0b0011 : U64) &&& 0b1100).getLsbD b = (0#64).getLsbD b := by
        rw [show (0b0011 : U64) &&& 0b1100 = 0#64 from by decide]
      rw [BitVec.getLsbD_and, low, high, BitVec.getLsbD_zero] at bit
      cases bit
    simp only [records, sharedGroup, Option.getD_some, List.mem_cons, List.not_mem_nil, or_false]
      at hr hr'
    rcases hr with rfl | rfl <;> rcases hr' with rfl | rfl
    · rfl
    · exact absurd ⟨(owns_singleton.mp owned).2, (owns_singleton.mp owned').2⟩ apart
    · exact absurd ⟨(owns_singleton.mp owned').2, (owns_singleton.mp owned).2⟩ apart
    · rfl
  groups := by
    intro r hr g b owned
    simp only [records, sharedGroup, Option.getD_some, List.mem_cons, List.not_mem_nil, or_false] at hr
    rcases hr with rfl | rfl
    · rw [← (owns_singleton.mp owned).1]
      decide
    · rw [← (owns_singleton.mp owned).1]
      decide
  active := by
    intro g h
    rw [eq_zero_of_lt_one h]
    decide

theorem lowest_sharedGroup : Lowest sharedGroup := by
  refine lowest_of_cover report_sharedGroup ?_
  intro g h
  rw [eq_zero_of_lt_one h]
  decide

theorem complete_sharedGroup : Complete sharedGroup :=
  (complete_iff_lowest sharedGroup report_sharedGroup).mpr lowest_sharedGroup

/-- One node whose second processor has the third bit. -/
def sparseGroup : WindowsSystem where
  relationNumaNode := some [⟨0, [⟨0, 0b101⟩]⟩]
  activeProcessorGroupCount := 1
  activeProcessorCount := fun _ => 2

theorem report_sparseGroup : Report sparseGroup where
  numbers := by decide
  disjoint := by
    intro r hr r' hr' g b _ _
    simp only [records, sparseGroup, Option.getD_some, List.mem_singleton] at hr hr'
    rw [hr, hr']
  groups := by
    intro r hr g b owned
    simp only [records, sparseGroup, Option.getD_some, List.mem_singleton] at hr
    subst hr
    rw [← (owns_singleton.mp owned).1]
    decide
  active := by
    intro g h
    rw [eq_zero_of_lt_one h]
    decide

/-- The second bit that is looked up has no node, and discovery fails. -/
theorem sparseGroup_not_discovered :
    Report sparseGroup ∧ (∀ host, sparseGroup.discoverHost ≠ .ok host) ∧
      ¬ ∀ os, Report os → Complete os := by
  have refused : ∀ host, sparseGroup.discoverHost ≠ .ok host := by
    intro host discovered
    have cover := cover_of_accepted report_sparseGroup (discoverHost_eq_ok.mp discovered).1
    exact absurd (cover 0 (by decide) 1 (by decide)) (by decide)
  refine ⟨report_sparseGroup, refused, ?_⟩
  intro complete
  obtain ⟨host, discovered, -⟩ := complete sparseGroup report_sparseGroup
  exact refused host discovered

end Reports

section Memory
variable {os : WindowsSystem}

/-- What is free on a node, by its number. -/
def avail (os : WindowsSystem) (k : ℕ) : Option U64 := os.numaAvailableMemoryNode (BitVec.ofNat 8 k)

/-- The node has the free memory that is known for it, and says whether it is known. -/
def Remembers (n : NumaNode) : Option U64 → Prop
  | some v => n.freeMemory = ⟨v⟩ ∧ n.memoryInfoAvailable = true
  | none => n.memoryInfoAvailable = false

/-- Every node of the report has an entry with its own memory. -/
def Matches (os : WindowsSystem) (h : HostTopology) : Prop :=
  ∀ r ∈ os.records, ∃ n, h.findNode r.nodeId = some n ∧ Remembers n (avail os r.nodeNumber.toNat)

theorem Remembers.unique {n : NumaNode} {a b : Option U64} (ha : Remembers n a) :
    Remembers n b ↔ a = b := by
  cases a with
  | none => cases b <;> simp_all [Remembers]
  | some u =>
    cases b with
    | none => simp_all [Remembers]
    | some v => simp [Remembers, ha.1, ha.2]

theorem remembers_withMemory {n : NumaNode} (unset : n.memoryInfoAvailable = false) :
    Remembers (os.withMemory n) (os.availableMemory n.id) := by
  unfold withMemory
  cases os.availableMemory n.id with
  | none => exact unset
  | some v => exact ⟨rfl, rfl⟩

theorem remembers_withCapacity {nodes : List NumaNode} (query : NumaNodeId → Option U64)
    (all : ∀ n ∈ nodes, Remembers n (query n.id)) :
    ∀ n ∈ os.withCapacity nodes, Remembers n (query n.id) := by
  unfold withCapacity
  split
  · next n _ =>
    have known := all n List.mem_cons_self
    intro m member
    obtain rfl := List.mem_singleton.mp member
    show Remembers { n with memoryCapacity := _ } (query n.id)
    cases answer : query n.id with
    | none =>
      rw [answer] at known
      exact known
    | some v =>
      rw [answer] at known
      exact known
  · exact all

/-- Every node of the host has what the system answers for its identifier. -/
theorem remembers_host : ∀ n ∈ os.host.nodes, Remembers n (os.availableMemory n.id) := by
  apply remembers_withCapacity os.availableMemory
  intro n member
  obtain ⟨m, inside, rfl⟩ := List.mem_map.mp member
  rw [id_withMemory]
  apply remembers_withMemory
  obtain ⟨k, here, rfl⟩ := List.mem_map.mp inside
  obtain ⟨r, -, rfl⟩ := List.mem_map.mp (mem_sortBy.mp here)
  rfl

theorem availableMemory_nodeId (r : NumaNodeRelationship) :
    os.availableMemory r.nodeId = avail os (r.nodeNumber.toNat + 1) := by
  rw [availableMemory, avail]
  congr 1
  apply BitVec.eq_of_toNat_eq
  rw [BitVec.toNat_setWidth, toNat_nodeId, BitVec.toNat_ofNat]

theorem remembers_node_iff {r : NumaNodeRelationship} (member : r ∈ os.records) :
    (∃ n, os.host.findNode r.nodeId = some n ∧ Remembers n (avail os r.nodeNumber.toNat)) ↔
      avail os (r.nodeNumber.toNat + 1) = avail os r.nodeNumber.toNat := by
  have listed : r.nodeId ∈ os.host.nodes.map (·.id) :=
    ids_host.mem_iff.mpr (List.mem_map_of_mem (f := (·.nodeId)) member)
  obtain ⟨n, found⟩ := Option.isSome_iff_exists.mp (isSome_findNode.mpr listed)
  have same : n.id = r.nodeId := by simpa using List.find?_some found
  have known := remembers_host n (List.mem_of_find?_eq_some found)
  rw [same, availableMemory_nodeId] at known
  rw [← known.unique]
  simp [found]

/-- An allocation on a node goes to the number of the node. -/
theorem named_nodeId (r : NumaNodeRelationship) :
    chooseNode.named r.nodeId = (r.nodeNumber, r.nodeId) := by
  have number := toNat_nodeId r
  have valid : r.nodeId.isValid = true := by
    rw [Id.isValid, bne_iff_ne]
    intro zero
    rw [zero] at number
    simp at number
  have back : (r.nodeId.value - 1).setWidth 32 = r.nodeNumber := by
    rw [NumaNodeRelationship.nodeId, BitVec.add_sub_cancel]
    simp
  rw [chooseNode.named, if_pos valid, back]

/-- Allocation turns an identifier into the number of its node. The memory query does not: a node has
what is free on the node after it, so its entry is right exactly where the two answers agree. -/
theorem memory_iff (os : WindowsSystem) (h : HostTopology) (discovered : os.discoverHost = .ok h) :
    (∀ r ∈ os.records, chooseNode.named r.nodeId = (r.nodeNumber, r.nodeId)) ∧
    (Matches os h ↔
      ∀ r ∈ os.records, avail os (r.nodeNumber.toNat + 1) = avail os r.nodeNumber.toNat) := by
  obtain ⟨-, rfl⟩ := discoverHost_eq_ok.mp discovered
  refine ⟨fun r _ => named_nodeId r, ?_⟩
  constructor
  · intro all r member
    exact (remembers_node_iff member).mp (all r member)
  · intro agree r member
    exact (remembers_node_iff member).mpr (agree r member)

theorem discoverHost_sharedGroup : sharedGroup.discoverHost = .ok sharedGroup.host :=
  discoverHost_eq_ok.mpr ⟨accepted_of_lowest report_sharedGroup lowest_sharedGroup, rfl⟩

/-- The same nodes with equal memory, on a system that knows of a third. -/
def evenMemory : WindowsSystem :=
  { sharedGroup with numaAvailableMemoryNode := fun k => if k ≤ 2 then some 4096 else none }

theorem discoverHost_evenMemory : evenMemory.discoverHost = .ok evenMemory.host := by
  have report : Report evenMemory :=
    ⟨report_sharedGroup.numbers, report_sharedGroup.disjoint, report_sharedGroup.groups,
      report_sharedGroup.active⟩
  exact discoverHost_eq_ok.mpr ⟨accepted_of_lowest report lowest_sharedGroup, rfl⟩

theorem memory_evenMemory : Matches evenMemory evenMemory.host :=
  (memory_iff evenMemory evenMemory.host discoverHost_evenMemory).2.mpr (by decide)

/-- The first of two nodes is given the memory of the second. -/
theorem sharedGroup_misremembered :
    sharedGroup.discoverHost = .ok sharedGroup.host ∧
      (∀ r ∈ sharedGroup.records, r.nodeNumber.toNat < 255) ∧
      avail sharedGroup 0 = some 4096 ∧
      (∃ n, sharedGroup.host.findNode ⟨1⟩ = some n ∧ n.freeMemory = ⟨8192⟩) ∧
      ¬ Matches sharedGroup sharedGroup.host := by
  have listed : (⟨1⟩ : NumaNodeId) ∈ sharedGroup.host.nodes.map (·.id) :=
    ids_host.mem_iff.mpr (by decide)
  obtain ⟨n, found⟩ := Option.isSome_iff_exists.mp (isSome_findNode.mpr listed)
  have same : n.id = ⟨1⟩ := by simpa using List.find?_some found
  have known := remembers_host n (List.mem_of_find?_eq_some found)
  rw [same] at known
  refine ⟨discoverHost_sharedGroup, by decide, by decide, ⟨n, found, known.1⟩, ?_⟩
  intro right
  have first : ⟨0, [⟨0, 0b0011⟩]⟩ ∈ sharedGroup.records := by decide
  exact absurd ((remembers_node_iff first).mp (right _ first)) (by decide)

end Memory

end WindowsDiscovery

end NumaFabric
