import NumaFabric.AffinityMasks
import NumaFabric.SyntheticBackend

/-! A binding against the topology. The synthetic host numbers its processors through, cuts the numbers
into groups wherever a group is full, and a binding folds those of one node into masks again. -/
namespace NumaFabric.BindingCoverage
open Std FaultState NumaFabric.Runtime AffinitySet AffinityMasks SyntheticConfig

variable {cfg : SyntheticConfig}

section Layout
variable {n lp lp' : ℕ}

theorem toNat_groupSize : cfg.groupSize.toNat = max 1 cfg.groupCapacity.toNat := by
  have small := cfg.groupCapacity.isLt
  unfold groupSize
  split_ifs with zero
  · simp [zero]
  · have positive : cfg.groupCapacity.toNat ≠ 0 := fun h => zero (BitVec.eq_of_toNat_eq h)
    rw [BitVec.toNat_setWidth]
    omega

/-- The number of a processor does not wrap. -/
theorem toNat_globalIndex (node : n < cfg.nodeCount.toNat) (below : lp < cfg.processorsPerNode.toNat) :
    (cfg.globalIndex n lp).toNat = n * cfg.processorsPerNode.toNat + lp := by
  have nodes := cfg.nodeCount.isLt
  have wide := cfg.processorsPerNode.isLt
  have most : n * cfg.processorsPerNode.toNat ≤ (2 ^ 32 - 2) * (2 ^ 32 - 1) :=
    Nat.mul_le_mul (by omega) (by omega)
  rw [globalIndex, BitVec.toNat_add, BitVec.toNat_mul, BitVec.toNat_ofNat, BitVec.toNat_ofNat,
    BitVec.toNat_setWidth, Nat.mod_eq_of_lt (a := n) (by omega), Nat.mod_eq_of_lt (a := lp) (by omega),
    Nat.mod_eq_of_lt (a := cfg.processorsPerNode.toNat) (by omega),
    Nat.mod_eq_of_lt (a := n * cfg.processorsPerNode.toNat) (by omega)]
  omega

theorem toNat_group (node : n < cfg.nodeCount.toNat) (below : lp < cfg.processorsPerNode.toNat) :
    (cfg.processor n lp).group.value.toNat =
      (n * cfg.processorsPerNode.toNat + lp) / cfg.groupSize.toNat % 2 ^ 32 + 1 := by
  have index := toNat_globalIndex node below
  simp only [processor, groupIndex, BitVec.toNat_add, BitVec.toNat_setWidth, BitVec.toNat_udiv, index,
    BitVec.ofNat_eq_ofNat, BitVec.reduceToNat]
  omega

theorem toNat_indexInGroup (node : n < cfg.nodeCount.toNat)
    (below : lp < cfg.processorsPerNode.toNat) :
    (cfg.processor n lp).indexInGroup.value.toNat =
      (n * cfg.processorsPerNode.toNat + lp) % cfg.groupSize.toNat := by
  have index := toNat_globalIndex node below
  have small := cfg.groupCapacity.isLt
  have rest := Nat.mod_lt (n * cfg.processorsPerNode.toNat + lp) (y := cfg.groupSize.toNat)
    (by rw [toNat_groupSize]; omega)
  have most : cfg.groupSize.toNat < 2 ^ 32 := by
    rw [toNat_groupSize]
    omega
  simp only [processor, BitVec.toNat_setWidth, BitVec.toNat_umod, index]
  omega

/-- Numbers that are less than `m` apart differ in the remainder, or in the quotient even when it is cut
to the range of `m`. -/
theorem eq_of_div_mod {x y c m : ℕ} (positive : 0 < c) (le : x ≤ y) (near : y - x < m)
    (quotient : x / c % m = y / c % m) (remainder : x % c = y % c) : x = y := by
  have hx := Nat.div_add_mod x c
  have hy := Nat.div_add_mod y c
  have mono : x / c ≤ y / c := Nat.div_le_div_right le
  have apart : y - x = c * (y / c - x / c) := by
    rw [Nat.mul_sub]
    omega
  have close : y / c - x / c < m := by
    have := Nat.le_mul_of_pos_left (y / c - x / c) positive
    omega
  have turns : m ∣ y / c - x / c := (Nat.modEq_iff_dvd' mono).mp quotient
  rw [Nat.eq_zero_of_dvd_of_lt turns close] at apart
  omega

/-- The place of a processor in the masks. -/
def place (p : Processor) : ProcessorGroupId × U32 := (p.group, p.indexInGroup.value)

/-- Two processors of a node are less than a turn of the group numbers apart. -/
theorem lp_eq_of_place (node : n < cfg.nodeCount.toNat) (below : lp < cfg.processorsPerNode.toNat)
    (below' : lp' < cfg.processorsPerNode.toNat)
    (same : place (cfg.processor n lp) = place (cfg.processor n lp')) : lp = lp' := by
  obtain ⟨group, index⟩ := Prod.mk.inj same
  have groups := congrArg (fun g : ProcessorGroupId => g.value.toNat) group
  have indices := congrArg BitVec.toNat index
  simp only [toNat_group node below, toNat_group node below'] at groups
  rw [toNat_indexInGroup node below, toNat_indexInGroup node below'] at indices
  have wide := cfg.processorsPerNode.isLt
  have positive : 0 < cfg.groupSize.toNat := by
    rw [toNat_groupSize]
    omega
  rcases Nat.le_total lp lp' with le | le
  · have := eq_of_div_mod positive (Nat.add_le_add_left le _) (by omega)
      (Nat.add_right_cancel groups) indices
    omega
  · have := eq_of_div_mod positive (Nat.add_le_add_left le _) (by omega)
      (Nat.add_right_cancel groups).symm indices.symm
    omega

theorem nodup_places (node : n < cfg.nodeCount.toNat) :
    (((List.range cfg.processorsPerNode.toNat).map (cfg.processor n)).map place).Nodup := by
  rw [List.map_map]
  refine List.Nodup.map_on ?_ List.nodup_range
  intro lp below lp' below' same
  exact lp_eq_of_place node (List.mem_range.mp below) (List.mem_range.mp below') same

/-- Of lists that are put together only one is not empty. -/
theorem flatMap_eq_of_single {f : ℕ → List Processor} {ms : List ℕ} (distinct : ms.Nodup)
    (member : n ∈ ms) (others : ∀ m ∈ ms, m ≠ n → f m = []) : ms.flatMap f = f n := by
  induction ms with
  | nil => cases member
  | cons m ms ih =>
    obtain ⟨absent, distinct⟩ := List.nodup_cons.mp distinct
    rw [List.flatMap_cons]
    by_cases here : m = n
    · subst here
      have rest : ms.flatMap f = [] := by
        rw [List.flatMap_eq_nil_iff]
        intro k hk
        exact others k (by simp [hk]) fun same => absent (same ▸ hk)
      rw [rest, List.append_nil]
    · have later : n ∈ ms := by simpa [Ne.symm here] using member
      rw [others m (by simp) here, List.nil_append]
      exact ih distinct later fun k hk => others k (by simp [hk])

/-- The processors of a node are those it was given. -/
theorem filter_processors (node : n < cfg.nodeCount.toNat) :
    cfg.processors.filter (·.node == nodeId n) =
      (List.range cfg.processorsPerNode.toNat).map (cfg.processor n) := by
  rw [processors, List.filter_flatMap, flatMap_eq_of_single List.nodup_range (List.mem_range.mpr node)]
  · rw [List.filter_eq_self]
    intro p member
    obtain ⟨lp, -, rfl⟩ := List.mem_map.mp member
    simp [processor]
  · intro m below other
    rw [List.filter_eq_nil_iff]
    intro p member
    obtain ⟨lp, -, rfl⟩ := List.mem_map.mp member
    simpa [processor, nodeId_inj (List.mem_range.mp below) node] using other

theorem group_isValid (node : n < cfg.nodeCount.toNat) (below : lp < cfg.processorsPerNode.toNat) :
    (cfg.processor n lp).group.isValid = true := by
  have number := toNat_group node below
  simp only [Id.isValid, bne_iff_ne, ne_eq]
  intro zero
  rw [zero] at number
  simp at number

end Layout

section Fold

/-- All the processors of a list are added when each has a bit and a place of its own. -/
theorem lists_foldlM {ps : List Processor} {set : AffinitySet} {done : List (ProcessorGroupId × U32)}
    (lists : Lists set done) (valid : ∀ p ∈ ps, p.group.isValid = true)
    (below : ∀ p ∈ ps, p.indexInGroup.value.toNat < maxGroupMaskBits)
    (distinct : (done ++ ps.map place).Nodup) :
    ∃ set', ps.foldlM (fun set p => set.addProcessor p.group p.indexInGroup.value) set = .ok set' ∧
      Lists set' (done ++ ps.map place) := by
  induction ps generalizing set done with
  | nil => exact ⟨set, rfl, by simpa using lists⟩
  | cons p ps ih =>
    have regrouped : done ++ (p :: ps).map place = (done ++ [place p]) ++ ps.map place := by simp
    rw [regrouped] at distinct ⊢
    have fresh : place p ∉ done := by
      intro member
      have apart := (List.nodup_append.mp (List.nodup_append.mp distinct).1).2.2
      exact apart _ member _ (by simp) rfl
    obtain ⟨next, added, lists'⟩ := lists.addProcessor (valid p (by simp)) (below p (by simp)) fresh
    obtain ⟨set', rest, lists''⟩ := ih lists' (fun q hq => valid q (by simp [hq]))
      (fun q hq => below q (by simp [hq])) distinct
    refine ⟨set', ?_, lists''⟩
    rw [List.foldlM_cons, added]
    exact rest

/-- A processor without a bit ends the loop. -/
theorem lt_of_foldlM {ps : List Processor} {set set' : AffinitySet}
    (built : ps.foldlM (fun set p => set.addProcessor p.group p.indexInGroup.value) set = .ok set') :
    ∀ p ∈ ps, p.indexInGroup.value.toNat < maxGroupMaskBits := by
  induction ps generalizing set with
  | nil => simp
  | cons p ps ih =>
    rw [List.foldlM_cons] at built
    have first : p.indexInGroup.value.toNat < maxGroupMaskBits := by
      by_contra past
      rw [addProcessor, if_pos (Nat.not_lt.mp past)] at built
      cases built
    cases added : set.addProcessor p.group p.indexInGroup.value with
    | error e =>
      rw [added] at built
      cases built
    | ok next =>
      rw [added] at built
      rintro q (_ | ⟨_, member⟩)
      · exact first
      · exact ih built q member

end Fold

section Bind
variable {β : Type} {s : Runtime β} {id : WorkerId} {boot : WorkerBootId} {node : NumaNodeId}
  {w : Worker}

theorem recordBinding_run (found : s.registry.find id = some w) (set : AffinitySet) (applied : Bool) :
    (recordBinding id node set applied).run s =
      match w.bindingGeneration.next with
      | .error e => .error e s
      | .ok generation =>
        let r : BindResult := { bindingId := ⟨s.nextPlacement⟩, generation, applied }
        let workers := s.registry.workers.insert id (boundTo w r node set)
        .ok r { s with registry := { s.registry with workers } } := by
  rw [recordBinding]
  simp only [EStateM.run_bind, EStateM.run_get, found]
  cases w.bindingGeneration.next with
  | error e => rfl
  | ok generation => rfl

/-- Applying the affinity reaches neither the workers nor their bindings. -/
theorem applied_run (b : Backend β) (s : Runtime β) (set : AffinitySet) (applyAffinity : Bool)
    (rest : Bool → Exec (Runtime β) BindResult) :
    ∃ applied m,
      (if applyAffinity = true then applyThreadAffinity b set >>= rest else pure false >>= rest :
        Exec (Runtime β) BindResult).run s = (rest applied).run { s with migrator := m } := by
  cases applyAffinity with
  | false => exact ⟨false, s.migrator, rfl⟩
  | true => exact ⟨_, (stateAfter (applyThreadAffinity b set) s).migrator, rfl⟩

inductive BindOutcome (s : Runtime β) (id : WorkerId) (node : NumaNodeId) (w : Worker) :
    EStateM.Result Exn (Runtime β) BindResult → Prop
  | noSet (e : Exn) (failed : nodeAffinity s.topo node = .error e) :
      BindOutcome s id node w (.error e s)
  | exhausted (e : Exn) (t : Runtime β) (last : w.bindingGeneration.value = u64Max) :
      BindOutcome s id node w (.error e t)
  | bound (set : AffinitySet) (r : BindResult) (t : Runtime β)
      (built : nodeAffinity s.topo node = .ok set) (next : w.bindingGeneration.next = .ok r.generation)
      (named : r.bindingId = ⟨s.nextPlacement⟩)
      (recorded : t.registry.find id = some (boundTo w r node set)) :
      BindOutcome s id node w (.ok r t)

/-- A live worker is bound to a known node unless the node has no set or its bindings are used up. -/
theorem bindWorker_outcome (b : Backend β) (applyAffinity : Bool)
    (live : s.registry.validateBoot id boot = true)
    (found : s.registry.find id = some w) (known : (s.topo.findNode node).isNone = false) :
    BindOutcome s id node w ((bindWorker b id boot node applyAffinity).run s) := by
  rw [bindWorker]
  simp only [EStateM.run_bind, EStateM.run_get, live, Bool.not_true, run_throwIf_false, known]
  cases built : nodeAffinity s.topo node with
  | error e => exact .noSet e built
  | ok set =>
    obtain ⟨applied, m, applies⟩ := applied_run b s set applyAffinity (recordBinding id node set)
    simp only [run_ofExcept_ok]
    rw [applies, recordBinding_run (s := { s with migrator := m }) found]
    cases next : w.bindingGeneration.next with
    | error e => exact .exhausted e _ (Generation.next_error next)
    | ok generation =>
      exact .bound set _ _ built next rfl ExtTreeMap.getElem?_insert_self

end Bind

section Host
variable {i : ℕ} {n : NumaNode}

theorem processors_of_mem_nodes (member : n ∈ cfg.host.nodes) :
    n.processors = HostTopology.membersOf cfg.host.processors (·.node == n.id) := by
  obtain ⟨_, -, rfl⟩ := List.mem_map.mp member
  rfl

theorem exists_nodeId (member : n ∈ cfg.host.nodes) : ∃ i, i < cfg.nodeCount.toNat ∧ nodeId i = n.id :=
  nodeId_of_inRange (exists_host_node_iff.mp ⟨n, member, rfl⟩)

theorem perm_host_processors : cfg.host.processors.Perm cfg.processors :=
  List.perm_insertionSort _ _

theorem mem_host_processors {p : Processor} :
    p ∈ cfg.host.processors ↔ ∃ i < cfg.nodeCount.toNat, ∃ lp < cfg.processorsPerNode.toNat,
      cfg.processor i lp = p := by
  rw [perm_host_processors.mem_iff]
  simp [processors]

/-- The processors of a node of the host have places of their own. -/
theorem nodup_host_places (below : i < cfg.nodeCount.toNat) :
    ((cfg.host.processors.filter (·.node == nodeId i)).map place).Nodup := by
  have same := (@perm_host_processors cfg).filter (·.node == nodeId i)
  rw [filter_processors below] at same
  exact (same.map place).nodup_iff.mpr (nodup_places below)

/-- Every processor of the node has a bit in the mask of its group. -/
def Maskable (cfg : SyntheticConfig) (n : NumaNode) : Prop :=
  ∀ p ∈ cfg.host.processors, p.node = n.id → p.indexInGroup.value.toNat < maxGroupMaskBits

theorem maskable_of_groupCapacity (small : cfg.groupCapacity.toNat ≤ 64) : Maskable cfg n := by
  rintro p member -
  obtain ⟨i, node, lp, below, rfl⟩ := mem_host_processors.mp member
  have rest := Nat.mod_lt (i * cfg.processorsPerNode.toNat + lp) (y := cfg.groupSize.toNat)
    (by rw [toNat_groupSize]; omega)
  rw [toNat_indexInGroup node below, maxGroupMaskBits]
  rw [toNat_groupSize] at rest ⊢
  omega

/-- The set is exact: it has the processors of the node and no other. -/
structure Covers (cfg : SyntheticConfig) (n : NumaNode) (set : AffinitySet) : Prop where
  contains : ∀ g i, set.contains g i = true ↔
    ∃ p ∈ cfg.host.processors, p.node = n.id ∧ p.group = g ∧ p.indexInGroup.value = i
  count : set.count = n.processors.length

theorem covers_of_lists {set : AffinitySet}
    (members : n.processors = HostTopology.membersOf cfg.host.processors (·.node == n.id))
    (lists : Lists set ((cfg.host.processors.filter (·.node == n.id)).map place)) :
    Covers cfg n set where
  contains g i := by
    rw [contains_iff lists.single, lists.has]
    simp [place, and_assoc]
  count := by
    rw [lists.count, members, HostTopology.membersOf]
    simp

theorem nodeAffinity_covers (member : n ∈ cfg.host.nodes) (maskable : Maskable cfg n) :
    ∃ set, nodeAffinity cfg.host n.id = .ok set ∧ Covers cfg n set := by
  obtain ⟨i, node, name⟩ := exists_nodeId member
  have valid : ∀ p ∈ cfg.host.processors.filter (·.node == n.id), p.group.isValid = true := by
    intro p listed
    obtain ⟨j, hj, lp, below, rfl⟩ := mem_host_processors.mp (List.mem_of_mem_filter listed)
    exact group_isValid hj below
  have below : ∀ p ∈ cfg.host.processors.filter (·.node == n.id),
      p.indexInGroup.value.toNat < maxGroupMaskBits := by
    intro p listed
    obtain ⟨known, here⟩ := List.mem_filter.mp listed
    exact maskable p known (by simpa using here)
  have distinct := nodup_host_places node
  rw [name] at distinct
  obtain ⟨set, built, lists⟩ := lists_foldlM lists_nil valid below distinct
  exact ⟨set, built, covers_of_lists (processors_of_mem_nodes member) lists⟩

theorem maskable_of_nodeAffinity {set : AffinitySet} (built : nodeAffinity cfg.host n.id = .ok set) :
    Maskable cfg n := by
  intro p member here
  exact lt_of_foldlM built p (List.mem_filter.mpr ⟨member, by simp [here]⟩)

variable {s : Runtime SyntheticBackend} {id : WorkerId} {boot : WorkerBootId} {w : Worker}

/-- A node of the host binds unless one of its processors has no bit, or the bindings of the worker are
used up; and then it binds to what it has. -/
theorem bindWorker_host (applyAffinity : Bool) (hosted : s.topo = cfg.host)
    (member : n ∈ cfg.host.nodes) (live : s.registry.validateBoot id boot = true)
    (found : s.registry.find id = some w) :
    ((∃ r t, (bindWorker (SyntheticBackend.backend cfg) id boot n.id applyAffinity).run s = .ok r t) ↔
        Maskable cfg n ∧ w.bindingGeneration.value ≠ u64Max) ∧
      ∀ r t, (bindWorker (SyntheticBackend.backend cfg) id boot n.id applyAffinity).run s = .ok r t →
        ∃ set, Covers cfg n set ∧ t.registry.find id = some (boundTo w r n.id set) := by
  have known : (s.topo.findNode n.id).isNone = false := by
    rw [hosted, HostTopology.findNode, Option.isNone_eq_false_iff, List.find?_isSome]
    exact ⟨n, member, by simp⟩
  have ho := bindWorker_outcome (SyntheticBackend.backend cfg) applyAffinity live found known
  generalize (bindWorker (SyntheticBackend.backend cfg) id boot n.id applyAffinity).run s = res at ho
  cases ho with
  | noSet e failed =>
    rw [hosted] at failed
    simp only [reduceCtorEq, exists_false, false_iff, false_imp_iff, implies_true, and_true]
    rintro ⟨maskable, -⟩
    obtain ⟨set, built, -⟩ := nodeAffinity_covers member maskable
    cases failed.symm.trans built
  | exhausted e t last =>
    simp only [reduceCtorEq, exists_false, false_iff, false_imp_iff, implies_true, and_true]
    rintro ⟨-, more⟩
    exact absurd last more
  | bound set r t built next _ recorded =>
    rw [hosted] at built
    have maskable := maskable_of_nodeAffinity built
    refine ⟨⟨fun _ => ⟨maskable, Generation.ne_max_of_next next⟩, fun _ => ⟨r, t, rfl⟩⟩, ?_⟩
    rintro r t returned
    cases returned
    obtain ⟨set', built', covers⟩ := nodeAffinity_covers member maskable
    cases built.symm.trans built'
    exact ⟨set, covers, recorded⟩

/-- A live worker is bound to a node of the discovered host exactly when every processor of the node has
a bit and the worker has a binding left, and the recorded sets then have the processors of the node and
no other. -/
theorem binding_covers_iff (applyAffinity : Bool) (hosted : s.topo = cfg.host)
    (member : n ∈ cfg.host.nodes) (live : s.registry.validateBoot id boot = true)
    (found : s.registry.find id = some w) :
    ((∃ r t, (bindWorker (SyntheticBackend.backend cfg) id boot n.id applyAffinity).run s = .ok r t) ↔
        Maskable cfg n ∧ w.bindingGeneration.value ≠ u64Max) ∧
      ∀ r t, (bindWorker (SyntheticBackend.backend cfg) id boot n.id applyAffinity).run s = .ok r t →
        ∃ w', t.registry.find id = some w' ∧ Covers cfg n w'.requestedAffinity ∧
          Covers cfg n w'.currentAffinity := by
  obtain ⟨returns, records⟩ := bindWorker_host applyAffinity hosted member live found
  refine ⟨returns, fun r t returned => ?_⟩
  obtain ⟨set, covers, recorded⟩ := records r t returned
  exact ⟨_, recorded, covers, covers⟩

end Host

/-- A runtime that knows the host and has one worker. -/
def enrolled (cfg : SyntheticConfig) : Runtime SyntheticBackend :=
  stateAfter (registerWorker ⟨1⟩ ⟨7⟩)
    { create ({} : SyntheticBackend) (fun _ => 0) with topo := cfg.host }

theorem enrolled_worker (cfg : SyntheticConfig) :
    ∃ w, (enrolled cfg).registry.find ⟨1⟩ = some w ∧
      (enrolled cfg).registry.validateBoot ⟨1⟩ ⟨1⟩ = true ∧ w.bindingGeneration.value ≠ u64Max := by
  have fresh : (Generation.initial : BindingGeneration).value ≠ u64Max := by decide
  exact ⟨_, ExtTreeMap.getElem?_insert_self, rfl, fresh⟩

/-- Two nodes of four processors in one group. -/
def sparseMembership : SyntheticConfig where
  nodeCount := 2
  processorsPerNode := 4
  groupCapacity := 8

theorem binding_covers_iff_sparseMembership :
    ∃ n ∈ sparseMembership.host.nodes, ∃ r t w,
      (bindWorker (SyntheticBackend.backend sparseMembership) ⟨1⟩ ⟨1⟩ n.id true).run
        (enrolled sparseMembership) = .ok r t ∧ t.registry.find ⟨1⟩ = some w ∧
      w.currentAffinity.count = 4 := by
  let n : NumaNode := { sparseMembership.node 0 with processors := [⟨1⟩, ⟨2⟩, ⟨3⟩, ⟨4⟩] }
  have member : n ∈ sparseMembership.host.nodes := by decide
  obtain ⟨w, found, live, more⟩ := enrolled_worker sparseMembership
  obtain ⟨returns, records⟩ := binding_covers_iff true rfl member live found
  obtain ⟨r, t, returned⟩ := returns.mpr ⟨maskable_of_groupCapacity (by decide), more⟩
  obtain ⟨w, recorded, -, covers⟩ := records r t returned
  exact ⟨n, member, r, t, w, returned, recorded, covers.count⟩

/-- The sixty-fifth processor of a group has no bit. -/
theorem wide_group_not_bound :
    ¬ ∀ (cfg : SyntheticConfig) (s : Runtime SyntheticBackend) (n : NumaNode) (id : WorkerId)
      (boot : WorkerBootId) (applyAffinity : Bool), 1 ≤ cfg.processorsPerNode.toNat →
      s.topo = cfg.host → n ∈ cfg.host.nodes → s.registry.validateBoot id boot = true →
      ∃ r t w, (bindWorker (SyntheticBackend.backend cfg) id boot n.id applyAffinity).run s = .ok r t ∧
        t.registry.find id = some w ∧ Covers cfg n w.currentAffinity := by
  intro binds
  let cfg : SyntheticConfig := { nodeCount := 1, processorsPerNode := 65, groupCapacity := 65 }
  obtain ⟨w, found, live, -⟩ := enrolled_worker cfg
  obtain ⟨n, member, name⟩ : ∃ n ∈ cfg.host.nodes, n.id = nodeId 0 :=
    exists_host_node_iff.mpr (inRange_nodeId (by decide))
  obtain ⟨r, t, -, returned, -⟩ := binds cfg (enrolled cfg) n ⟨1⟩ ⟨1⟩ true (by decide) rfl member live
  have maskable := ((bindWorker_host true rfl member live found).1.mp ⟨r, t, returned⟩).1
  have last : cfg.processor 0 64 ∈ cfg.host.processors :=
    mem_host_processors.mpr ⟨0, by decide, 64, by decide, rfl⟩
  exact absurd (maskable _ last name.symm) (by decide)

end NumaFabric.BindingCoverage
