import NumaFabric.PlacementSoundness

/-! The ranking loses no node and repeats none: every node of the topology is a candidate
or is eliminated with the first constraint it violates, whatever the nodes cost. -/
namespace NumaFabric.PlacementRanking
open PlacementEngine PlacementChoice PlacementSoundness

section Constraints
variable (node : NumaNode) (req : PlacementRequest) (model : PlacementModel)

/-- The hard constraints, in the order they are tested. -/
def constraints : List Violation :=
  [.requiredNode, .acceleratorLocalityUnknown, .acceleratorLocality, .requiredCpuCount, .capacity]

/-- The local node of the accelerator a request asks for, if that is known. -/
def acceleratorNode : Option NumaNodeId :=
  (model.acceleratorLocality[req.preferredAccelerator]?.map (·.localNode)).filter (·.isValid)

/-- Each constraint on its own. -/
def violates : Violation → Bool
  | .requiredNode => req.hasRequiredNode && node.id != req.requiredNode
  | .acceleratorLocalityUnknown =>
    req.requireAcceleratorLocality && req.preferredAccelerator.isValid &&
      (acceleratorNode req model).isNone
  | .acceleratorLocality =>
    req.requireAcceleratorLocality && req.preferredAccelerator.isValid &&
      (acceleratorNode req model).any (· != node.id)
  | .requiredCpuCount => decide (node.processorCount < req.requiredCpuCount.toNat)
  | .capacity => capacityOf model node.id != 0 &&
      decide (capacityOf model node.id < req.memoryFootprint.value + reservedOn model node.id)

theorem acceleratorViolation_eq_find :
    acceleratorViolation node.id req model =
      [Violation.acceleratorLocalityUnknown, .acceleratorLocality].find?
        (violates node req model) := by
  unfold acceleratorViolation
  cases required : req.requireAcceleratorLocality && req.preferredAccelerator.isValid with
  | false => simp [violates, required]
  | true =>
    cases found : model.acceleratorLocality[req.preferredAccelerator]? with
    | none => simp [violates, required, acceleratorNode, found]
    | some loc =>
      cases valid : loc.localNode.isValid with
      | false => simp [violates, required, acceleratorNode, found, valid]
      | true =>
        by_cases here : loc.localNode = node.id
        · rw [here] at valid
          simp [violates, required, acceleratorNode, found, valid, here]
        · simp [violates, required, acceleratorNode, found, valid, here]

/-- The eligibility test names the first constraint that the node violates. -/
theorem evaluateEligibility_eq_find :
    evaluateEligibility node req model = constraints.find? (violates node req model) := by
  have cpus : (req.requiredCpuCount != 0 &&
      decide (node.processorCount < req.requiredCpuCount.toNat)) =
      violates node req model .requiredCpuCount := by
    by_cases none : req.requiredCpuCount = 0
    · simp [violates, none]
    · rw [bne_iff_ne.mpr none]
      rfl
  have split : constraints = .requiredNode :: ([.acceleratorLocalityUnknown, .acceleratorLocality] ++
      [.requiredCpuCount, .capacity]) := rfl
  unfold evaluateEligibility
  rw [split, List.find?_cons, List.find?_append, ← acceleratorViolation_eq_find, cpus]
  have first : (req.hasRequiredNode && node.id != req.requiredNode) =
    violates node req model .requiredNode := rfl
  rw [first]
  cases violates node req model .requiredNode with
  | true => rfl
  | false =>
    simp only [Bool.false_eq_true, if_false]
    cases acceleratorViolation node.id req model with
    | some v => rfl
    | none =>
      simp only [Option.none_or, List.find?_cons, List.find?_nil]
      cases violates node req model .requiredCpuCount with
      | true => rfl
      | false =>
        simp only [Bool.false_eq_true, if_false]
        change (if violates node req model .capacity = true then _ else _) = _
        cases violates node req model .capacity <;> rfl

end Constraints

section Text

/-- The digits of a number. -/
theorem mem_decimal {v : U64} {c : U8} (h : c ∈ decimal v) : 48 ≤ c.toNat ∧ c.toNat ≤ 57 := by
  obtain ⟨d, hd, rfl⟩ := List.mem_map.mp h
  have digit := Nat.isDigit_of_mem_toDigits (by decide) (by decide) hd
  simp only [Char.isDigit, Bool.and_eq_true, decide_eq_true_eq] at digit
  have low : 48 ≤ d.toNat := digit.1
  have high : d.toNat ≤ 57 := digit.2
  rw [BitVec.toNat_ofNat, Nat.mod_eq_of_lt (by omega)]
  exact ⟨low, high⟩

/-- The digits can be read back. -/
theorem toDigits_of_decimal (v : U64) :
    (decimal v).map (fun c => Char.ofNat c.toNat) = Nat.toDigits 10 v.toNat := by
  rw [decimal, List.map_map]
  refine (List.map_congr_left fun c hc => ?_).trans (List.map_id _)
  have digit := Nat.isDigit_of_mem_toDigits (by decide) (by decide) hc
  simp only [Char.isDigit, Bool.and_eq_true, decide_eq_true_eq] at digit
  have high : c.toNat ≤ 57 := digit.2
  rw [Function.comp_apply, BitVec.toNat_ofNat, Nat.mod_eq_of_lt (by omega), Char.ofNat_toNat, id]

theorem decimal_injective {v w : U64} (h : decimal v = decimal w) : v = w := by
  apply BitVec.eq_of_toNat_eq
  rw [← Nat.ofDigitChars_ten_toDigits (n := v.toNat), ← toDigits_of_decimal, h, toDigits_of_decimal,
    Nat.ofDigitChars_ten_toDigits]

/-- The entry of an eliminated node. -/
def eliminationText (n : NumaNodeId) (v : Violation) : ByteString :=
  ascii "node " ++ n.text ++ ascii ": " ++ v.text

/-- The entry begins with the number of the node. -/
def names (n : NumaNodeId) (e : ByteString) : Bool :=
  (ascii "node " ++ n.text ++ ascii ": ").isPrefixOf e

theorem names_iff {m n : NumaNodeId} {v : Violation} :
    names m (eliminationText n v) = true ↔ m = n := by
  rw [names, List.isPrefixOf_iff_prefix, eliminationText]
  constructor
  · simp only [List.append_assoc, List.prefix_append_right_inj]
    rintro ⟨rest, h⟩
    have number : (58 : U8) ∉ n.text := by
      intro hk
      have := (mem_decimal hk).2
      simp at this
    have reason : (58 : U8) ∉ 32 :: v.text := by cases v <;> decide
    have separator : ascii ": " = 58 :: [32] := by decide
    rw [separator, List.append_assoc] at h
    have same := (List.append_cons_inj_of_notMem number reason).mp h.symm
    exact congrArg Id.mk (decimal_injective same.1.symm)
  · rintro rfl
    exact List.prefix_append _ _

/-- Only an entry for capacity has the word in it. -/
theorem mentions_capacity {n : NumaNodeId} {v : Violation} :
    mentions (eliminationText n v) (ascii "capacity") = true ↔ v = .capacity := by
  rw [mentions, decide_eq_true_eq]
  constructor
  · intro h
    -- the letters p and y are both in no other entry
    have letters : (112 : U8) ∈ eliminationText n v ∧ (121 : U8) ∈ eliminationText n v :=
      ⟨h.subset (by decide), h.subset (by decide)⟩
    have digit : ∀ c : U8, 57 < c.toNat → c ∉ n.text := by
      intro c hc hm
      have := (mem_decimal hm).2
      omega
    simp only [eliminationText, List.mem_append, digit 112 (by decide), digit 121 (by decide)] at letters
    revert letters
    cases v <;> decide
  · rintro rfl
    exact ⟨ascii "node " ++ n.text ++ ascii ": ", [], by simp [eliminationText, Violation.text]⟩

end Text

section Ranking
variable (cost : NumaNode → LocalityCost) (topo : HostTopology) (req : PlacementRequest)
  (model : PlacementModel)

/-- The candidate a node is when its total is given. -/
def candidateBy (node : NumaNode) : CandidateCost :=
  { candidate node req model with total := cost node }

def eligibleBy : List CandidateCost :=
  topo.nodes.filterMap fun n =>
    if evaluateEligibility n req model = none then some (candidateBy cost req model n) else none

/-- The engine with given totals in place of the weighted sums. -/
def planBy : PlacementDecision :=
  let d : PlacementDecision := { policyGeneration := req.policyGeneration }
  if req.revalidationPending then
    { d with
      kind := .revalidationRequired
      reason := ascii "topology/locality evidence is stale or not revalidated"
      wouldChange := ascii "revalidate physical topology before placing"
      provenance := .derived (ascii "placement engine") }
  else
    let ranked := rank (eligibleBy cost topo req model)
    let eliminated := eliminated topo req model
    let d := { d with rankedCandidates := ranked, eliminatedCandidates := eliminated }
    match ranked with
    | [] => noCandidate req eliminated d
    | best :: _ => choose topo req model best ranked eliminated d

/-- The total the engine computes for a node. -/
def weighed (node : NumaNode) : LocalityCost :=
  ⟨model.float.weigh (computeComponents node.id req model)⟩

/-- The engine itself is the case of the totals it computes. -/
theorem planBy_weighed : planBy (weighed req model) topo req model = plan topo req model := rfl

/-- How often a node is ranked. -/
def timesRanked (d : PlacementDecision) (n : NumaNodeId) : ℕ :=
  (d.rankedCandidates.map (·.node)).count n

/-- How often a node is eliminated. -/
def timesEliminated (d : PlacementDecision) (n : NumaNodeId) : ℕ :=
  d.eliminatedCandidates.countP (names n)

/-- Every node is ranked or eliminated, once, and the first of the ranking is selected before
the others. -/
structure Ranks (d : PlacementDecision) : Prop where
  ranked : ∀ node ∈ topo.nodes, timesRanked d node.id =
    if evaluateEligibility node req model = none then 1 else 0
  eliminated : ∀ node ∈ topo.nodes, timesEliminated d node.id =
    if evaluateEligibility node req model = none then 0 else 1
  reasons : ∀ node ∈ topo.nodes, ∀ v, eliminationText node.id v ∈ d.eliminatedCandidates ↔
    constraints.find? (violates node req model) = some v
  complete : d.rankedCandidates.length + d.eliminatedCandidates.length = topo.nodes.length
  totals : ∀ c ∈ d.rankedCandidates, ∃ node ∈ topo.nodes, c = candidateBy cost req model node
  increasing : d.rankedCandidates.Pairwise fun a b => candidateKey a < candidateKey b
  chosen : ∀ best rest, d.rankedCandidates = best :: rest →
    d.selectedNode = best.node ∧ d.eligibleAlternatives = rest.map (·.node)

variable {cost topo req model}

theorem count_filter_ids {l : List NumaNode} (distinct : (l.map (·.id)).Nodup)
    (q : NumaNode → Bool) {node : NumaNode} (mem : node ∈ l) :
    ((l.filter q).map (·.id)).count node.id = if q node then 1 else 0 := by
  have sub : ((l.filter q).map (·.id)).Nodup :=
    distinct.sublist ((List.filter_sublist (p := q)).map _)
  rw [sub.count]
  congr 1
  rw [List.mem_map, eq_iff_iff]
  constructor
  · rintro ⟨x, hx, same⟩
    rw [List.mem_filter] at hx
    rw [← List.inj_on_of_nodup_map distinct hx.1 mem same]
    exact hx.2
  · intro hq
    exact ⟨node, List.mem_filter.mpr ⟨mem, hq⟩, rfl⟩

theorem map_node_eligibleBy :
    (eligibleBy cost topo req model).map (·.node) =
      (topo.nodes.filter fun n => evaluateEligibility n req model = none).map (·.id) := by
  unfold eligibleBy
  induction topo.nodes with
  | nil => rfl
  | cons n rest ih =>
    by_cases passes : evaluateEligibility n req model = none
    · simp only [List.filterMap_cons, List.filter_cons, passes, if_true, decide_true, List.map_cons, ih]
      rfl
    · simp only [List.filterMap_cons, List.filter_cons, passes, if_false, decide_false,
        Bool.false_eq_true, ih]

theorem eliminated_eq :
    eliminated topo req model =
      topo.nodes.filterMap fun x => (evaluateEligibility x req model).map (eliminationText x.id) := rfl

theorem countP_eliminated (n : NumaNodeId) :
    (eliminated topo req model).countP (names n) =
      ((topo.nodes.filter fun x => (evaluateEligibility x req model).isSome).map (·.id)).count n := by
  rw [eliminated_eq]
  induction topo.nodes with
  | nil => rfl
  | cons x rest ih =>
    cases fails : evaluateEligibility x req model with
    | none =>
      rw [List.filterMap_cons_none (by rw [fails]; rfl), List.filter_cons_of_neg (by simp [fails]), ih]
    | some v =>
      rw [List.filterMap_cons_some (by rw [fails]; rfl), List.filter_cons_of_pos (by simp [fails]),
        List.countP_cons, List.map_cons, List.count_cons, ih]
      simp only [names_iff, beq_iff_eq, eq_comm (a := n)]

theorem mem_eliminated {e : ByteString} :
    e ∈ eliminated topo req model ↔
      ∃ x ∈ topo.nodes, ∃ v, evaluateEligibility x req model = some v ∧ eliminationText x.id v = e := by
  simp only [eliminated_eq, List.mem_filterMap, Option.map_eq_some_iff]

/-- An entry tells the node and the reason. -/
theorem eliminationText_inj {m n : NumaNodeId} {u v : Violation} :
    eliminationText m u = eliminationText n v ↔ m = n ∧ u = v := by
  constructor
  · intro h
    have same : m = n := names_iff.mp (h ▸ names_iff.mpr rfl)
    subst same
    refine ⟨rfl, ?_⟩
    have reasons : u.text = v.text := List.append_cancel_left h
    revert reasons
    cases u <;> cases v <;> decide
  · rintro ⟨rfl, rfl⟩
    rfl

theorem noCandidate_lists (gone : List ByteString) (d : PlacementDecision) :
    (noCandidate req gone d).rankedCandidates = d.rankedCandidates ∧
      (noCandidate req gone d).eliminatedCandidates = d.eliminatedCandidates := by
  unfold noCandidate
  dsimp only
  split_ifs <;> exact ⟨rfl, rfl⟩

theorem planBy_lists (cost : NumaNode → LocalityCost) (topo : HostTopology)
    (model : PlacementModel) (fresh : req.revalidationPending = false) :
    (planBy cost topo req model).rankedCandidates = rank (eligibleBy cost topo req model) ∧
      (planBy cost topo req model).eliminatedCandidates = eliminated topo req model := by
  simp only [planBy, fresh, Bool.false_eq_true, if_false]
  cases ranked : rank (eligibleBy cost topo req model) with
  | nil => exact noCandidate_lists _ _
  | cons best rest =>
    obtain ⟨-, -, list, gone⟩ := choose_lists topo req model best
      (best :: rest) (eliminated topo req model)
      { policyGeneration := req.policyGeneration, rankedCandidates := best :: rest
        eliminatedCandidates := eliminated topo req model }
    exact ⟨list, gone⟩

theorem planBy_chosen (fresh : req.revalidationPending = false) {best : CandidateCost}
    {rest : List CandidateCost} (ranked : rank (eligibleBy cost topo req model) = best :: rest) :
    (planBy cost topo req model).selectedNode = best.node ∧
      (planBy cost topo req model).eligibleAlternatives =
        ((best :: rest).filter (·.node != best.node)).map (·.node) := by
  simp only [planBy, fresh, Bool.false_eq_true, if_false, ranked]
  obtain ⟨selected, others, -, -⟩ := choose_lists topo req model best
    (best :: rest) (eliminated topo req model)
    { policyGeneration := req.policyGeneration, rankedCandidates := best :: rest
      eliminatedCandidates := eliminated topo req model }
  exact ⟨selected, others⟩

theorem rank_perm (l : List CandidateCost) : (rank l).Perm l := List.mergeSort_perm l _

/-- Candidates of one number are candidates of one key. -/
theorem node_of_candidateKey {a b : CandidateCost} (h : candidateKey a = candidateKey b) :
    a.node = b.node := by
  have numbers : a.node.value.toNat = b.node.value.toNat := congrArg (fun p => (ofLex p).2) h
  exact congrArg Id.mk (BitVec.eq_of_toNat_eq numbers)

/-- With distinct numbers the ranking is strict. -/
theorem rank_increasing {l : List CandidateCost} (distinct : (l.map (·.node)).Nodup) :
    (rank l).Pairwise fun a b => candidateKey a < candidateKey b := by
  have apart : (rank l).Pairwise fun a b => a.node ≠ b.node :=
    List.pairwise_map.mp (((rank_perm l).map _).nodup_iff.mpr distinct)
  refine (List.Pairwise.and (pairwise_rank l) apart).imp fun h => ?_
  exact lt_of_le_of_ne h.1 fun same => h.2 (node_of_candidateKey same)

theorem length_split : (eligibleBy cost topo req model).length +
    (eliminated topo req model).length = topo.nodes.length := by
  rw [eliminated_eq, eligibleBy]
  induction topo.nodes with
  | nil => rfl
  | cons n rest ih =>
    cases fails : evaluateEligibility n req model with
    | none =>
      simp only [List.filterMap_cons, fails, if_true, Option.map_none, List.length_cons]
      omega
    | some v =>
      simp only [List.filterMap_cons, fails, reduceCtorEq, if_false, Option.map_some,
        List.length_cons]
      omega

theorem mem_eligibleBy {c : CandidateCost} :
    c ∈ eligibleBy cost topo req model ↔
      ∃ x ∈ topo.nodes, evaluateEligibility x req model = none ∧ candidateBy cost req model x = c := by
  simp only [eligibleBy, List.mem_filterMap, Option.ite_none_right_eq_some, Option.some.injEq]

theorem ranks_planBy (distinct : (topo.nodes.map (·.id)).Nodup)
    (fresh : req.revalidationPending = false) :
    Ranks cost topo req model (planBy cost topo req model) := by
  obtain ⟨ranked, gone⟩ := planBy_lists cost topo model fresh
  have numbers : ((eligibleBy cost topo req model).map (·.node)).Nodup := by
    rw [map_node_eligibleBy]
    exact distinct.sublist ((List.filter_sublist (p := _)).map _)
  have apart : ((rank (eligibleBy cost topo req model)).map (·.node)).Nodup :=
    ((rank_perm _).map _).nodup_iff.mpr numbers
  constructor
  case ranked =>
    intro node mem
    rw [timesRanked, ranked, ((rank_perm _).map _).count_eq, map_node_eligibleBy,
      count_filter_ids distinct _ mem]
    simp only [decide_eq_true_eq]
  case eliminated =>
    intro node mem
    rw [timesEliminated, gone, countP_eliminated, count_filter_ids distinct _ mem]
    cases evaluateEligibility node req model <;> simp
  case reasons =>
    intro node mem v
    rw [gone, mem_eliminated, ← evaluateEligibility_eq_find]
    constructor
    · rintro ⟨x, hx, u, fails, same⟩
      obtain ⟨number, rfl⟩ := eliminationText_inj.mp same
      rw [← List.inj_on_of_nodup_map distinct hx mem number]
      exact fails
    · intro fails
      exact ⟨node, mem, v, fails, rfl⟩
  case complete =>
    rw [ranked, gone, (rank_perm _).length_eq]
    exact length_split
  case totals =>
    intro c hc
    rw [ranked, mem_rank, mem_eligibleBy] at hc
    obtain ⟨x, hx, -, rfl⟩ := hc
    exact ⟨x, hx, rfl⟩
  case increasing =>
    rw [ranked]
    exact rank_increasing numbers
  case chosen =>
    intro best rest first
    rw [ranked] at first
    obtain ⟨selected, others⟩ := planBy_chosen fresh first
    refine ⟨selected, others.trans ?_⟩
    rw [first, List.map_cons, List.nodup_cons] at apart
    rw [List.filter_cons_of_neg (by simp), List.filter_eq_self.mpr]
    intro c hc
    rw [bne_iff_ne]
    intro same
    exact apart.1 (same ▸ List.mem_map_of_mem hc)

/-- Without a pending revalidation each node of the topology is ranked or eliminated once, and
the ranking is the order of the choice: whatever the nodes cost, and so for the engine. -/
theorem ranking_correct (topo : HostTopology) (req : PlacementRequest) (model : PlacementModel)
    (distinct : (topo.nodes.map (·.id)).Nodup) (fresh : req.revalidationPending = false) :
    (∀ cost, Ranks cost topo req model (planBy cost topo req model)) ∧
      Ranks (weighed req model) topo req model (plan topo req model) := by
  refine ⟨fun cost => ranks_planBy distinct fresh, ?_⟩
  rw [← planBy_weighed]
  exact ranks_planBy distinct fresh

end Ranking

/-- The second node is required, so the first is eliminated for that. -/
theorem ranking_correct_required_node :
    let d := plan twinHost { requiredNode := ⟨2⟩, hasRequiredNode := true } smallModel
    timesRanked d ⟨2⟩ = 1 ∧ timesEliminated d ⟨1⟩ = 1 ∧
      eliminationText ⟨1⟩ .requiredNode ∈ d.eliminatedCandidates := by
  intro d
  obtain ⟨-, ranks⟩ := ranking_correct twinHost { requiredNode := ⟨2⟩, hasRequiredNode := true }
    smallModel (by decide) rfl
  have second : timesRanked d ⟨2⟩ = _ := ranks.ranked { id := ⟨2⟩ } (by decide)
  have first : timesEliminated d ⟨1⟩ = _ := ranks.eliminated { id := ⟨1⟩ } (by decide)
  refine ⟨second.trans (by decide +kernel), first.trans (by decide +kernel), ?_⟩
  exact (ranks.reasons { id := ⟨1⟩ } (by decide) .requiredNode).mpr (by decide)

end NumaFabric.PlacementRanking
