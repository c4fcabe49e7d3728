import NumaFabric.RuntimeOperations

/-! What the placement engine answers, said without the stages that compute it: the node of
least cost among the eligible ones, placed unless the request would rather have another. -/
namespace NumaFabric.PlacementChoice
open PlacementEngine

section Ranking

/-- The order of the ranking: by total, then by the number of the node. -/
def candidateKey (c : CandidateCost) : ℕ ×ₗ ℕ := toLex (c.total.value.toNat, c.node.value.toNat)

theorem not_cheaper_iff (a b : CandidateCost) :
    (!cheaper b a) = true ↔ candidateKey a ≤ candidateKey b := by
  unfold cheaper candidateKey
  rw [Prod.Lex.toLex_le_toLex]
  by_cases same : b.total.value = a.total.value
  · simp [same, BitVec.lt_def]
  · have ne : a.total.value.toNat ≠ b.total.value.toNat := fun h => same (BitVec.eq_of_toNat_eq h.symm)
    simp only [same, ne_eq, not_false_eq_true, if_true, Bool.not_eq_true', decide_eq_false_iff_not,
      BitVec.not_lt, BitVec.le_def]
    omega

theorem mem_rank {c : CandidateCost} {l : List CandidateCost} : c ∈ rank l ↔ c ∈ l :=
  List.mem_mergeSort

theorem pairwise_rank (l : List CandidateCost) :
    (rank l).Pairwise fun a b => candidateKey a ≤ candidateKey b := by
  have sorted : (rank l).Pairwise fun a b => (!cheaper b a) = true := by
    apply List.pairwise_mergeSort
    · intro a b c
      simp only [not_cheaper_iff]
      exact le_trans
    · intro a b
      rw [Bool.or_eq_true, not_cheaper_iff, not_cheaper_iff]
      exact le_total _ _
  exact sorted.imp fun h => (not_cheaper_iff _ _).mp h

/-- The first of the ranking is one of the candidates, and none of them is before it. -/
theorem rank_head {l rest : List CandidateCost} {best : CandidateCost} (h : rank l = best :: rest) :
    best ∈ l ∧ ∀ c ∈ l, candidateKey best ≤ candidateKey c := by
  have sorted := pairwise_rank l
  rw [h, List.pairwise_cons] at sorted
  refine ⟨mem_rank.mp (by simp [h]), fun c hc => ?_⟩
  rw [← mem_rank, h, List.mem_cons] at hc
  rcases hc with rfl | later
  · exact le_rfl
  · exact sorted.1 c later

end Ranking

section Cheapest
variable (topo : HostTopology) (req : PlacementRequest) (model : PlacementModel)

/-- What the ranking knows of a node. -/
def key (n : NumaNodeId) : ℕ ×ₗ ℕ :=
  toLex ((model.float.weigh (computeComponents n req model)).toNat, n.value.toNat)

/-- An eligible node has the number, and no eligible node is before it. -/
structure Cheapest (n : NumaNodeId) : Prop where
  eligible : ∃ x ∈ topo.nodes, x.id = n ∧ evaluateEligibility x req model = none
  least : ∀ x ∈ topo.nodes, evaluateEligibility x req model = none → key req model n ≤ key req model x.id

variable {topo req model}

theorem mem_eligible {c : CandidateCost} :
    c ∈ eligible topo req model ↔
      ∃ x ∈ topo.nodes, evaluateEligibility x req model = none ∧ candidate x req model = c := by
  simp only [eligible, List.mem_filterMap, Option.ite_none_right_eq_some, Option.some.injEq]

theorem cheapest_of_rank {best : CandidateCost} {rest : List CandidateCost}
    (h : rank (eligible topo req model) = best :: rest) : Cheapest topo req model best.node := by
  obtain ⟨mem, least⟩ := rank_head h
  obtain ⟨x, hx, passes, rfl⟩ := mem_eligible.mp mem
  refine ⟨⟨x, hx, rfl, passes⟩, fun y hy ok => ?_⟩
  exact least _ (mem_eligible.mpr ⟨y, hy, ok, rfl⟩)

theorem Cheapest.unique {m n : NumaNodeId} (hm : Cheapest topo req model m)
    (hn : Cheapest topo req model n) : m = n := by
  obtain ⟨x, hx, rfl, okx⟩ := hm.eligible
  obtain ⟨y, hy, rfl, oky⟩ := hn.eligible
  have same := le_antisymm (hm.least y hy oky) (hn.least x hx okx)
  have numbers : x.id.value.toNat = y.id.value.toNat := congrArg (fun p => (ofLex p).2) same
  exact congrArg Id.mk (BitVec.eq_of_toNat_eq numbers)

theorem exists_best (h : ∃ x ∈ topo.nodes, evaluateEligibility x req model = none) :
    ∃ best rest, rank (eligible topo req model) = best :: rest := by
  obtain ⟨x, hx, passes⟩ := h
  have mem : candidate x req model ∈ rank (eligible topo req model) :=
    mem_rank.mpr (mem_eligible.mpr ⟨x, hx, passes, rfl⟩)
  exact List.exists_cons_of_ne_nil (List.ne_nil_of_mem mem)

end Cheapest

section Plan
variable {topo : HostTopology} {req : PlacementRequest} {model : PlacementModel}

/-- The node the request would like best if it were offered this one. -/
def ideal (req : PlacementRequest) (model : PlacementModel) (n : NumaNodeId) : NumaNodeId :=
  idealNode { node := n } req model

/-- The request takes the node it is offered. With a hard locality requirement it takes only
the one it would like best, and without fallback too. -/
def Accepts (req : PlacementRequest) (model : PlacementModel) (n : NumaNodeId) : Prop :=
  ((req.hasRequiredNode || req.requireAcceleratorLocality) = true → n = ideal req model n) ∧
    (n = ideal req model n ∨ req.allowFallback = true)

theorem placingKind_places {best wanted : NumaNodeId} {kind : PlacementDecisionKind}
    (h : placingKind best wanted req = some kind) : kind.places = true := by
  unfold placingKind at h
  split_ifs at h <;> cases h <;> rfl

theorem placingKind_eq_none {best wanted : NumaNodeId} :
    placingKind best wanted req = none ↔ best ≠ wanted ∧ req.allowFallback = false := by
  unfold placingKind
  split_ifs with same bound fallback <;> simp_all

section Choose
variable (best : CandidateCost) (ranked : List CandidateCost) (gone : List ByteString)
  (d : PlacementDecision)

variable (topo req model) in
/-- The two fields that name the chosen node, and the two that hold the lists. -/
theorem choose_lists :
    let c := choose topo req model best ranked gone d
    c.selectedNode = best.node ∧
      c.eligibleAlternatives = (ranked.filter (·.node != best.node)).map (·.node) ∧
      c.rankedCandidates = d.rankedCandidates ∧ c.eliminatedCandidates = d.eliminatedCandidates := by
  intro c
  simp only [c]
  unfold choose
  dsimp only
  by_cases refused : ((req.hasRequiredNode || req.requireAcceleratorLocality) &&
    best.node != idealNode best req model) = true
  · rw [if_pos refused]
    exact ⟨rfl, rfl, rfl, rfl⟩
  · rw [if_neg refused]
    cases placingKind best.node (idealNode best req model) req <;> exact ⟨rfl, rfl, rfl, rfl⟩

theorem choose_places :
    (choose topo req model best ranked gone d).kind.places = true ↔ Accepts req model best.node := by
  have wanted : idealNode best req model = ideal req model best.node := rfl
  unfold choose Accepts
  rw [wanted]
  dsimp only
  by_cases refused : ((req.hasRequiredNode || req.requireAcceleratorLocality) &&
    best.node != ideal req model best.node) = true
  · rw [if_pos refused]
    rw [Bool.and_eq_true, bne_iff_ne] at refused
    constructor
    · intro h
      cases h
    · rintro ⟨hard, -⟩
      exact absurd (hard refused.1) refused.2
  · rw [if_neg refused]
    rw [Bool.and_eq_true, bne_iff_ne, not_and, not_not] at refused
    cases kind : placingKind best.node (ideal req model best.node) req with
    | none =>
      obtain ⟨ne, off⟩ := placingKind_eq_none.mp kind
      simp [ne, off, PlacementDecisionKind.places]
    | some k =>
      have on : ¬(best.node ≠ ideal req model best.node ∧ req.allowFallback = false) := by
        rw [← placingKind_eq_none, kind]
        simp
      simp only [placingKind_places kind, true_iff]
      refine ⟨refused, ?_⟩
      by_cases same : best.node = ideal req model best.node
      · exact .inl same
      · right
        simpa [same] using on

end Choose

theorem noCandidate_places (gone : List ByteString) (d : PlacementDecision) :
    (noCandidate req gone d).kind.places = false := by
  unfold noCandidate
  dsimp only
  split_ifs <;> rfl

/-- The engine places the worker exactly when there is a cheapest node and the request takes
it. -/
theorem plan_places :
    (plan topo req model).kind.places = true ↔
      req.revalidationPending = false ∧ ∃ n, Cheapest topo req model n ∧ Accepts req model n := by
  unfold plan
  dsimp only
  cases pending : req.revalidationPending with
  | true => simp [PlacementDecisionKind.places]
  | false =>
    simp only [Bool.false_eq_true, if_false, true_and]
    cases ranked : rank (eligible topo req model) with
    | nil =>
      simp only [noCandidate_places, Bool.false_eq_true, false_iff]
      rintro ⟨n, cheapest, -⟩
      obtain ⟨x, hx, -, passes⟩ := cheapest.eligible
      obtain ⟨best, rest, some⟩ := exists_best ⟨x, hx, passes⟩
      rw [ranked] at some
      cases some
    | cons best rest =>
      simp only [choose_places]
      have cheapest := cheapest_of_rank ranked
      constructor
      · intro accepts
        exact ⟨best.node, cheapest, accepts⟩
      · rintro ⟨n, other, accepts⟩
        rwa [cheapest.unique other]

/-- The node it names is the cheapest, also when it rejects the request. -/
theorem plan_selected {n : NumaNodeId} (fresh : req.revalidationPending = false)
    (cheapest : Cheapest topo req model n) : (plan topo req model).selectedNode = n := by
  obtain ⟨x, hx, -, passes⟩ := cheapest.eligible
  obtain ⟨best, rest, ranked⟩ := exists_best ⟨x, hx, passes⟩
  unfold plan
  simp only [fresh, Bool.false_eq_true, if_false, ranked]
  obtain ⟨selected, -⟩ := choose_lists topo req model best (best :: rest) (eliminated topo req model)
    { policyGeneration := req.policyGeneration, rankedCandidates := best :: rest
      eliminatedCandidates := eliminated topo req model }
  exact selected.trans ((cheapest_of_rank ranked).unique cheapest)

end Plan

end NumaFabric.PlacementChoice
