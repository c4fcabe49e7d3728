import NumaFabric.PlacementDeterminism

/-! What a decision says of itself: whether its kind tells that the worker moves, whether a penalty
is one, and whether its binding constraint tells that something was in the way. -/
namespace NumaFabric.PlacementExplanation
open PlacementEngine PlacementChoice PlacementRanking PlacementSoundness PlacementDeterminism

variable {topo : HostTopology} {req : PlacementRequest} {model : PlacementModel}

section Kind

/-- A node that the request takes is not refused for a hard requirement. -/
theorem taken_of_accepts {n : NumaNodeId} (accepts : Accepts req model n) :
    ((req.hasRequiredNode || req.requireAcceleratorLocality) && n != ideal req model n) = false := by
  rw [Bool.and_eq_false_iff, bne_eq_false_iff_eq, or_iff_not_imp_left, Bool.not_eq_false]
  exact accepts.1

/-- The kind of a choice that the request takes. -/
theorem choose_kind {best : CandidateCost} (accepts : Accepts req model best.node)
    (ranked : List CandidateCost) (gone : List ByteString) (d : PlacementDecision) :
    placingKind best.node (ideal req model best.node) req =
      some (choose topo req model best ranked gone d).kind := by
  have wanted : idealNode best req model = ideal req model best.node := rfl
  have soft := accepts.2
  unfold choose
  simp only [wanted, taken_of_accepts accepts, Bool.false_eq_true, if_false]
  cases kind : placingKind best.node (ideal req model best.node) req with
  | some k => rfl
  | none =>
    obtain ⟨ne, off⟩ := placingKind_eq_none.mp kind
    rw [or_iff_right ne, off] at soft
    cases soft

theorem plan_kind {n : NumaNodeId} (fresh : req.revalidationPending = false)
    (cheapest : Cheapest topo req model n) (accepts : Accepts req model n) :
    placingKind n (ideal req model n) req = some (plan topo req model).kind := by
  obtain ⟨x, hx, -, passes⟩ := cheapest.eligible
  obtain ⟨best, rest, ranked⟩ := exists_best ⟨x, hx, passes⟩
  rw [(cheapest_of_rank ranked).unique cheapest |>.symm] at accepts ⊢
  unfold plan
  simp only [fresh, Bool.false_eq_true, if_false, ranked]
  exact choose_kind accepts _ _ _

/-- Of a bound worker, the kind is right unless it is told to move to where it is. -/
theorem placingKind_moves {n wanted : NumaNodeId} {k : PlacementDecisionKind}
    (bound : req.workerAlreadyBound = true) (kind : placingKind n wanted req = some k) :
    ((k = .migrate ∨ k = .rebind → n ≠ req.currentNode) ∧ (k = .place → n = req.currentNode)) ↔
      (n = req.currentNode → n = wanted) := by
  have moving : k = .migrate ∨ k = .rebind → ((k = .migrate ∨ k = .rebind →
      n ≠ req.currentNode) ∧ (k = .place → n = req.currentNode) ↔ n ≠ req.currentNode) := by
    rintro (rfl | rfl)
    · simp
    · simp
  unfold placingKind at kind
  by_cases same : n = wanted
  · subst same
    simp only [if_true, bound, Bool.true_and] at kind
    by_cases here : n = req.currentNode
    · simp only [here, bne_self_eq_false, Bool.false_eq_true, if_false, Option.some.injEq] at kind
      simp [← kind, here]
    · rw [if_pos (bne_iff_ne.mpr here), Option.some.injEq] at kind
      have moves : k = .migrate ∨ k = .rebind := by
        cases zero : req.memoryFootprint.isZero <;> simp [zero] at kind <;> simp [← kind]
      simpa [moving moves] using here
  · simp only [if_neg same, bound, Bool.true_and, if_true] at kind
    have moves : k = .migrate ∨ k = .rebind := by
      cases fallback : req.allowFallback with
      | false => simp [fallback] at kind
      | true =>
        cases zero : req.memoryFootprint.isZero <;> simp [fallback, zero] at kind <;> simp [← kind]
    simp [moving moves, same]

/-- A worker that is told to move has another node to move to, and one that is placed stays. -/
def Moves (req : PlacementRequest) (d : PlacementDecision) : Prop :=
  (d.kind = .migrate ∨ d.kind = .rebind → d.selectedNode ≠ req.currentNode) ∧
    (d.kind = .place → d.selectedNode = req.currentNode)

/-- A bound worker is told to move, and told so rightly, unless the cheapest node is where it
is and the request would rather have another. -/
theorem moves_iff (bound : req.workerAlreadyBound = true) :
    Moves req (plan topo req model) ↔
      (req.revalidationPending = false → ∀ n, Cheapest topo req model n → Accepts req model n →
        n = req.currentNode → n = ideal req model n) := by
  by_cases places : (plan topo req model).kind.places = true
  · obtain ⟨fresh, n, cheapest, accepts⟩ := plan_places.mp places
    have kind := plan_kind fresh cheapest accepts
    have selected := plan_selected fresh cheapest
    have only : (req.revalidationPending = false → ∀ m, Cheapest topo req model m →
        Accepts req model m → m = req.currentNode → m = ideal req model m) ↔
        (n = req.currentNode → n = ideal req model n) :=
      ⟨fun h => h fresh n cheapest accepts, fun h _ m other _ => other.unique cheapest ▸ h⟩
    rw [only, Moves, selected]
    exact placingKind_moves bound kind
  · constructor
    · intro _ fresh n cheapest accepts
      exact absurd (plan_places.mpr ⟨fresh, n, cheapest, accepts⟩) places
    · intro _
      constructor
      · rintro (kind | kind)
        · rw [kind] at places
          exact absurd rfl places
        · rw [kind] at places
          exact absurd rfl places
      · intro kind
        rw [kind] at places
        exact absurd rfl places

end Kind

section Penalty

/-- The distance to the owner's node and the surcharge for a remote one, as a natural number. -/
def exactMemoryLocal (node : NumaNodeId) (req : PlacementRequest) (model : PlacementModel) : ℕ :=
  if !req.memoryOwnerNode.isValid then 0
  else (model.distance req.memoryOwnerNode node).value.toNat +
    if req.memoryOwnerNode = node then 0 else 100

/-- The cost of a node under the default weights, without rounding or overflow. -/
def exactTotal (node : NumaNodeId) (req : PlacementRequest) (model : PlacementModel) : ℕ :=
  100 * (preferenceCost node req).value.toNat + exactMemoryLocal node req model +
    (acceleratorLocalCost node req model).value.toNat + (distanceCost node req model).value.toNat +
    (ioLocalCost node req model).value.toNat + (capacityCost node req model).value.toNat +
    (migrationCost node req).value.toNat

variable (topo req model) in
/-- The totals of the candidates are their exact costs. -/
def ExactCosts : Prop :=
  ∀ x ∈ topo.nodes, evaluateEligibility x req model = none →
    (model.float.weigh (computeComponents x.id req model)).toNat = exactTotal x.id req model

/-- What the request would rather have, when it is not the node it is offered. -/
theorem ideal_cases {n : NumaNodeId} (other : n ≠ ideal req model n) :
    (req.preferredNode.isValid = true ∧ req.preferredNode ≠ n) ∨
      (req.preferredAccelerator.isValid = true ∧
        ∃ loc, model.acceleratorLocality[req.preferredAccelerator]? = some loc ∧
          loc.localNode.isValid = true ∧ loc.localNode ≠ n) ∨
      (req.memoryOwnerNode.isValid = true ∧ req.memoryOwnerNode ≠ n) := by
  unfold ideal idealNode at other
  cases found : model.acceleratorLocality[req.preferredAccelerator]? with
  | none =>
    simp only [found, Id.isValid_invalid, Bool.false_eq_true, if_false] at other
    split_ifs at other with preferred owner
    · exact .inl ⟨preferred, Ne.symm other⟩
    · exact .inr (.inr ⟨owner, Ne.symm other⟩)
    · exact absurd rfl other
  | some loc =>
    simp only [found] at other
    split_ifs at other with preferred wanted near owner far owner
    · exact .inl ⟨preferred, Ne.symm other⟩
    · exact .inr (.inl ⟨wanted, loc, rfl, near, Ne.symm other⟩)
    · exact .inr (.inr ⟨owner, Ne.symm other⟩)
    · exact absurd rfl other
    · cases far
    · exact .inr (.inr ⟨owner, Ne.symm other⟩)
    · exact absurd rfl other

/-- A node other than the one the request would like best costs something. -/
theorem exactTotal_pos {n : NumaNodeId} (other : n ≠ ideal req model n) :
    0 < exactTotal n req model := by
  unfold exactTotal
  rcases ideal_cases other with ⟨valid, ne⟩ | ⟨valid, loc, found, near, ne⟩ | ⟨valid, ne⟩
  · have cost : (preferenceCost n req).value.toNat = 1 := by simp [preferenceCost, valid, ne]
    omega
  · have cost : (acceleratorLocalCost n req model).value.toNat = 200 := by
      simp [acceleratorLocalCost, valid, found, near, ne]
    omega
  · have cost : 100 ≤ exactMemoryLocal n req model := by simp [exactMemoryLocal, valid, ne]
    omega

/-- What a choice that the request takes says of the penalty. -/
theorem choose_penalty {best : CandidateCost} (accepts : Accepts req model best.node)
    (ranked : List CandidateCost) (gone : List ByteString) (d : PlacementDecision) :
    (choose topo req model best ranked gone d).expectedPenalty =
      if best.node = ideal req model best.node then .zero
      else
        let idealCost :=
          ((ranked.find? (·.node == ideal req model best.node)).map (·.total)).getD .zero
        if idealCost.value < best.total.value then ⟨best.total.value - idealCost.value⟩ else .zero := by
  have wanted : idealNode best req model = ideal req model best.node := rfl
  have kind : placingKind best.node (ideal req model best.node) req =
    some (choose topo req model best ranked gone d).kind := choose_kind accepts ranked gone d
  generalize (choose topo req model best ranked gone d).kind = k at kind
  unfold choose
  simp only [wanted, taken_of_accepts accepts, Bool.false_eq_true, if_false, kind]

variable (topo req model) in
def Eligible (n : NumaNodeId) : Prop :=
  ∃ x ∈ topo.nodes, x.id = n ∧ evaluateEligibility x req model = none

theorem find_rank_none {n : NumaNodeId} (missing : ¬ Eligible topo req model n) :
    (rank (eligible topo req model)).find? (·.node == n) = none := by
  rw [List.find?_eq_none]
  intro c mem
  obtain ⟨x, hx, passes, rfl⟩ := mem_eligible.mp (mem_rank.mp mem)
  intro same
  exact missing ⟨x, hx, eq_of_beq same, passes⟩

theorem find_rank_some {n : NumaNodeId} (there : Eligible topo req model n) :
    ∃ c, (rank (eligible topo req model)).find? (·.node == n) = some c ∧
      c.total.value = model.float.weigh (computeComponents n req model) := by
  obtain ⟨x, hx, rfl, passes⟩ := there
  have mem : candidate x req model ∈ rank (eligible topo req model) :=
    mem_rank.mpr (mem_eligible.mpr ⟨x, hx, passes, rfl⟩)
  have found : ((rank (eligible topo req model)).find? (·.node == x.id)).isSome = true :=
    List.find?_isSome.mpr ⟨_, mem, beq_self_eq_true x.id⟩
  obtain ⟨c, found⟩ := Option.isSome_iff_exists.mp found
  refine ⟨c, found, ?_⟩
  obtain ⟨y, -, -, rfl⟩ := mem_eligible.mp (mem_rank.mp (List.mem_of_find?_eq_some found))
  have here := List.find?_some found
  have same : y.id = x.id := eq_of_beq here
  exact congrArg (fun m => model.float.weigh (computeComponents m req model)) same

/-- The decision for a node the request takes is the choice of it. -/
theorem plan_choose {n : NumaNodeId} (fresh : req.revalidationPending = false)
    (cheapest : Cheapest topo req model n) :
    ∃ best rest d, rank (eligible topo req model) = best :: rest ∧ best.node = n ∧
      best.total.value = model.float.weigh (computeComponents n req model) ∧
      plan topo req model =
        choose topo req model best (rank (eligible topo req model)) (eliminated topo req model) d := by
  obtain ⟨x, hx, -, passes⟩ := cheapest.eligible
  obtain ⟨best, rest, ranked⟩ := exists_best ⟨x, hx, passes⟩
  have same := (cheapest_of_rank ranked).unique cheapest
  refine ⟨best, rest, { policyGeneration := req.policyGeneration, rankedCandidates := best :: rest
                        eliminatedCandidates := eliminated topo req model }, ranked, same, ?_, ?_⟩
  · obtain ⟨y, -, -, rfl⟩ := mem_eligible.mp (rank_head ranked).1
    rw [← same]
    rfl
  · unfold plan
    simp only [fresh, Bool.false_eq_true, if_false, ranked]

/-- The penalty of a node the request takes: none for the one it would like best, none when that
one was to be had, and the whole cost otherwise. -/
theorem plan_penalty {n : NumaNodeId} (fresh : req.revalidationPending = false)
    (cheapest : Cheapest topo req model n) (accepts : Accepts req model n) (other : n ≠ ideal req model n) :
    (Eligible topo req model (ideal req model n) → (plan topo req model).expectedPenalty = .zero) ∧
      (¬ Eligible topo req model (ideal req model n) → ExactCosts topo req model →
        0 < (plan topo req model).expectedPenalty.value) := by
  obtain ⟨best, rest, d, ranked, rfl, total, chosen⟩ := plan_choose fresh cheapest
  rw [chosen, choose_penalty accepts, if_neg other]
  constructor
  · intro there
    obtain ⟨c, found, cost⟩ := find_rank_some there
    obtain ⟨y, hy, here, ok⟩ := there
    have le := cheapest.least y hy ok
    rw [here, key, key, Prod.Lex.toLex_le_toLex] at le
    have dearer : ¬ c.total.value < best.total.value := by
      rw [cost, total, BitVec.lt_def]
      omega
    simp only [found, Option.map_some, Option.getD_some, if_neg dearer]
  · intro missing priced
    have positive : 0 < best.total.value := by
      obtain ⟨x, hx, same, passes⟩ := cheapest.eligible
      rw [BitVec.lt_def, total, ← same, priced x hx passes, same]
      exact exactTotal_pos other
    simp only [find_rank_none missing, Option.map_none, Option.getD_none]
    change 0 < (if 0 < best.total.value then (⟨best.total.value - 0⟩ : LocalityCost) else .zero).value
    rw [if_pos positive]
    simpa using positive

theorem plan_penalty_ideal {n : NumaNodeId} (fresh : req.revalidationPending = false)
    (cheapest : Cheapest topo req model n) (accepts : Accepts req model n)
    (same : n = ideal req model n) : (plan topo req model).expectedPenalty = .zero := by
  obtain ⟨best, rest, d, ranked, rfl, total, chosen⟩ := plan_choose fresh cheapest
  rw [chosen, choose_penalty accepts, if_pos same]

theorem placingKind_penalty {n wanted : NumaNodeId} :
    placingKind n wanted req = some .placeWithPenalty ↔
      n ≠ wanted ∧ req.allowFallback = true ∧ req.workerAlreadyBound = false := by
  unfold placingKind
  split_ifs <;> simp_all

theorem ideal_of_place {n wanted : NumaNodeId} (h : placingKind n wanted req = some .place) :
    n = wanted := by
  unfold placingKind at h
  split_ifs at h <;> simp_all

/-- A placement with a penalty names one, and a plain placement has none. -/
def Penalised (d : PlacementDecision) : Prop :=
  (d.kind = .placeWithPenalty → 0 < d.expectedPenalty.value) ∧
    (d.kind = .place → d.expectedPenalty = .zero)

variable (topo req model) in
/-- A worker that is not bound yet falls back to the cheapest node, although the one the request would
like best was to be had. -/
structure Outbid (n : NumaNodeId) : Prop where
  fresh : req.revalidationPending = false
  soft : (req.hasRequiredNode || req.requireAcceleratorLocality) = false
  fallback : req.allowFallback = true
  unbound : req.workerAlreadyBound = false
  cheapest : Cheapest topo req model n
  other : n ≠ ideal req model n
  eligible : Eligible topo req model (ideal req model n)

theorem Outbid.accepts {n : NumaNodeId} (h : Outbid topo req model n) : Accepts req model n :=
  ⟨fun hard => absurd hard (by simp [h.soft]), .inr h.fallback⟩

theorem Outbid.kind {n : NumaNodeId} (h : Outbid topo req model n) :
    (plan topo req model).kind = .placeWithPenalty := by
  have kind := plan_kind h.fresh h.cheapest h.accepts
  rw [placingKind_penalty.mpr ⟨h.other, h.fallback, h.unbound⟩, Option.some.injEq] at kind
  exact kind.symm

/-- The penalty is what its kind says, unless the request is outbid. -/
theorem penalised_iff (priced : ExactCosts topo req model) :
    Penalised (plan topo req model) ↔ ∀ n, ¬ Outbid topo req model n := by
  constructor
  · intro penalised n outbid
    have none := (plan_penalty outbid.fresh outbid.cheapest outbid.accepts outbid.other).1 outbid.eligible
    have positive := penalised.1 outbid.kind
    rw [none] at positive
    exact absurd positive (by decide)
  · intro honoured
    constructor
    · intro kind
      obtain ⟨fresh, n, cheapest, accepts⟩ := plan_places.mp (by rw [kind]; rfl)
      have placing := plan_kind fresh cheapest accepts
      rw [kind] at placing
      obtain ⟨other, fallback, unbound⟩ := placingKind_penalty.mp placing
      have soft : (req.hasRequiredNode || req.requireAcceleratorLocality) = false :=
        Bool.eq_false_iff.mpr fun hard => other (accepts.1 hard)
      refine (plan_penalty fresh cheapest accepts other).2 ?_ priced
      intro there
      exact honoured n ⟨fresh, soft, fallback, unbound, cheapest, other, there⟩
    · intro kind
      obtain ⟨fresh, n, cheapest, accepts⟩ := plan_places.mp (by rw [kind]; rfl)
      have placing := plan_kind fresh cheapest accepts
      rw [kind] at placing
      exact plan_penalty_ideal fresh cheapest accepts (ideal_of_place placing)

/-- Two nodes without a capacity, and the default weights in machine words. -/
def plainModel : PlacementModel where
  float := ⟨fun _ _ => 0, fun c => 100 * c.preference.value + c.memoryLocal.value +
    c.acceleratorLocal.value + c.distance.value + c.ioLocal.value + c.capacity.value +
    c.migration.value⟩

theorem mem_twin {x : NumaNode} (h : x ∈ twinHost.nodes) : x = { id := ⟨1⟩ } ∨ x = { id := ⟨2⟩ } := by
  simpa [twinHost] using h

theorem exactCosts_twin {req : PlacementRequest}
    (first : (plainModel.float.weigh (computeComponents ⟨1⟩ req plainModel)).toNat =
      exactTotal ⟨1⟩ req plainModel)
    (second : (plainModel.float.weigh (computeComponents ⟨2⟩ req plainModel)).toNat =
      exactTotal ⟨2⟩ req plainModel) : ExactCosts twinHost req plainModel := by
  intro x hx _
  rcases mem_twin hx with rfl | rfl
  · exact first
  · exact second

/-- The third node is preferred and does not exist: falling back has its price. -/
theorem penalised_iff_missing_node :
    Penalised (plan twinHost { preferredNode := ⟨3⟩ } plainModel) := by
  refine (penalised_iff (exactCosts_twin (by decide) (by decide))).mpr ?_
  intro n outbid
  obtain ⟨x, hx, same, -⟩ := outbid.eligible
  have wanted : x.id = ⟨3⟩ := same
  rcases mem_twin hx with rfl | rfl
  · exact absurd wanted (by decide)
  · exact absurd wanted (by decide)

/-- The second node is preferred and eligible, but the memory is on the first, which is cheaper. The
worker is placed there with a penalty of nothing. -/
theorem penalty_of_nothing :
    ¬ ∀ (topo : HostTopology) (req : PlacementRequest) (model : PlacementModel),
      (topo.nodes.map (·.id)).Nodup → ExactCosts topo req model → Penalised (plan topo req model) := by
  intro always
  have penalised := always twinHost { preferredNode := ⟨2⟩, memoryOwnerNode := ⟨1⟩ } plainModel
    (by decide) (exactCosts_twin (by decide) (by decide))
  have outbid : Outbid twinHost { preferredNode := ⟨2⟩, memoryOwnerNode := ⟨1⟩ } plainModel ⟨1⟩ := by
    refine ⟨rfl, rfl, rfl, rfl, ⟨⟨_, List.mem_cons_self, rfl, by decide⟩, ?_⟩, by decide,
      ⟨_, List.mem_cons_of_mem _ List.mem_cons_self, by decide, by decide⟩⟩
    intro x hx _
    rcases mem_twin hx with rfl | rfl
    · exact le_rfl
    · rw [key, key, Prod.Lex.toLex_le_toLex]
      exact .inl (by decide)
  have none := (plan_penalty outbid.fresh outbid.cheapest outbid.accepts outbid.other).1 outbid.eligible
  have positive := penalised.1 outbid.kind
  rw [none] at positive
  exact absurd positive (by decide)

end Penalty

theorem cheapest_twin (req : PlacementRequest)
    (passes : evaluateEligibility { id := ⟨1⟩ } req smallModel = none) :
    Cheapest twinHost req smallModel ⟨1⟩ := by
  refine ⟨⟨_, by decide, rfl, passes⟩, fun x hx _ => ?_⟩
  rcases mem_twin hx with rfl | rfl
  · exact le_rfl
  · rw [key, key, Prod.Lex.toLex_le_toLex]
    exact .inr ⟨rfl, Nat.le_succ 1⟩

/-- A worker on the second node that nothing keeps there is told to move to the first. -/
theorem moves_iff_second_node :
    Moves { workerAlreadyBound := true, currentNode := ⟨2⟩ }
      (plan twinHost { workerAlreadyBound := true, currentNode := ⟨2⟩ } smallModel) :=
  (moves_iff rfl).mpr fun _ _ _ _ _ => rfl

/-- The worker is on the first node and would rather be on a third that does not exist. It is
told to rebind to where it is. -/
theorem rebinds_in_place :
    ¬ ∀ (topo : HostTopology) (req : PlacementRequest) (model : PlacementModel),
      req.workerAlreadyBound = true → req.currentNode.isValid = true →
      Moves req (plan topo req model) := by
  intro moves
  obtain ⟨moving, -⟩ := moves twinHost
    { workerAlreadyBound := true, currentNode := ⟨1⟩, preferredNode := ⟨3⟩ } smallModel rfl (by decide)
  have cheapest := cheapest_twin
    { workerAlreadyBound := true, currentNode := ⟨1⟩, preferredNode := ⟨3⟩ } (by decide)
  have accepts : Accepts { workerAlreadyBound := true, currentNode := ⟨1⟩, preferredNode := ⟨3⟩ }
      smallModel ⟨1⟩ := ⟨fun hard => (by cases hard), .inr rfl⟩
  have kind := plan_kind rfl cheapest accepts
  exact moving (.inr (Option.some.inj kind).symm) (plan_selected rfl cheapest)

section Binding

/-- A decision that names no binding constraint had none to name. -/
def Candid (req : PlacementRequest) (d : PlacementDecision) : Prop :=
  d.bindingConstraint = ascii "none" ∨ d.bindingConstraint = [] →
    req.hasRequiredNode = false ∧ req.requireAcceleratorLocality = false ∧
      req.requiredCpuCount = 0 ∧ d.eliminatedCandidates = []

/-- An entry is never taken for the word that stands for no constraint. -/
theorem eliminationText_ne (n : NumaNodeId) (v : Violation) :
    eliminationText n v ≠ ascii "none" ∧ eliminationText n v ≠ [] := by
  have head : ascii "node " = [110, 111, 100, 101, 32] := by decide
  have word : ascii "none" = [110, 111, 110, 101] := by decide
  rw [eliminationText, head, word]
  simp

/-- Without other hard constraints a node can only be short of capacity. -/
theorem capacity_of_unconstrained {node : NumaNode} {v : Violation}
    (free : req.hasRequiredNode = false) (anywhere : req.requireAcceleratorLocality = false)
    (idle : req.requiredCpuCount = 0) (fails : evaluateEligibility node req model = some v) :
    v = .capacity := by
  rw [evaluateEligibility_eq_find] at fails
  have violated := List.find?_some fails
  cases v <;> simp [violates, free, anywhere, idle] at violated ⊢

theorem bindingOf_candid (named : (bindingOf req (eliminated topo req model)).1 = ascii "none" ∨
      (bindingOf req (eliminated topo req model)).1 = []) :
    req.hasRequiredNode = false ∧ req.requireAcceleratorLocality = false ∧
      req.requiredCpuCount = 0 ∧ eliminated topo req model = [] := by
  unfold bindingOf at named
  split_ifs at named with required accelerator cpus full
  · exact absurd named (by decide)
  · exact absurd named (by decide)
  · exact absurd named (by decide)
  · exact absurd named (by decide)
  · rw [Bool.not_eq_true] at required accelerator full
    have idle : req.requiredCpuCount = 0 := by simpa using cpus
    refine ⟨required, accelerator, idle, ?_⟩
    rw [List.eq_nil_iff_forall_not_mem]
    intro e he
    obtain ⟨x, -, v, fails, rfl⟩ := mem_eliminated.mp he
    have short := capacity_of_unconstrained required accelerator idle fails
    rw [List.any_eq_false] at full
    exact full _ he (mentions_capacity.mpr short)

/-- The constraint a choice names: one of two that it rejects for, or one of the request. -/
theorem choose_binding (topo : HostTopology) (req : PlacementRequest) (model : PlacementModel)
    (best : CandidateCost) (ranked : List CandidateCost) (gone : List ByteString)
    (d : PlacementDecision) :
    (choose topo req model best ranked gone d).bindingConstraint ∈
      [ascii "required_node_or_accelerator_locality", ascii "preferred_node",
        (bindingOf req gone).1] := by
  unfold choose
  dsimp only
  by_cases refused : ((req.hasRequiredNode || req.requireAcceleratorLocality) &&
    best.node != idealNode best req model) = true
  · rw [if_pos refused]
    simp
  · rw [if_neg refused]
    cases placingKind best.node (idealNode best req model) req <;> simp

/-- With a node to choose, the choice names what it is bound by. -/
theorem candid_of_eligible (fresh : req.revalidationPending = false)
    (some_left : ∃ n ∈ topo.nodes, evaluateEligibility n req model = none) :
    Candid req (plan topo req model) := by
  obtain ⟨best, rest, ranked⟩ := exists_best some_left
  intro named
  simp only [plan, fresh, Bool.false_eq_true, if_false, ranked] at named ⊢
  have binding := choose_binding topo req model best (best :: rest) (eliminated topo req model)
    { policyGeneration := req.policyGeneration, rankedCandidates := best :: rest
      eliminatedCandidates := eliminated topo req model }
  obtain ⟨-, -, -, gone⟩ := choose_lists topo req model best (best :: rest)
    (eliminated topo req model)
    { policyGeneration := req.policyGeneration, rankedCandidates := best :: rest
      eliminatedCandidates := eliminated topo req model }
  rw [gone]
  simp only [List.mem_cons, List.not_mem_nil, or_false] at binding
  rcases binding with hard | soft | own
  · rw [hard] at named
    exact absurd named (by decide)
  · rw [soft] at named
    exact absurd named (by decide)
  · rw [own] at named
    exact bindingOf_candid named

/-- With nodes but no candidate, the first node's reason is named if nothing else is. -/
theorem candid_of_none_left (fresh : req.revalidationPending = false)
    (none_left : ∀ n ∈ topo.nodes, evaluateEligibility n req model ≠ none)
    (nodes : topo.nodes ≠ []) : Candid req (plan topo req model) := by
  obtain ⟨reason, wouldChange, answer⟩ := noCandidate_eq req (eliminated topo req model)
    { policyGeneration := req.policyGeneration, eliminatedCandidates := eliminated topo req model }
  obtain ⟨n, rest, list⟩ := List.exists_cons_of_ne_nil nodes
  obtain ⟨v, fails⟩ := Option.ne_none_iff_exists'.mp (none_left n (by simp [list]))
  have first : (eliminated topo req model).head? = _ := head_eliminated list fails
  obtain ⟨word, empty⟩ := eliminationText_ne n.id v
  rw [plan_of_none_left fresh none_left, answer]
  intro named
  refine absurd named ?_
  unfold blame
  simp only [first, Option.any_some, Option.getD_some]
  split_ifs
  · decide
  · decide
  · simp [word, empty]

/-- Without nodes nothing is eliminated, and only a required node is named. -/
theorem candid_without_nodes (fresh : req.revalidationPending = false) (none : topo.nodes = []) :
    Candid req (plan topo req model) ↔
      (req.hasRequiredNode = false →
        req.requireAcceleratorLocality = false ∧ req.requiredCpuCount = 0) := by
  obtain ⟨reason, wouldChange, answer⟩ := noCandidate_eq req (eliminated topo req model)
    { policyGeneration := req.policyGeneration, eliminatedCandidates := eliminated topo req model }
  have gone : eliminated topo req model = [] := by rw [eliminated_eq, none]; rfl
  rw [plan_of_none_left fresh (by simp [none]), answer, gone, Candid]
  cases required : req.hasRequiredNode with
  | true =>
    simp only [blame, required, if_true]
    constructor
    · intro _ h
      cases h
    · intro _ named
      exact absurd named (by decide)
  | false =>
    simp only [blame, required, Bool.false_eq_true, if_false, List.head?_nil, Option.any_none,
      Option.getD_none]
    simp

/-- The constraint is understated exactly for a topology without nodes: there the locality
and processor requirements are forgotten. -/
theorem candid_iff (fresh : req.revalidationPending = false) :
    Candid req (plan topo req model) ↔
      (topo.nodes = [] → req.hasRequiredNode = false →
        req.requireAcceleratorLocality = false ∧ req.requiredCpuCount = 0) := by
  by_cases nodes : topo.nodes = []
  · rw [candid_without_nodes fresh nodes]
    exact ⟨fun h _ => h, fun h => h nodes⟩
  · refine ⟨fun _ none => absurd none nodes, fun _ => ?_⟩
    by_cases none_left : ∀ n ∈ topo.nodes, evaluateEligibility n req model ≠ none
    · exact candid_of_none_left fresh none_left nodes
    · push Not at none_left
      exact candid_of_eligible fresh none_left

end Binding

theorem candid_iff_empty_topology :
    Candid { hasRequiredNode := true, requiredNode := ⟨1⟩, requiredCpuCount := 4 }
      (plan {} { hasRequiredNode := true, requiredNode := ⟨1⟩, requiredCpuCount := 4 } smallModel) :=
  (candid_iff rfl).mpr fun _ required => by cases required

/-- Four processors are required of a host without nodes, and nothing binds the decision. -/
theorem requirement_unnamed :
    ¬ ∀ (topo : HostTopology) (req : PlacementRequest) (model : PlacementModel),
      req.revalidationPending = false → Candid req (plan topo req model) := by
  intro candid
  have named := candid {} { requiredCpuCount := 4 } smallModel rfl
  rw [plan_of_none_left rfl (by simp)] at named
  exact absurd (named (.inl (by decide))) (by decide)

end NumaFabric.PlacementExplanation
