import NumaFabric.PlacementRanking

/-! The engine on the same nodes in another order. Everything but the answer without a
candidate is computed from the set of the nodes; that answer looks at the first one. -/
namespace NumaFabric.PlacementDeterminism
open PlacementEngine PlacementChoice PlacementRanking PlacementSoundness

/-- Two decisions that say the same of where to place and why. -/
structure SameDecision (d d' : PlacementDecision) : Prop where
  kind : d'.kind = d.kind
  selected : d'.selectedNode = d.selectedNode
  penalty : d'.expectedPenalty = d.expectedPenalty
  binding : d'.bindingConstraint = d.bindingConstraint
  locality : d'.expectedLocalityClass = d.expectedLocalityClass
  ranked : d'.rankedCandidates = d.rankedCandidates
  eliminated : ∀ e, e ∈ d'.eliminatedCandidates ↔ e ∈ d.eliminatedCandidates

/-- The topology with its nodes listed otherwise. -/
def reordered (topo : HostTopology) (nodes : List NumaNode) : HostTopology := { topo with nodes }

variable {topo : HostTopology} {nodes : List NumaNode} {req : PlacementRequest}
  {model : PlacementModel}

theorem eligible_reordered (req : PlacementRequest) (model : PlacementModel)
    (perm : nodes.Perm topo.nodes) :
    (eligible (reordered topo nodes) req model).Perm (eligible topo req model) :=
  perm.filterMap _

theorem eliminated_reordered (req : PlacementRequest) (model : PlacementModel)
    (perm : nodes.Perm topo.nodes) :
    (eliminated (reordered topo nodes) req model).Perm (eliminated topo req model) :=
  perm.filterMap _

/-- With distinct numbers no two candidates tie, so the ranking is one list. -/
theorem rank_reordered (distinct : (topo.nodes.map (·.id)).Nodup) (perm : nodes.Perm topo.nodes) :
    rank (eligible (reordered topo nodes) req model) = rank (eligible topo req model) := by
  have same := eligible_reordered req model perm
  refine List.Perm.eq_of_pairwise ?_ (pairwise_rank _) (pairwise_rank _)
    (((rank_perm _).trans same).trans (rank_perm _).symm)
  intro a b ha hb ab ba
  rw [mem_rank, same.mem_iff, mem_eligible] at ha
  rw [mem_rank, mem_eligible] at hb
  obtain ⟨x, hx, -, rfl⟩ := ha
  obtain ⟨y, hy, -, rfl⟩ := hb
  have number : x.id = y.id := node_of_candidateKey (le_antisymm ab ba)
  rw [List.inj_on_of_nodup_map distinct hx hy number]

theorem bindingOf_perm {gone gone' : List ByteString} (perm : gone'.Perm gone) :
    bindingOf req gone' = bindingOf req gone := by
  unfold bindingOf
  rw [perm.any_eq]

/-- A choice among candidates looks at the eliminated nodes as a set. -/
theorem choose_reordered {best : CandidateCost} {ranked : List CandidateCost}
    {gone gone' : List ByteString} (perm : gone'.Perm gone) (g : PolicyGeneration) :
    SameDecision
      (choose topo req model best ranked gone
        { policyGeneration := g, rankedCandidates := ranked, eliminatedCandidates := gone })
      (choose (reordered topo nodes) req model best ranked gone'
        { policyGeneration := g, rankedCandidates := ranked, eliminatedCandidates := gone' }) := by
  unfold choose
  dsimp only
  rw [bindingOf_perm perm]
  by_cases refused : ((req.hasRequiredNode || req.requireAcceleratorLocality) &&
    best.node != idealNode best req model) = true
  · rw [if_pos refused, if_pos refused]
    exact ⟨rfl, rfl, rfl, rfl, rfl, rfl, fun e => perm.mem_iff⟩
  · rw [if_neg refused, if_neg refused]
    cases placingKind best.node (idealNode best req model) req <;>
      exact ⟨rfl, rfl, rfl, rfl, rfl, rfl, fun e => perm.mem_iff⟩

/-- The first entry of the eliminated nodes, when no node is left. -/
theorem head_eliminated {n : NumaNode} {rest : List NumaNode} {v : Violation}
    (first : topo.nodes = n :: rest) (fails : evaluateEligibility n req model = some v) :
    (eliminated topo req model).head? = some (eliminationText n.id v) := by
  rw [eliminated_eq, first, List.filterMap_cons_some (by rw [fails]; rfl), List.head?_cons]

/-- What the answer without a candidate says: a required node is blamed first, and then the
first entry. -/
def blame (req : PlacementRequest) (gone : List ByteString) : PlacementDecisionKind × ByteString :=
  if req.hasRequiredNode then (.reject, ascii "required_node")
  else if gone.head?.any fun e => mentions e (ascii "capacity") then (.defer, ascii "capacity")
  else (.reject, gone.head?.getD (ascii "none"))

theorem noCandidate_eq (req : PlacementRequest) (gone : List ByteString) (d : PlacementDecision) :
    ∃ reason wouldChange, noCandidate req gone d =
      { d with
        kind := (blame req gone).1, bindingConstraint := (blame req gone).2
        provenance := .derived (ascii "placement engine"), reason, wouldChange } := by
  unfold noCandidate blame
  dsimp only
  split_ifs
  · exact ⟨_, _, rfl⟩
  · exact ⟨_, _, rfl⟩
  · exact ⟨_, _, rfl⟩

/-- Without a candidate the decisions differ at most in what they blame. -/
theorem noCandidate_reordered {gone gone' : List ByteString} (perm : gone'.Perm gone)
    (g : PolicyGeneration) :
    SameDecision (noCandidate req gone { policyGeneration := g, eliminatedCandidates := gone })
        (noCandidate req gone' { policyGeneration := g, eliminatedCandidates := gone' }) ↔
      blame req gone' = blame req gone := by
  obtain ⟨reason, wouldChange, answer⟩ := noCandidate_eq req gone
    { policyGeneration := g, eliminatedCandidates := gone }
  obtain ⟨reason', wouldChange', answer'⟩ := noCandidate_eq req gone'
    { policyGeneration := g, eliminatedCandidates := gone' }
  rw [answer, answer']
  constructor
  · intro same
    exact Prod.ext same.kind same.binding
  · intro same
    exact ⟨congrArg Prod.fst same, rfl, rfl, congrArg Prod.snd same, rfl, rfl, fun e => perm.mem_iff⟩

/-- The first nodes in the two orders are one node, or neither has the capacity. -/
def FirstAlike (topo : HostTopology) (nodes : List NumaNode) (req : PlacementRequest)
    (model : PlacementModel) : Prop :=
  ∀ n ∈ topo.nodes.head?, ∀ n' ∈ nodes.head?, n' = n ∨
    evaluateEligibility n req model = some .capacity ∧
      evaluateEligibility n' req model = some .capacity

/-- What two eliminated nodes are blamed for, when no node is required. -/
theorem blame_eq_iff {n n' : NumaNodeId} {v v' : Violation} {gone gone' : List ByteString}
    (free : req.hasRequiredNode = false) (first : gone.head? = some (eliminationText n v))
    (first' : gone'.head? = some (eliminationText n' v')) :
    blame req gone' = blame req gone ↔
      n' = n ∧ v' = v ∨ v = .capacity ∧ v' = .capacity := by
  have answer : ∀ {m : NumaNodeId} {u : Violation} {l : List ByteString},
      l.head? = some (eliminationText m u) → blame req l =
        if u = .capacity then (.defer, ascii "capacity") else (.reject, eliminationText m u) := by
    intro m u l head
    simp only [blame, free, Bool.false_eq_true, if_false, head, Option.any_some, mentions_capacity,
      Option.getD_some]
  rw [answer first, answer first']
  by_cases full : v = .capacity
  · by_cases full' : v' = .capacity
    · simp [full, full']
    · simp [full, full']
  · by_cases full' : v' = .capacity
    · simp [full, full', eq_comm]
    · simp [full, full', eliminationText_inj]

theorem blame_reordered (distinct : (topo.nodes.map (·.id)).Nodup) (perm : nodes.Perm topo.nodes)
    (free : req.hasRequiredNode = false)
    (none_left : ∀ n ∈ topo.nodes, evaluateEligibility n req model ≠ none) :
    blame req (eliminated (reordered topo nodes) req model) = blame req (eliminated topo req model) ↔
      FirstAlike topo nodes req model := by
  cases list : topo.nodes with
  | nil =>
    rw [list, List.perm_nil] at perm
    subst perm
    simp [FirstAlike, list, reordered, eliminated]
  | cons n rest =>
    cases list' : nodes with
    | nil =>
      rw [list, list'] at perm
      exact absurd perm.symm List.not_perm_cons_nil
    | cons n' rest' =>
      have mem : n ∈ topo.nodes := by simp [list]
      have mem' : n' ∈ topo.nodes := perm.mem_iff.mp (by simp [list'])
      obtain ⟨v, fails⟩ := Option.ne_none_iff_exists'.mp (none_left n mem)
      obtain ⟨v', fails'⟩ := Option.ne_none_iff_exists'.mp (none_left n' mem')
      have first : (eliminated topo req model).head? = _ := head_eliminated list fails
      have first' : (eliminated (reordered topo (n' :: rest')) req model).head? = _ :=
        head_eliminated rfl fails'
      rw [blame_eq_iff free first first']
      simp only [FirstAlike, list, List.head?_cons, Option.mem_some_iff, forall_eq', fails, fails',
        Option.some.injEq]
      constructor
      · rintro (⟨number, -⟩ | both)
        · exact .inl (List.inj_on_of_nodup_map distinct mem' mem number)
        · exact .inr both
      · rintro (rfl | both)
        · exact .inl ⟨rfl, Option.some.inj (fails'.symm.trans fails)⟩
        · exact .inr both

/-- Without an eligible node the engine answers so. -/
theorem plan_of_none_left (fresh : req.revalidationPending = false)
    (none_left : ∀ n ∈ topo.nodes, evaluateEligibility n req model ≠ none) :
    plan topo req model =
      noCandidate req (eliminated topo req model)
        { policyGeneration := req.policyGeneration
          eliminatedCandidates := eliminated topo req model } := by
  have nothing : rank (eligible topo req model) = [] := by
    rw [List.eq_nil_iff_forall_not_mem]
    intro c hc
    rw [mem_rank, mem_eligible] at hc
    obtain ⟨x, hx, passes, -⟩ := hc
    exact none_left x hx passes
  unfold plan
  simp only [fresh, Bool.false_eq_true, if_false, nothing]

/-- Listing the nodes in another order changes the decision exactly when there is no
candidate, no node is required, and the first nodes are eliminated unlike. -/
theorem order_free_iff (distinct : (topo.nodes.map (·.id)).Nodup) (perm : nodes.Perm topo.nodes) :
    SameDecision (plan topo req model) (plan (reordered topo nodes) req model) ↔
      (req.revalidationPending = false → req.hasRequiredNode = false →
        (∀ n ∈ topo.nodes, evaluateEligibility n req model ≠ none) →
        FirstAlike topo nodes req model) := by
  have gone := eliminated_reordered req model perm
  cases pending : req.revalidationPending with
  | true =>
    constructor
    · intro _ fresh
      cases fresh
    · intro _
      simp only [plan, pending, if_true]
      exact ⟨rfl, rfl, rfl, rfl, rfl, rfl, fun e => Iff.rfl⟩
  | false =>
    by_cases none_left : ∀ n ∈ topo.nodes, evaluateEligibility n req model ≠ none
    · have none_left' : ∀ n ∈ (reordered topo nodes).nodes, evaluateEligibility n req model ≠ none :=
        fun n hn => none_left n (perm.mem_iff.mp hn)
      rw [plan_of_none_left pending none_left, plan_of_none_left pending none_left',
        noCandidate_reordered gone]
      cases free : req.hasRequiredNode with
      | true => simp [blame, free]
      | false =>
        rw [blame_reordered distinct perm free none_left]
        exact ⟨fun h _ _ _ => h, fun h => h rfl rfl none_left⟩
    · refine ⟨fun _ _ _ all => absurd all none_left, fun _ => ?_⟩
      push Not at none_left
      obtain ⟨best, rest, ranked⟩ := exists_best none_left
      simp only [plan, pending, Bool.false_eq_true, if_false, rank_reordered distinct perm, ranked]
      exact choose_reordered gone _

/-- Two eligible nodes may change places. -/
theorem order_free_iff_twins :
    SameDecision (plan twinHost { preferredNode := ⟨2⟩ } smallModel)
      (plan (reordered twinHost [{ id := ⟨2⟩ }, { id := ⟨1⟩ }]) { preferredNode := ⟨2⟩ } smallModel) := by
  refine (order_free_iff (by decide) (List.Perm.swap _ _ _)).mpr fun _ _ none_left => ?_
  exact absurd (by decide) (none_left { id := ⟨1⟩ } (by decide))

/-- One node has too few processors, the other too little memory. The request is rejected or
deferred, as the one or the other comes first. -/
theorem order_decides :
    ¬ ∀ (topo : HostTopology) (nodes : List NumaNode) (req : PlacementRequest)
      (model : PlacementModel), (topo.nodes.map (·.id)).Nodup → nodes.Perm topo.nodes →
      SameDecision (plan topo req model) (plan (reordered topo nodes) req model) := by
  intro free
  have same := free { nodes := [{ id := ⟨2⟩ }, { id := ⟨1⟩, processors := [⟨1⟩] }] }
    [{ id := ⟨1⟩, processors := [⟨1⟩] }, { id := ⟨2⟩ }]
    { requiredCpuCount := 1, memoryFootprint := ⟨100⟩ } smallModel (by decide) (List.Perm.swap _ _ _)
  rw [plan_of_none_left rfl (by decide), plan_of_none_left rfl (by decide)] at same
  exact absurd same.kind (by decide)

end NumaFabric.PlacementDeterminism
