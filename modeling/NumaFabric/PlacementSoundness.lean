import NumaFabric.PlacementChoice

/-! The engine against its hard constraints: which placements satisfy them in exact
arithmetic, and which satisfiable requests are placed. -/
namespace NumaFabric.PlacementSoundness
open Std PlacementEngine PlacementChoice

section Sound
variable (topo : HostTopology) (req : PlacementRequest) (model : PlacementModel)

/-- The capacity of a node in the model, zero when it has none. -/
def capacityOf (n : NumaNodeId) : U64 := (model.nodeCapacity[n]?.getD .zero).value

def reservedOn (n : NumaNodeId) : U64 := (model.reservedCapacity[n]?.getD .zero).value

/-- Every hard constraint of the request, on a node of the topology. The bytes are added
without a bound. -/
structure Satisfies (node : NumaNode) : Prop where
  required : req.hasRequiredNode = true → node.id = req.requiredNode
  accelerator : req.requireAcceleratorLocality = true → req.preferredAccelerator.isValid = true →
    ∃ loc, model.acceleratorLocality[req.preferredAccelerator]? = some loc ∧
      loc.localNode.isValid = true ∧ loc.localNode = node.id
  processors : req.requiredCpuCount.toNat ≤ node.processorCount
  capacity : capacityOf model node.id ≠ 0 →
    req.memoryFootprint.value.toNat + (reservedOn model node.id).toNat ≤
      (capacityOf model node.id).toNat

/-- The needed bytes of a limited node fit the word they are added up in. -/
def SumFits (n : NumaNodeId) : Prop :=
  capacityOf model n ≠ 0 → req.memoryFootprint.value.toNat + (reservedOn model n).toNat < 2 ^ 64

variable {topo req model}

theorem acceleratorViolation_eq_none {n : NumaNodeId} :
    acceleratorViolation n req model = none ↔
      (req.requireAcceleratorLocality = true → req.preferredAccelerator.isValid = true →
        ∃ loc, model.acceleratorLocality[req.preferredAccelerator]? = some loc ∧
          loc.localNode.isValid = true ∧ loc.localNode = n) := by
  unfold acceleratorViolation
  by_cases required : (req.requireAcceleratorLocality && req.preferredAccelerator.isValid) = true
  · rw [if_pos required]
    rw [Bool.and_eq_true] at required
    simp only [required, forall_const]
    cases model.acceleratorLocality[req.preferredAccelerator]? with
    | none => simp
    | some loc =>
      dsimp only
      split_ifs with invalid other <;> simp_all
  · rw [if_neg required]
    rw [Bool.and_eq_true, not_and] at required
    simp only [true_iff]
    intro locality valid
    exact absurd valid (required locality)

/-- What the eligibility test establishes; the bytes are added modulo the word. -/
theorem evaluateEligibility_eq_none {node : NumaNode} :
    evaluateEligibility node req model = none ↔
      (req.hasRequiredNode = true → node.id = req.requiredNode) ∧
      acceleratorViolation node.id req model = none ∧
      req.requiredCpuCount.toNat ≤ node.processorCount ∧
      (capacityOf model node.id ≠ 0 →
        req.memoryFootprint.value + reservedOn model node.id ≤ capacityOf model node.id) := by
  unfold evaluateEligibility capacityOf reservedOn
  by_cases elsewhere : (req.hasRequiredNode && node.id != req.requiredNode) = true
  · rw [if_pos elsewhere]
    rw [Bool.and_eq_true, bne_iff_ne] at elsewhere
    simp [elsewhere]
  · rw [if_neg elsewhere]
    rw [Bool.and_eq_true, bne_iff_ne, not_and, not_not] at elsewhere
    cases acceleratorViolation node.id req model with
    | some v => simp
    | none =>
      dsimp only
      split_ifs with few full
      · simp only [Bool.and_eq_true, bne_iff_ne, decide_eq_true_eq] at few
        simp [Nat.not_le.mpr few.2]
      · simp only [Bool.and_eq_true, bne_iff_ne, decide_eq_true_eq] at full
        simp only [false_iff]
        rintro ⟨-, -, -, fits⟩
        exact absurd (fits full.1) (BitVec.not_le.mpr full.2)
      · simp only [Bool.and_eq_true, bne_iff_ne, decide_eq_true_eq, not_and, Nat.not_lt] at few full
        simp only [true_iff]
        refine ⟨elsewhere, trivial, ?_, fun h => BitVec.not_lt.mp (full h)⟩
        by_cases none : req.requiredCpuCount = 0
        · simp [none]
        · exact few none

/-- An eligible node satisfies the constraints if its needed bytes are added without a wrap. -/
theorem satisfies_iff {node : NumaNode} (passes : evaluateEligibility node req model = none) :
    Satisfies req model node ↔ SumFits req model node.id := by
  obtain ⟨required, accelerator, processors, capacity⟩ := evaluateEligibility_eq_none.mp passes
  constructor
  · intro satisfies limited
    have fits := satisfies.capacity limited
    have bound := (capacityOf model node.id).isLt
    omega
  · intro fits
    refine ⟨required, acceleratorViolation_eq_none.mp accelerator, processors, fun limited => ?_⟩
    have below : _ ≤ _ := capacity limited
    rwa [BitVec.le_def, BitVec.toNat_add, Nat.mod_eq_of_lt (fits limited)] at below

/-- A placement goes to a node of the topology that satisfies every hard constraint. -/
def Sound (topo : HostTopology) (req : PlacementRequest) (model : PlacementModel) : Prop :=
  (plan topo req model).kind.places = true →
    ∃ node ∈ topo.nodes, node.id = (plan topo req model).selectedNode ∧ Satisfies req model node

/-- The engine is sound for a request exactly when the needed bytes of the cheapest node are
added without a wrap, should the request take that node. -/
theorem sound_iff :
    Sound topo req model ↔
      (req.revalidationPending = false → ∀ n, Cheapest topo req model n → Accepts req model n →
        SumFits req model n) := by
  unfold Sound
  rw [plan_places]
  constructor
  · intro sound fresh n cheapest accepts
    obtain ⟨node, mem, selected, satisfies⟩ := sound ⟨fresh, n, cheapest, accepts⟩
    rw [plan_selected fresh cheapest] at selected
    subst selected
    intro limited
    have bound := (capacityOf model node.id).isLt
    have fits := satisfies.capacity limited
    omega
  · rintro fits ⟨fresh, n, cheapest, accepts⟩
    obtain ⟨node, mem, rfl, passes⟩ := cheapest.eligible
    exact ⟨node, mem, (plan_selected fresh cheapest).symm,
      (satisfies_iff passes).mpr (fits fresh node.id cheapest accepts)⟩

end Sound

/-- One node of 64 bytes, in a model that has two bytes of it reserved. -/
def smallHost : HostTopology := { nodes := [{ id := ⟨1⟩, memoryCapacity := ⟨64⟩ }] }

def smallModel : PlacementModel where
  nodeCapacity := (∅ : ExtTreeMap NumaNodeId Capacity).insert ⟨1⟩ ⟨64⟩
  reservedCapacity := (∅ : ExtTreeMap NumaNodeId Bytes).insert ⟨1⟩ ⟨2⟩
  float := ⟨fun _ _ => 0, fun _ => 0⟩

/-- A footprint of the largest word and two bytes more wrap to one byte. -/
theorem wrapped_need_is_placed :
    ¬ ∀ (topo : HostTopology) (req : PlacementRequest) (model : PlacementModel),
      Sound topo req model := by
  intro sound
  have passes : evaluateEligibility { id := ⟨1⟩, memoryCapacity := ⟨64⟩ }
      { memoryFootprint := ⟨BitVec.allOnes 64⟩ } smallModel = none := by decide
  have cheapest : Cheapest smallHost { memoryFootprint := ⟨BitVec.allOnes 64⟩ } smallModel ⟨1⟩ := by
    refine ⟨⟨_, List.mem_singleton.mpr rfl, rfl, passes⟩, fun x hx _ => ?_⟩
    rw [List.mem_singleton.mp hx]
  have accepts : Accepts { memoryFootprint := ⟨BitVec.allOnes 64⟩ } smallModel ⟨1⟩ :=
    ⟨fun _ => rfl, .inr rfl⟩
  obtain ⟨node, mem, -, satisfies⟩ := sound smallHost { memoryFootprint := ⟨BitVec.allOnes 64⟩ } smallModel
    (plan_places.mpr ⟨rfl, _, cheapest, accepts⟩)
  rw [List.mem_singleton.mp mem] at satisfies
  exact absurd (satisfies.capacity (by decide)) (by decide)

section Complete
variable (topo : HostTopology) (req : PlacementRequest) (model : PlacementModel)

/-- The request is placed on its cheapest node. -/
def Complete : Prop :=
  (plan topo req model).kind.places = true ∧
    Cheapest topo req model (plan topo req model).selectedNode

variable {topo req model}

/-- A satisfiable request with fallback is placed on its cheapest node exactly when it has no
hard locality requirement or its soft fields ask for that very node, if for any. -/
theorem complete_iff (fresh : req.revalidationPending = false) (fallback : req.allowFallback = true)
    (satisfiable : ∃ node ∈ topo.nodes, evaluateEligibility node req model = none) :
    Complete topo req model ↔
      ((req.hasRequiredNode || req.requireAcceleratorLocality) = true →
        ∀ n, Cheapest topo req model n → n = ideal req model n) := by
  obtain ⟨best, rest, ranked⟩ := exists_best satisfiable
  have cheapest := cheapest_of_rank ranked
  unfold Complete
  rw [plan_places, plan_selected fresh cheapest]
  constructor
  · rintro ⟨⟨-, m, other, accepts⟩, -⟩ hard n same
    rw [same.unique other]
    exact accepts.1 hard
  · intro wanted
    refine ⟨⟨fresh, best.node, cheapest, fun hard => ?_, .inr fallback⟩, cheapest⟩
    exact wanted hard best.node cheapest

end Complete

/-- Two nodes that differ in their numbers only. -/
def twinHost : HostTopology := { nodes := [{ id := ⟨1⟩ }, { id := ⟨2⟩ }] }

theorem complete_iff_required_node :
    Complete twinHost { requiredNode := ⟨2⟩, hasRequiredNode := true } smallModel := by
  refine (complete_iff rfl rfl ⟨{ id := ⟨2⟩ }, by decide, by decide⟩).mpr fun _ n _ => ?_
  rfl

/-- The second node is required and eligible, the first merely preferred; the request is
rejected. -/
theorem preference_defeats_required_node :
    ¬ ∀ (topo : HostTopology) (req : PlacementRequest) (model : PlacementModel),
      (topo.nodes.map (·.id)).Nodup → req.revalidationPending = false → req.allowFallback = true →
      (∃ node ∈ topo.nodes, evaluateEligibility node req model = none) →
      Complete topo req model := by
  intro complete
  obtain ⟨places, -⟩ := complete twinHost
    { preferredNode := ⟨1⟩, requiredNode := ⟨2⟩, hasRequiredNode := true } smallModel
    (by decide) rfl rfl ⟨{ id := ⟨2⟩ }, by decide, by decide⟩
  obtain ⟨-, n, cheapest, accepts⟩ := plan_places.mp places
  obtain ⟨x, hx, rfl, passes⟩ := cheapest.eligible
  obtain ⟨required, -⟩ := evaluateEligibility_eq_none.mp passes
  have first : x.id = ⟨1⟩ := accepts.1 rfl
  exact absurd (first.symm.trans (required rfl)) (by decide)

end NumaFabric.PlacementSoundness
