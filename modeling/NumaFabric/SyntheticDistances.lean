import NumaFabric.SyntheticBackend

/-! Two definitions of the cost between nodes: the one that is configured, and the one the planner
is given. The planner never asks for the configured one. -/
namespace NumaFabric.SyntheticDistances
open FaultState NumaFabric.Runtime SyntheticConfig

variable {cfg : SyntheticConfig}

/-- There is no matrix, or it has a row and a column for each node. -/
def Shaped (cfg : SyntheticConfig) : Prop :=
  cfg.distances = [] ∨ cfg.distances.length = cfg.nodeCount.toNat ∧
    ∀ row ∈ cfg.distances, row.length = cfg.nodeCount.toNat

/-- How far apart two nodes are numbered. -/
def gap (i j : ℕ) : ℕ := (i - j) + (j - i)

/-- Without a matrix there are no more than two nodes, and a matrix has the costs the planner computes
from the numbers of the nodes. -/
def Regular (cfg : SyntheticConfig) : Prop :=
  (cfg.distances = [] → cfg.nodeCount.toNat ≤ 2) ∧
    ∀ i j row cost, cfg.distances[i]? = some row → row[j]? = some cost → i ≠ j →
      cost.value.toNat = 40 * gap i j + 60

theorem toNat_sub_one {n : NumaNodeId} (inRange : InRange cfg n) :
    (n.value - 1).toNat + 1 = n.value.toNat := by
  obtain ⟨positive, -⟩ := inRange
  have := n.value.isLt
  rw [BitVec.toNat_sub]
  simp only [BitVec.reduceToNat, BitVec.ofNat_eq_ofNat]
  omega

/-- The planner's cost of two different nodes. -/
theorem toNat_distance {a b : NumaNodeId} (ha : InRange cfg a) (hb : InRange cfg b) (ne : a ≠ b) :
    (Runtime.distance .synthetic a b).value.toNat = 40 * gap a.value.toNat b.value.toNat + 60 := by
  have small := cfg.nodeCount.isLt
  obtain ⟨-, ha⟩ := ha
  obtain ⟨-, hb⟩ := hb
  unfold Runtime.distance gap
  simp only [ne, if_false]
  split_ifs with below
  · rw [BitVec.lt_def] at below
    have diff : (a.value - b.value).toNat = a.value.toNat - b.value.toNat :=
      BitVec.toNat_sub_of_le (BitVec.le_def.mpr below.le)
    rw [BitVec.toNat_add, BitVec.toNat_mul, diff]
    simp only [BitVec.reduceToNat, BitVec.ofNat_eq_ofNat]
    omega
  · rw [BitVec.lt_def, Nat.not_lt] at below
    have diff : (b.value - a.value).toNat = b.value.toNat - a.value.toNat :=
      BitVec.toNat_sub_of_le (BitVec.le_def.mpr below)
    rw [BitVec.toNat_add, BitVec.toNat_mul, diff]
    simp only [BitVec.reduceToNat, BitVec.ofNat_eq_ofNat]
    omega

/-- Without a matrix all nodes are equally far from each other. -/
theorem distance_uniform {a b : NumaNodeId} (none : cfg.distances = []) (ne : a ≠ b) :
    cfg.distance a b = ⟨100⟩ := by
  simp [SyntheticConfig.distance, ne, none]

/-- With one, the cost is the entry of the two nodes. -/
theorem distance_entry {i j : ℕ} {row : List LocalityCost} {cost : LocalityCost}
    (length : cfg.distances.length = cfg.nodeCount.toNat) (hi : i < cfg.nodeCount.toNat)
    (hj : j < cfg.nodeCount.toNat) (ne : i ≠ j) (hrow : cfg.distances[i]? = some row)
    (hcost : row[j]? = some cost) : cfg.distance (nodeId i) (nodeId j) = cost := by
  have filled : cfg.distances.isEmpty = false := by
    rw [List.isEmpty_eq_false_iff]
    rintro none
    rw [none] at hrow
    cases hrow
  have first := toNat_sub_one (inRange_nodeId hi)
  have second := toNat_sub_one (inRange_nodeId hj)
  rw [toNat_nodeId hi] at first
  rw [toNat_nodeId hj] at second
  unfold SyntheticConfig.distance
  rw [if_neg ((nodeId_inj hi hj).not.mpr ne), toNat_nodeId hi, toNat_nodeId hj, length, if_pos]
  · rw [Nat.add_right_cancel first, Nat.add_right_cancel second, hrow, Option.bind_some, hcost,
      Option.getD_some]
  · simp only [filled, Bool.not_false, Bool.true_and, Bool.and_eq_true, decide_eq_true_eq]
    omega

/-- The two costs of two different nodes. -/
def SameCost (cfg : SyntheticConfig) (i j : ℕ) : Prop :=
  Runtime.distance .synthetic (nodeId i) (nodeId j) = cfg.distance (nodeId i) (nodeId j)

theorem gap_succ (i j : ℕ) : gap (i + 1) (j + 1) = gap i j := by
  unfold gap
  omega

theorem sameCost_iff {i j : ℕ} (hi : i < cfg.nodeCount.toNat) (hj : j < cfg.nodeCount.toNat)
    (ne : i ≠ j) {cost : LocalityCost} (entry : cfg.distance (nodeId i) (nodeId j) = cost) :
    SameCost cfg i j ↔ cost.value.toNat = 40 * gap i j + 60 := by
  have planned := toNat_distance (inRange_nodeId hi) (inRange_nodeId hj) ((nodeId_inj hi hj).not.mpr ne)
  rw [toNat_nodeId hi, toNat_nodeId hj, gap_succ] at planned
  rw [SameCost, entry, ← planned]
  constructor
  · intro same
    rw [same]
  · intro same
    exact congrArg Quantity.mk (BitVec.eq_of_toNat_eq same.symm)

/-- The two costs of every two different nodes of the host. -/
def SameCosts (cfg : SyntheticConfig) : Prop :=
  ∀ i j, i < cfg.nodeCount.toNat → j < cfg.nodeCount.toNat → i ≠ j → SameCost cfg i j

/-- A uniform cost is the planner's between neighbours only. -/
theorem sameCosts_uniform (none : cfg.distances = []) :
    SameCosts cfg ↔ cfg.nodeCount.toNat ≤ 2 := by
  have judged {i j : ℕ} (hi : i < cfg.nodeCount.toNat) (hj : j < cfg.nodeCount.toNat) (ne : i ≠ j) :
      SameCost cfg i j ↔ gap i j = 1 := by
    rw [sameCost_iff hi hj ne (distance_uniform none ((nodeId_inj hi hj).not.mpr ne))]
    simp only [BitVec.reduceToNat, BitVec.ofNat_eq_ofNat]
    omega
  constructor
  · intro all
    by_contra more
    have far := (judged (i := 0) (j := 2) (by omega) (by omega) (by omega)).mp
      (all 0 2 (by omega) (by omega) (by omega))
    exact absurd far (by decide)
  · intro few i j hi hj ne
    rw [judged hi hj ne]
    unfold gap
    omega

/-- With a matrix the costs are compared entry by entry. -/
theorem sameCosts_matrix (length : cfg.distances.length = cfg.nodeCount.toNat)
    (rows : ∀ row ∈ cfg.distances, row.length = cfg.nodeCount.toNat) :
    SameCosts cfg ↔ ∀ i j row cost, cfg.distances[i]? = some row → row[j]? = some cost → i ≠ j →
      cost.value.toNat = 40 * gap i j + 60 := by
  constructor
  · intro all i j row cost hrow hcost ne
    have wide := rows row (List.mem_of_getElem? hrow)
    have hi := (List.getElem?_eq_some_iff.mp hrow).1
    have hj := (List.getElem?_eq_some_iff.mp hcost).1
    rw [length] at hi
    rw [wide] at hj
    exact (sameCost_iff hi hj ne (distance_entry length hi hj ne hrow hcost)).mp (all i j hi hj ne)
  · intro regular i j hi hj ne
    have hrow : cfg.distances[i]? = some cfg.distances[i] := List.getElem?_eq_getElem (by omega)
    have wide := rows _ (List.mem_of_getElem? hrow)
    have hcost : cfg.distances[i][j]? = some cfg.distances[i][j] := List.getElem?_eq_getElem (by omega)
    exact (sameCost_iff hi hj ne (distance_entry length hi hj ne hrow hcost)).mpr
      (regular i j _ _ hrow hcost ne)

/-- The costs agree on all nodes exactly when they are regular. -/
theorem sameCosts_iff (shaped : Shaped cfg) : SameCosts cfg ↔ Regular cfg := by
  rcases shaped with none | ⟨length, rows⟩
  · rw [sameCosts_uniform none]
    constructor
    · intro few
      exact ⟨fun _ => few, fun i j row cost hrow => by simp [none] at hrow⟩
    · rintro ⟨few, -⟩
      exact few none
  · rw [sameCosts_matrix length rows]
    constructor
    · intro regular
      exact ⟨fun none => by simp [← length, none], regular⟩
    · rintro ⟨-, regular⟩
      exact regular

section Planner
variable {float : FloatCosts} {s : Runtime SyntheticBackend} {model : PlacementModel}

theorem model_distance {b : Backend SyntheticBackend} (built : buildPlacementModel b float s = .ok model) :
    model.distance = Runtime.distance b.kind := by
  unfold buildPlacementModel at built
  cases reserved : s.reservedCapacity with
  | error e =>
    rw [reserved] at built
    cases built
  | ok m =>
    rw [reserved] at built
    cases built
    rfl

/-- The planner's costs of the discovered nodes are the configured ones exactly when these are
regular. -/
theorem planned_distance_iff (shaped : Shaped cfg)
    (built : buildPlacementModel (SyntheticBackend.backend cfg) float s = .ok model) :
    (∀ a b, InRange cfg a → InRange cfg b → model.distance a b = cfg.distance a b) ↔ Regular cfg := by
  rw [model_distance built, ← sameCosts_iff shaped]
  constructor
  · intro agree i j hi hj _
    exact agree _ _ (inRange_nodeId hi) (inRange_nodeId hj)
  · intro all a b ha hb
    obtain ⟨i, hi, rfl⟩ := nodeId_of_inRange ha
    obtain ⟨j, hj, rfl⟩ := nodeId_of_inRange hb
    by_cases ne : i = j
    · subst ne
      simp [Runtime.distance, SyntheticConfig.distance]
    · exact all i j hi hj ne

end Planner

/-- Two nodes without a matrix. -/
theorem planned_distance_iff_two_nodes :
    ∃ model, buildPlacementModel (SyntheticBackend.backend {}) ⟨fun _ _ => 0, fun _ => 0⟩
        (create ({} : SyntheticBackend) fun _ => 0) = .ok model ∧
      ∀ a b, InRange {} a → InRange {} b → model.distance a b = ({} : SyntheticConfig).distance a b := by
  have built : ∃ model, buildPlacementModel (SyntheticBackend.backend {}) ⟨fun _ _ => 0, fun _ => 0⟩
      (create ({} : SyntheticBackend) fun _ => 0) = .ok model := ⟨_, rfl⟩
  obtain ⟨model, built⟩ := built
  refine ⟨model, built, (planned_distance_iff (.inl rfl) built).mpr ⟨fun _ => by decide, ?_⟩⟩
  intro i j row cost hrow
  cases hrow

/-- Three nodes without a matrix: the first and the third are planned at 140, and configured at 100. -/
theorem third_node_too_far :
    ¬ ∀ (cfg : SyntheticConfig) (float : FloatCosts) (s : Runtime SyntheticBackend)
      (model : PlacementModel), Shaped cfg →
      buildPlacementModel (SyntheticBackend.backend cfg) float s = .ok model →
      ∀ a b, InRange cfg a → InRange cfg b → model.distance a b = cfg.distance a b := by
  intro agrees
  have same := agrees { nodeCount := 3 } ⟨fun _ _ => 0, fun _ => 0⟩
    (create ({} : SyntheticBackend) fun _ => 0) _ (.inl rfl) rfl ⟨1⟩ ⟨3⟩
    ⟨by decide, by decide⟩ ⟨by decide, by decide⟩
  exact absurd same (by decide)

end NumaFabric.SyntheticDistances
