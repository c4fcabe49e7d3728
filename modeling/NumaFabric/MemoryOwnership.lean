import NumaFabric.MigrationCommit
import NumaFabric.TokenOwnership

/-! Who owns a backend allocation: the region that holds it, until it is given back. -/
namespace NumaFabric.MemoryOwnership
open Std FaultState FaultRun LedgerCounter MemoryManager MigrationManager MemoryLedger
  MemoryAccounting MigrationCommit TokenOwnership

variable {β : Type} {b : Backend β} {s : MemoryManager β}

/-- The allocation a region still has to give back. -/
def holding (r : MemoryRegion) : Option ℕ :=
  if r.state.isReleased then none else some r.backendResult.handle

def held (s : MemoryManager β) (id : MemoryRegionId) : Option ℕ := s.regions[id]?.bind holding

/-- Every allocation has one owner, and is given back at most once. -/
def Owned (s : MemoryManager β) : Prop := Sole (held s) s.world.frees s.world.given.length

theorem holding_of_standing {r : MemoryRegion} (standing : r.state.isReleased = false) :
    holding r = some r.backendResult.handle := by
  simp [holding, standing]

theorem held_of_standing {id : MemoryRegionId} {r : MemoryRegion} (found : s.regions[id]? = some r)
    (standing : r.state.isReleased = false) : held s id = some r.backendResult.handle := by
  rw [held, found, Option.bind_some, holding_of_standing standing]

theorem held_insert {t : MemoryManager β} {id : MemoryRegionId} {r : MemoryRegion}
    (regions_eq : t.regions = s.regions.insert id r) :
    held t = Function.update (held s) id (holding r) := by
  funext j
  rw [held, regions_eq, ExtTreeMap.getElem?_insert]
  by_cases same : id = j
  · subst same
    simp
  · have other : ¬ compare id j = .eq := fun h => same (compare_eq_iff_eq.mp h)
    rw [if_neg other, Function.update_of_ne (Ne.symm same), held]

theorem length_given_le (b : Backend β) (spec : AllocationSpec) (w : World β) :
    w.given.length ≤ (stateAfter (World.allocate b spec) w).given.length := by
  cases hc : (b.allocate spec).run (w.backend, w.heap) with
  | error e x => rw [stateAfter_of_error (World.allocate_run_error hc)]
  | ok r x =>
    rw [stateAfter_of_ok (World.allocate_run_ok hc), List.length_append]
    exact Nat.le_add_right _ _

/-- A rewrite that keeps the allocation of a region, or ends the region. -/
theorem Owned.keep (h : Owned s) {t : MemoryManager β} {id : MemoryRegionId} {r r' : MemoryRegion}
    (found : s.regions[id]? = some r) (regions_eq : t.regions = s.regions.insert id r')
    (kept : ∀ k, holding r' = some k → holding r = some k) (frees : t.world.frees = s.world.frees)
    (given : s.world.given.length ≤ t.world.given.length) : Owned t := by
  rw [Owned, held_insert regions_eq, frees]
  refine (h.subset fun j k hk => ?_).mono given
  by_cases same : j = id
  · subst same
    rw [Function.update_self] at hk
    rw [held, found, Option.bind_some]
    exact kept k hk
  · rwa [Function.update_of_ne same] at hk

theorem Owned.world (h : Owned s) {t : MemoryManager β} (regions_eq : t.regions = s.regions)
    (frees : t.world.frees = s.world.frees)
    (given : s.world.given.length ≤ t.world.given.length) : Owned t := by
  have same : held t = held s := by
    funext j
    rw [held, held, regions_eq]
  rw [Owned, same, frees]
  exact h.mono given

theorem Owned.allocate (h : Owned s) (req : AllocateRequest) :
    Owned (stateAfter (MemoryManager.allocate b req) s) := by
  have ho := allocate_outcome b req s
  have grown := length_given_le b req.spec s.world
  have frees := frees_allocate b req.spec s.world
  generalize hres : (MemoryManager.allocate b req).run s = res at ho
  cases ho with
  | zero bad => rw [stateAfter_of_error hres]; exact h
  | exhausted last => rw [stateAfter_of_error hres]; exact h.world rfl frees grown
  | failed g e w nonzero next call =>
    rw [stateAfter_of_ok hres]
    rw [stateAfter_of_error call] at grown frees
    rw [Owned, held_insert rfl, frees]
    exact (h.drop _).mono grown
  | granted g result w nonzero next call r region_eq =>
    rw [stateAfter_of_ok hres]
    obtain ⟨q, x, -, numbered, rfl⟩ := World.allocate_eq_ok call
    have standing : r.state.isReleased = false := by
      rw [region_eq]
      exact grantedRegion_stands _ _ _ _
    have handle : r.backendResult.handle = s.world.given.length + 1 := by
      rw [region_eq]
      exact congrArg AllocationResult.handle numbered
    rw [Owned, held_insert rfl, holding_of_standing standing, handle, List.length_append]
    exact h.issue _

theorem Owned.release (h : Owned s) (id : MemoryRegionId) (expected : Option MemoryGeneration) :
    Owned (stateAfter (MemoryManager.release b id expected) s) := by
  have ho := release_outcome b id expected s
  generalize hres : (MemoryManager.release b id expected).run s = res at ho
  cases ho with
  | unknown absent => rw [stateAfter_of_error hres]; exact h
  | refused r e found bad => rw [stateAfter_of_error hres]; exact h
  | underflow r found good under =>
    rw [stateAfter_of_error hres]
    exact h.world rfl rfl le_rfl
  | released r found good covered =>
    rw [stateAfter_of_ok hres, Owned, held_insert rfl]
    exact h.spend (held_of_standing found (isReleased_of_releaseRefusal good))

theorem Owned.transition (h : Owned s) (id : MemoryRegionId) (next : LifecycleState) :
    Owned (stateAfter (MemoryManager.transition id next) s) := by
  have ho := transition_outcome id next s
  generalize hres : (MemoryManager.transition id next).run s = res at ho
  cases ho with
  | unknown absent => rw [stateAfter_of_error hres]; exact h
  | notGuarded r found bad => rw [stateAfter_of_error hres]; exact h
  | moved r found good =>
    rw [stateAfter_of_ok hres]
    refine h.keep found rfl (fun k hk => ?_) rfl le_rfl
    simp only [holding] at hk
    split_ifs at hk with ended
    rw [← hk]
    exact holding_of_standing (standing_of_canTransition good (Bool.eq_false_iff.mpr ended))

/-- A commit gives the old allocation back and takes the new one. -/
theorem Owned.commit (h : Owned s) {t : MemoryManager β} {id : MemoryRegionId} {r r' : MemoryRegion}
    (found : s.regions[id]? = some r) (standing : r.state.isReleased = false)
    (regions_eq : t.regions = s.regions.insert id r') (standing' : r'.state.isReleased = false)
    (handle : r'.backendResult.handle = s.world.given.length + 1)
    (frees : t.world.frees = s.world.frees ++ [r.backendResult.handle])
    (given : t.world.given.length = s.world.given.length + 1) : Owned t := by
  have moved := (h.spend (held_of_standing found standing)).issue id
  rw [Function.update_idem] at moved
  rw [Owned, held_insert regions_eq, holding_of_standing standing', handle, frees, given]
  exact moved

/-- A migration that gets a buffer finds the bytes of its region on the ledger. -/
def Covered (b : Backend β) (s : MemoryManager β) (id : MemoryRegionId) (target : NumaNodeId) : Prop :=
  ∀ r, s.regions[id]? = some r → migrateRefusal r id = none → ¬Declines b r target s.world →
    underflows r s.nodeUsage = false

theorem not_declines {r : MemoryRegion} {target : NumaNodeId} {result : AllocationResult} {w w' : World β}
    (call : migrationCall b r target w = .ok result w') (usable : result.ok = true) :
    ¬Declines b r target w := by
  intro declined
  rw [declined result w' call] at usable
  cases usable

theorem covered_of_exact (accounts : Exact s) (id : MemoryRegionId) (target : NumaNodeId) :
    Covered b s id target := by
  intro r found good _
  exact accounts.covered found (isLive_of_migrateRefusal good)

theorem Owned.governed (h : Owned s) (id : MemoryRegionId) (target : NumaNodeId) (copyData : Bool)
    (covered : Covered b s id target) :
    Owned (stateAfter (governedReallocate b id target copyData) s) := by
  have ho := governed_outcome b id target copyData s
  generalize hres : (governedReallocate b id target copyData).run s = res at ho
  cases ho with
  | unknown absent => rw [stateAfter_of_error hres]; exact h
  | refused r e found bad => rw [stateAfter_of_error hres]; exact h
  | retained r found good declined =>
    rw [stateAfter_of_ok hres]
    have standing := isReleased_of_migrateRefusal good
    exact h.keep found rfl (fun k hk => (holding_of_standing standing).trans hk)
      (frees_allocate b _ _) (length_given_le b _ _)
  | underflow r result w found good call usable under =>
    rw [covered r found good (not_declines call usable)] at under
    cases under
  | exhausted r result w found good call usable covered last =>
    rw [stateAfter_of_error hres]
    have standing := isReleased_of_migrateRefusal good
    obtain ⟨q, x, -, numbered, rfl⟩ := World.allocate_eq_ok call
    exact h.commit found standing rfl rfl (congrArg AllocationResult.handle numbered)
      (frees_handedOver _ _ _ _ _) (by simp)
  | committed r result w g found good call usable covered next view done =>
    rw [stateAfter_of_ok hres]
    have standing := isReleased_of_migrateRefusal good
    obtain ⟨q, x, -, numbered, rfl⟩ := World.allocate_eq_ok call
    exact h.commit found standing rfl rfl (congrArg AllocationResult.handle numbered)
      (frees_handedOver _ _ _ _ _) (by simp)

theorem held_invalidateLocalityStale : held s.invalidateLocalityStale = held s := by
  funext id
  rw [held, held, MemoryManager.invalidateLocalityStale, ExtTreeMap.getElem?_map]
  cases s.regions[id]? with
  | none => rfl
  | some r =>
    simp only [Option.map_some, Option.bind_some]
    split_ifs <;> rfl

theorem Owned.invalidateLocalityStale (h : Owned s) : Owned s.invalidateLocalityStale := by
  rw [Owned, held_invalidateLocalityStale]
  exact h

theorem step_owned (s : MigrationManager β) (op : Op) (h : Owned s.mem) (accounts : Exact s.mem) :
    Owned (step b s op).mem :=
  op_memory op h h.allocate h.release h.invalidateLocalityStale
    (fun id next _ => h.transition id next)
    (fun _ m _ _ _ => h.governed m.memoryRegion m.targetNode m.copyData (covered_of_exact accounts _ _))

theorem initial_owned (backend : β) (heap : Heap) : Owned (initial backend heap).mem := by
  have nothing : held (initial backend heap).mem = fun _ => none := by
    funext id
    simp [held, initial]
  rw [Owned, nothing]
  exact Sole.empty

/-- The calls that keep the accounts also keep every allocation owned. -/
theorem run_owned (grants : Grants b) (backend : β) (heap : Heap) {ops : List Op}
    (meets : Meets (step b) (fun s op => InRange b s op ∧ Advances b s op) (initial backend heap)
      ops) :
    Exact (MigrationManager.run b backend heap ops).mem ∧
      Owned (MigrationManager.run b backend heap ops).mem := by
  have keep : ∀ (s : MigrationManager β) (op : Op), Exact s.mem ∧ Owned s.mem →
      InRange b s op ∧ Advances b s op → Exact (step b s op).mem ∧ Owned (step b s op).mem :=
    fun s op h cond => ⟨step_exact grants s op h.1 cond, step_owned s op h.2 h.1⟩
  exact foldl_invariant keep ⟨initial_exact backend heap, initial_owned backend heap⟩ meets

end NumaFabric.MemoryOwnership
