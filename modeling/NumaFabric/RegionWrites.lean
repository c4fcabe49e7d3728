import NumaFabric.MigrationOutcome
import NumaFabric.MemoryLedger

/-! What a call of the memory manager writes: at most one region, and how that region comes from the
one it replaces. -/
namespace NumaFabric.RegionWrites
open Std FaultState LedgerCounter MemoryManager MemoryLedger

variable {β : Type} {b : Backend β} {s t : MemoryManager β}

/-- At most one region is written, and the write is one of those described. No generation is taken
from the watermark. -/
inductive Wrote (s t : MemoryManager β) (W : MemoryRegionId → MemoryRegion → Prop) : Prop
  | nothing (same : t.regions = s.regions) (watermark : t.watermark = s.watermark)
  | one (id : MemoryRegionId) (r : MemoryRegion) (written : t.regions = s.regions.insert id r)
      (how : W id r) (watermark : t.watermark = s.watermark)

theorem Wrote.watermark {W : MemoryRegionId → MemoryRegion → Prop} (h : Wrote s t W) :
    t.watermark = s.watermark := by
  cases h with
  | nothing same watermark => exact watermark
  | one id r written how watermark => exact watermark

/-- A property that a region keeps unless it is written, and that every write of it restores. -/
theorem Wrote.kept {W : MemoryRegionId → MemoryRegion → Prop} (h : Wrote s t W)
    {P : MemoryRegion → Prop} {id : MemoryRegionId} (before : ∃ r, s.regions[id]? = some r ∧ P r)
    (restored : ∀ r, W id r → P r) : ∃ r, t.regions[id]? = some r ∧ P r := by
  cases h with
  | nothing same _ => rwa [same]
  | one j r written how _ =>
    rw [written, ExtTreeMap.getElem?_insert]
    split_ifs with here
    · obtain rfl := Std.compare_eq_iff_eq.mp here
      exact ⟨r, rfl, restored r how⟩
    · exact before

/-- A call that records a region takes its number and its generation off the counters. -/
theorem allocate_writes (numbered : Numbered s) (req : AllocateRequest) :
    ((stateAfter (allocate b req) s).regions = s.regions ∧
        (stateAfter (allocate b req) s).watermark = s.watermark) ∨
      ∃ r, s.regions[(⟨s.nextId⟩ : MemoryRegionId)]? = none ∧ s.watermark.next = .ok r.generation ∧
        (stateAfter (allocate b req) s).watermark = r.generation ∧
        (stateAfter (allocate b req) s).regions = s.regions.insert ⟨s.nextId⟩ r := by
  have ho := allocate_outcome b req s
  generalize hres : (allocate b req).run s = res at ho
  cases ho with
  | zero bad =>
    rw [stateAfter_of_error hres]
    exact .inl ⟨rfl, rfl⟩
  | exhausted last =>
    rw [stateAfter_of_error hres]
    exact .inl ⟨rfl, rfl⟩
  | failed g e w nonzero next call =>
    rw [stateAfter_of_ok hres]
    exact .inr ⟨_, numbered.fresh next, next, rfl, rfl⟩
  | granted g result w nonzero next call r region_eq =>
    rw [stateAfter_of_ok hres]
    subst region_eq
    exact .inr ⟨_, numbered.fresh next, next, rfl, rfl⟩

theorem wrote_release (id : MemoryRegionId) (expected : Option MemoryGeneration) :
    Wrote s (stateAfter (release b id expected) s) fun j r' =>
      ∃ r, s.regions[j]? = some r ∧ r' = { r with state := .released, localityCurrent := false } := by
  have ho := release_outcome b id expected s
  generalize hres : (release b id expected).run s = res at ho
  cases ho with
  | unknown absent =>
    rw [stateAfter_of_error hres]
    exact .nothing rfl rfl
  | refused r e found bad =>
    rw [stateAfter_of_error hres]
    exact .nothing rfl rfl
  | underflow r found good under =>
    rw [stateAfter_of_error hres]
    exact .nothing rfl rfl
  | released r found good covered =>
    rw [stateAfter_of_ok hres]
    exact .one _ _ rfl ⟨r, found, rfl⟩ rfl

theorem wrote_transition (id : MemoryRegionId) (next : LifecycleState) :
    Wrote s (stateAfter (transition id next) s) fun j r' =>
      j = id ∧ ∃ r, s.regions[j]? = some r ∧ r' = { r with state := next } := by
  have ho := transition_outcome id next s
  generalize hres : (transition id next).run s = res at ho
  cases ho with
  | unknown absent =>
    rw [stateAfter_of_error hres]
    exact .nothing rfl rfl
  | notGuarded r found bad =>
    rw [stateAfter_of_error hres]
    exact .nothing rfl rfl
  | moved r found good =>
    rw [stateAfter_of_ok hres]
    exact .one _ _ rfl ⟨rfl, r, found, rfl⟩ rfl

/-- The reallocation goes through: the region is pending and charged, the backend hands out a buffer,
and the generation of the region is not the last. -/
def Commits (b : Backend β) (s : MemoryManager β) (id : MemoryRegionId) (target : NumaNodeId) : Prop :=
  ∃ r, s.regions[id]? = some r ∧ r.state = .migrationPending ∧ ¬ Declines b r target s.world ∧
    underflows r s.nodeUsage = false ∧ r.generation.value ≠ u64Max

theorem migrateRefusal_of_pending {r : MemoryRegion} {id : MemoryRegionId}
    (pending : r.state = .migrationPending) : migrateRefusal r id = none := by
  simp [migrateRefusal, pending, LifecycleState.isReleased, canTransition]

/-- A reallocation reports a commit exactly when it goes through. -/
theorem governed_committed_iff (id : MemoryRegionId) (target : NumaNodeId) (copyData : Bool) :
    (∃ view t, (governedReallocate b id target copyData).run s = .ok view t ∧ view.committed = true) ↔
      Commits b s id target := by
  have ho := governed_outcome b id target copyData s
  generalize hres : (governedReallocate b id target copyData).run s = res at ho
  constructor
  · rintro ⟨view, t, rfl, committed⟩
    cases ho with
    | retained r found good declined => cases committed
    | committed r result w g found good call usable covered next view done =>
      refine ⟨r, found, pending_of_migrateRefusal good, ?_, covered, Generation.ne_max_of_next next⟩
      intro declines
      rw [declines result w call] at usable
      cases usable
  · rintro ⟨r, there, pending, grants, covers, more⟩
    cases ho with
    | unknown absent =>
      rw [absent] at there
      cases there
    | refused q e found bad =>
      cases there.symm.trans found
      rw [migrateRefusal_of_pending pending] at bad
      cases bad
    | retained q found good declined =>
      cases there.symm.trans found
      exact absurd declined grants
    | underflow q result w found good call usable under =>
      cases there.symm.trans found
      rw [under] at covers
      cases covers
    | exhausted q result w found good call usable covered last =>
      cases there.symm.trans found
      exact absurd last more
    | committed q result w g found good call usable covered next view done =>
      exact ⟨view, _, rfl, done⟩

/-- How a reallocation writes the region it is about. Only a commit advances the generation. -/
inductive Reallocated (committed : Prop) (r r' : MemoryRegion) : Prop
  | kept (state : r'.state = .active ∨ r'.state = .migrating) (same : r'.generation = r.generation)
  | committed (commits : committed) (state : r'.state = .rebound)
      (next : r.generation.next = .ok r'.generation)

theorem wrote_governed (id : MemoryRegionId) (target : NumaNodeId) (copyData : Bool) :
    Wrote s (stateAfter (governedReallocate b id target copyData) s) fun j r' =>
      j = id ∧ ∃ r, s.regions[j]? = some r ∧ r.state = .migrationPending ∧
        Reallocated (Commits b s id target) r r' := by
  have ho := governed_outcome b id target copyData s
  generalize hres : (governedReallocate b id target copyData).run s = res at ho
  cases ho with
  | unknown absent =>
    rw [stateAfter_of_error hres]
    exact .nothing rfl rfl
  | refused r e found bad =>
    rw [stateAfter_of_error hres]
    exact .nothing rfl rfl
  | retained r found good declined =>
    rw [stateAfter_of_ok hres]
    exact .one _ _ rfl ⟨rfl, r, found, pending_of_migrateRefusal good, .kept (.inl rfl) rfl⟩ rfl
  | underflow r result w found good call usable under =>
    rw [stateAfter_of_error hres]
    exact .one _ _ rfl ⟨rfl, r, found, pending_of_migrateRefusal good, .kept (.inr rfl) rfl⟩ rfl
  | exhausted r result w found good call usable covered last =>
    rw [stateAfter_of_error hres]
    exact .one _ _ rfl ⟨rfl, r, found, pending_of_migrateRefusal good, .kept (.inr rfl) rfl⟩ rfl
  | committed r result w g found good call usable covered next view done =>
    have commits := (governed_committed_iff id target copyData).mp ⟨view, _, hres, done⟩
    rw [stateAfter_of_ok hres]
    exact .one _ _ rfl ⟨rfl, r, found, pending_of_migrateRefusal good, .committed commits rfl next⟩ rfl

theorem governed_commits {id : MemoryRegionId} {target : NumaNodeId} (h : Commits b s id target)
    (copyData : Bool) :
    ∃ r r', s.regions[id]? = some r ∧ r.generation.next = .ok r'.generation ∧
      (stateAfter (governedReallocate b id target copyData) s).regions = s.regions.insert id r' ∧
      (stateAfter (governedReallocate b id target copyData) s).watermark = s.watermark := by
  obtain ⟨view, t, hres, committed⟩ := (governed_committed_iff id target copyData).mpr h
  have ho := governed_outcome b id target copyData s
  rw [stateAfter_of_ok hres]
  rw [hres] at ho
  cases ho with
  | retained r found good declined => cases committed
  | committed r result w g found good call usable covered next view done =>
    exact ⟨r, rebound r result target g, found, next, rfl, rfl⟩

end NumaFabric.RegionWrites
