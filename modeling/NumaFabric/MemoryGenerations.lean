import NumaFabric.LifecycleConformance
import NumaFabric.RegionWrites

/-! The generations of memory regions. An allocation takes the next one off the watermark; a
migration advances the region's own and leaves the watermark where it is. -/
namespace NumaFabric.MemoryGenerations
open Std FaultState FaultRun LedgerCounter MemoryManager MemoryLedger RegionWrites
open LifecycleConformance
open MigrationManager hiding step run

variable {β : Type} {b : Backend β} {s t : MemoryManager β}

/-- No generation is above the watermark, and no two regions share one. -/
structure Watermarked (s : MemoryManager β) : Prop where
  bounded : ∀ (id : MemoryRegionId) r, s.regions[id]? = some r →
    r.generation.value.toNat ≤ s.watermark.value.toNat
  distinct : ∀ (id id' : MemoryRegionId) r r', s.regions[id]? = some r → s.regions[id']? = some r' →
    r.generation = r'.generation → id = id'

/-- A region has the generation that it did not have before. -/
def Issues (s t : MemoryManager β) (g : MemoryGeneration) : Prop :=
  ∃ (id : MemoryRegionId) (r : MemoryRegion), t.regions[id]? = some r ∧ r.generation = g ∧
    ∀ q, s.regions[id]? = some q → q.generation ≠ g

/-- Each region has the number of its allocation as its generation, and all numbers up to the
watermark are taken. -/
structure Counted (s : MemoryManager β) : Prop where
  numbered : Numbered s
  same : ∀ (id : MemoryRegionId) r, s.regions[id]? = some r → r.generation.value = id.value
  complete : ∀ id : MemoryRegionId, 0 < id.value.toNat →
    id.value.toNat ≤ s.watermark.value.toNat → ∃ r, s.regions[id]? = some r

theorem Counted.watermarked (h : Counted s) : Watermarked s where
  bounded id r found := by
    rw [h.same id r found]
    exact h.numbered.issued id r found
  distinct id id' r r' found found' eq := by
    have values : id.value = id'.value := by
      rw [← h.same id r found, ← h.same id' r' found', eq]
    cases id
    cases id'
    exact congrArg Id.mk values

section Advance

/-- What a call does to the generations when no migration commits. -/
inductive Advance (s t : MemoryManager β) : Prop
  | still (watermark : t.watermark = s.watermark)
      (regions : ∀ id : MemoryRegionId,
        t.regions[id]?.map (·.generation) = s.regions[id]?.map (·.generation))
  | allocated (r : MemoryRegion) (next : s.watermark.next = .ok r.generation)
      (watermark : t.watermark = r.generation) (regions : t.regions = s.regions.insert ⟨s.nextId⟩ r)

theorem still_of_wrote {W : MemoryRegionId → MemoryRegion → Prop} (h : Wrote s t W)
    (keeps : ∀ id r', W id r' → ∃ r, s.regions[id]? = some r ∧ r'.generation = r.generation) :
    Advance s t := by
  refine .still h.watermark ?_
  intro id
  cases h with
  | nothing same _ => rw [same]
  | one j r' written how _ =>
    rw [written, ExtTreeMap.getElem?_insert]
    split_ifs with here
    · obtain rfl := Std.compare_eq_iff_eq.mp here
      obtain ⟨r, found, same⟩ := keeps j r' how
      rw [found, Option.map_some, Option.map_some, same]
    · rfl

theorem advance_allocate (numbered : Numbered s) (req : AllocateRequest) :
    Advance s (stateAfter (allocate b req) s) := by
  rcases allocate_writes numbered req with ⟨same, watermark⟩ | ⟨r, -, next, watermark, regions⟩
  · exact .still watermark fun id => by rw [same]
  · exact .allocated r next watermark regions

theorem advance_release (id : MemoryRegionId) (expected : Option MemoryGeneration) :
    Advance s (stateAfter (release b id expected) s) := by
  refine still_of_wrote (wrote_release id expected) ?_
  rintro j r' ⟨r, found, rfl⟩
  exact ⟨r, found, rfl⟩

theorem advance_transition (id : MemoryRegionId) (next : LifecycleState) :
    Advance s (stateAfter (transition id next) s) := by
  refine still_of_wrote (wrote_transition id next) ?_
  rintro j r' ⟨-, r, found, rfl⟩
  exact ⟨r, found, rfl⟩

theorem advance_stale : Advance s s.invalidateLocalityStale := by
  refine .still rfl ?_
  intro id
  rw [invalidateLocalityStale, ExtTreeMap.getElem?_map, Option.map_map]
  refine Option.map_congr ?_
  intro r _
  dsimp only [Function.comp]
  split_ifs <;> rfl

theorem advance_governed {id : MemoryRegionId} {target : NumaNodeId} (stays : ¬ Commits b s id target)
    (copyData : Bool) : Advance s (stateAfter (governedReallocate b id target copyData) s) := by
  refine still_of_wrote (wrote_governed id target copyData) ?_
  rintro j r' ⟨rfl, r, found, -, how⟩
  cases how with
  | kept state same => exact ⟨r, found, same⟩
  | committed commits => exact absurd commits stays

/-- The call moves no region that can be moved. -/
def Stays (b : Backend β) (s : MigrationManager β) (call : Call) : Prop :=
  ∀ id target, reallocation s call = some (id, target) → ¬ Commits b s.mem id target

theorem advance_step {s : MigrationManager β} (numbered : Numbered s.mem) {call : Call}
    (stays : Stays b s call) : Advance s.mem (step b s call).mem :=
  step_memory call (.still rfl fun _ => rfl) (advance_allocate numbered) advance_release advance_stale
    (fun id next _ => advance_transition id next)
    fun id target copyData moves => advance_governed (stays id target moves) copyData

/-- A call that sets out to move a region is the reallocation of it. -/
theorem step_reallocation {s : MigrationManager β} {call : Call} {id : MemoryRegionId}
    {target : NumaNodeId} (moves : reallocation s call = some (id, target)) :
    ∃ copyData, (step b s call).mem = stateAfter (governedReallocate b id target copyData) s.mem := by
  cases call with
  | governedReallocate j node copyData =>
    cases moves
    exact ⟨copyData, by rw [step, stateAfter_onMemory]⟩
  | managed op =>
    cases op with
    | execute a =>
      have state : step b s (.managed (.execute a)) = stateAfter (execute b a) s := rfl
      have ho := execute_outcome b a s
      generalize hres : (execute b a).run s = res at ho
      cases ho with
      | unknown absent => simp [reallocation, absent] at moves
      | refused m e found bad => simp [reallocation, found, bad] at moves
      | threw m e mem found good call =>
        simp only [reallocation, found, good, Option.isSome_none, Bool.false_eq_true, if_false] at moves
        cases moves
        exact ⟨m.copyData, by rw [state, stateAfter_of_error hres, stateAfter_of_error call]⟩
      | finished m view mem found good call =>
        simp only [reallocation, found, good, Option.isSome_none, Bool.false_eq_true, if_false] at moves
        cases moves
        exact ⟨m.copyData, by rw [state, stateAfter_of_ok hres, stateAfter_of_ok call]⟩
    | _ => cases moves

end Advance

section Counted

theorem Counted.advance (h : Counted s) (numbered : Numbered t) (moved : Advance s t) : Counted t := by
  cases moved with
  | still watermark regions =>
    refine ⟨numbered, ?_, ?_⟩
    · intro id r found
      have same := regions id
      rw [found, Option.map_some] at same
      obtain ⟨q, there, eq⟩ := Option.map_eq_some_iff.mp same.symm
      rw [← h.same id q there, eq]
    · intro id positive below
      rw [watermark] at below
      obtain ⟨q, there⟩ := h.complete id positive below
      have same := regions id
      rw [there, Option.map_some] at same
      obtain ⟨r, found, -⟩ := Option.map_eq_some_iff.mp same
      exact ⟨r, found⟩
  | allocated r next watermark regions =>
    have advanced := Generation.next_ok next
    have number := h.numbered.aligned (Generation.ne_max_of_next next)
    refine ⟨numbered, ?_, ?_⟩
    · intro id q found
      rw [regions, ExtTreeMap.getElem?_insert] at found
      split_ifs at found with here
      · cases found
        obtain rfl := Std.compare_eq_iff_eq.mp here
        exact BitVec.eq_of_toNat_eq (by dsimp only; omega)
      · exact h.same id q found
    · intro id positive below
      rw [regions, ExtTreeMap.getElem?_insert]
      split_ifs with here
      · exact ⟨r, rfl⟩
      · refine h.complete id positive ?_
        have other : id.value.toNat ≠ s.nextId.toNat := by
          intro same
          refine here (Std.compare_eq_iff_eq.mpr ?_)
          cases id
          exact congrArg Id.mk (BitVec.eq_of_toNat_eq same.symm)
        rw [watermark] at below
        omega

/-- A generation that is issued is new, and above all before it. -/
theorem Advance.issued (moved : Advance s t) {g : MemoryGeneration} (issues : Issues s t g) :
    s.watermark.value.toNat < g.value.toNat := by
  obtain ⟨id, r, found, rfl, changed⟩ := issues
  cases moved with
  | still watermark regions =>
    have same := regions id
    rw [found, Option.map_some] at same
    obtain ⟨q, there, eq⟩ := Option.map_eq_some_iff.mp same.symm
    exact absurd eq (changed q there)
  | allocated r' next watermark regions =>
    rw [regions, ExtTreeMap.getElem?_insert] at found
    split_ifs at found with here
    · cases found
      have advanced := Generation.next_ok next
      omega
    · exact absurd rfl (changed r found)

theorem Advance.watermark_le (moved : Advance s t) :
    s.watermark.value.toNat ≤ t.watermark.value.toNat := by
  cases moved with
  | still watermark regions => rw [watermark]
  | allocated r next watermark regions =>
    have advanced := Generation.next_ok next
    rw [watermark]
    omega

/-- The first migration that goes through gives its region a generation above the watermark, or one
that another region has. -/
theorem Counted.not_watermarked (h : Counted s) {id : MemoryRegionId} {r r' : MemoryRegion}
    (found : s.regions[id]? = some r) (next : r.generation.next = .ok r'.generation)
    (regions : t.regions = s.regions.insert id r') (watermark : t.watermark = s.watermark) :
    ¬ Watermarked t := by
  intro marked
  have advanced := Generation.next_ok next
  have here : t.regions[id]? = some r' := by rw [regions, ExtTreeMap.getElem?_insert_self]
  have below := marked.bounded id r' here
  rw [watermark] at below
  obtain ⟨q, there⟩ := h.complete ⟨r'.generation.value⟩ (by dsimp only; omega) below
  have own := h.same id r found
  have other : (⟨r'.generation.value⟩ : MemoryRegionId) ≠ id := by
    rintro rfl
    dsimp only at own
    rw [own] at advanced
    omega
  have kept : t.regions[(⟨r'.generation.value⟩ : MemoryRegionId)]? = some q := by
    rw [regions, ExtTreeMap.getElem?_insert, if_neg, there]
    intro same
    exact other (Std.compare_eq_iff_eq.mp same).symm
  refine other (marked.distinct _ _ q r' kept here ?_)
  exact congrArg Generation.mk (h.same _ q there)

end Counted

section Run
variable (b) (backend : β) (heap : Heap)

theorem initial_counted : Counted (initial backend heap).mem where
  numbered := initial_numbered backend heap
  same id r found := by simp [initial] at found
  complete id positive below := by
    have zero : (initial backend heap).mem.watermark.value.toNat = 0 := rfl
    omega

theorem run_counted {calls : List Call} (stays : Meets (step b) (Stays b) (initial backend heap) calls) :
    Counted (run b backend heap calls).mem := by
  have keep : ∀ (s : MigrationManager β) call, Counted s.mem → Stays b s call →
      Counted (step b s call).mem := fun s call h stays =>
    h.advance (numbered_step s h.numbered call) (advance_step h.numbered stays)
  exact foldl_invariant keep (initial_counted backend heap) stays

/-- In every state reached the generations keep to the watermark, and each that is issued is above
all that were issued before. -/
structure Rising (calls : List Call) : Prop where
  watermarked : ∀ pre, pre <+: calls → Watermarked (run b backend heap pre).mem
  greater : ∀ pre call, pre ++ [call] <+: calls → ∀ g,
    Issues (run b backend heap pre).mem (run b backend heap (pre ++ [call])).mem g →
    ∀ pre' call', pre' ++ [call'] <+: pre → ∀ g',
      Issues (run b backend heap pre').mem (run b backend heap (pre' ++ [call'])).mem g' →
      g'.value.toNat < g.value.toNat

theorem run_concat (pre : List Call) (call : Call) :
    run b backend heap (pre ++ [call]) = step b (run b backend heap pre) call := by
  simp [run]

theorem watermark_le_run {pre post : List Call}
    (stays : Meets (step b) (Stays b) (initial backend heap) (pre ++ post)) :
    (run b backend heap pre).mem.watermark.value.toNat ≤
      (run b backend heap (pre ++ post)).mem.watermark.value.toNat := by
  obtain ⟨before, after⟩ := meets_append.mp stays
  let least := (run b backend heap pre).mem.watermark.value.toNat
  have keep : ∀ (s : MigrationManager β) call, Numbered s.mem ∧ least ≤ s.mem.watermark.value.toNat →
      Stays b s call → Numbered (step b s call).mem ∧
        least ≤ (step b s call).mem.watermark.value.toNat := by
    rintro s call ⟨numbered, le⟩ stays
    exact ⟨numbered_step s numbered call, le.trans (advance_step numbered stays).watermark_le⟩
  have whole : run b backend heap (pre ++ post) = post.foldl (step b) (run b backend heap pre) := by
    simp [run]
  rw [whole]
  exact (foldl_invariant keep ⟨numbered_run backend heap pre, le_rfl⟩ after).2

theorem rising_of_meets {calls : List Call}
    (stays : Meets (step b) (Stays b) (initial backend heap) calls) : Rising b backend heap calls := by
  refine ⟨?_, ?_⟩
  · rintro pre ⟨post, rfl⟩
    exact (run_counted b backend heap (meets_append.mp stays).1).watermarked
  · rintro pre call ⟨post, rfl⟩ g issues pre' call' ⟨between, rfl⟩ g' issues'
    rw [List.append_assoc] at stays
    obtain ⟨before, here⟩ := meets_append.mp stays
    have counted := run_counted b backend heap before
    rw [run_concat] at issues
    have above := (advance_step counted.numbered here.1).issued issues
    have first := (run_counted b backend heap (meets_append.mp before).1).watermarked
    obtain ⟨id, r, found, rfl, -⟩ := issues'
    have below := first.bounded id r found
    have later := watermark_le_run b backend heap before
    exact (below.trans later).trans_lt above

/-- The generations rise under the watermark exactly in the runs in which no migration goes through. -/
theorem rising_iff (calls : List Call) :
    Rising b backend heap calls ↔ Meets (step b) (Stays b) (initial backend heap) calls := by
  refine ⟨?_, rising_of_meets b backend heap⟩
  intro rising
  rcases meets_or_stops (step b) (Stays b) (initial backend heap) calls with
    stays | ⟨pre, call, post, rfl, stays, moves⟩
  · exact stays
  · have counted := run_counted b backend heap stays
    have marked := rising.watermarked (pre ++ [call]) ⟨post, by simp⟩
    rw [run_concat] at marked
    change ¬ Stays b (run b backend heap pre) call at moves
    simp only [Stays, not_forall, not_not] at moves
    obtain ⟨id, target, moving, commits⟩ := moves
    obtain ⟨copyData, whole⟩ := step_reallocation (b := b) moving
    obtain ⟨r, r', found, next, regions, watermark⟩ := governed_commits commits copyData
    rw [whole] at marked
    exact absurd marked (counted.not_watermarked found next regions watermark)

end Run

/-- Two regions are allocated and the second is released: nothing moves. -/
theorem rising_iff_released_region :
    Rising (SyntheticBackend.backend {}) {} (fun _ => 0)
      [.managed (.allocate { bytes := ⟨1⟩ }), .managed (.allocate { bytes := ⟨1⟩ }),
        .managed (.release ⟨2⟩ none)] := by
  refine (rising_iff _ _ _ _).mpr ⟨?_, ?_, ?_, trivial⟩
  · intro id target moves
    cases moves
  · intro id target moves
    cases moves
  · intro id target moves
    cases moves

/-- The only region is moved to the second node: its generation is two, the watermark one. -/
theorem moved_region_passes_watermark :
    ¬ ∀ {β : Type} (b : Backend β) (backend : β) (heap : Heap) (calls : List Call),
      Rising b backend heap calls := by
  intro rising
  let calls : List Call := [.managed (.allocate { bytes := ⟨1⟩ }),
    .managed (.begin { memoryRegion := ⟨1⟩, targetNode := ⟨2⟩ }), .managed (.execute ⟨1⟩)]
  have marked := (rising (SyntheticBackend.backend {}) {} (fun _ => 0) calls).watermarked calls
    List.prefix_rfl
  have moved : ((run (SyntheticBackend.backend {}) {} (fun _ => 0) calls).mem.regions[
      (⟨1⟩ : MemoryRegionId)]?).any (·.generation.value == 2) = true := by decide +kernel
  have watermark : (run (SyntheticBackend.backend {}) {} (fun _ => 0) calls).mem.watermark.value = 1 := by
    decide +kernel
  obtain ⟨r, found, generation⟩ := (Option.any_eq_true _ _).mp moved
  have bounded := marked.bounded ⟨1⟩ r found
  rw [eq_of_beq generation, watermark] at bounded
  exact absurd bounded (by decide)

end NumaFabric.MemoryGenerations
