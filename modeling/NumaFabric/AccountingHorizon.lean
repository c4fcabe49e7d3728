import NumaFabric.MemoryAccounting
import NumaFabric.RegionWrites

/-! How far a run can get. A call takes one generation at most, so a run of fewer calls than
there are generations never meets the last one. -/
namespace NumaFabric.AccountingHorizon
open Std FaultState FaultRun MemoryManager MigrationManager MemoryAccounting MemoryLedger
  RegionWrites

variable {β : Type} {b : Backend β} {s t : MemoryManager β} {k : ℕ}

/-- No generation is above the number of calls made. -/
structure Paced (k : ℕ) (s : MemoryManager β) : Prop where
  watermark : s.watermark.value.toNat ≤ k
  regions : ∀ (id : MemoryRegionId) (r : MemoryRegion), s.regions[id]? = some r →
    r.generation.value.toNat ≤ k

theorem initial_paced (backend : β) (heap : Heap) : Paced 0 (initial backend heap).mem where
  watermark := le_rfl
  regions id r found := by simp [initial] at found

theorem Paced.mono (h : Paced k s) : Paced (k + 1) s where
  watermark := h.watermark.trans (Nat.le_succ k)
  regions id r found := (h.regions id r found).trans (Nat.le_succ k)

/-- A region is entered or rewritten under a generation that the call may take. -/
theorem Paced.insert (h : Paced k s) {id : MemoryRegionId} {r : MemoryRegion}
    (regions : t.regions = s.regions.insert id r) (generation : r.generation.value.toNat ≤ k + 1)
    (watermark : t.watermark.value.toNat ≤ k + 1) : Paced (k + 1) t where
  watermark := watermark
  regions j q found := by
    rw [regions, ExtTreeMap.getElem?_insert] at found
    split_ifs at found with here
    · cases found
      exact generation
    · exact h.mono.regions j q found

theorem Paced.wrote {W : MemoryRegionId → MemoryRegion → Prop} (h : Paced k s) (w : Wrote s t W)
    (how : ∀ id r, W id r → r.generation.value.toNat ≤ k + 1) : Paced (k + 1) t := by
  have watermark : t.watermark.value.toNat ≤ k + 1 := by
    rw [w.watermark]
    exact h.mono.watermark
  cases w with
  | nothing same _ =>
    refine ⟨watermark, fun id r found => ?_⟩
    rw [same] at found
    exact h.mono.regions id r found
  | one id r written wrote _ => exact h.insert written (how id r wrote) watermark

theorem Paced.allocate (h : Paced k s) (req : AllocateRequest) :
    Paced (k + 1) (stateAfter (MemoryManager.allocate b req) s) := by
  have ho := allocate_outcome b req s
  generalize hres : (MemoryManager.allocate b req).run s = res at ho
  have above : ∀ g : MemoryGeneration, s.watermark.next = .ok g → g.value.toNat ≤ k + 1 := by
    intro g next
    rw [Generation.next_ok next]
    exact Nat.succ_le_succ h.watermark
  cases ho with
  | zero bad =>
    rw [stateAfter_of_error hres]
    exact h.mono
  | exhausted last =>
    rw [stateAfter_of_error hres]
    exact ⟨h.mono.watermark, h.mono.regions⟩
  | failed g e w nonzero next call =>
    rw [stateAfter_of_ok hres]
    exact h.insert rfl (above g next) (above g next)
  | granted g result w nonzero next call r region_eq =>
    rw [stateAfter_of_ok hres]
    subst region_eq
    exact h.insert rfl (above g next) (above g next)

theorem Paced.release (h : Paced k s) (id : MemoryRegionId) (expected : Option MemoryGeneration) :
    Paced (k + 1) (stateAfter (MemoryManager.release b id expected) s) := by
  refine h.wrote (wrote_release id expected) ?_
  rintro j r' ⟨r, found, rfl⟩
  exact h.mono.regions j r found

theorem Paced.transition (h : Paced k s) (id : MemoryRegionId) (next : LifecycleState) :
    Paced (k + 1) (stateAfter (MemoryManager.transition id next) s) := by
  refine h.wrote (wrote_transition id next) ?_
  rintro j r' ⟨-, r, found, rfl⟩
  exact h.mono.regions j r found

theorem Paced.stale (h : Paced k s) : Paced (k + 1) s.invalidateLocalityStale where
  watermark := h.mono.watermark
  regions id r found := by
    rw [invalidateLocalityStale, ExtTreeMap.getElem?_map, Option.map_eq_some_iff] at found
    obtain ⟨q, there, rfl⟩ := found
    have bound := h.mono.regions id q there
    split_ifs <;> exact bound

/-- A commit takes the next generation of the region itself. -/
theorem Paced.governed (h : Paced k s) (id : MemoryRegionId) (target : NumaNodeId) (copyData : Bool) :
    Paced (k + 1) (stateAfter (governedReallocate b id target copyData) s) := by
  refine h.wrote (wrote_governed id target copyData) ?_
  rintro j r' ⟨rfl, r, found, -, how⟩
  cases how with
  | kept state same =>
    rw [same]
    exact h.mono.regions j r found
  | committed commits state next =>
    rw [Generation.next_ok next]
    exact Nat.succ_le_succ (h.regions j r found)

theorem Paced.stepped {s : MigrationManager β} (h : Paced k s.mem) (op : Op) :
    Paced (k + 1) (step b s op).mem :=
  op_memory op h.mono h.allocate h.release h.stale (fun id next _ => h.transition id next)
    fun _ m _ _ _ => h.governed m.memoryRegion m.targetNode m.copyData

theorem found_of_commitTarget {s : MigrationManager β} {id : AttemptId} {r : MemoryRegion}
    (h : commitTarget b s id = some r) : ∃ j : MemoryRegionId, s.mem.regions[j]? = some r := by
  unfold commitTarget at h
  cases attempt : s.attempts[id]? with
  | none => simp [attempt] at h
  | some m =>
    cases found : s.mem.regions[m.memoryRegion]? with
    | none => simp [attempt, found] at h
    | some q =>
      cases call : migrationCall b q m.targetNode s.mem.world with
      | error e w => simp [attempt, found, call] at h
      | ok result w =>
        simp only [attempt, found, call] at h
        split_ifs at h
        cases h
        exact ⟨_, found⟩

theorem Paced.advances {s : MigrationManager β} (h : Paced k s.mem) (room : k + 1 < 2 ^ 64) (op : Op) :
    Advances b s op := by
  cases op with
  | execute id =>
    intro r target last
    obtain ⟨j, found⟩ := found_of_commitTarget target
    have bound := h.regions j r found
    rw [last] at bound
    have max : u64Max.toNat = 2 ^ 64 - 1 := rfl
    omega
  | _ => trivial

theorem Paced.meets {s : MigrationManager β} {ops : List Op} (h : Paced k s.mem)
    (room : k + ops.length < 2 ^ 64) (ranges : Meets (step b) (InRange b) s ops) :
    Meets (step b) (fun s op => InRange b s op ∧ Advances b s op) s ops := by
  induction ops generalizing k s with
  | nil => trivial
  | cons op ops ih =>
    rw [List.length_cons] at room
    exact ⟨⟨ranges.1, h.advances (by omega) op⟩, ih (h.stepped op) (by omega) ranges.2⟩

/-- In every run of fewer than 2^64 calls within range the ledger is exact at every node, live
regions can be released, and the accounts are clean exactly when nothing is live. -/
theorem short_runs_account_exactly (b : Backend β) (grants : Grants b) (backend : β) (heap : Heap)
    (ops : List Op) (short : ops.length < 2 ^ 64)
    (ranges : Meets (step b) (InRange b) (initial backend heap) ops) :
    let s := (run b backend heap ops).mem
    (∀ n : NumaNodeId, n.isValid = true → (perNodeAllocated s n).toNat = liveTotal n s) ∧
      (∀ (id : MemoryRegionId) (r : MemoryRegion) (expected : Option MemoryGeneration),
        s.regions[id]? = some r → r.state.isLive = true → (∀ g ∈ expected, g = r.generation) →
          ∃ t, (MemoryManager.release b id expected).run s = .ok () t) ∧
      (accountingClean s = true ↔
        ∀ (id : MemoryRegionId) (r : MemoryRegion), s.regions[id]? = some r →
          r.state.isLive = false) :=
  memory_accounting_exact b grants backend heap ops
    ((initial_paced backend heap).meets (by omega) ranges)

theorem short_runs_account_exactly_mixed_calls :
    let ops : List Op :=
      [onNode ⟨1⟩ 40, onNode ⟨1⟩ 100, onNode ⟨1⟩ 24,
        .begin { memoryRegion := ⟨1⟩, targetNode := ⟨2⟩ }, .execute ⟨1⟩,
        .begin { memoryRegion := ⟨3⟩, targetNode := ⟨2⟩ }, .rollback ⟨2⟩,
        .invalidateLocalityStale, .release ⟨3⟩ none]
    let s := (run (budgeted 64) () (fun _ => 0) ops).mem
    perNodeAllocated s ⟨1⟩ = 0 ∧ (perNodeAllocated s ⟨2⟩).toNat = liveTotal ⟨2⟩ s ∧
      liveTotal ⟨2⟩ s = 40 := by
  intro ops s
  have ranges : Meets (step (budgeted 64)) (InRange (budgeted 64)) (initial () fun _ => 0) ops := by
    decide
  have h := short_runs_account_exactly (budgeted 64) (grants_budgeted 64) () (fun _ => 0) ops
    (by decide) ranges
  exact ⟨by decide, h.1 ⟨2⟩ rfl, by decide⟩

end NumaFabric.AccountingHorizon
