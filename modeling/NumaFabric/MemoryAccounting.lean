import NumaFabric.MigrationOutcome
import NumaFabric.MemoryLedger
import NumaFabric.FaultRun

/-! Runs of both managers: the ledger stays exact as long as every commit that is reached
can advance the generation of its region. -/
namespace NumaFabric.MemoryAccounting
open Std FaultState FaultRun LedgerCounter LedgerTotal MemoryManager MigrationManager MemoryLedger

variable {β : Type} {b : Backend β} {s : MemoryManager β}

/-- The region an `execute` is about to rewrite: the attempt is open, the region may move
and the backend hands out a usable target. -/
def commitTarget (b : Backend β) (s : MigrationManager β) (id : AttemptId) : Option MemoryRegion :=
  match s.attempts[id]? with
  | none => none
  | some m =>
    if executeRefusal m id ≠ none then none
    else
      match s.mem.regions[m.memoryRegion]? with
      | none => none
      | some r =>
        if migrateRefusal r m.memoryRegion ≠ none then none
        else
          match migrationCall b r m.targetNode s.mem.world with
          | .error _ _ => none
          | .ok result _ => if result.ok then some r else none

/-- Every call but a bare transition of a region. -/
def listed : Op → Bool
  | .transition _ _ => false
  | _ => true

/-- The calls the accounting is about, with every exact sum in range. -/
def InRange (b : Backend β) (s : MigrationManager β) (op : Op) : Prop :=
  listed op = true ∧ Fits (step b s op).mem

/-- No commit is reached by a region whose generation cannot grow. -/
def Advances (b : Backend β) (s : MigrationManager β) : Op → Prop
  | .execute id => ∀ r ∈ commitTarget b s id, r.generation.value ≠ u64Max
  | _ => True

/-- Only a node that some region is charged to can be out of range. -/
theorem fits_iff : Fits s ↔
    ∀ p ∈ s.regions.toList, liveTotal p.2.chooseObservedNode s < 2 ^ 64 := by
  refine ⟨fun h p _ => h p.2.chooseObservedNode, fun h n => ?_⟩
  rcases Nat.eq_zero_or_pos (liveTotal n s) with hz | hpos
  · rw [hz]
    decide
  · obtain ⟨id, r, found, held⟩ := total_pos hpos
    have node : r.chooseObservedNode = n := by
      by_contra hn
      simp [amount, chargedOn, hn] at held
    rw [← node]
    exact h (id, r) (ExtTreeMap.mem_toList_iff_getElem?_eq_some.mpr found)

instance (s : MemoryManager β) : Decidable (Fits s) := decidable_of_iff _ fits_iff.symm

instance (b : Backend β) (s : MigrationManager β) (op : Op) : Decidable (InRange b s op) :=
  inferInstanceAs (Decidable (_ ∧ _))

instance (b : Backend β) (s : MigrationManager β) : ∀ op, Decidable (Advances b s op)
  | .execute id =>
    inferInstanceAs (Decidable (∀ r ∈ commitTarget b s id, r.generation.value ≠ u64Max))
  | .allocate _ | .release _ _ | .invalidateLocalityStale | .transition _ _ | .begin _
  | .rollback _ => inferInstanceAs (Decidable True)

theorem commitTarget_eq_some {s : MigrationManager β} {id : AttemptId} {m : Migration}
    {r : MemoryRegion} (attempt : s.attempts[id]? = some m) (ready : executeRefusal m id = none)
    (found : s.mem.regions[m.memoryRegion]? = some r)
    (good : migrateRefusal r m.memoryRegion = none)
    (accepts : ¬ Declines b r m.targetNode s.mem.world) : commitTarget b s id = some r := by
  simp only [commitTarget, attempt, ready, found, good, ne_eq, not_true_eq_false, if_false]
  cases hc : migrationCall b r m.targetNode s.mem.world with
  | error e w =>
    refine absurd (fun result w' h => ?_) accepts
    rw [hc] at h
    cases h
  | ok result w =>
    dsimp only
    cases hok : result.ok with
    | true => rfl
    | false =>
      refine absurd (fun result' w' h => ?_) accepts
      rw [hc] at h
      cases h
      exact hok

theorem execute_exact {s : MigrationManager β} (h : Exact s.mem) (id : AttemptId)
    (advances : Advances b s (.execute id)) (fits : Fits (stateAfter (execute b id) s).mem) :
    Exact (stateAfter (execute b id) s).mem := by
  revert fits
  refine execute_memory (P := fun mem => Fits mem → Exact mem) (fun _ => h) id fun m attempt ready => ?_
  refine h.governed m.memoryRegion m.targetNode m.copyData fun r found good accepts => ?_
  exact advances r (commitTarget_eq_some attempt ready found good accepts)

theorem step_exact (grants : Grants b) (s : MigrationManager β) (op : Op) (h : Exact s.mem)
    (cond : InRange b s op ∧ Advances b s op) : Exact (step b s op).mem := by
  obtain ⟨⟨listed, fits⟩, advances⟩ := cond
  cases op with
  | allocate req =>
    simp only [step, stateAfter_onMemory] at fits ⊢
    exact h.allocate grants req fits
  | release id expected =>
    simp only [step, stateAfter_onMemory]
    exact h.release id expected
  | invalidateLocalityStale => exact h.invalidateLocalityStale
  | transition id next => cases listed
  | begin req => exact begin_memory h req (h.transition req.memoryRegion (.inl rfl))
  | execute id => exact execute_exact h id advances fits
  | rollback id => exact rollback_memory h id fun m => h.transition m.memoryRegion (.inr rfl)

theorem initial_exact (backend : β) (heap : Heap) : Exact (initial backend heap).mem where
  entries n _ := by
    rw [liveTotal, initial, total_empty]
    simp
  tidy n v hn := by simp [initial] at hn
  settled id r hr := by simp [initial] at hr
  issued id r hr := by simp [initial] at hr
  aligned _ := rfl

/-- In every run within range whose commits can all advance the generation, the ledger is
exact at every node, live regions can be released, and the accounts are clean exactly
when nothing is live. -/
theorem memory_accounting_exact (b : Backend β) (grants : Grants b) (backend : β) (heap : Heap)
    (ops : List Op)
    (meets : Meets (step b) (fun s op => InRange b s op ∧ Advances b s op) (initial backend heap) ops) :
    let s := (run b backend heap ops).mem
    (∀ n : NumaNodeId, n.isValid = true → (perNodeAllocated s n).toNat = liveTotal n s) ∧
      (∀ (id : MemoryRegionId) (r : MemoryRegion) (expected : Option MemoryGeneration),
        s.regions[id]? = some r → r.state.isLive = true → (∀ g ∈ expected, g = r.generation) →
          ∃ t, (MemoryManager.release b id expected).run s = .ok () t) ∧
      (accountingClean s = true ↔
        ∀ (id : MemoryRegionId) (r : MemoryRegion), s.regions[id]? = some r →
          r.state.isLive = false) := by
  have h : Exact (run b backend heap ops).mem :=
    @foldl_invariant _ _ _ _ (fun s => Exact s.mem) (step_exact grants) _ _ (initial_exact backend heap)
      meets
  exact ⟨h.entries, fun id r expected found live current => h.release_ok found live current,
    h.clean_iff⟩

/-- A backend that grants what fits a fixed budget, on the node required of it. -/
def budgeted (limit : U64) : Backend Unit where
  kind := .synthetic
  allocate spec :=
    if limit < spec.bytes.value then throw ⟨ascii "required synthetic node capacity exhausted"⟩
    else pure
      { grantedBytes := spec.bytes, kind := .synthetic, localityKnown := true
        observedNode := spec.requiredNode, requestedMode := spec.mode }
  free _ x := x
  applyThreadAffinity set x := (!set.masks.isEmpty, x)

theorem grants_budgeted (limit : U64) : Grants (budgeted limit) := by
  intro spec x result x' h
  simp only [budgeted] at h
  split_ifs at h
  · cases h
  · cases h
    rfl

/-- A request for a region on a required node. -/
def strictRequest (node : NumaNodeId) (bytes : U64) : AllocateRequest :=
  { bytes := ⟨bytes⟩, mode := .requiredNode, requiredNode := node, intendedNode := node }

def onNode (node : NumaNodeId) (bytes : U64) : Op := .allocate (strictRequest node bytes)

theorem budgeted_grants (limit : U64) (spec : AllocationSpec) (w : World Unit)
    (small : ¬ limit < spec.bytes.value) :
    ∃ result w', (World.allocate (budgeted limit) spec).run w = .ok result w' ∧
      result.ok = !spec.bytes.isZero ∧ result.grantedBytes = spec.bytes ∧
      result.observedNode = spec.requiredNode := by
  have hc : ((budgeted limit).allocate spec).run (w.backend, w.heap) =
      .ok { grantedBytes := spec.bytes, kind := .synthetic, localityKnown := true
            observedNode := spec.requiredNode, requestedMode := spec.mode } (w.backend, w.heap) := by
    simp only [budgeted, small, if_false]
    rfl
  refine ⟨_, _, World.allocate_run_ok hc, ?_, rfl, rfl⟩
  simp only [AllocationResult.ok]
  cases spec.bytes.isZero <;> rfl

end NumaFabric.MemoryAccounting
