import NumaFabric.MemoryOwnership
import NumaFabric.LifecycleConformance

/-! What a region leaves behind once it is over. A release takes its bytes off the ledger and gives
its buffer back; a transition into a terminal state does neither. -/
namespace NumaFabric.TerminalRegions
open Std FaultState FaultRun LedgerCounter LedgerTotal MemoryManager MemoryLedger
  MigrationCommit TokenOwnership MemoryOwnership LifecycleConformance
open MigrationManager hiding step run

variable {β : Type} {b : Backend β} {s t : MemoryManager β}

/-- The bytes on a node of a region that is not over. -/
def standing (n : NumaNodeId) (r : MemoryRegion) : ℕ :=
  if r.state.isReleased then 0 else chargedOn n r

def standingTotal (n : NumaNodeId) (s : MemoryManager β) : ℕ :=
  total (fun _ r => standing n r) s.regions

def StandsOn (n : NumaNodeId) (r : MemoryRegion) : Prop :=
  r.state.isReleased = false ∧ r.chooseObservedNode = n

/-- The ledger counts no bytes but those of regions that are not over, and an entry that was left
at zero has such a region on its node. -/
structure Attributed (s : MemoryManager β) : Prop where
  bounded : ∀ n : NumaNodeId, n.isValid = true → (entry s.nodeUsage n).toNat ≤ standingTotal n s
  placed : ∀ (n : NumaNodeId) (v : U64), s.nodeUsage[n]? = some v → n.isValid = true ∧
    (v = 0 → ∃ (id : MemoryRegionId) (r : MemoryRegion), s.regions[id]? = some r ∧ StandsOn n r)

section Ledger
variable {id : MemoryRegionId} {r r' : MemoryRegion} {n : NumaNodeId} {m : Ledger NumaNodeId 64} {v : U64}

theorem standing_of_ended (ended : r.state.isReleased = true) : standing n r = 0 := by
  simp [standing, ended]

theorem standing_of_stands (stands : r.state.isReleased = false) : standing n r = chargedOn n r := by
  simp [standing, stands]

theorem standsOn_of_standing (pos : 0 < standing n r) : StandsOn n r := by
  unfold standing chargedOn at pos
  split_ifs at pos with ended here
  · exact absurd pos (lt_irrefl 0)
  · exact ⟨Bool.eq_false_iff.mpr ended, here⟩
  · exact absurd pos (lt_irrefl 0)

/-- Every entry has a region on its node that is not over. -/
theorem Attributed.occupied (h : Attributed s) (present : s.nodeUsage[n]? = some v) :
    ∃ (id : MemoryRegionId) (r : MemoryRegion), s.regions[id]? = some r ∧ StandsOn n r := by
  obtain ⟨valid, zero⟩ := h.placed n v present
  by_cases empty : v = 0
  · exact zero empty
  · have counted := h.bounded n valid
    rw [entry_of_some present] at counted
    have pos : 0 < v.toNat := by
      rw [Nat.pos_iff_ne_zero]
      exact fun zero => empty (BitVec.toNat_inj.mp zero)
    obtain ⟨id, r, found, here⟩ := total_pos (pos.trans_le counted)
    exact ⟨id, r, found, standsOn_of_standing here⟩

theorem Attributed.clean (h : Attributed s) (done : ∀ (id : MemoryRegionId) (r : MemoryRegion),
    s.regions[id]? = some r → r.state.isReleased = true) : accountingClean s = true := by
  have dead : ∀ p ∈ s.regions.toList, ¬ p.2.state.isLive = true := by
    rintro ⟨id, r⟩ found live
    have ended := done id r (ExtTreeMap.mem_toList_iff_getElem?_eq_some.mp found)
    rw [isReleased_of_isLive live] at ended
    cases ended
  have empty : s.nodeUsage.isEmpty = true := by
    rw [ExtTreeMap.isEmpty_iff, ExtTreeMap.eq_empty_iff_forall_not_mem]
    intro n there
    obtain ⟨v, present⟩ := Option.isSome_iff_exists.mp (ExtTreeMap.mem_iff_isSome_getElem?.mp there)
    obtain ⟨id, r, found, stands, -⟩ := h.occupied present
    rw [done id r found] at stands
    cases stands
  rw [accountingClean, Bool.and_eq_true, Bool.not_eq_true', List.any_eq_false]
  exact ⟨dead, empty⟩

theorem toNat_entry_charged_le (valid : n.isValid = true) :
    (entry (charged r m) n).toNat ≤ (entry m n).toNat + chargedOn n r := by
  unfold charged chargedOn
  split_ifs with observed here here
  · subst here
    exact (toNat_entry_charge_le _ _ _ _).trans_eq (by rw [if_pos rfl])
  · exact (toNat_entry_charge_le _ _ _ _).trans_eq (by rw [if_neg here])
  · subst here
    exact absurd valid observed
  · exact le_rfl

theorem getElem?_charged (present : (charged r m)[n]? = some v) :
    n.isValid = true ∧ r.chooseObservedNode = n ∨ m[n]? = some v := by
  unfold charged at present
  split_ifs at present with observed
  · rw [getElem?_charge] at present
    split_ifs at present with here
    · exact .inl ⟨here ▸ observed, here⟩
    · exact .inr present
  · exact .inr present

/-- What is left of a discharge is not zero, or is elsewhere. -/
theorem getElem?_discharged (present : (discharged r m)[n]? = some v) :
    n.isValid = true ∧ v ≠ 0 ∨ m[n]? = some v ∧ ¬(n.isValid = true ∧ r.chooseObservedNode = n) := by
  unfold discharged at present
  split_ifs at present with observed
  · rw [getElem?_settle] at present
    split_ifs at present with here empty
    · cases present
      exact .inl ⟨here ▸ observed, empty⟩
    · exact .inr ⟨present, fun both => here both.2⟩
  · exact .inr ⟨present, fun both => observed (both.2 ▸ both.1)⟩

theorem getElem?_touch (present : (touch m r.chooseObservedNode)[n]? = some v) :
    r.chooseObservedNode = n ∨ m[n]? = some v := by
  rw [touch, ExtTreeMap.getElem?_insertIfNew] at present
  split_ifs at present with fresh
  · exact .inl (compare_eq_iff_eq.mp fresh.1)
  · exact .inr present

/-- A region is recorded, and the ledger takes up no more than its bytes. -/
theorem Attributed.record (h : Attributed s) (fresh : s.regions[id]? = none)
    (written : t.regions = s.regions.insert id r')
    (moved : ∀ n : NumaNodeId, n.isValid = true →
      (entry t.nodeUsage n).toNat ≤ (entry s.nodeUsage n).toNat + standing n r')
    (kept : ∀ (n : NumaNodeId) (v : U64), t.nodeUsage[n]? = some v →
      n.isValid = true ∧ StandsOn n r' ∨ s.nodeUsage[n]? = some v) : Attributed t where
  bounded n valid := by
    have old := h.bounded n valid
    have new := moved n valid
    rw [standingTotal, written, total_insert_of_none _ _ fresh]
    rw [standingTotal] at old
    omega
  placed n v present := by
    rcases kept n v present with ⟨valid, here⟩ | before
    · exact ⟨valid, fun _ => ⟨id, r', by rw [written, ExtTreeMap.getElem?_insert_self], here⟩⟩
    · refine ⟨(h.placed n v before).1, fun zero => ?_⟩
      obtain ⟨j, q, found, there⟩ := (h.placed n v before).2 zero
      refine ⟨j, q, ?_, there⟩
      rw [written, ExtTreeMap.getElem?_insert, if_neg, found]
      intro same
      rw [compare_eq_iff_eq.mp same, found] at fresh
      cases fresh

/-- A region is rewritten, and the ledger loses what the region no longer has. -/
theorem Attributed.replace (h : Attributed s) (found : s.regions[id]? = some r)
    (written : t.regions = s.regions.insert id r')
    (moved : ∀ n : NumaNodeId, n.isValid = true →
      (entry t.nodeUsage n).toNat + standing n r ≤ (entry s.nodeUsage n).toNat + standing n r')
    (kept : ∀ (n : NumaNodeId) (v : U64), t.nodeUsage[n]? = some v → n.isValid = true ∧
      (v = 0 → StandsOn n r' ∨ s.nodeUsage[n]? = some v ∧ ¬StandsOn n r)) : Attributed t where
  bounded n valid := by
    have old := h.bounded n valid
    have new := moved n valid
    have whole := total_insert_of_some (fun _ r => standing n r) r' found
    rw [standingTotal, written]
    rw [standingTotal] at old
    omega
  placed n v present := by
    obtain ⟨valid, zero⟩ := kept n v present
    refine ⟨valid, fun empty => ?_⟩
    rcases zero empty with here | ⟨before, away⟩
    · exact ⟨id, r', by rw [written, ExtTreeMap.getElem?_insert_self], here⟩
    · obtain ⟨j, q, there, stands⟩ := (h.placed n v before).2 empty
      refine ⟨j, q, ?_, stands⟩
      rw [written, ExtTreeMap.getElem?_insert, if_neg, there]
      intro same
      rw [← compare_eq_iff_eq.mp same, found] at there
      cases there
      exact away stands

end Ledger

section Calls
variable {id : MemoryRegionId} {r r' : MemoryRegion}

/-- The ledger stays, and so does a region that is not over. -/
theorem Attributed.rewrite (h : Attributed s) (found : s.regions[id]? = some r)
    (written : t.regions = s.regions.insert id r') (usage : t.nodeUsage = s.nodeUsage)
    (stays : r.state.isReleased = false → r'.state.isReleased = false)
    (node : r'.chooseObservedNode = r.chooseObservedNode)
    (bytes : r'.grantedBytes = r.grantedBytes) : Attributed t := by
  refine h.replace found written (fun n _ => ?_) fun n v present => ?_
  · rw [usage]
    refine Nat.add_le_add_left ?_ _
    cases stands : r.state.isReleased with
    | true => rw [standing_of_ended stands]; exact Nat.zero_le _
    | false =>
      rw [standing_of_stands stands, standing_of_stands (stays stands), chargedOn, chargedOn, node,
        bytes]
  · rw [usage] at present
    refine ⟨(h.placed n v present).1, fun _ => ?_⟩
    by_cases here : StandsOn n r
    · exact .inl ⟨stays here.1, node.trans here.2⟩
    · exact .inr ⟨present, here⟩

/-- A region that is not over leaves the node it stood on. -/
theorem Attributed.leave (h : Attributed s) (found : s.regions[id]? = some r)
    (stands : r.state.isReleased = false) (covered : underflows r s.nodeUsage = false)
    (written : t.regions = s.regions.insert id r')
    (moved : ∀ n : NumaNodeId, n.isValid = true → (entry t.nodeUsage n).toNat ≤
      (entry (discharged r s.nodeUsage) n).toNat + standing n r')
    (kept : ∀ (n : NumaNodeId) (v : U64), t.nodeUsage[n]? = some v →
      n.isValid = true ∧ StandsOn n r' ∨ (discharged r s.nodeUsage)[n]? = some v) : Attributed t := by
  refine h.replace found written (fun n valid => ?_) fun n v present => ?_
  · have left := entry_discharged valid covered
    have arrived := moved n valid
    rw [standing_of_stands stands]
    omega
  · rcases kept n v present with ⟨valid, here⟩ | rest
    · exact ⟨valid, fun _ => .inl here⟩
    · rcases getElem?_discharged rest with ⟨valid, nonzero⟩ | ⟨before, away⟩
      · exact ⟨valid, fun zero => absurd zero nonzero⟩
      · have valid := (h.placed n v before).1
        exact ⟨valid, fun _ => .inr ⟨before, fun here => away ⟨valid, here.2⟩⟩⟩

theorem Attributed.allocate (h : Attributed s) (numbered : Numbered s) (req : AllocateRequest) :
    Attributed (stateAfter (MemoryManager.allocate b req) s) := by
  have ho := allocate_outcome b req s
  generalize hres : (MemoryManager.allocate b req).run s = res at ho
  cases ho with
  | zero bad => rw [stateAfter_of_error hres]; exact h
  | exhausted last => rw [stateAfter_of_error hres]; exact ⟨h.bounded, h.placed⟩
  | failed g e w nonzero next call =>
    rw [stateAfter_of_ok hres]
    exact h.record (numbered.fresh next) rfl (fun n _ => Nat.le_add_right _ _)
      fun n v present => .inr present
  | granted g result w nonzero next call r region_eq =>
    rw [stateAfter_of_ok hres]
    have stands : r.state.isReleased = false := by
      rw [region_eq]
      exact grantedRegion_stands _ _ _ _
    refine h.record (numbered.fresh next) rfl (fun n valid => ?_) fun n v present => ?_
    · rw [standing_of_stands stands]
      exact toNat_entry_charged_le valid
    · exact (getElem?_charged present).imp (fun here => ⟨here.1, stands, here.2⟩) fun before => before

theorem Attributed.release (h : Attributed s) (id : MemoryRegionId)
    (expected : Option MemoryGeneration) :
    Attributed (stateAfter (MemoryManager.release b id expected) s) := by
  have ho := release_outcome b id expected s
  generalize hres : (MemoryManager.release b id expected).run s = res at ho
  cases ho with
  | unknown absent => rw [stateAfter_of_error hres]; exact h
  | refused r e found bad => rw [stateAfter_of_error hres]; exact h
  | underflow r found good under =>
    rw [stateAfter_of_error hres]
    -- the entry that the failed look-up leaves at zero is under a region that still stands
    have stands := isReleased_of_releaseRefusal good
    have observed : r.chooseObservedNode.isValid = true := (Bool.and_eq_true_iff.mp under).1
    refine ⟨fun n valid => ?_, fun n v present => ?_⟩
    · rw [entry_touch]
      exact h.bounded n valid
    · rcases getElem?_touch present with here | before
      · exact ⟨here ▸ observed, fun _ => ⟨id, r, found, stands, here⟩⟩
      · exact h.placed n v before
  | released r found good covered =>
    rw [stateAfter_of_ok hres]
    exact h.leave found (isReleased_of_releaseRefusal good) covered rfl
      (fun n _ => Nat.le_add_right _ _) fun n v present => .inr present

/-- No transition ends a region that is not over. -/
def SparesStanding (s : MemoryManager β) (id : MemoryRegionId) (next : LifecycleState) : Prop :=
  ∀ r, s.regions[id]? = some r → canTransition r.state next = true → next.isReleased = true →
    r.state.isReleased = true

theorem Attributed.transition (h : Attributed s) {next : LifecycleState}
    (spares : SparesStanding s id next) :
    Attributed (stateAfter (MemoryManager.transition id next) s) := by
  have ho := transition_outcome id next s
  generalize hres : (MemoryManager.transition id next).run s = res at ho
  cases ho with
  | unknown absent => rw [stateAfter_of_error hres]; exact h
  | notGuarded r found bad => rw [stateAfter_of_error hres]; exact h
  | moved r found good =>
    rw [stateAfter_of_ok hres]
    refine h.rewrite found rfl rfl (fun stands => ?_) rfl rfl
    rw [Bool.eq_false_iff] at stands ⊢
    exact fun ended => stands (spares r found good ended)

theorem Attributed.governed (h : Attributed s) {target : NumaNodeId} (copyData : Bool)
    (covered : Covered b s id target) :
    Attributed (stateAfter (governedReallocate b id target copyData) s) := by
  have ho := governed_outcome b id target copyData s
  generalize hres : (governedReallocate b id target copyData).run s = res at ho
  cases ho with
  | unknown absent => rw [stateAfter_of_error hres]; exact h
  | refused r e found bad => rw [stateAfter_of_error hres]; exact h
  | retained r found good declined =>
    rw [stateAfter_of_ok hres]
    exact h.rewrite found rfl rfl (fun _ => rfl) rfl rfl
  | underflow r result w found good call usable under =>
    rw [covered r found good (not_declines call usable)] at under
    cases under
  | exhausted r result w found good call usable covered last =>
    rw [stateAfter_of_error hres]
    have stands := isReleased_of_migrateRefusal good
    exact h.leave found stands covered rfl (fun n _ => Nat.le_add_right _ _)
      fun n v present => .inr present
  | committed r result w g found good call usable covered next view done =>
    rw [stateAfter_of_ok hres]
    have stands := isReleased_of_migrateRefusal good
    refine h.leave found stands covered rfl (fun n valid => ?_) fun n v present => ?_
    · rw [standing_of_stands rfl]
      exact toNat_entry_charged_le valid
    · exact (getElem?_charged present).imp (fun here => ⟨here.1, rfl, here.2⟩) fun before => before

theorem Attributed.invalidateLocalityStale (h : Attributed s) :
    Attributed s.invalidateLocalityStale where
  bounded n valid := by
    rw [standingTotal, MemoryManager.invalidateLocalityStale, total_map]
    refine (h.bounded n valid).trans_eq (total_congr fun id r _ => ?_)
    split_ifs <;> rfl
  placed n v present := by
    refine ⟨(h.placed n v present).1, fun zero => ?_⟩
    obtain ⟨id, r, found, here⟩ := (h.placed n v present).2 zero
    have after : s.invalidateLocalityStale.regions[id]? = some (if r.state.isLive then
        { r with localityCurrent := false, localityVerified := false } else r) := by
      rw [MemoryManager.invalidateLocalityStale, ExtTreeMap.getElem?_map, found, Option.map_some]
    refine ⟨id, _, after, ?_⟩
    split_ifs
    · exact here
    · exact here

end Calls

section Buffers
variable {id : MemoryRegionId} {r r' : MemoryRegion}

/-- The region still has the buffer to give back, or it was given back. -/
def Kept (s : MemoryManager β) (id : MemoryRegionId) (k : ℕ) : Prop :=
  held s id = some k ∨ k ∈ s.world.frees

/-- A region that is over has given its buffer back, if it had one; any other region has one. -/
structure Accounted (frees : List ℕ) (r : MemoryRegion) : Prop where
  ended : r.state.isReleased = true → r.backendResult.handle ≠ 0 → r.backendResult.handle ∈ frees
  stands : r.state.isReleased = false → r.backendResult.handle ≠ 0

def Tracked (s : MemoryManager β) : Prop :=
  ∀ (id : MemoryRegionId) (r : MemoryRegion), s.regions[id]? = some r → Accounted s.world.frees r

/-- No buffer goes out of sight between the two states. -/
structure Carried (s t : MemoryManager β) : Prop where
  kept : ∀ (id : MemoryRegionId) (k : ℕ), Kept s id k → Kept t id k
  tracked : Tracked s → Tracked t

theorem Accounted.mono {frees frees' : List ℕ} (h : Accounted frees r) (sub : frees ⊆ frees') :
    Accounted frees' r :=
  ⟨fun ended given => sub (h.ended ended given), h.stands⟩

theorem Carried.refl (s : MemoryManager β) : Carried s s := ⟨fun _ _ h => h, fun h => h⟩

theorem Carried.world (regions_eq : t.regions = s.regions) (frees : t.world.frees = s.world.frees) :
    Carried s t := by
  refine ⟨fun id k => ?_, fun h id r => ?_⟩
  · rw [Kept, Kept, held, held, regions_eq, frees]
    exact fun h => h
  · rw [regions_eq, frees]
    exact h id r

/-- A region is written; the buffer it had is still its own, or was given back. -/
theorem Carried.insert (written : t.regions = s.regions.insert id r')
    (frees : s.world.frees ⊆ t.world.frees)
    (kept : ∀ k, held s id = some k → holding r' = some k ∨ k ∈ t.world.frees)
    (new : Tracked s → Accounted t.world.frees r') : Carried s t where
  kept j k before := by
    rcases before with had | given
    · rw [Kept, held_insert written]
      by_cases same : j = id
      · subst same
        rw [Function.update_self]
        exact kept k had
      · rw [Function.update_of_ne same]
        exact .inl had
    · exact .inr (frees given)
  tracked h j q found := by
    rw [written, ExtTreeMap.getElem?_insert] at found
    split_ifs at found with same
    · cases found
      exact new h
    · exact (h j q found).mono frees

theorem handle_of_held {k : ℕ} (found : s.regions[id]? = some r) (had : held s id = some k) :
    r.state.isReleased = false ∧ r.backendResult.handle = k := by
  rw [held, found, Option.bind_some, holding] at had
  split_ifs at had with ended
  exact ⟨Bool.eq_false_iff.mpr ended, Option.some.inj had⟩

/-- A region gets a buffer that was never given to any. -/
theorem accounted_of_issued {frees : List ℕ} {n : ℕ} (stands : r.state.isReleased = false)
    (handle : r.backendResult.handle = n + 1) : Accounted frees r where
  ended done := by rw [stands] at done; cases done
  stands _ := by rw [handle]; exact Nat.succ_ne_zero n

theorem carried_allocate (numbered : Numbered s) (req : AllocateRequest) :
    Carried s (stateAfter (MemoryManager.allocate b req) s) := by
  have ho := allocate_outcome b req s
  have frees := frees_allocate b req.spec s.world
  generalize hres : (MemoryManager.allocate b req).run s = res at ho
  cases ho with
  | zero bad => rw [stateAfter_of_error hres]; exact Carried.refl s
  | exhausted last => rw [stateAfter_of_error hres]; exact Carried.world rfl frees
  | failed g e w nonzero next call =>
    rw [stateAfter_of_ok hres]
    rw [stateAfter_of_error call] at frees
    refine Carried.insert rfl (fun k given => frees.symm ▸ given) (fun k had => ?_) fun _ => ⟨?_, ?_⟩
    · rw [held, numbered.fresh next] at had
      cases had
    · exact fun _ given => absurd rfl given
    · intro stands
      cases stands
  | granted g result w nonzero next call r region_eq =>
    rw [stateAfter_of_ok hres]
    rw [stateAfter_of_ok call] at frees
    obtain ⟨q, x, -, issued, rfl⟩ := World.allocate_eq_ok call
    have stands : r.state.isReleased = false := by
      rw [region_eq]
      exact grantedRegion_stands _ _ _ _
    have handle : r.backendResult.handle = s.world.given.length + 1 := by
      rw [region_eq]
      exact congrArg AllocationResult.handle issued
    refine Carried.insert rfl (fun k given => frees.symm ▸ given) (fun k had => ?_) fun _ =>
      accounted_of_issued stands handle
    rw [held, numbered.fresh next] at had
    cases had

theorem carried_release (id : MemoryRegionId) (expected : Option MemoryGeneration) :
    Carried s (stateAfter (MemoryManager.release b id expected) s) := by
  have ho := release_outcome b id expected s
  generalize hres : (MemoryManager.release b id expected).run s = res at ho
  cases ho with
  | unknown absent => rw [stateAfter_of_error hres]; exact Carried.refl s
  | refused r e found bad => rw [stateAfter_of_error hres]; exact Carried.refl s
  | underflow r found good under => rw [stateAfter_of_error hres]; exact Carried.world rfl rfl
  | released r found good covered =>
    rw [stateAfter_of_ok hres]
    have given : r.backendResult.handle ∈ (s.world.free b r.backendResult).frees :=
      List.mem_append_right _ (List.mem_singleton_self _)
    refine Carried.insert rfl (List.subset_append_left _ _) (fun k had => ?_) fun _ => ⟨?_, ?_⟩
    · rw [← (handle_of_held found had).2]
      exact .inr given
    · exact fun _ _ => given
    · intro stands
      cases stands

theorem carried_transition {next : LifecycleState} (spares : SparesStanding s id next) :
    Carried s (stateAfter (MemoryManager.transition id next) s) := by
  have ho := transition_outcome id next s
  generalize hres : (MemoryManager.transition id next).run s = res at ho
  cases ho with
  | unknown absent => rw [stateAfter_of_error hres]; exact Carried.refl s
  | notGuarded r found bad => rw [stateAfter_of_error hres]; exact Carried.refl s
  | moved r found good =>
    rw [stateAfter_of_ok hres]
    refine Carried.insert rfl (List.Subset.refl _) (fun k had => .inl ?_) fun h => ⟨?_, ?_⟩
    · obtain ⟨stands, rfl⟩ := handle_of_held found had
      refine holding_of_standing (r := { r with state := next }) ?_
      rw [Bool.eq_false_iff] at stands ⊢
      exact fun ended => stands (spares r found good ended)
    · exact fun ended => (h id r found).ended (spares r found good ended)
    · exact fun stands => (h id r found).stands (standing_of_canTransition good stands)

/-- A buffer that is replaced has been given back. -/
theorem carried_commit {target : NumaNodeId} {copyData : Bool} {result : AllocationResult} {w : World β}
    (found : s.regions[id]? = some r) (call : migrationCall b r target s.world = .ok result w)
    (written : t.regions = s.regions.insert id r') (world : t.world = handedOver b r result copyData w)
    (stands : r'.state.isReleased = false) (bound : r'.backendResult = result) : Carried s t := by
  obtain ⟨p, x, -, issued, rfl⟩ := World.allocate_eq_ok call
  have frees := congrArg World.frees world
  rw [frees_handedOver] at frees
  refine Carried.insert written ?_ (fun k had => .inr ?_) fun _ => ?_
  · rw [frees]
    exact List.subset_append_left _ _
  · rw [frees, ← (handle_of_held found had).2]
    exact List.mem_append_right _ (List.mem_singleton_self _)
  · exact accounted_of_issued stands (congrArg AllocationResult.handle (bound.trans issued))

theorem carried_governed {target : NumaNodeId} (copyData : Bool) (covered : Covered b s id target) :
    Carried s (stateAfter (governedReallocate b id target copyData) s) := by
  have ho := governed_outcome b id target copyData s
  generalize hres : (governedReallocate b id target copyData).run s = res at ho
  cases ho with
  | unknown absent => rw [stateAfter_of_error hres]; exact Carried.refl s
  | refused r e found bad => rw [stateAfter_of_error hres]; exact Carried.refl s
  | retained r found good declined =>
    rw [stateAfter_of_ok hres]
    have stands := isReleased_of_migrateRefusal good
    refine Carried.insert rfl (fun k given => (frees_allocate b _ _).symm ▸ given)
      (fun k had => .inl ?_) fun h => ⟨?_, ?_⟩
    · obtain ⟨-, rfl⟩ := handle_of_held found had
      exact holding_of_standing (r := { r with state := .active }) rfl
    · intro ended
      cases ended
    · exact fun _ => (h id r found).stands stands
  | underflow r result w found good call usable under =>
    rw [covered r found good (not_declines call usable)] at under
    cases under
  | exhausted r result w found good call usable covered last =>
    rw [stateAfter_of_error hres]
    exact carried_commit found call rfl rfl rfl rfl
  | committed r result w g found good call usable covered next view done =>
    rw [stateAfter_of_ok hres]
    exact carried_commit found call rfl rfl rfl rfl

theorem carried_invalidateLocalityStale : Carried s s.invalidateLocalityStale where
  kept id k before := by
    rw [Kept, held_invalidateLocalityStale]
    exact before
  tracked h id q found := by
    rw [MemoryManager.invalidateLocalityStale, ExtTreeMap.getElem?_map] at found
    obtain ⟨r, there, rfl⟩ := Option.map_eq_some_iff.mp found
    have accounted := h id r there
    split_ifs
    · exact ⟨accounted.ended, accounted.stands⟩
    · exact accounted

end Buffers

/-- The condition on a call: a transition that is asked for ends no region that is not over. -/
def EndsNone (s : MigrationManager β) : Call → Prop
  | .managed (.transition id next) => SparesStanding s.mem id next
  | _ => True

/-- A call that moves a region finds its bytes on the ledger. -/
def Covers (b : Backend β) (s : MigrationManager β) (call : Call) : Prop :=
  ∀ id target, reallocation s call = some (id, target) → Covered b s.mem id target

/-- A call ends no region by a transition, and finds the bytes of a region it moves. -/
def Keeps (b : Backend β) (s : MigrationManager β) (call : Call) : Prop :=
  EndsNone s call ∧ Covers b s call

structure Sound (s : MemoryManager β) : Prop where
  attributed : Attributed s
  owned : Owned s
  tracked : Tracked s
  numbered : Numbered s

section Run
variable {s : MigrationManager β} {call : Call}

theorem sparesStanding_of_endsNone (ends : EndsNone s call) {id : MemoryRegionId}
    {next : LifecycleState} (named : next.isReleased = true → call = .managed (.transition id next)) :
    SparesStanding s.mem id next := by
  intro r found good ended
  rw [named ended] at ends
  exact ends r found good ended

theorem carried_step (numbered : Numbered s.mem) (keeps : Keeps b s call) :
    Carried s.mem (step b s call).mem :=
  step_memory call (Carried.refl _) (carried_allocate numbered) carried_release
    carried_invalidateLocalityStale
    (fun _ _ named => carried_transition (sparesStanding_of_endsNone keeps.1 named))
    (fun id target copyData moves => carried_governed copyData (keeps.2 id target moves))

theorem sound_step (h : Sound s.mem) (keeps : Keeps b s call) : Sound (step b s call).mem where
  attributed := step_memory call h.attributed (h.attributed.allocate h.numbered) h.attributed.release
    h.attributed.invalidateLocalityStale
    (fun _ _ named => h.attributed.transition (sparesStanding_of_endsNone keeps.1 named))
    (fun id target copyData moves => h.attributed.governed copyData (keeps.2 id target moves))
  owned := step_memory call h.owned h.owned.allocate h.owned.release h.owned.invalidateLocalityStale
    (fun id next _ => h.owned.transition id next)
    (fun id target copyData moves => h.owned.governed id target copyData (keeps.2 id target moves))
  tracked := (carried_step h.numbered keeps).tracked h.tracked
  numbered := numbered_step s h.numbered call

theorem initial_sound (backend : β) (heap : Heap) : Sound (initial backend heap).mem where
  attributed := ⟨fun n _ => Nat.zero_le _, fun n v present => by simp [initial] at present⟩
  owned := initial_owned backend heap
  tracked id r found := by simp [initial] at found
  numbered := initial_numbered backend heap

theorem sound_run {backend : β} {heap : Heap} {calls : List Call}
    (keeps : Meets (step b) (Keeps b) (initial backend heap) calls) :
    Sound (run b backend heap calls).mem := by
  have keep : ∀ (s : MigrationManager β) (call : Call), Sound s.mem → Keeps b s call →
      Sound (step b s call).mem := fun s call h here => sound_step h here
  exact foldl_invariant keep (initial_sound backend heap) keeps

/-- What a region once had, it still has or has given back. -/
theorem kept_run {backend : β} {heap : Heap} {pre post : List Call}
    (keeps : Meets (step b) (Keeps b) (initial backend heap) (pre ++ post)) {id : MemoryRegionId}
    {k : ℕ} (had : Kept (run b backend heap pre).mem id k) :
    Kept (run b backend heap (pre ++ post)).mem id k := by
  induction post using List.reverseRecOn with
  | nil =>
    rw [List.append_nil]
    exact had
  | append_singleton post call ih =>
    rw [← List.append_assoc] at keeps ⊢
    obtain ⟨before, here, -⟩ := meets_append.mp keeps
    rw [run, List.foldl_append]
    exact (carried_step (sound_run before).numbered here).kept id k (ih before)

end Run

/-- After the calls, no region that is over has left anything behind: the ledger counts no bytes but
those of the other regions, every buffer it ever had was given back once, and the accounts are clean
when every region is over. -/
structure StrandsNothing (b : Backend β) (backend : β) (heap : Heap) (calls : List Call) : Prop where
  charged : ∀ n : NumaNodeId, (entry (run b backend heap calls).mem.nodeUsage n).toNat ≤
    standingTotal n (run b backend heap calls).mem
  freed : ∀ pre, pre <+: calls → ∀ (id : MemoryRegionId) (q r : MemoryRegion),
    (run b backend heap pre).mem.regions[id]? = some q →
    (run b backend heap calls).mem.regions[id]? = some r → r.state.isReleased = true →
    q.backendResult.handle ≠ 0 →
    (run b backend heap calls).mem.world.frees.count q.backendResult.handle = 1
  clean : (∀ (id : MemoryRegionId) (r : MemoryRegion),
    (run b backend heap calls).mem.regions[id]? = some r → r.state.isReleased = true) →
    accountingClean (run b backend heap calls).mem = true

theorem Attributed.entry_le {s : MemoryManager β} (h : Attributed s) (n : NumaNodeId) :
    (entry s.nodeUsage n).toNat ≤ standingTotal n s := by
  cases present : s.nodeUsage[n]? with
  | none =>
    rw [entry_of_none present]
    exact Nat.zero_le _
  | some v => exact h.bounded n (h.placed n v present).1

theorem Tracked.kept {s : MemoryManager β} (h : Tracked s) {id : MemoryRegionId} {r : MemoryRegion}
    (found : s.regions[id]? = some r) (given : r.backendResult.handle ≠ 0) :
    Kept s id r.backendResult.handle := by
  cases done : r.state.isReleased with
  | true => exact .inr ((h id r found).ended done given)
  | false => exact .inl (held_of_standing found done)

theorem strandsNothing_of_meets {backend : β} {heap : Heap} {calls : List Call}
    (keeps : Meets (step b) (Keeps b) (initial backend heap) calls) :
    StrandsNothing b backend heap calls where
  charged := (sound_run keeps).attributed.entry_le
  freed := by
    rintro pre ⟨post, rfl⟩ id q r before after ended given
    have early := sound_run (meets_append.mp keeps).1
    have late := sound_run keeps
    rcases kept_run keeps (early.tracked.kept before given) with had | freed
    · rw [(handle_of_held after had).1] at ended
      cases ended
    · exact List.count_eq_one_of_mem late.owned.once freed
  clean := (sound_run keeps).attributed.clean

/-- A region that is ended by a transition keeps its buffer for good. -/
theorem stranded_of_transition {backend : β} {heap : Heap} {pre : List Call} {id : MemoryRegionId}
    {next : LifecycleState} (sound : Sound (run b backend heap pre).mem)
    (ends : ¬SparesStanding (run b backend heap pre).mem id next) :
    ¬StrandsNothing b backend heap (pre ++ [.managed (.transition id next)]) := by
  intro nothing
  simp only [SparesStanding, not_forall] at ends
  obtain ⟨r, found, good, ended, stands⟩ := ends
  rw [Bool.not_eq_true] at stands
  have after : (run b backend heap (pre ++ [.managed (.transition id next)])).mem =
      { (run b backend heap pre).mem with
        regions := (run b backend heap pre).mem.regions.insert id { r with state := next } } := by
    rw [run, List.foldl_append, List.foldl_cons, List.foldl_nil, step, MigrationManager.step,
      stateAfter_onMemory]
    exact stateAfter_of_ok (transition_run found good)
  have once := nothing.freed pre (List.prefix_append _ _) id r { r with state := next } found
    (by rw [after, ExtTreeMap.getElem?_insert_self]) ended ((sound.tracked id r found).stands stands)
  rw [after] at once
  refine sound.owned.unspent id _ (held_of_standing found stands) (List.count_pos_iff.mp ?_)
  rw [once]
  exact Nat.one_pos

/-- Where every call so far kept the regions, a call that does not find its bytes or ends a region
is the first to break the run. -/
theorem endsNone_of_strandsNothing {backend : β} {heap : Heap} {pre : List Call} {call : Call}
    (keeps : Meets (step b) (Keeps b) (initial backend heap) pre)
    (nothing : StrandsNothing b backend heap (pre ++ [call])) :
    EndsNone (run b backend heap pre) call := by
  cases call with
  | governedReallocate id target copyData => trivial
  | managed op =>
    cases op with
    | transition id next =>
      by_contra ends
      exact stranded_of_transition (sound_run keeps) ends nothing
    | _ => trivial

/-- The calls of a run keep the regions exactly when its migrations find their bytes on the ledger
and no region that is over ever leaves anything behind. -/
theorem strands_nothing_iff (b : Backend β) (backend : β) (heap : Heap) (calls : List Call) :
    Meets (step b) (fun s call => EndsNone s call ∧ Covers b s call) (initial backend heap) calls ↔
      Meets (step b) (Covers b) (initial backend heap) calls ∧
        ∀ pre, pre <+: calls → StrandsNothing b backend heap pre := by
  constructor
  · intro keeps
    refine ⟨keeps.mono fun _ _ here => here.2, ?_⟩
    rintro pre ⟨post, rfl⟩
    exact strandsNothing_of_meets (meets_append.mp keeps).1
  · rintro ⟨covers, all⟩
    rcases meets_or_stops (step b) (Keeps b) (initial backend heap) calls with
      keeps | ⟨pre, call, post, rfl, keeps, stops⟩
    · exact keeps
    · have covered : Covers b (run b backend heap pre) call := (meets_append.mp covers).2.1
      have nothing := all (pre ++ [call]) ⟨post, by rw [List.append_assoc, List.singleton_append]⟩
      exact absurd ⟨endsNone_of_strandsNothing keeps nothing, covered⟩ stops

/-- Enough for a call that moves a region: the ledger has its bytes. -/
theorem covers_of_all {s : MigrationManager β} {call : Call}
    (all : (reallocation s call).all (fun p => s.mem.regions[p.1]?.all fun r =>
      !underflows r s.mem.nodeUsage) = true) : Covers b s call := by
  intro id target moves r found _ _
  rw [moves, Option.all_some, found, Option.all_some, Bool.not_eq_true'] at all
  exact all

/-- Allocated, moved to the second node and released. -/
theorem strands_nothing_iff_moved_region :
    let calls : List Call := [.managed (.allocate { bytes := ⟨1⟩ }),
      .managed (.begin { memoryRegion := ⟨1⟩, targetNode := ⟨2⟩ }), .managed (.execute ⟨1⟩),
      .managed (.release ⟨1⟩ none)]
    StrandsNothing (SyntheticBackend.backend {}) {} (fun _ => 0) calls ∧
      (run (SyntheticBackend.backend {}) {} (fun _ => 0) calls).mem.world.frees = [1, 2] := by
  intro calls
  have ledger : Meets (step (SyntheticBackend.backend {})) (fun s call => (reallocation s call).all (fun p =>
      s.mem.regions[p.1]?.all fun r => !underflows r s.mem.nodeUsage) = true)
      (initial {} fun _ => 0) calls := by decide +kernel
  have covers := ledger.mono fun s call all => covers_of_all (b := SyntheticBackend.backend {}) all
  have keeps : Meets (step (SyntheticBackend.backend {})) (Keeps (SyntheticBackend.backend {}))
      (initial {} fun _ => 0) calls :=
    ⟨⟨trivial, covers.1⟩, ⟨trivial, covers.2.1⟩, ⟨trivial, covers.2.2.1⟩, ⟨trivial, covers.2.2.2.1⟩,
      trivial⟩
  exact ⟨((strands_nothing_iff _ _ _ calls).mp keeps).2 calls List.prefix_rfl, by decide +kernel⟩

/-- An active region is invalidated: its byte stays on the ledger, and its buffer is never freed. -/
theorem invalidated_region_strands :
    ¬ ∀ {β : Type} (b : Backend β) (backend : β) (heap : Heap) (calls pre : List Call), pre <+: calls →
      StrandsNothing b backend heap pre := by
  intro nothing
  let calls : List Call :=
    [.managed (.allocate { bytes := ⟨1⟩ }), .managed (.transition ⟨1⟩ .invalidated)]
  have counted := (nothing (SyntheticBackend.backend {}) {} (fun _ => 0) calls calls List.prefix_rfl).charged ⟨1⟩
  exact absurd counted (by decide +kernel)

end NumaFabric.TerminalRegions
