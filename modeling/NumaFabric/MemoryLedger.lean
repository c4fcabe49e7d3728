import NumaFabric.MemoryOutcome

/-! The ledger of the memory manager against the live regions: every operation charges,
moves or discharges a region at the node its own fields choose. -/
namespace NumaFabric.MemoryLedger
open Std FaultState LedgerCounter LedgerTotal MemoryManager

variable {β : Type} {b : Backend β} {s : MemoryManager β}

/-- The bytes a live region holds on a node. -/
def amount (n : NumaNodeId) (r : MemoryRegion) : ℕ := if r.state.isLive then chargedOn n r else 0

/-- The exact bytes that live regions hold on a node. -/
def liveTotal (n : NumaNodeId) (s : MemoryManager β) : ℕ := total (fun _ r => amount n r) s.regions

/-- No node is charged more than its counter can hold. -/
def Fits (s : MemoryManager β) : Prop := ∀ n, liveTotal n s < 2 ^ 64

/-- Entries stand for valid nodes and are never left at zero. -/
def Tidy (m : Ledger NumaNodeId 64) : Prop :=
  ∀ (n : NumaNodeId) (v : U64), m[n]? = some v → n.isValid = true ∧ v ≠ 0

/-- A region is over, or it is live and holds bytes. -/
def Settled (r : MemoryRegion) : Prop :=
  r.state.isReleased = true ∨ r.state.isLive = true ∧ r.grantedBytes.value ≠ 0

structure Exact (s : MemoryManager β) : Prop where
  entries : ∀ n : NumaNodeId, n.isValid = true → (entry s.nodeUsage n).toNat = liveTotal n s
  tidy : Tidy s.nodeUsage
  settled : ∀ (id : MemoryRegionId) (r : MemoryRegion), s.regions[id]? = some r → Settled r
  issued : ∀ (id : MemoryRegionId) (r : MemoryRegion), s.regions[id]? = some r →
    id.value.toNat ≤ s.watermark.value.toNat
  aligned : s.watermark.value ≠ u64Max → s.nextId.toNat = s.watermark.value.toNat + 1

/-- Regions stand under numbers that were issued, and the next number was not. -/
structure Numbered (s : MemoryManager β) : Prop where
  issued : ∀ (id : MemoryRegionId) (r : MemoryRegion), s.regions[id]? = some r →
    id.value.toNat ≤ s.watermark.value.toNat
  aligned : s.watermark.value ≠ u64Max → s.nextId.toNat = s.watermark.value.toNat + 1

theorem Exact.numbered (h : Exact s) : Numbered s := ⟨h.issued, h.aligned⟩

theorem Numbered.fresh (h : Numbered s) {g : MemoryGeneration} (next : s.watermark.next = .ok g) :
    s.regions[(⟨s.nextId⟩ : MemoryRegionId)]? = none := by
  by_contra hne
  obtain ⟨q, hq⟩ := Option.ne_none_iff_exists'.mp hne
  have issued := h.issued _ q hq
  have aligned := h.aligned (Generation.ne_max_of_next next)
  dsimp only at issued
  omega

theorem Numbered.rewrite (h : Numbered s) {t : MemoryManager β} {id : MemoryRegionId}
    {r r' : MemoryRegion} (found : s.regions[id]? = some r)
    (regions_eq : t.regions = s.regions.insert id r') (watermark_eq : t.watermark = s.watermark)
    (nextId_eq : t.nextId = s.nextId) : Numbered t where
  issued j q hq := by
    rw [regions_eq, ExtTreeMap.getElem?_insert] at hq
    rw [watermark_eq]
    split_ifs at hq with hj
    · rw [← Std.compare_eq_iff_eq.mp hj]
      exact h.issued id r found
    · exact h.issued j q hq
  aligned := by rw [watermark_eq, nextId_eq]; exact h.aligned

theorem Numbered.record (h : Numbered s) {g : MemoryGeneration} (next : s.watermark.next = .ok g)
    (r : MemoryRegion) {t : MemoryManager β} (regions_eq : t.regions = s.regions.insert ⟨s.nextId⟩ r)
    (watermark_eq : t.watermark = g) (nextId_eq : t.nextId = s.nextId + 1) : Numbered t where
  issued j q hq := by
    have advanced := Generation.next_ok next
    rw [regions_eq, ExtTreeMap.getElem?_insert] at hq
    rw [watermark_eq]
    split_ifs at hq with hj
    · rw [← Std.compare_eq_iff_eq.mp hj]
      have aligned := h.aligned (Generation.ne_max_of_next next)
      dsimp only
      omega
    · have := h.issued j q hq
      omega
  aligned hne := by
    have advanced := Generation.next_ok next
    have aligned := h.aligned (Generation.ne_max_of_next next)
    rw [watermark_eq] at hne ⊢
    have small := value_lt_max hne
    rw [nextId_eq, u64_succ aligned.le (by omega)]
    omega

theorem liveTotal_insert_of_none (n : NumaNodeId) {id : MemoryRegionId} (r : MemoryRegion)
    (fresh : s.regions[id]? = none) {t : MemoryManager β}
    (regions_eq : t.regions = s.regions.insert id r) :
    liveTotal n t = liveTotal n s + amount n r := by
  rw [liveTotal, regions_eq, total_insert_of_none _ r fresh, liveTotal]

theorem liveTotal_insert_of_some (n : NumaNodeId) {id : MemoryRegionId} {r : MemoryRegion}
    (r' : MemoryRegion) (found : s.regions[id]? = some r) {t : MemoryManager β}
    (regions_eq : t.regions = s.regions.insert id r') :
    liveTotal n t + amount n r = liveTotal n s + amount n r' := by
  rw [liveTotal, regions_eq, liveTotal]
  exact total_insert_of_some (fun _ r => amount n r) r' found

theorem amount_of_dead {r : MemoryRegion} (n : NumaNodeId) (dead : r.state.isLive = false) :
    amount n r = 0 := by
  simp [amount, dead]

theorem amount_of_live {r : MemoryRegion} (n : NumaNodeId) (live : r.state.isLive = true) :
    amount n r = chargedOn n r := by
  simp [amount, live]

theorem amount_le_liveTotal (n : NumaNodeId) {id : MemoryRegionId} {r : MemoryRegion}
    (found : s.regions[id]? = some r) : amount n r ≤ liveTotal n s :=
  le_total (fun _ r => amount n r) found

theorem tidy_charged {m : Ledger NumaNodeId 64} {r : MemoryRegion} (h : Tidy m)
    (nonzero : r.grantedBytes.value ≠ 0)
    (fits : ∀ n : NumaNodeId, n.isValid = true → (entry m n).toNat + chargedOn n r < 2 ^ 64) :
    Tidy (charged r m) := by
  unfold charged
  split_ifs with hv
  · intro n v hn
    rw [getElem?_charge] at hn
    split_ifs at hn with hk
    · subst hk
      refine ⟨hv, fun hz => nonzero ?_⟩
      have := fits _ hv
      rw [chargedOn, if_pos rfl] at this
      rw [← Option.some.inj hn] at hz
      have sum := BitVec.toNat_add_of_lt this
      rw [hz] at sum
      apply BitVec.toNat_inj.mp
      simp only [BitVec.ofNat_eq_ofNat, BitVec.toNat_zero] at sum ⊢
      omega
    · exact h n v hn
  · exact h

theorem tidy_discharged {m : Ledger NumaNodeId 64} {r : MemoryRegion} (h : Tidy m) :
    Tidy (discharged r m) := by
  unfold discharged
  split_ifs with hv
  · intro n v hn
    rw [getElem?_settle] at hn
    split_ifs at hn with hk hz
    · subst hk
      rw [← Option.some.inj hn]
      exact ⟨hv, hz⟩
    · exact h n v hn
  · exact h

theorem Exact.covered (h : Exact s) {id : MemoryRegionId} {r : MemoryRegion}
    (found : s.regions[id]? = some r) (live : r.state.isLive = true) :
    underflows r s.nodeUsage = false := by
  unfold underflows
  cases hv : r.chooseObservedNode.isValid with
  | false => rfl
  | true =>
    have le := amount_le_liveTotal r.chooseObservedNode found
    rw [amount_of_live _ live, chargedOn, if_pos rfl, ← h.entries _ hv] at le
    simp only [Bool.true_and, decide_eq_false_iff_not, BitVec.not_lt]
    exact BitVec.le_def.mpr le

/-- A region is rewritten and the ledger moves by the difference of the two amounts. -/
theorem Exact.replace (h : Exact s) {id : MemoryRegionId} {r r' : MemoryRegion}
    (found : s.regions[id]? = some r) {m : Ledger NumaNodeId 64} {w : World β}
    (moved : ∀ n : NumaNodeId, n.isValid = true →
      (entry m n).toNat + amount n r = (entry s.nodeUsage n).toNat + amount n r')
    (tidy : Tidy m) (settled : Settled r') :
    Exact { s with regions := s.regions.insert id r', nodeUsage := m, world := w } where
  entries n valid := by
    have total := liveTotal_insert_of_some n r' found
      (t := { s with regions := s.regions.insert id r', nodeUsage := m, world := w }) rfl
    have old := h.entries n valid
    have := moved n valid
    dsimp only at this ⊢
    omega
  tidy := tidy
  settled j q hq := by
    rw [ExtTreeMap.getElem?_insert] at hq
    split_ifs at hq with hj
    · cases hq
      exact settled
    · exact h.settled j q hq
  issued := (h.numbered.rewrite (t := { s with regions := s.regions.insert id r', nodeUsage := m, world := w })
    found rfl rfl rfl).issued
  aligned := h.aligned

/-- A rewrite that keeps the amount needs no move. -/
theorem Exact.rewrite (h : Exact s) {id : MemoryRegionId} {r r' : MemoryRegion}
    (found : s.regions[id]? = some r) (w : World β) (same : ∀ n, amount n r' = amount n r)
    (settled : Settled r') :
    Exact { s with regions := s.regions.insert id r', world := w } :=
  h.replace found (fun n _ => by rw [same]) h.tidy settled

/-- The accounts do not look at the world. -/
theorem Exact.setWorld (h : Exact s) (w : World β) : Exact { s with world := w } :=
  ⟨h.entries, h.tidy, h.settled, h.issued, h.aligned⟩

/-- Every allocation the backend hands out has exactly the bytes asked for. -/
def Grants (b : Backend β) : Prop :=
  ∀ spec x result x', (b.allocate spec).run x = .ok result x' → result.grantedBytes = spec.bytes

theorem Grants.world (h : Grants b) {spec : AllocationSpec} {w w' : World β}
    {result : AllocationResult} (call : (World.allocate b spec).run w = .ok result w') :
    result.grantedBytes = spec.bytes := by
  obtain ⟨r, x, hr, rfl, -⟩ := World.allocate_eq_ok call
  exact h spec _ r _ hr

/-- A new region is recorded under a fresh identity. -/
theorem Exact.record (h : Exact s) {g : MemoryGeneration} (next : s.watermark.next = .ok g)
    (r : MemoryRegion) {m : Ledger NumaNodeId 64} {w : World β}
    (moved : ∀ n : NumaNodeId, n.isValid = true →
      (entry m n).toNat = (entry s.nodeUsage n).toNat + amount n r)
    (tidy : Tidy m) (settled : Settled r) :
    Exact { s with
            regions := s.regions.insert ⟨s.nextId⟩ r, nodeUsage := m
            nextId := s.nextId + 1, watermark := g, world := w } where
  entries n valid := by
    rw [liveTotal_insert_of_none n r (h.numbered.fresh next) rfl, ← h.entries n valid]
    exact moved n valid
  tidy := tidy
  settled j q hq := by
    rw [ExtTreeMap.getElem?_insert] at hq
    split_ifs at hq with hj
    · cases hq
      exact settled
    · exact h.settled j q hq
  issued := (h.numbered.record next r (t := { s with
    regions := s.regions.insert ⟨s.nextId⟩ r, nodeUsage := m, nextId := s.nextId + 1, watermark := g
    world := w }) rfl rfl rfl).issued
  aligned := (h.numbered.record next r (t := { s with
    regions := s.regions.insert ⟨s.nextId⟩ r, nodeUsage := m, nextId := s.nextId + 1, watermark := g
    world := w }) rfl rfl rfl).aligned

theorem amount_failedRegion (id : MemoryRegionId) (g : MemoryGeneration) (req : AllocateRequest)
    (n : NumaNodeId) : amount n (failedRegion id g req) = 0 := rfl

theorem grantedRegion_isLive (id : MemoryRegionId) (g : MemoryGeneration) (req : AllocateRequest)
    (result : AllocationResult) : (grantedRegion id g req result).state.isLive = true := by
  simp only [grantedRegion, MemoryRegion.granted]
  cases req.touch <;> rfl

theorem Exact.allocate (h : Exact s) (grants : Grants b) (req : AllocateRequest)
    (fits : Fits (stateAfter (MemoryManager.allocate b req) s)) :
    Exact (stateAfter (MemoryManager.allocate b req) s) := by
  have ho := allocate_outcome b req s
  generalize hres : (MemoryManager.allocate b req).run s = res at ho
  cases ho with
  | zero bad => rw [stateAfter_of_error hres]; exact h
  | exhausted last =>
    rw [stateAfter_of_error hres]
    exact ⟨h.entries, h.tidy, h.settled, h.issued, fun hne => absurd last hne⟩
  | failed g e w nonzero next call =>
    rw [stateAfter_of_ok hres]
    refine h.record next _ (fun n _ => ?_) h.tidy (.inl rfl)
    rw [amount_failedRegion, Nat.add_zero]
  | granted g result w nonzero next call r region_eq =>
    rw [stateAfter_of_ok hres] at fits ⊢
    have live : r.state.isLive = true := by rw [region_eq]; exact grantedRegion_isLive _ _ _ _
    have bytes : r.grantedBytes.value ≠ 0 := by
      have same : r.grantedBytes = result.grantedBytes := by rw [region_eq]; rfl
      rw [same, grants.world call]
      simpa [Quantity.isZero, AllocateRequest.spec] using nonzero
    have room : ∀ n : NumaNodeId, n.isValid = true →
        (entry s.nodeUsage n).toNat + chargedOn n r < 2 ^ 64 := by
      intro n valid
      have := fits n
      rw [liveTotal_insert_of_none n r (h.numbered.fresh next) rfl, ← h.entries n valid,
        amount_of_live n live] at this
      exact this
    refine h.record next r (fun n valid => ?_) (tidy_charged h.tidy bytes room)
      (.inr ⟨live, bytes⟩)
    rw [entry_charged valid (room n valid), amount_of_live n live]

theorem Exact.live_of_not_released (h : Exact s) {id : MemoryRegionId} {r : MemoryRegion}
    (found : s.regions[id]? = some r) (standing : r.state.isReleased = false) :
    r.state.isLive = true ∧ r.grantedBytes.value ≠ 0 := by
  obtain ended | live := h.settled id r found
  · rw [ended] at standing
    cases standing
  · exact live

theorem isReleased_of_isLive {st : LifecycleState} (live : st.isLive = true) :
    st.isReleased = false := by
  cases st <;> first | rfl | cases live

theorem grantedRegion_stands (id : MemoryRegionId) (g : MemoryGeneration) (req : AllocateRequest)
    (result : AllocationResult) : (grantedRegion id g req result).state.isReleased = false :=
  isReleased_of_isLive (grantedRegion_isLive id g req result)

theorem isLive_of_migrateRefusal {r : MemoryRegion} {id : MemoryRegionId}
    (good : migrateRefusal r id = none) : r.state.isLive = true := by
  rw [pending_of_migrateRefusal good]
  rfl

theorem isReleased_of_migrateRefusal {r : MemoryRegion} {id : MemoryRegionId}
    (good : migrateRefusal r id = none) : r.state.isReleased = false :=
  isReleased_of_isLive (isLive_of_migrateRefusal good)

theorem isReleased_of_releaseRefusal {r : MemoryRegion} {id : MemoryRegionId}
    {expected : Option MemoryGeneration} (good : releaseRefusal r id expected = none) :
    r.state.isReleased = false := by
  unfold releaseRefusal at good
  split_ifs at good with _ hr
  exact Bool.eq_false_iff.mpr hr

theorem Exact.release (h : Exact s) (id : MemoryRegionId) (expected : Option MemoryGeneration) :
    Exact (stateAfter (MemoryManager.release b id expected) s) := by
  have ho := release_outcome b id expected s
  generalize hres : (MemoryManager.release b id expected).run s = res at ho
  cases ho with
  | unknown absent => rw [stateAfter_of_error hres]; exact h
  | refused r e found bad => rw [stateAfter_of_error hres]; exact h
  | underflow r found good under =>
    obtain ⟨live, -⟩ := h.live_of_not_released found (isReleased_of_releaseRefusal good)
    rw [h.covered found live] at under
    cases under
  | released r found good covered =>
    rw [stateAfter_of_ok hres]
    obtain ⟨live, -⟩ := h.live_of_not_released found (isReleased_of_releaseRefusal good)
    refine h.replace found (fun n valid => ?_) (tidy_discharged h.tidy) (.inl rfl)
    rw [amount_of_live n live, entry_discharged valid covered]
    rfl

theorem isLive_of_canTransition {st next : LifecycleState} (h : canTransition st next = true)
    (inner : next = .migrationPending ∨ next = .active) : st.isLive = true := by
  rcases inner with rfl | rfl <;> cases st <;> first | rfl | cases h

/-- A transition that begins or undoes a migration moves no bytes. -/
theorem Exact.transition (h : Exact s) (id : MemoryRegionId) {next : LifecycleState}
    (inner : next = .migrationPending ∨ next = .active) :
    Exact (stateAfter (MemoryManager.transition id next) s) := by
  have ho := transition_outcome id next s
  generalize hres : (MemoryManager.transition id next).run s = res at ho
  cases ho with
  | unknown absent => rw [stateAfter_of_error hres]; exact h
  | notGuarded r found bad => rw [stateAfter_of_error hres]; exact h
  | moved r found good =>
    rw [stateAfter_of_ok hres]
    have old := isLive_of_canTransition good inner
    have live : next.isLive = true := by rcases inner with rfl | rfl <;> rfl
    obtain ⟨-, bytes⟩ := h.live_of_not_released found (isReleased_of_isLive old)
    refine h.rewrite found s.world (fun n => ?_) (.inr ⟨live, bytes⟩)
    rw [amount_of_live n old, amount_of_live n live]
    rfl

/-- The charged bytes move with the region, wherever its new fields put it. -/
theorem Exact.move (h : Exact s) {id : MemoryRegionId} {r r' : MemoryRegion} {w : World β}
    (found : s.regions[id]? = some r) (live : r.state.isLive = true)
    (covered : underflows r s.nodeUsage = false) (live' : r'.state.isLive = true)
    (bytes : r'.grantedBytes.value ≠ 0)
    (room : ∀ n : NumaNodeId, n.isValid = true →
      (entry (discharged r s.nodeUsage) n).toNat + chargedOn n r' < 2 ^ 64) :
    Exact { s with
            regions := s.regions.insert id r'
            nodeUsage := charged r' (discharged r s.nodeUsage), world := w } := by
  refine h.replace found (fun n valid => ?_)
    (tidy_charged (tidy_discharged h.tidy) bytes room) (.inr ⟨live', bytes⟩)
  have := entry_discharged valid covered
  rw [entry_charged valid (room n valid), amount_of_live n live, amount_of_live n live']
  omega

theorem Exact.commit (h : Exact s) {id : MemoryRegionId} {r r' : MemoryRegion} {w : World β}
    (found : s.regions[id]? = some r) (live : r.state.isLive = true)
    (covered : underflows r s.nodeUsage = false) (live' : r'.state.isLive = true)
    (bytes : r'.grantedBytes.value ≠ 0)
    (fits : Fits { s with
                   regions := s.regions.insert id r'
                   nodeUsage := charged r' (discharged r s.nodeUsage), world := w }) :
    Exact { s with
            regions := s.regions.insert id r'
            nodeUsage := charged r' (discharged r s.nodeUsage), world := w } := by
  refine h.move found live covered live' bytes fun n valid => ?_
  have total := liveTotal_insert_of_some n r' found (t := { s with
    regions := s.regions.insert id r'
    nodeUsage := charged r' (discharged r s.nodeUsage), world := w }) rfl
  rw [amount_of_live n live, amount_of_live n live'] at total
  have := fits n
  have := entry_discharged valid covered
  have := h.entries n valid
  omega

theorem Exact.governed (h : Exact s) (id : MemoryRegionId) (target : NumaNodeId) (copyData : Bool)
    (advances : ∀ r, s.regions[id]? = some r → migrateRefusal r id = none →
      ¬ Declines b r target s.world → r.generation.value ≠ u64Max)
    (fits : Fits (stateAfter (governedReallocate b id target copyData) s)) :
    Exact (stateAfter (governedReallocate b id target copyData) s) := by
  have ho := governed_outcome b id target copyData s
  generalize hres : (governedReallocate b id target copyData).run s = res at ho
  cases ho with
  | unknown absent => rw [stateAfter_of_error hres]; exact h
  | refused r e found bad => rw [stateAfter_of_error hres]; exact h
  | retained r found good declined =>
    rw [stateAfter_of_ok hres]
    have live := isLive_of_migrateRefusal good
    obtain ⟨-, bytes⟩ := h.live_of_not_released found (isReleased_of_isLive live)
    refine h.rewrite found _ (fun n => ?_) (.inr ⟨rfl, bytes⟩)
    rw [amount_of_live n live]
    exact amount_of_live n rfl
  | underflow r result w found good call usable under =>
    have live := isLive_of_migrateRefusal good
    rw [h.covered found live] at under
    cases under
  | exhausted r result w found good call usable covered last =>
    refine absurd last (advances r found good fun declined => ?_)
    rw [declined result w call] at usable
    cases usable
  | committed r result w g found good call usable covered next view done =>
    rw [stateAfter_of_ok hres] at fits ⊢
    have live := isLive_of_migrateRefusal good
    obtain ⟨-, bytes⟩ := h.live_of_not_released found (isReleased_of_isLive live)
    exact h.commit found live covered rfl bytes fits

theorem Exact.invalidateLocalityStale (h : Exact s) : Exact s.invalidateLocalityStale where
  entries n valid := by
    rw [liveTotal, MemoryManager.invalidateLocalityStale, total_map]
    refine (h.entries n valid).trans (total_congr fun id r _ => ?_)
    split_ifs <;> rfl
  tidy := h.tidy
  settled id q hq := by
    rw [MemoryManager.invalidateLocalityStale, ExtTreeMap.getElem?_map] at hq
    obtain ⟨r, hr, rfl⟩ := Option.map_eq_some_iff.mp hq
    have := h.settled id r hr
    split_ifs
    · exact this
    · exact this
  issued id q hq := by
    rw [MemoryManager.invalidateLocalityStale, ExtTreeMap.getElem?_map] at hq
    obtain ⟨r, hr, -⟩ := Option.map_eq_some_iff.mp hq
    exact h.issued id r hr
  aligned := h.aligned

theorem Exact.release_ok (h : Exact s) {id : MemoryRegionId} {r : MemoryRegion}
    {expected : Option MemoryGeneration} (found : s.regions[id]? = some r)
    (live : r.state.isLive = true) (current : ∀ g ∈ expected, g = r.generation) :
    ∃ t, (MemoryManager.release b id expected).run s = .ok () t := by
  have good : releaseRefusal r id expected = none := by
    have matching : expected.any (fun g => g != r.generation) = false := by
      cases expected with
      | none => rfl
      | some g => simp [current g rfl]
    have permitted : canTransition r.state .invalidated = true := by
      generalize r.state = st at live
      cases st <;> first | rfl | cases live
    simp [releaseRefusal, matching, isReleased_of_isLive live, permitted]
  have ho := release_outcome b id expected s
  generalize (MemoryManager.release b id expected).run s = res at ho
  cases ho with
  | unknown absent => rw [absent] at found; cases found
  | refused q e found' bad => rw [found'] at found; cases found; rw [good] at bad; cases bad
  | underflow q found' good' under =>
    rw [found'] at found
    cases found
    rw [h.covered found' live] at under
    cases under
  | released q found' good' covered => exact ⟨_, rfl⟩

theorem Exact.clean_iff (h : Exact s) : accountingClean s = true ↔
    ∀ (id : MemoryRegionId) (r : MemoryRegion), s.regions[id]? = some r → r.state.isLive = false := by
  have dead : (!s.regions.toList.any fun p => p.2.state.isLive) = true ↔
      ∀ (id : MemoryRegionId) (r : MemoryRegion), s.regions[id]? = some r →
        r.state.isLive = false := by
    simp only [Bool.not_eq_true', List.any_eq_false, Bool.not_eq_true, Prod.forall,
      ExtTreeMap.mem_toList_iff_getElem?_eq_some]
  rw [accountingClean, Bool.and_eq_true, dead]
  refine ⟨fun hc => hc.1, fun hd => ⟨hd, ?_⟩⟩
  rw [ExtTreeMap.isEmpty_iff, ExtTreeMap.eq_empty_iff_forall_not_mem]
  intro n hn
  obtain ⟨v, hv⟩ := Option.isSome_iff_exists.mp (ExtTreeMap.mem_iff_isSome_getElem?.mp hn)
  obtain ⟨valid, nonzero⟩ := h.tidy n v hv
  have none_left : liveTotal n s = 0 := total_eq_zero fun id r hr => amount_of_dead n (hd id r hr)
  rw [← h.entries n valid, entry_of_some hv] at none_left
  exact nonzero (BitVec.toNat_inj.mp none_left)

end NumaFabric.MemoryLedger
