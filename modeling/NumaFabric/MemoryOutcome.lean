import NumaFabric.MigrationManager
import NumaFabric.LedgerTotal

/-! What one call of the memory manager can do: every way it returns or throws, with the
guards that lead there and the state it leaves. -/
namespace NumaFabric
open Std FaultState LedgerCounter LedgerTotal

namespace MemoryManager
variable {β : Type} {b : Backend β} {s : MemoryManager β}

/-- The ledger after a region is charged to its node, if it has one. -/
def charged (r : MemoryRegion) (m : Ledger NumaNodeId 64) : Ledger NumaNodeId 64 :=
  if r.chooseObservedNode.isValid then charge m r.chooseObservedNode r.grantedBytes.value else m

/-- The ledger after a region is taken off its node, if it has one. -/
def discharged (r : MemoryRegion) (m : Ledger NumaNodeId 64) : Ledger NumaNodeId 64 :=
  if r.chooseObservedNode.isValid then
    settle m r.chooseObservedNode (entry m r.chooseObservedNode - r.grantedBytes.value)
  else m

/-- The ledger does not hold the bytes of the region. -/
def underflows (r : MemoryRegion) (m : Ledger NumaNodeId 64) : Bool :=
  r.chooseObservedNode.isValid && decide (entry m r.chooseObservedNode < r.grantedBytes.value)

/-- The bytes a region is charged on a node. -/
def chargedOn (n : NumaNodeId) (r : MemoryRegion) : ℕ :=
  if r.chooseObservedNode = n then r.grantedBytes.value.toNat else 0

/-- A charge that fits adds the bytes of the region at every valid node. -/
theorem entry_charged {m : Ledger NumaNodeId 64} {r : MemoryRegion} {n : NumaNodeId}
    (valid : n.isValid = true) (fits : (entry m n).toNat + chargedOn n r < 2 ^ 64) :
    (entry (charged r m) n).toNat = (entry m n).toNat + chargedOn n r := by
  unfold charged chargedOn at *
  split_ifs at fits ⊢ with hv hn hn
  · subst hn
    rw [toNat_entry_charge _ fun _ => fits, if_pos rfl]
  · rw [toNat_entry_charge _ fun h => absurd h hn, if_neg hn]
  · subst hn
    exact absurd valid hv
  · rfl

/-- Discharging a covered region removes its bytes at every valid node. -/
theorem entry_discharged {m : Ledger NumaNodeId 64} {r : MemoryRegion} {n : NumaNodeId}
    (valid : n.isValid = true) (covered : underflows r m = false) :
    (entry (discharged r m) n).toNat + chargedOn n r = (entry m n).toNat := by
  unfold discharged chargedOn
  unfold underflows at covered
  split_ifs with hv hn hn
  · subst hn
    rw [hv, Bool.true_and, decide_eq_false_iff_not, BitVec.not_lt] at covered
    rw [entry_settle, if_pos rfl, BitVec.toNat_sub_of_le covered]
    have := BitVec.le_def.mp covered
    omega
  · rw [entry_settle, if_neg hn, Nat.add_zero]
  · subst hn
    exact absurd valid hv
  · rfl

theorem subNodeUsage_run (node : NumaNodeId) (bytes : U64) (s : MemoryManager β) :
    (subNodeUsage node bytes false).run s =
      if entry s.nodeUsage node < bytes then
        .error (.invalidTransition .underflow) { s with nodeUsage := touch s.nodeUsage node }
      else .ok () { s with nodeUsage := settle s.nodeUsage node (entry s.nodeUsage node - bytes) } := by
  simp only [subNodeUsage, EStateM.run_bind, EStateM.run_modify, EStateM.run_get, run_throwIf,
    entry_touch, Bool.not_false, Bool.true_and, decide_eq_true_eq]
  by_cases h : entry s.nodeUsage node < bytes
  · simp only [h, if_true]
  · have hmin : minWord (entry s.nodeUsage node) bytes = bytes := by
      unfold minWord
      split_ifs with hlt
      · rfl
      · exact BitVec.toNat_inj.mp (Nat.le_antisymm (BitVec.le_def.mp (BitVec.not_lt.mp hlt))
          (BitVec.le_def.mp (BitVec.not_lt.mp h)))
    simp only [h, if_false, hmin, settle_touch]

theorem dischargeNode_run (r : MemoryRegion) (s : MemoryManager β) :
    (dischargeNode r.chooseObservedNode r.grantedBytes.value).run s =
      if underflows r s.nodeUsage then
        .error (.invalidTransition .underflow)
          { s with nodeUsage := touch s.nodeUsage r.chooseObservedNode }
      else .ok () { s with nodeUsage := discharged r s.nodeUsage } := by
  unfold dischargeNode underflows discharged
  cases r.chooseObservedNode.isValid
  · simp
  · simp only [if_true, subNodeUsage_run, Bool.true_and, decide_eq_true_eq]

theorem chargeNode_run (r : MemoryRegion) (s : MemoryManager β) :
    (chargeNode r.chooseObservedNode r.grantedBytes.value).run s =
      .ok () { s with nodeUsage := charged r s.nodeUsage } := by
  unfold chargeNode charged
  cases r.chooseObservedNode.isValid <;> rfl

theorem intendedNode_of_chooseObservedNode {r : MemoryRegion}
    (h : r.chooseObservedNode.isValid = false) : r.intendedNode.isValid = false := by
  unfold MemoryRegion.chooseObservedNode at h
  cases ha : r.actualNode.isValid with
  | false => simpa [ha] using h
  | true => simp [ha] at h

/-- Where a failed allocation is recorded. -/
def failedRegion (id : MemoryRegionId) (g : MemoryGeneration) (req : AllocateRequest) :
    MemoryRegion :=
  { MemoryRegion.requested id g req with state := .failed, localityCurrent := false }

def grantedRegion (id : MemoryRegionId) (g : MemoryGeneration) (req : AllocateRequest)
    (result : AllocationResult) : MemoryRegion :=
  (MemoryRegion.requested id g req).granted req result

inductive AllocateOutcome (b : Backend β) (req : AllocateRequest) (s : MemoryManager β) :
    EStateM.Result Exn (MemoryManager β) MemoryRegion → Prop
  | zero (bad : req.bytes.isZero = true) :
      AllocateOutcome b req s (.error (.invalidTransition .zeroBytes) s)
  | exhausted (last : s.watermark.value = u64Max) :
      AllocateOutcome b req s (.error .invalidId
        { s with nextId := s.nextId + 1, world := stateAfter (World.allocate b req.spec) s.world })
  | failed (g : MemoryGeneration) (e : BackendError) (w : World β)
      (nonzero : req.bytes.isZero = false) (next : s.watermark.next = .ok g)
      (call : (World.allocate b req.spec).run s.world = .error e w) :
      AllocateOutcome b req s (.ok (failedRegion ⟨s.nextId⟩ g req)
        { s with
          regions := s.regions.insert ⟨s.nextId⟩ (failedRegion ⟨s.nextId⟩ g req)
          nextId := s.nextId + 1, watermark := g, world := w })
  | granted (g : MemoryGeneration) (result : AllocationResult) (w : World β)
      (nonzero : req.bytes.isZero = false) (next : s.watermark.next = .ok g)
      (call : (World.allocate b req.spec).run s.world = .ok result w) (r : MemoryRegion)
      (region_eq : r = grantedRegion ⟨s.nextId⟩ g req result) :
      AllocateOutcome b req s (.ok r
        { s with
          regions := s.regions.insert ⟨s.nextId⟩ r, nodeUsage := charged r s.nodeUsage
          nextId := s.nextId + 1, watermark := g, world := w })

theorem takeIdentity_run (s : MemoryManager β) :
    takeIdentity.run s =
      match s.watermark.next with
      | .ok g => .ok (⟨s.nextId⟩, g) { s with nextId := s.nextId + 1, watermark := g }
      | .error e => .error e { s with nextId := s.nextId + 1 } := by
  simp only [takeIdentity, EStateM.run_bind, EStateM.run_get, EStateM.run_modify]
  cases s.watermark.next <;> rfl

theorem tryAllocate_run (spec : AllocationSpec) (s : MemoryManager β) :
    (tryAllocate b spec).run s =
      match (World.allocate b spec).run s.world with
      | .error _ w => .ok none { s with world := w }
      | .ok r w => .ok (some r) { s with world := w } := rfl

theorem next_error_invalidId {t : Tag} {g : Generation t} {e : Exn} (h : g.next = .error e) :
    e = .invalidId := by
  unfold Generation.next at h
  split_ifs at h
  exact (Except.error.inj h).symm

theorem allocate_outcome (b : Backend β) (req : AllocateRequest) (s : MemoryManager β) :
    AllocateOutcome b req s ((allocate b req).run s) := by
  unfold allocate
  simp only [EStateM.run_bind, run_throwIf]
  cases hz : req.bytes.isZero with
  | true => exact .zero hz
  | false =>
    simp only [Bool.false_eq_true, if_false, tryAllocate_run]
    cases hc : (World.allocate b req.spec).run s.world with
    | error e w =>
      simp only [takeIdentity_run]
      cases hn : s.watermark.next with
      | error e' =>
        cases next_error_invalidId hn
        have out : AllocateOutcome b req s _ := .exhausted (Generation.next_error hn)
        rw [stateAfter_of_error hc] at out
        exact out
      | ok g => exact .failed g e w hz hn hc
    | ok result w =>
      simp only [takeIdentity_run]
      cases hn : s.watermark.next with
      | error e' =>
        cases next_error_invalidId hn
        have out : AllocateOutcome b req s _ := .exhausted (Generation.next_error hn)
        rw [stateAfter_of_ok hc] at out
        exact out
      | ok g =>
        have out := AllocateOutcome.granted (b := b) g result w hz hn hc
          (grantedRegion ⟨s.nextId⟩ g req result) rfl
        have intended : (grantedRegion ⟨s.nextId⟩ g req result).intendedNode = req.intendedNode := rfl
        simp only [charged] at out
        dsimp only
        cases hv : (grantedRegion ⟨s.nextId⟩ g req result).chooseObservedNode.isValid with
        | true =>
          rw [hv] at out
          simp only [grantedRegion] at hv out
          simp only [hv, if_true]
          exact out
        | false =>
          have hi := intendedNode_of_chooseObservedNode hv
          rw [intended] at hi
          rw [hv] at out
          simp only [grantedRegion] at hv out
          simp only [hv, hi, Bool.false_eq_true, if_false]
          exact out

inductive ReleaseOutcome (b : Backend β) (id : MemoryRegionId) (expected : Option MemoryGeneration)
    (s : MemoryManager β) : EStateM.Result Exn (MemoryManager β) Unit → Prop
  | unknown (absent : s.regions[id]? = none) :
      ReleaseOutcome b id expected s (.error (.invalidTransition (.releaseUnknown id)) s)
  | refused (r : MemoryRegion) (e : InvalidTransitionError) (found : s.regions[id]? = some r)
      (bad : releaseRefusal r id expected = some e) :
      ReleaseOutcome b id expected s (.error (.invalidTransition e) s)
  | underflow (r : MemoryRegion) (found : s.regions[id]? = some r)
      (good : releaseRefusal r id expected = none) (under : underflows r s.nodeUsage = true) :
      ReleaseOutcome b id expected s (.error (.invalidTransition .underflow)
        { s with nodeUsage := touch s.nodeUsage r.chooseObservedNode })
  | released (r : MemoryRegion) (found : s.regions[id]? = some r)
      (good : releaseRefusal r id expected = none) (covered : underflows r s.nodeUsage = false) :
      ReleaseOutcome b id expected s (.ok ()
        { s with
          regions := s.regions.insert id { r with state := .released, localityCurrent := false }
          nodeUsage := discharged r s.nodeUsage, world := s.world.free b r.backendResult })

theorem release_outcome (b : Backend β) (id : MemoryRegionId) (expected : Option MemoryGeneration)
    (s : MemoryManager β) : ReleaseOutcome b id expected s ((release b id expected).run s) := by
  unfold release
  simp only [EStateM.run_bind, EStateM.run_get]
  cases hr : s.regions[id]? with
  | none => exact .unknown hr
  | some r =>
    dsimp only
    cases hf : releaseRefusal r id expected with
    | some e => exact .refused r e hr hf
    | none =>
      simp only [EStateM.run_bind, dischargeNode_run]
      cases hu : underflows r s.nodeUsage with
      | true => exact .underflow r hr hf hu
      | false => exact .released r hr hf hu

inductive TransitionOutcome (id : MemoryRegionId) (next : LifecycleState) (s : MemoryManager β) :
    EStateM.Result Exn (MemoryManager β) Unit → Prop
  | unknown (absent : s.regions[id]? = none) :
      TransitionOutcome id next s (.error (.invalidTransition (.transitionUnknown id)) s)
  | notGuarded (r : MemoryRegion) (found : s.regions[id]? = some r)
      (bad : canTransition r.state next = false) :
      TransitionOutcome id next s (.error (.invalidTransition (.notGuarded r.state next)) s)
  | moved (r : MemoryRegion) (found : s.regions[id]? = some r)
      (good : canTransition r.state next = true) :
      TransitionOutcome id next s (.ok ()
        { s with regions := s.regions.insert id { r with state := next } })

theorem transition_outcome (id : MemoryRegionId) (next : LifecycleState) (s : MemoryManager β) :
    TransitionOutcome id next s ((transition id next).run s) := by
  unfold transition
  simp only [EStateM.run_bind, EStateM.run_get]
  cases hr : s.regions[id]? with
  | none => exact .unknown hr
  | some r =>
    simp only [EStateM.run_bind, run_throwIf]
    cases hc : canTransition r.state next with
    | false => exact .notGuarded r hr hc
    | true => exact .moved r hr hc

theorem transition_run {id : MemoryRegionId} {next : LifecycleState} {r : MemoryRegion}
    (found : s.regions[id]? = some r) (good : canTransition r.state next = true) :
    (transition id next).run s =
      .ok () { s with regions := s.regions.insert id { r with state := next } } := by
  simp only [transition, EStateM.run_bind, EStateM.run_get, found, good, Bool.not_true,
    run_throwIf_false]
  rfl

theorem pending_of_migrateRefusal {r : MemoryRegion} {id : MemoryRegionId}
    (good : migrateRefusal r id = none) : r.state = .migrationPending := by
  unfold migrateRefusal at good
  split_ifs at good with hr hc
  cases hs : r.state <;> simp_all [canTransition]

/-- The backend's answer to the strict placement of a migration. -/
def migrationCall (b : Backend β) (r : MemoryRegion) (target : NumaNodeId) (w : World β) :
    EStateM.Result BackendError (World β) AllocationResult :=
  (World.allocate b (migrationSpec r.grantedBytes target)).run w

/-- The backend throws or its result is not usable. -/
def Declines (b : Backend β) (r : MemoryRegion) (target : NumaNodeId) (w : World β) : Prop :=
  ∀ result w', migrationCall b r target w = .ok result w' → result.ok = false

/-- The world once the payload is copied and the old buffer is given back. -/
def handedOver (b : Backend β) (r : MemoryRegion) (result : AllocationResult) (copyData : Bool)
    (w : World β) : World β :=
  (w.copy r.backendResult result copyData
    (minWord r.grantedBytes.value result.grantedBytes.value)).free b r.backendResult

/-- The region a commit leaves. -/
def rebound (r : MemoryRegion) (result : AllocationResult) (target : NumaNodeId)
    (g : MemoryGeneration) : MemoryRegion :=
  { r.rebindTo result target with generation := g, state := .rebound }

inductive GovernedOutcome (b : Backend β) (id : MemoryRegionId) (target : NumaNodeId)
    (copyData : Bool) (s : MemoryManager β) :
    EStateM.Result Exn (MemoryManager β) MigrationView → Prop
  | unknown (absent : s.regions[id]? = none) :
      GovernedOutcome b id target copyData s (.error (.invalidTransition (.migrateUnknown id)) s)
  | refused (r : MemoryRegion) (e : InvalidTransitionError) (found : s.regions[id]? = some r)
      (bad : migrateRefusal r id = some e) :
      GovernedOutcome b id target copyData s (.error (.invalidTransition e) s)
  | retained (r : MemoryRegion) (found : s.regions[id]? = some r)
      (good : migrateRefusal r id = none) (declined : Declines b r target s.world) :
      GovernedOutcome b id target copyData s (.ok {}
        { s with
          regions := s.regions.insert id { r with state := .active }
          world := stateAfter (World.allocate b (migrationSpec r.grantedBytes target)) s.world })
  | underflow (r : MemoryRegion) (result : AllocationResult) (w : World β)
      (found : s.regions[id]? = some r) (good : migrateRefusal r id = none)
      (call : migrationCall b r target s.world = .ok result w) (usable : result.ok = true)
      (under : underflows r s.nodeUsage = true) :
      GovernedOutcome b id target copyData s (.error (.invalidTransition .underflow)
        { s with
          regions := s.regions.insert id { r with state := .migrating }
          nodeUsage := touch s.nodeUsage r.chooseObservedNode
          world := handedOver b r result copyData w })
  | exhausted (r : MemoryRegion) (result : AllocationResult) (w : World β)
      (found : s.regions[id]? = some r) (good : migrateRefusal r id = none)
      (call : migrationCall b r target s.world = .ok result w) (usable : result.ok = true)
      (covered : underflows r s.nodeUsage = false) (last : r.generation.value = u64Max) :
      GovernedOutcome b id target copyData s (.error .invalidId
        { s with
          regions := s.regions.insert id { r.rebindTo result target with state := .migrating }
          nodeUsage := discharged r s.nodeUsage
          world := handedOver b r result copyData w })
  | committed (r : MemoryRegion) (result : AllocationResult) (w : World β) (g : MemoryGeneration)
      (found : s.regions[id]? = some r) (good : migrateRefusal r id = none)
      (call : migrationCall b r target s.world = .ok result w) (usable : result.ok = true)
      (covered : underflows r s.nodeUsage = false) (next : r.generation.next = .ok g)
      (view : MigrationView) (done : view.committed = true) :
      GovernedOutcome b id target copyData s (.ok view
        { s with
          regions := s.regions.insert id (rebound r result target g)
          nodeUsage := charged (rebound r result target g) (discharged r s.nodeUsage)
          world := handedOver b r result copyData w })

theorem commitMove_run {id : MemoryRegionId} {snapshot : MemoryRegion} (result : AllocationResult)
    (target : NumaNodeId) {s : MemoryManager β} (found : s.regions[id]? = some snapshot) :
    (commitMove id snapshot result target).run s =
      if underflows snapshot s.nodeUsage then
        .error (.invalidTransition .underflow)
          { s with nodeUsage := touch s.nodeUsage snapshot.chooseObservedNode }
      else
        match snapshot.generation.next with
        | .error e => .error e
            { s with
              regions := s.regions.insert id (snapshot.rebindTo result target)
              nodeUsage := discharged snapshot s.nodeUsage }
        | .ok g => .ok
            { committed := true, copySucceeded := true
              newNode := if result.observedNode.isValid then result.observedNode else target
              generation := g }
            { s with
              regions := s.regions.insert id (rebound snapshot result target g)
              nodeUsage := charged (rebound snapshot result target g)
                (discharged snapshot s.nodeUsage) } := by
  unfold commitMove
  simp only [EStateM.run_bind, EStateM.run_get, found, dischargeNode_run]
  cases underflows snapshot s.nodeUsage with
  | true => rfl
  | false =>
    simp only [Bool.false_eq_true, if_false]
    have hg : (snapshot.rebindTo result target).generation = snapshot.generation := rfl
    cases hn : snapshot.generation.next with
    | error e =>
      simp only [putRegion, EStateM.run_modify, hg, hn, run_ofExcept_error]
    | ok g =>
      simp only [putRegion, EStateM.run_modify, hg, hn, run_ofExcept_ok,
        chargeNode_run, insert_insert, EStateM.run_pure]
      rfl

theorem retainOriginal_run {id : MemoryRegionId} {r : MemoryRegion} {s : MemoryManager β}
    (found : s.regions[id]? = some { r with state := .migrating }) :
    (retainOriginal id).run s =
      .ok () { s with regions := s.regions.insert id { r with state := .active } } := by
  simp only [retainOriginal, EStateM.run_bind, EStateM.run_get, found]
  rfl

theorem governed_outcome (b : Backend β) (id : MemoryRegionId) (target : NumaNodeId)
    (copyData : Bool) (s : MemoryManager β) :
    GovernedOutcome b id target copyData s ((governedReallocate b id target copyData).run s) := by
  unfold governedReallocate
  simp only [EStateM.run_bind, EStateM.run_get]
  cases hr : s.regions[id]? with
  | none => exact .unknown hr
  | some r =>
    dsimp only
    cases hf : migrateRefusal r id with
    | some e => exact .refused r e hr hf
    | none =>
      have self : (s.regions.insert id { r with state := .migrating })[id]? =
          some { r with state := .migrating } := ExtTreeMap.getElem?_insert_self
      have retain := fun (w : World β) => retainOriginal_run (r := r)
        (s := { s with regions := s.regions.insert id { r with state := .migrating }, world := w }) self
      have commit := fun result (w : World β) => commitMove_run result target
        (s := { s with regions := s.regions.insert id { r with state := .migrating }, world := w }) self
      simp only [insert_insert] at retain commit
      simp only [EStateM.run_bind, putRegion, EStateM.run_modify, tryAllocate_run]
      cases hc : (World.allocate b (migrationSpec r.grantedBytes target)).run s.world with
      | error e w =>
        have declined : Declines b r target s.world := by
          intro result w' h
          rw [migrationCall, hc] at h
          cases h
        have out : GovernedOutcome b id target copyData s _ := .retained r hr hf declined
        rw [stateAfter_of_error hc] at out
        simp only [Option.filter_none, EStateM.run_bind, retain]
        exact out
      | ok result w =>
        cases hok : result.ok with
        | false =>
          have declined : Declines b r target s.world := by
            intro result' w' h
            rw [migrationCall, hc] at h
            cases h
            exact hok
          have out : GovernedOutcome b id target copyData s _ := .retained r hr hf declined
          rw [stateAfter_of_ok hc] at out
          simp only [Option.filter_some, hok, Bool.false_eq_true, if_false, EStateM.run_bind, retain]
          exact out
        | true =>
          have same : underflows { r with state := .migrating } s.nodeUsage = underflows r s.nodeUsage := rfl
          simp only [Option.filter_some, hok, if_true, EStateM.run_bind, EStateM.run_modify,
            freeAllocation, commit, same]
          cases hu : underflows r s.nodeUsage with
          | true => exact .underflow r result w hr hf hc hok hu
          | false =>
            cases hn : r.generation.next with
            | error e =>
              cases next_error_invalidId hn
              exact .exhausted r result w hr hf hc hok hu (Generation.next_error hn)
            | ok g => exact .committed r result w g hr hf hc hok hu hn _ rfl

end MemoryManager

end NumaFabric
