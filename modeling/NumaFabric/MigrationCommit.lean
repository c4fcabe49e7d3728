import NumaFabric.MemoryAccounting

/-! A migration commits as a whole or leaves the region as it was, as long as nothing after
the release of the old buffer throws. -/
namespace NumaFabric.MigrationCommit
open Std FaultState LedgerCounter LedgerTotal MemoryManager MigrationManager MemoryAccounting

variable {β : Type} {b : Backend β} {s : MemoryManager β}

/-- A usable allocation has exactly the bytes asked for. -/
def GrantsUsable (b : Backend β) : Prop :=
  ∀ spec x result x', (b.allocate spec).run x = .ok result x' → result.ok = true →
    result.grantedBytes = spec.bytes

theorem GrantsUsable.migration (h : GrantsUsable b) {r : MemoryRegion} {target : NumaNodeId}
    {w w' : World β} {result : AllocationResult}
    (call : migrationCall b r target w = .ok result w') (usable : result.ok = true) :
    result.grantedBytes = r.grantedBytes := by
  obtain ⟨q, x, hq, rfl, -⟩ := World.allocate_eq_ok call
  exact h _ _ q _ hq usable

/-- A region that is not over holds an allocation that was handed out to it. -/
def Holding (w : World β) (r : MemoryRegion) : Prop :=
  r.state.isReleased = false →
    r.backendResult ∈ w.given ∧ r.backendResult.grantedBytes = r.grantedBytes

def Backed (s : MemoryManager β) : Prop :=
  ∀ (id : MemoryRegionId) (r : MemoryRegion), s.regions[id]? = some r → Holding s.world r

theorem given_subset_allocate (b : Backend β) (spec : AllocationSpec) (w : World β) :
    w.given ⊆ (stateAfter (World.allocate b spec) w).given := by
  cases hc : (b.allocate spec).run (w.backend, w.heap) with
  | error e x => rw [stateAfter_of_error (World.allocate_run_error hc)]; exact List.Subset.refl _
  | ok r x => rw [stateAfter_of_ok (World.allocate_run_ok hc)]; exact List.subset_append_left _ _

@[simp] theorem given_free (b : Backend β) (r : AllocationResult) (w : World β) :
    (w.free b r).given = w.given := rfl

@[simp] theorem given_copy (source target : AllocationResult) (copyData : Bool) (n : U64)
    (w : World β) : (w.copy source target copyData n).given = w.given := by
  unfold World.copy
  split_ifs <;> rfl

@[simp] theorem frees_copy (source target : AllocationResult) (copyData : Bool) (n : U64)
    (w : World β) : (w.copy source target copyData n).frees = w.frees := by
  unfold World.copy
  split_ifs <;> rfl

@[simp] theorem given_handedOver (b : Backend β) (r : MemoryRegion) (result : AllocationResult)
    (copyData : Bool) (w : World β) : (handedOver b r result copyData w).given = w.given := by
  simp [handedOver]

@[simp] theorem frees_handedOver (b : Backend β) (r : MemoryRegion) (result : AllocationResult)
    (copyData : Bool) (w : World β) :
    (handedOver b r result copyData w).frees = w.frees ++ [r.backendResult.handle] := by
  simp [handedOver, World.free]

theorem Backed.world (h : Backed s) {t : MemoryManager β} (regions_eq : t.regions = s.regions)
    (given : s.world.given ⊆ t.world.given) : Backed t := by
  intro id r hr standing
  rw [regions_eq] at hr
  obtain ⟨held, bytes⟩ := h id r hr standing
  exact ⟨given held, bytes⟩

theorem Backed.insert (h : Backed s) {t : MemoryManager β} {id : MemoryRegionId} {r : MemoryRegion}
    (regions_eq : t.regions = s.regions.insert id r) (given : s.world.given ⊆ t.world.given)
    (holding : Holding t.world r) : Backed t := by
  intro j q hq
  rw [regions_eq, ExtTreeMap.getElem?_insert] at hq
  split_ifs at hq
  · cases hq
    exact holding
  · intro standing
    obtain ⟨held, bytes⟩ := h j q hq standing
    exact ⟨given held, bytes⟩

theorem Backed.allocate (h : Backed s) (req : AllocateRequest) :
    Backed (stateAfter (MemoryManager.allocate b req) s) := by
  have ho := allocate_outcome b req s
  have grown := given_subset_allocate b req.spec s.world
  generalize hres : (MemoryManager.allocate b req).run s = res at ho
  cases ho with
  | zero bad => rw [stateAfter_of_error hres]; exact h
  | exhausted last => rw [stateAfter_of_error hres]; exact h.world rfl grown
  | failed g e w nonzero next call =>
    rw [stateAfter_of_ok hres]
    rw [stateAfter_of_error call] at grown
    exact h.insert rfl grown fun standing => by cases standing
  | granted g result w nonzero next call r region_eq =>
    rw [stateAfter_of_ok hres]
    rw [stateAfter_of_ok call] at grown
    refine h.insert rfl grown fun _ => ?_
    obtain ⟨q, x, -, -, rfl⟩ := World.allocate_eq_ok call
    rw [region_eq]
    exact ⟨List.mem_append_right _ (List.mem_singleton_self result), rfl⟩

theorem Backed.release (h : Backed s) (id : MemoryRegionId) (expected : Option MemoryGeneration) :
    Backed (stateAfter (MemoryManager.release b id expected) s) := by
  have ho := release_outcome b id expected s
  generalize hres : (MemoryManager.release b id expected).run s = res at ho
  cases ho with
  | unknown absent => rw [stateAfter_of_error hres]; exact h
  | refused r e found bad => rw [stateAfter_of_error hres]; exact h
  | underflow r found good under =>
    rw [stateAfter_of_error hres]
    exact h.world rfl (List.Subset.refl _)
  | released r found good covered =>
    rw [stateAfter_of_ok hres]
    exact h.insert rfl (List.Subset.refl _) fun standing => by cases standing

/-- A region that is over stays over. -/
theorem standing_of_canTransition {st next : LifecycleState} (h : canTransition st next = true)
    (standing : next.isReleased = false) : st.isReleased = false := by
  cases st <;> cases next <;>
    first | rfl | exact absurd h (by decide) | exact absurd standing (by decide)

theorem Backed.transition (h : Backed s) (id : MemoryRegionId) (next : LifecycleState) :
    Backed (stateAfter (MemoryManager.transition id next) s) := by
  have ho := transition_outcome id next s
  generalize hres : (MemoryManager.transition id next).run s = res at ho
  cases ho with
  | unknown absent => rw [stateAfter_of_error hres]; exact h
  | notGuarded r found bad => rw [stateAfter_of_error hres]; exact h
  | moved r found good =>
    rw [stateAfter_of_ok hres]
    exact h.insert rfl (List.Subset.refl _) fun standing =>
      h id r found (standing_of_canTransition good standing)

theorem Backed.governed (h : Backed s) (grants : GrantsUsable b) (id : MemoryRegionId)
    (target : NumaNodeId) (copyData : Bool) :
    Backed (stateAfter (governedReallocate b id target copyData) s) := by
  have ho := governed_outcome b id target copyData s
  generalize hres : (governedReallocate b id target copyData).run s = res at ho
  have moved : ∀ {r : MemoryRegion} {result : AllocationResult} {w : World β},
      migrationCall b r target s.world = .ok result w →
        s.world.given ⊆ w.given ∧ result ∈ w.given := by
    intro r result w call
    obtain ⟨q, x, -, -, rfl⟩ := World.allocate_eq_ok call
    exact ⟨List.subset_append_left _ _, List.mem_append_right _ (List.mem_singleton_self _)⟩
  cases ho with
  | unknown absent => rw [stateAfter_of_error hres]; exact h
  | refused r e found bad => rw [stateAfter_of_error hres]; exact h
  | retained r found good declined =>
    rw [stateAfter_of_ok hres]
    have grown := given_subset_allocate b (migrationSpec r.grantedBytes target) s.world
    refine h.insert rfl grown fun _ => ?_
    obtain ⟨held, bytes⟩ := h id r found (MemoryLedger.isReleased_of_migrateRefusal good)
    exact ⟨grown held, bytes⟩
  | underflow r result w found good call usable under =>
    rw [stateAfter_of_error hres]
    obtain ⟨grown, -⟩ := moved call
    refine h.insert rfl (by simpa using grown) fun _ => ?_
    obtain ⟨held, bytes⟩ := h id r found (MemoryLedger.isReleased_of_migrateRefusal good)
    exact ⟨by simpa using grown held, bytes⟩
  | exhausted r result w found good call usable covered last =>
    rw [stateAfter_of_error hres]
    obtain ⟨grown, handed⟩ := moved call
    exact h.insert rfl (by simpa using grown) fun _ =>
      ⟨by rw [given_handedOver]; exact handed, grants.migration call usable⟩
  | committed r result w g found good call usable covered next view done =>
    rw [stateAfter_of_ok hres]
    obtain ⟨grown, handed⟩ := moved call
    exact h.insert rfl (by simpa using grown) fun _ =>
      ⟨by rw [given_handedOver]; exact handed, grants.migration call usable⟩

theorem Backed.invalidateLocalityStale (h : Backed s) : Backed s.invalidateLocalityStale := by
  intro id q hq
  rw [MemoryManager.invalidateLocalityStale, ExtTreeMap.getElem?_map] at hq
  obtain ⟨r, hr, rfl⟩ := Option.map_eq_some_iff.mp hq
  have old := h id r hr
  split_ifs
  · exact old
  · exact old

theorem step_backed (grants : GrantsUsable b) (s : MigrationManager β) (op : Op)
    (h : Backed s.mem) : Backed (step b s op).mem :=
  op_memory op h h.allocate h.release h.invalidateLocalityStale
    (fun id next _ => h.transition id next)
    (fun _ m _ _ _ => h.governed grants m.memoryRegion m.targetNode m.copyData)

/-- In every state reached, the regions that are not over hold what was handed out. -/
theorem run_backed (grants : GrantsUsable b) (backend : β) (heap : Heap) (ops : List Op) :
    Backed (run b backend heap ops).mem := by
  refine List.foldlRecOn ops (step b) (motive := fun s => Backed s.mem) ?_ fun s h op _ => ?_
  · intro id r hr
    simp [initial] at hr
  · exact step_backed grants s op h

/-- What a commit leaves of a region. -/
structure Committed (b : Backend β) (s : MigrationManager β) (req : MigrateRequest)
    (r : MemoryRegion) (t : MigrationManager β) (r' : MemoryRegion) : Prop where
  handed : ∃ w, migrationCall b r req.targetNode s.mem.world = .ok r'.backendResult w
  freedOnce : t.mem.world.frees.count r.backendResult.handle = 1
  grown : r'.generation.value.toNat = r.generation.value.toNat + 1
  bytes : r'.grantedBytes = r.grantedBytes
  moved : ∀ n : NumaNodeId, n.isValid = true →
    (perNodeAllocated t.mem n).toNat + chargedOn n r =
      (perNodeAllocated s.mem n).toNat + chargedOn n r'
  copied : req.copyData = true → r.backendResult.hasBuffer = true →
    r'.backendResult.hasBuffer = true → ∀ i < r.grantedBytes.value.toNat,
      t.mem.world.heap (r'.backendResult.ptr.toNat + i) =
        s.mem.world.heap (r.backendResult.ptr.toNat + i)

/-- What an attempt that does not commit leaves of a region. -/
structure Retained (s : MigrationManager β) (r : MemoryRegion) (t : MigrationManager β)
    (r' : MemoryRegion) : Prop where
  allocation : r'.backendResult = r.backendResult
  bytes : r'.grantedBytes = r.grantedBytes
  nodes : r'.actualNode = r.actualNode ∧ r'.intendedNode = r.intendedNode ∧
    r'.preferredNode = r.preferredNode ∧ r'.requiredNode = r.requiredNode
  generation : r'.generation = r.generation
  usage : t.mem.nodeUsage = s.mem.nodeUsage
  active : r'.state = .active
  kept : r.backendResult.handle ∉ t.mem.world.frees

/-- The attempt either committed or left everything, by its own record. -/
def Settles (b : Backend β) (s : MigrationManager β) (req : MigrateRequest) (id : AttemptId)
    (t : MigrationManager β) : Prop :=
  ∃ m r r', t.attempts[id]? = some m ∧ s.mem.regions[req.memoryRegion]? = some r ∧
    t.mem.regions[req.memoryRegion]? = some r' ∧
    (m.committed = true ∧ Committed b s req r t r' ∨ m.committed = false ∧ Retained s r t r')

/-- A `begin` that throws leaves no trace; one that returns is settled by its `execute`. -/
structure AllOrNothing (b : Backend β) (s : MigrationManager β) (req : MigrateRequest) : Prop where
  refused : ∀ e t, (MigrationManager.begin req).run s = .error e t →
    (∀ (id : AttemptId) (m : Migration), t.attempts[id]? = some m → s.attempts[id]? = some m) ∧
      t.mem = s.mem
  settled : ∀ id t, (MigrationManager.begin req).run s = .ok id t →
    Settles b s req id (stateAfter (execute b id) t)

/-- The node a usable target puts the region on. -/
def newNode (result : AllocationResult) (target : NumaNodeId) : NumaNodeId :=
  if result.observedNode.isValid then result.observedNode else target

/-- Nothing after the release of the old buffer can fail: the old counter covers the
region, its generation can grow, and the new counter has room. -/
def Movable (b : Backend β) (s : MemoryManager β) (r : MemoryRegion) (target : NumaNodeId) : Prop :=
  ∀ result w, migrationCall b r target s.world = .ok result w → result.ok = true →
    underflows r s.nodeUsage = false ∧ r.generation.value ≠ u64Max ∧
      (r.chooseObservedNode ≠ newNode result target →
        (entry s.nodeUsage (newNode result target)).toNat + r.grantedBytes.value.toNat < 2 ^ 64)

/-- A region that may start to move still owns its buffer and can be moved. -/
def Intact (b : Backend β) (s : MigrationManager β) (req : MigrateRequest) : Prop :=
  ∀ r, req.malformed = none → s.mem.regions[req.memoryRegion]? = some r →
    canTransition r.state .migrationPending = true →
      r.backendResult.handle ∉ s.mem.world.frees ∧ Movable b s.mem r req.targetNode

/-- The backend keeps the buffers it has handed out and not been given back: a new
allocation neither writes to them nor overlaps them, and giving one back writes to
no other memory. -/
structure Respects (b : Backend β) (w : World β) : Prop where
  keeps : ∀ spec result w' q, (World.allocate b spec).run w = .ok result w' → w.Holds q →
    q.hasBuffer = true → ∀ a, q.covers a →
      w'.heap a = w.heap a ∧ (result.hasBuffer = true → ¬ result.covers a)
  spares : ∀ spec result w' q heap, (World.allocate b spec).run w = .ok result w' → w.Holds q →
    q.hasBuffer = true → ∀ a, ¬ q.covers a →
      (World.free b q { w' with heap := heap }).heap a = heap a

theorem chooseObservedNode_rebound (r : MemoryRegion) (result : AllocationResult)
    (target : NumaNodeId) (g : MemoryGeneration) :
    (rebound r result target g).chooseObservedNode = newNode result target := by
  simp only [MemoryRegion.chooseObservedNode, rebound, MemoryRegion.rebindTo, newNode]
  by_cases hv : result.observedNode.isValid = true <;> simp [hv]

theorem newNode_isValid (result : AllocationResult) {target : NumaNodeId}
    (h : target.isValid = true) : (newNode result target).isValid = true := by
  unfold newNode
  split_ifs with hv
  · exact hv
  · exact h

/-- The counters move by exactly the bytes of the region unless the new one wraps. -/
theorem moved_iff {m : Ledger NumaNodeId 64} {r : MemoryRegion} (r' : MemoryRegion)
    (valid' : r'.chooseObservedNode.isValid = true) (bytes : r'.grantedBytes = r.grantedBytes)
    (covered : underflows r m = false) :
    (∀ n : NumaNodeId, n.isValid = true →
        (entry (charged r' (discharged r m)) n).toNat + chargedOn n r =
          (entry m n).toNat + chargedOn n r') ↔
      (r.chooseObservedNode ≠ r'.chooseObservedNode →
        (entry m r'.chooseObservedNode).toNat + r.grantedBytes.value.toNat < 2 ^ 64) := by
  constructor
  · intro moved apart
    have := moved r'.chooseObservedNode valid'
    rw [chargedOn, chargedOn, if_neg apart, if_pos rfl, bytes] at this
    have := (entry (charged r' (discharged r m)) r'.chooseObservedNode).isLt
    omega
  · intro room n valid
    have left := entry_discharged (n := n) valid covered
    have fits : (entry (discharged r m) n).toNat + chargedOn n r' < 2 ^ 64 := by
      have := (entry m n).isLt
      by_cases hn' : r'.chooseObservedNode = n
      · rw [chargedOn, if_pos hn', bytes]
        by_cases hn : r.chooseObservedNode = n
        · rw [chargedOn, if_pos hn] at left
          omega
        · subst hn'
          have := room hn
          omega
      · rw [chargedOn, if_neg hn']
        omega
    rw [entry_charged valid fits]
    omega

@[simp] theorem frees_allocate (b : Backend β) (spec : AllocationSpec) (w : World β) :
    (stateAfter (World.allocate b spec) w).frees = w.frees := by
  cases hc : (b.allocate spec).run (w.backend, w.heap) with
  | error e x => rw [stateAfter_of_error (World.allocate_run_error hc)]
  | ok r x => rw [stateAfter_of_ok (World.allocate_run_ok hc)]

/-- The payload survives the hand-over: the allocation left the old buffer alone, and
giving that back does not reach the new one. -/
theorem handedOver_copied {w w' : World β} {r : MemoryRegion} {result : AllocationResult}
    {target : NumaNodeId} (respects : Respects b w)
    (call : migrationCall b r target w = .ok result w') (held : w.Holds r.backendResult)
    (size : r.backendResult.grantedBytes = r.grantedBytes)
    (bytes : result.grantedBytes = r.grantedBytes) (old : r.backendResult.hasBuffer = true)
    (new : result.hasBuffer = true) {i : ℕ} (hi : i < r.grantedBytes.value.toNat) :
    (handedOver b r result true w').heap (result.ptr.toNat + i) =
      w.heap (r.backendResult.ptr.toNat + i) := by
  have source : r.backendResult.covers (r.backendResult.ptr.toNat + i) := by
    rw [AllocationResult.covers, size]
    omega
  have dest : result.covers (result.ptr.toNat + i) := by
    rw [AllocationResult.covers, bytes]
    omega
  have outside : ¬ r.backendResult.covers (result.ptr.toNat + i) := fun h =>
    (respects.keeps _ result w' _ call held old _ h).2 new dest
  have whole : minWord r.grantedBytes.value result.grantedBytes.value = r.grantedBytes.value := by
    rw [bytes, minWord, if_neg (BitVec.lt_irrefl _)]
  have copied : w'.copy r.backendResult result true
      (minWord r.grantedBytes.value result.grantedBytes.value) =
      { w' with
        heap := w'.heap.memcpy result.ptr.toNat r.backendResult.ptr.toNat
          r.grantedBytes.value.toNat } := by
    rw [World.copy, whole, old, new]
    rfl
  rw [handedOver, copied, respects.spares _ result w' _ _ call held old _ outside, Heap.memcpy,
    if_pos (by omega), Nat.add_sub_cancel_left]
  exact (respects.keeps _ result w' _ call held old _ source).1

section Settled
variable {s t : MigrationManager β} {req : MigrateRequest} {id : AttemptId} {m : Migration}
  {r q : MemoryRegion}

theorem settles_iff_of_uncommitted (attempt : t.attempts[id]? = some m)
    (uncommitted : m.committed = false) (found : s.mem.regions[req.memoryRegion]? = some r)
    (region : t.mem.regions[req.memoryRegion]? = some q) :
    Settles b s req id t ↔ Retained s r t q := by
  constructor
  · rintro ⟨m', r₀, r', hm, hr₀, hr, ⟨done, -⟩ | ⟨-, retained⟩⟩
    · cases attempt.symm.trans hm
      rw [uncommitted] at done
      cases done
    · cases found.symm.trans hr₀
      cases region.symm.trans hr
      exact retained
  · intro retained
    exact ⟨m, r, q, attempt, found, region, .inr ⟨uncommitted, retained⟩⟩

theorem settles_iff_of_committed (attempt : t.attempts[id]? = some m)
    (done : m.committed = true) (found : s.mem.regions[req.memoryRegion]? = some r)
    (region : t.mem.regions[req.memoryRegion]? = some q) :
    Settles b s req id t ↔ Committed b s req r t q := by
  constructor
  · rintro ⟨m', r₀, r', hm, hr₀, hr, ⟨-, committed⟩ | ⟨uncommitted, -⟩⟩
    · cases found.symm.trans hr₀
      cases region.symm.trans hr
      exact committed
    · cases attempt.symm.trans hm
      rw [done] at uncommitted
      cases uncommitted
  · intro committed
    exact ⟨m, r, q, attempt, found, region, .inl ⟨done, committed⟩⟩

/-- An attempt that stopped half way is neither committed nor undone. -/
theorem not_settles_of_migrating (attempt : t.attempts[id]? = some m)
    (uncommitted : m.committed = false) (found : s.mem.regions[req.memoryRegion]? = some r)
    (region : t.mem.regions[req.memoryRegion]? = some q) (moving : q.state = .migrating) :
    ¬ Settles b s req id t := by
  rw [settles_iff_of_uncommitted attempt uncommitted found region]
  intro retained
  rw [retained.active] at moving
  cases moving

end Settled

theorem active_of_canTransition {st : LifecycleState}
    (h : canTransition st .migrationPending = true) : st = .active := by
  cases st <;> first | rfl | cases h

theorem committed_iff {s t : MigrationManager β} {req : MigrateRequest} {r : MemoryRegion}
    {result : AllocationResult} {w : World β} {g : MemoryGeneration}
    (holding : r.backendResult ∈ s.mem.world.given ∧
      r.backendResult.grantedBytes = r.grantedBytes)
    (grants : GrantsUsable b) (respects : Respects b s.mem.world)
    (valid : req.targetNode.isValid = true)
    (call : migrationCall b r req.targetNode s.mem.world = .ok result w) (usable : result.ok = true)
    (covered : underflows r s.mem.nodeUsage = false) (next : r.generation.next = .ok g)
    (usage_eq : t.mem.nodeUsage =
      charged (rebound r result req.targetNode g) (discharged r s.mem.nodeUsage))
    (world_eq : t.mem.world = handedOver b r result req.copyData w) :
    Committed b s req r t (rebound r result req.targetNode g) ↔
      r.backendResult.handle ∉ s.mem.world.frees ∧ Movable b s.mem r req.targetNode := by
  have freed : t.mem.world.frees = s.mem.world.frees ++ [r.backendResult.handle] := by
    obtain ⟨q, x, -, -, after⟩ := World.allocate_eq_ok call
    rw [world_eq, frees_handedOver, after]
  have bytes := grants.migration call usable
  have node := chooseObservedNode_rebound r result req.targetNode g
  have moves := moved_iff (rebound r result req.targetNode g)
    (r := r) (m := s.mem.nodeUsage) (by rw [node]; exact newNode_isValid result valid) rfl covered
  rw [node] at moves
  constructor
  · intro committed
    refine ⟨fun before => ?_, fun result' w' call' _ => ?_⟩
    · have once := committed.freedOnce
      have := List.count_pos_iff.mpr before
      rw [freed, List.count_append, List.count_singleton_self] at once
      omega
    · cases call.symm.trans call'
      have moved := committed.moved
      simp only [perNodeAllocated, usage_eq] at moved
      exact ⟨covered, Generation.ne_max_of_next next, moves.mp moved⟩
  · rintro ⟨kept, movable⟩
    have held : s.mem.world.Holds r.backendResult := ⟨holding.1, kept⟩
    refine ⟨⟨w, call⟩, ?_, Generation.next_ok next, rfl, ?_, ?_⟩
    · rw [freed, List.count_append, List.count_eq_zero_of_not_mem kept,
        List.count_singleton_self]
    · simp only [perNodeAllocated, usage_eq]
      exact moves.mpr (movable result w call usable).2.2
    · intro copyData old new i hi
      rw [world_eq, copyData]
      exact handedOver_copied respects call held holding.2 bytes old new hi

section Started
variable {s : MigrationManager β} {req : MigrateRequest} {r : MemoryRegion} {mem : MemoryManager β}
  {attempts : ExtTreeMap AttemptId Migration}

theorem region_started : (started req r s).mem.regions[req.memoryRegion]? =
    some { r with state := .migrationPending } := ExtTreeMap.getElem?_insert_self

/-- A reallocation that throws leaves the region moving, and throws only where it cannot move. -/
theorem settles_iff_of_threw {e : Exn} (found : s.mem.regions[req.memoryRegion]? = some r)
    (call : (governedReallocate b req.memoryRegion req.targetNode req.copyData).run
      (started req r s).mem = .error e mem)
    (attempt : attempts[s.nextAttemptId]? =
      some { req.attempt s.nextAttemptId with lifecycle := .migrating }) :
    Settles b s req s.nextAttemptId { started req r s with mem, attempts } ↔
      r.backendResult.handle ∉ s.mem.world.frees ∧ Movable b s.mem r req.targetNode := by
  have governed := governed_outcome b req.memoryRegion req.targetNode req.copyData
    (started req r s).mem
  rw [call] at governed
  have stopped : ∀ q, mem.regions[req.memoryRegion]? = some q → q.state = .migrating →
      ¬ Settles b s req s.nextAttemptId { started req r s with mem, attempts } :=
    fun q region moving => not_settles_of_migrating attempt rfl found region moving
  cases governed with
  | unknown absent =>
    rw [region_started] at absent
    cases absent
  | refused q e found' bad =>
    cases region_started.symm.trans found'
    cases bad
  | underflow q result w found' good call' usable under =>
    cases region_started.symm.trans found'
    have under' : underflows r s.mem.nodeUsage = true := under
    refine iff_of_false (stopped _ ExtTreeMap.getElem?_insert_self rfl) fun ⟨_, movable⟩ => ?_
    rw [(movable result w call' usable).1] at under'
    cases under'
  | exhausted q result w found' good call' usable covered last =>
    cases region_started.symm.trans found'
    refine iff_of_false (stopped _ ExtTreeMap.getElem?_insert_self rfl) fun ⟨_, movable⟩ => ?_
    exact (movable result w call' usable).2.1 last

/-- A reallocation that returns has moved the region or left it where it is. -/
theorem settles_iff_of_finished {view : MigrationView} {m : Migration} (backed : Backed s.mem)
    (grants : GrantsUsable b) (respects : Respects b s.mem.world) (wellFormed : req.malformed = none)
    (found : s.mem.regions[req.memoryRegion]? = some r)
    (good : canTransition r.state .migrationPending = true)
    (call : (governedReallocate b req.memoryRegion req.targetNode req.copyData).run
      (started req r s).mem = .ok view mem) (attempt : attempts[s.nextAttemptId]? = some m)
    (reported : m.committed = view.committed) :
    Settles b s req s.nextAttemptId { started req r s with mem, attempts } ↔
      r.backendResult.handle ∉ s.mem.world.frees ∧ Movable b s.mem r req.targetNode := by
  have governed := governed_outcome b req.memoryRegion req.targetNode req.copyData
    (started req r s).mem
  rw [call] at governed
  cases governed with
  | retained q found' good' declined =>
    cases region_started.symm.trans found'
    have still : Movable b s.mem r req.targetNode := by
      intro result w call' usable
      rw [declined result w call'] at usable
      cases usable
    refine (settles_iff_of_uncommitted attempt reported found
      ExtTreeMap.getElem?_insert_self).trans ?_
    constructor
    · intro retained
      have kept := retained.kept
      rw [frees_allocate] at kept
      exact ⟨kept, still⟩
    · rintro ⟨kept, -⟩
      refine ⟨rfl, rfl, ⟨rfl, rfl, rfl, rfl⟩, rfl, rfl, rfl, ?_⟩
      rw [frees_allocate]
      exact kept
  | committed q result w g found' good' call' usable covered next view done =>
    cases region_started.symm.trans found'
    have valid : req.targetNode.isValid = true := by
      unfold MigrateRequest.malformed at wellFormed
      split_ifs at wellFormed with _ hv
      simpa using hv
    have holding := backed _ r found (by rw [active_of_canTransition good]; rfl)
    exact (settles_iff_of_committed attempt (reported.trans done) found
      ExtTreeMap.getElem?_insert_self).trans
      (committed_iff holding grants respects valid call' usable covered next rfl rfl)

theorem settles_iff (backed : Backed s.mem) (grants : GrantsUsable b) (respects : Respects b s.mem.world)
    (wellFormed : req.malformed = none) (found : s.mem.regions[req.memoryRegion]? = some r)
    (good : canTransition r.state .migrationPending = true) :
    Settles b s req s.nextAttemptId (stateAfter (execute b s.nextAttemptId) (started req r s)) ↔
      r.backendResult.handle ∉ s.mem.world.frees ∧ Movable b s.mem r req.targetNode := by
  have attempt : (started req r s).attempts[s.nextAttemptId]? =
      some (req.attempt s.nextAttemptId) := ExtTreeMap.getElem?_insert_self
  have ho := execute_outcome b s.nextAttemptId (started req r s)
  generalize hres : (MigrationManager.execute b s.nextAttemptId).run (started req r s) = res at ho
  cases ho with
  | unknown absent =>
    rw [attempt] at absent
    cases absent
  | refused m e found' bad =>
    cases attempt.symm.trans found'
    cases bad
  | threw m e mem found' ready call =>
    cases attempt.symm.trans found'
    rw [stateAfter_of_error hres]
    exact settles_iff_of_threw found call ExtTreeMap.getElem?_insert_self
  | finished m view mem found' ready call =>
    cases attempt.symm.trans found'
    rw [stateAfter_of_ok hres]
    exact settles_iff_of_finished backed grants respects wellFormed found good call
      ExtTreeMap.getElem?_insert_self rfl

end Started

/-- In every state reached, a migration is all or nothing exactly when the region still
owns its buffer and nothing after the release of that buffer can fail. -/
theorem migration_all_or_nothing_iff (b : Backend β) (grants : GrantsUsable b) (backend : β)
    (heap : Heap) (ops : List Op) (respects : Respects b (run b backend heap ops).mem.world)
    (req : MigrateRequest) :
    AllOrNothing b (run b backend heap ops) req ↔ Intact b (run b backend heap ops) req := by
  have backed := run_backed grants backend heap ops
  generalize run b backend heap ops = s at respects backed ⊢
  constructor
  · intro h r wellFormed found good
    have settled := h.settled _ _ (begin_run wellFormed found good)
    exact (settles_iff backed grants respects wellFormed found good).mp settled
  · intro h
    have ho := begin_outcome req s
    refine ⟨fun e t refused => ?_, fun id t begun => ?_⟩
    · rw [refused] at ho
      cases ho with
      | malformed e bad => exact ⟨fun id m hm => hm, rfl⟩
      | refused wf bad =>
        refine ⟨fun id m hm => ?_, rfl⟩
        rw [ExtTreeMap.getElem?_erase, ExtTreeMap.getElem?_insert] at hm
        split_ifs at hm
        exact hm
    · rw [begun] at ho
      cases ho with
      | started r wf found good =>
        exact (settles_iff backed grants respects wf found good).mpr (h r wf found good)

/-- A backend that hands out real memory from a growing address and never reuses it. -/
def bump : Backend U64 where
  kind := .windows
  allocate spec := do
    let (next, heap) ← get
    if 2 ^ 64 ≤ next.toNat + spec.bytes.value.toNat then
      throw ⟨ascii "VirtualAllocExNuma failed"⟩
    set (next + spec.bytes.value, heap)
    return { ptr := next, ptrValid := true, grantedBytes := spec.bytes, localityKnown := true
             observedNode := spec.requiredNode, kind := spec.kind, touched := spec.touch
             requestedMode := spec.mode }
  free _ x := x
  applyThreadAffinity set x := (!set.masks.isEmpty, x)

theorem bump_allocate {spec : AllocationSpec} {x x' : U64 × Heap} {result : AllocationResult}
    (h : (bump.allocate spec).run x = .ok result x') :
    result.grantedBytes = spec.bytes ∧ result.ptr = x.1 ∧ x'.2 = x.2 ∧
      result.observedNode = spec.requiredNode := by
  simp only [bump, EStateM.run_bind, EStateM.run_get] at h
  split_ifs at h
  · cases h
  · cases h
    exact ⟨rfl, rfl, rfl, rfl⟩

theorem bump_respects {w : World U64}
    (below : ∀ q ∈ w.given, q.ptr.toNat + q.grantedBytes.value.toNat ≤ w.backend.toNat) :
    Respects bump w := by
  refine ⟨fun spec result w' q call held _ a inside => ?_, fun spec result w' q heap _ _ _ a _ => rfl⟩
  obtain ⟨r, x, answer, rfl, rfl⟩ := World.allocate_eq_ok call
  obtain ⟨-, address, same, -⟩ := bump_allocate answer
  refine ⟨congrFun same a, fun _ covered => ?_⟩
  have := below q held.1
  have start : r.ptr.toNat ≤ a := covered.1
  rw [address] at start
  have := inside.2
  dsimp only at start
  omega

theorem migration_all_or_nothing_sixteen_bytes :
    let s := run bump 4096 (fun a => BitVec.ofNat 8 a) [onNode ⟨1⟩ 16]
    let req : MigrateRequest := { memoryRegion := ⟨1⟩, targetNode := ⟨2⟩ }
    Intact bump s req ∧ AllOrNothing bump s req := by
  intro s req
  have intact : Intact bump s req := by
    intro r _ found _
    have facts : s.mem.regions[(⟨1⟩ : MemoryRegionId)]?.map (fun r =>
        (underflows r s.mem.nodeUsage, r.generation.value, r.grantedBytes.value,
          r.backendResult.handle)) = some (false, 1, 16, 1) := by decide
    rw [found] at facts
    obtain ⟨covered, generation, bytes, handle⟩ := by simpa only [Option.map_some, Option.some.injEq,
      Prod.mk.injEq] using facts
    have freed : s.mem.world.frees = [] := by decide
    refine ⟨by rw [freed]; exact List.not_mem_nil, fun result w call _ => ⟨covered, ?_, fun _ => ?_⟩⟩
    · rw [generation]
      decide
    · obtain ⟨q, x, answer, rfl, -⟩ := World.allocate_eq_ok call
      have node : newNode { q with handle := s.mem.world.given.length + 1 } req.targetNode = ⟨2⟩ := by
        have observed : q.observedNode = ⟨2⟩ := (bump_allocate answer).2.2.2
        simp [newNode, observed, req]
      have empty : entry s.mem.nodeUsage ⟨2⟩ = 0 := by decide
      rw [node, empty, bytes]
      decide
  refine ⟨intact, (migration_all_or_nothing_iff bump ?_ 4096 (fun a => BitVec.ofNat 8 a)
    [onNode ⟨1⟩ 16] ?_ req).mpr intact⟩
  · intro spec x result x' call _
    exact (bump_allocate call).1
  · exact bump_respects (by decide)

/-- Two regions of 2^63 bytes bring the counter of their node back to zero. Moving one
frees its buffer, then throws on the ledger, and the region stays in between. -/
theorem wrapped_counter_strands_migration :
    let b := budgeted u64Max
    let s := run b () (fun _ => 0) [onNode ⟨1⟩ 0x8000000000000000, onNode ⟨1⟩ 0x8000000000000000]
    let req : MigrateRequest := { memoryRegion := ⟨1⟩, targetNode := ⟨2⟩ }
    GrantsUsable b ∧ ¬ AllOrNothing b s req := by
  intro b s req
  have grants : GrantsUsable b := fun spec x result x' call _ =>
    grants_budgeted u64Max spec x result x' call
  refine ⟨grants, fun h => ?_⟩
  have facts : s.mem.regions[(⟨1⟩ : MemoryRegionId)]?.map (fun r =>
      (r.state, underflows r s.mem.nodeUsage, r.grantedBytes.value)) =
        some (.active, true, 0x8000000000000000) := by decide
  obtain ⟨r, found, hr⟩ := Option.map_eq_some_iff.mp facts
  obtain ⟨active, under, bytes⟩ := by simpa only [Prod.mk.injEq] using hr
  have bytes_eq : r.grantedBytes = ⟨0x8000000000000000⟩ := congrArg Quantity.mk bytes
  have good : canTransition r.state .migrationPending = true := by rw [active]; rfl
  have bare : ∀ q ∈ s.mem.world.given, q.hasBuffer = false := by decide
  have respects : Respects b s.mem.world := by
    constructor
    · intro spec result w' q _ held buffer
      rw [bare q held.1] at buffer
      cases buffer
    · intro spec result w' q heap _ held buffer
      rw [bare q held.1] at buffer
      cases buffer
  have settled := h.settled _ _ (begin_run rfl found good)
  obtain ⟨-, movable⟩ := (settles_iff (run_backed grants _ _ _) grants respects rfl found good).mp settled
  obtain ⟨result, w, call, usable, -⟩ := budgeted_grants u64Max
    (migrationSpec r.grantedBytes ⟨2⟩) s.mem.world (by rw [bytes_eq]; decide)
  rw [(movable result w call (by rw [usable, bytes_eq]; rfl)).1] at under
  cases under

end NumaFabric.MigrationCommit
