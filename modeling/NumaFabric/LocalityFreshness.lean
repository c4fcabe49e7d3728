import NumaFabric.MemoryFrames
import NumaFabric.MemoryOwnership
import NumaFabric.PlannedExecution

/-! The flag that says a region's locality is current. A refreshed topology, a new epoch and a
new policy make the evidence of every live region stale, but only a recovery takes the flag
away; once away it comes back with a new allocation alone. -/
namespace NumaFabric.LocalityFreshness
open Std FaultState FaultRun LedgerCounter MemoryManager MemoryOwnership MemoryFrames

section Manager
variable {β : Type} {b : Backend β} {s t : MemoryManager β}

/-- How a region of a later state came by its buffer and its flag. The number of an allocation
tells it from all others. -/
inductive Passed (s t : MemoryManager β) (id : MemoryRegionId) (r : MemoryRegion) : Prop
  | kept (q : MemoryRegion) (found : s.regions[id]? = some q)
      (same : r.backendResult = q.backendResult)
      (flag : r.localityCurrent = true → q.localityCurrent = true)
  | renewed (above : s.world.given.length < r.backendResult.handle)
      (recorded : r.backendResult.handle ≤ t.world.given.length)
  | failed (nothing : r.backendResult.handle = 0) (stale : r.localityCurrent = false)

/-- No flag is set without a new allocation. -/
structure Carries (s t : MemoryManager β) : Prop where
  given : s.world.given.length ≤ t.world.given.length
  regions : ∀ (id : MemoryRegionId) (r : MemoryRegion), t.regions[id]? = some r → Passed s t id r

theorem carries_of_regions (given : s.world.given.length ≤ t.world.given.length)
    (same : t.regions = s.regions) : Carries s t :=
  ⟨given, fun _ r found => .kept r (same ▸ found) rfl fun flag => flag⟩

instance : Std.Refl (Carries (β := β)) := ⟨fun _ => carries_of_regions le_rfl rfl⟩

instance : IsTrans (MemoryManager β) Carries := by
  refine ⟨fun s t u first second => ⟨first.given.trans second.given, fun id r found => ?_⟩⟩
  cases second.regions id r found with
  | renewed above recorded => exact .renewed (Nat.lt_of_le_of_lt first.given above) recorded
  | failed nothing stale => exact .failed nothing stale
  | kept q there same flag =>
    cases first.regions id q there with
    | kept p old same' flag' => exact .kept p old (same.trans same') fun set => flag' (flag set)
    | renewed above recorded =>
      rw [← same] at above recorded
      exact .renewed above (recorded.trans second.given)
    | failed nothing stale =>
      rw [← same] at nothing
      refine .failed nothing (Bool.eq_false_iff.mpr fun set => ?_)
      rw [flag set] at stale
      cases stale

/-- One region is written, and it came by its buffer and its flag in one of these ways. -/
theorem Carries.insert (given : s.world.given.length ≤ t.world.given.length) {id : MemoryRegionId}
    {r : MemoryRegion} (written : t.regions = s.regions.insert id r) (passed : Passed s t id r) :
    Carries s t := by
  refine ⟨given, fun j q found => ?_⟩
  rw [written, ExtTreeMap.getElem?_insert] at found
  split_ifs at found with same
  · cases found
    rw [← Std.compare_eq_iff_eq.mp same]
    exact passed
  · exact .kept q found rfl fun flag => flag

theorem carries_allocate (req : AllocateRequest) : Preserves Carries (allocate b req) := by
  intro s
  have grown := length_given_le b req.spec s.world
  have ho := allocate_outcome b req s
  generalize hres : (allocate b req).run s = res at ho
  cases ho with
  | zero bad => rw [stateAfter_of_error hres]; exact Std.Refl.refl s
  | exhausted last => rw [stateAfter_of_error hres]; exact carries_of_regions grown rfl
  | failed g e w nonzero next call =>
    rw [stateAfter_of_error call] at grown
    rw [stateAfter_of_ok hres]
    exact .insert grown rfl (.failed rfl rfl)
  | granted g result w nonzero next call r region_eq =>
    obtain ⟨raw, x, -, result_eq, world_eq⟩ := World.allocate_eq_ok call
    rw [stateAfter_of_ok call] at grown
    rw [stateAfter_of_ok hres]
    have handle : r.backendResult.handle = s.world.given.length + 1 := by
      rw [region_eq, show (grantedRegion ⟨s.nextId⟩ g req result).backendResult = result from rfl,
        result_eq]
    refine .insert grown rfl (.renewed (by omega) ?_)
    rw [handle, world_eq, List.length_append]
    rfl

theorem carries_release (id : MemoryRegionId) (expected : Option MemoryGeneration) :
    Preserves Carries (release b id expected) := by
  intro s
  have ho := release_outcome b id expected s
  generalize hres : (release b id expected).run s = res at ho
  cases ho with
  | unknown absent => rw [stateAfter_of_error hres]; exact Std.Refl.refl s
  | refused r e found bad => rw [stateAfter_of_error hres]; exact Std.Refl.refl s
  | underflow r found good under =>
    rw [stateAfter_of_error hres]
    exact carries_of_regions le_rfl rfl
  | released r found good covered =>
    rw [stateAfter_of_ok hres]
    exact .insert le_rfl rfl (.kept r found rfl fun flag => by cases flag)

theorem carries_transition (id : MemoryRegionId) (next : LifecycleState) :
    Preserves Carries (transition (β := β) id next) := by
  intro s
  have ho := transition_outcome id next s
  generalize hres : (transition id next).run s = res at ho
  cases ho with
  | unknown absent => rw [stateAfter_of_error hres]; exact Std.Refl.refl s
  | notGuarded r found bad => rw [stateAfter_of_error hres]; exact Std.Refl.refl s
  | moved r found good =>
    rw [stateAfter_of_ok hres]
    exact .insert le_rfl rfl (.kept r found rfl fun flag => flag)

/-- The buffer a migration moves to has a number of its own. -/
theorem migrationCall_handle {r : MemoryRegion} {target : NumaNodeId} {result : AllocationResult}
    {w w' : World β} (call : migrationCall b r target w = .ok result w') :
    result.handle = w.given.length + 1 ∧ w'.given.length = w.given.length + 1 := by
  obtain ⟨raw, x, -, result_eq, world_eq⟩ := World.allocate_eq_ok call
  refine ⟨by rw [result_eq], ?_⟩
  rw [world_eq, List.length_append]
  rfl

theorem given_handedOver (r : MemoryRegion) (result : AllocationResult) (copyData : Bool)
    (w : World β) : (handedOver b r result copyData w).given = w.given := by
  unfold handedOver World.free World.copy
  split_ifs <;> rfl

theorem carries_governedReallocate (id : MemoryRegionId) (target : NumaNodeId) (copyData : Bool) :
    Preserves Carries (governedReallocate b id target copyData) := by
  intro s
  have ho := governed_outcome b id target copyData s
  generalize hres : (governedReallocate b id target copyData).run s = res at ho
  cases ho with
  | unknown absent => rw [stateAfter_of_error hres]; exact Std.Refl.refl s
  | refused r e found bad => rw [stateAfter_of_error hres]; exact Std.Refl.refl s
  | retained r found good declined =>
    rw [stateAfter_of_ok hres]
    exact .insert (length_given_le b _ s.world) rfl (.kept r found rfl fun flag => flag)
  | underflow r result w found good call usable under =>
    obtain ⟨-, grown⟩ := migrationCall_handle call
    rw [stateAfter_of_error hres]
    refine .insert ?_ rfl (.kept r found rfl fun flag => flag)
    rw [given_handedOver, grown]
    exact Nat.le_succ _
  | exhausted r result w found good call usable covered last =>
    obtain ⟨handle, grown⟩ := migrationCall_handle call
    rw [stateAfter_of_error hres]
    refine .insert ?_ rfl (.renewed ?_ ?_)
    · rw [given_handedOver, grown]
      exact Nat.le_succ _
    · exact handle ▸ Nat.lt_succ_self _
    · rw [given_handedOver, grown]
      exact handle.le
  | committed r result w g found good call usable covered next view done =>
    obtain ⟨handle, grown⟩ := migrationCall_handle call
    rw [stateAfter_of_ok hres]
    refine .insert ?_ rfl (.renewed ?_ ?_)
    · rw [given_handedOver, grown]
      exact Nat.le_succ _
    · exact handle ▸ Nat.lt_succ_self _
    · rw [given_handedOver, grown]
      exact handle.le

theorem getElem?_invalidateLocalityStale {id : MemoryRegionId} {r : MemoryRegion}
    (found : s.invalidateLocalityStale.regions[id]? = some r) :
    ∃ q, s.regions[id]? = some q ∧ r = if q.state.isLive then
      { q with localityCurrent := false, localityVerified := false } else q := by
  rw [invalidateLocalityStale, ExtTreeMap.getElem?_map] at found
  obtain ⟨q, there, rfl⟩ := Option.map_eq_some_iff.mp found
  exact ⟨q, there, rfl⟩

theorem carries_followed (b : Backend β) : Followed b Carries where
  allocate := carries_allocate
  release := carries_release
  transition := carries_transition
  governedReallocate := carries_governedReallocate
  invalidate s := by
    refine ⟨le_rfl, fun id r found => ?_⟩
    obtain ⟨q, there, rfl⟩ := getElem?_invalidateLocalityStale found
    split_ifs
    · exact .kept q there rfl fun flag => by cases flag
    · exact .kept q there rfl fun flag => flag
  aside s backend heap := carries_of_regions le_rfl rfl

end Manager

open NumaFabric.Runtime

variable {β : Type} (b : Backend β) (probe : HostProbe β)

/-- A public call, of the runtime or of the memory manager that it hands out. -/
inductive Call
  | runtime (op : Runtime.Op)
  | release (id : MemoryRegionId) (expected : Option MemoryGeneration)
  | transition (id : MemoryRegionId) (next : LifecycleState)
  | governedReallocate (id : MemoryRegionId) (target : NumaNodeId) (copyData : Bool)
  | invalidateLocalityStale

def step (s : Runtime β) : Call → Runtime β
  | .runtime op => Runtime.step b probe s op
  | .release id expected => stateAfter (onMemory (MemoryManager.release b id expected)) s
  | .transition id next => stateAfter (onMemory (MemoryManager.transition id next)) s
  | .governedReallocate id target copyData =>
    stateAfter (onMemory (MemoryManager.governedReallocate b id target copyData)) s
  | .invalidateLocalityStale =>
    { s with migrator := { s.migrator with mem := s.migrator.mem.invalidateLocalityStale } }

def run (s : Runtime β) (calls : List Call) : Runtime β := calls.foldl (step b probe) s

def regionsOf (s : Runtime β) : ExtTreeMap MemoryRegionId MemoryRegion := s.migrator.mem.regions

/-- The call is a topology refresh, an advance of the epoch or of the policy generation, or a
recovery, and it succeeds. -/
def Happens (s : Runtime β) : Call → Prop
  | .runtime .discover => ∃ found t, (discover probe).run s = .ok found t
  | .runtime .advanceEpoch => ∃ t, advanceEpoch.run s = .ok () t
  | .runtime .advancePolicyGeneration => True
  | .runtime (.recover disk path) => ∃ t, (recover disk path).run s = .ok () t
  | _ => False

/-- After such an event, a region that was live before it has the flag only with another
allocation. -/
def NeverCurrent (s : Runtime β) (calls : List Call) : Prop :=
  ∀ pre call post, pre ++ call :: post <+: calls → Happens probe (run b probe s pre) call →
    ∀ (id : MemoryRegionId) r r', (regionsOf (run b probe s pre))[id]? = some r →
      r.state.isLive = true → (regionsOf (run b probe s (pre ++ call :: post)))[id]? = some r' →
      r'.localityCurrent = true → r'.backendResult.handle ≠ r.backendResult.handle

/-- The event is a recovery, or it finds no live region with the flag. -/
def Fenced (s : Runtime β) (call : Call) : Prop :=
  Happens probe s call → (∃ disk path, call = .runtime (.recover disk path)) ∨
    ∀ (id : MemoryRegionId) r, (regionsOf s)[id]? = some r → r.state.isLive = true →
      r.localityCurrent = false

theorem carries_step (s : Runtime β) (call : Call) :
    Carries s.migrator.mem (step b probe s call).migrator.mem := by
  have follows := carries_followed b
  cases call with
  | runtime op => exact follows.step probe op s
  | release id expected => exact onRegions_onMemory (follows.release id expected) s
  | transition id next => exact onRegions_onMemory (follows.transition id next) s
  | governedReallocate id target copyData =>
    exact onRegions_onMemory (follows.governedReallocate id target copyData) s
  | invalidateLocalityStale => exact follows.invalidate s.migrator.mem

theorem carries_run (s : Runtime β) (calls : List Call) :
    Carries s.migrator.mem (run b probe s calls).migrator.mem := by
  induction calls generalizing s with
  | nil => exact Std.Refl.refl s.migrator.mem
  | cons call calls ih => exact IsTrans.trans _ _ _ (carries_step b probe s call) (ih (step b probe s call))

section Run
variable {b probe} {s t : Runtime β} {call : Call}

/-- In a run from the beginning, every number a region has was given before. -/
theorem handle_le_given (backend : β) (heap : Heap) (calls : List Call) {id : MemoryRegionId}
    {r : MemoryRegion} (found : (regionsOf (run b probe (.create backend heap) calls))[id]? = some r) :
    r.backendResult.handle ≤
      (run b probe (.create backend heap) calls).migrator.mem.world.given.length := by
  cases (carries_run b probe (.create backend heap) calls).regions id r found with
  | kept q there same flag => simp [Runtime.create, MigrationManager.initial] at there
  | renewed above recorded => exact recorded
  | failed nothing stale => rw [nothing]; exact Nat.zero_le _

theorem regionsOf_discover (probe : HostProbe β) (s : Runtime β) :
    regionsOf (stateAfter (discover probe) s) = regionsOf s := by
  rw [stateAfter, discover, EStateM.run_bind, onBackend, run_zoom]
  cases probe.discoverHost.run s.migrator.mem.world.backend <;> rfl

theorem regionsOf_advanceEpoch (s : Runtime β) :
    regionsOf (stateAfter advanceEpoch s) = regionsOf s := by
  simp only [stateAfter, advanceEpoch, EStateM.run_bind, EStateM.run_get]
  cases s.epoch.next <;> rfl

theorem mem_of_recover {disk : Persistence.Disk} {path : ByteString}
    (h : (recover disk path).run s = .ok () t) :
    t.migrator.mem = s.migrator.mem.invalidateLocalityStale := by
  cases read : loaded disk path with
  | error e =>
    rw [recover_unread read] at h
    cases h
  | ok p =>
    rw [recover_run read] at h
    cases workers : (restoreWorkers p.workers).run s.registry with
    | error e r =>
      rw [workers] at h
      cases h
    | ok u r =>
      rw [workers] at h
      dsimp only at h
      cases reserved : (restoreReservations s.nodeCapacityProvider p.reservations).run
          s.reservations with
      | error e q =>
        rw [reserved] at h
        cases h
      | ok u q =>
        rw [reserved] at h
        cases h
        rfl

/-- Any such event but a recovery leaves every region as it is. -/
theorem regionsOf_step (happens : Happens probe s call)
    (other : ¬∃ disk path, call = .runtime (.recover disk path)) :
    regionsOf (step b probe s call) = regionsOf s := by
  cases call with
  | runtime op =>
    cases op with
    | discover => exact regionsOf_discover probe s
    | advanceEpoch => exact regionsOf_advanceEpoch s
    | advancePolicyGeneration => rfl
    | recover disk path => exact absurd ⟨disk, path, rfl⟩ other
    | _ => exact happens.elim
  | _ => exact happens.elim

/-- A fenced event leaves no live region with the flag. -/
theorem unflagged (happens : Happens probe s call) (fenced : Fenced probe s call)
    {id : MemoryRegionId} {r q : MemoryRegion} (before : (regionsOf s)[id]? = some r)
    (live : r.state.isLive = true) (after : (regionsOf (step b probe s call))[id]? = some q) :
    q.localityCurrent = false := by
  by_cases recovery : ∃ disk path, call = .runtime (.recover disk path)
  · obtain ⟨disk, path, rfl⟩ := recovery
    obtain ⟨t, returned⟩ := happens
    have state : step b probe s (.runtime (.recover disk path)) = t := stateAfter_of_ok returned
    rw [regionsOf, state, mem_of_recover returned] at after
    obtain ⟨p, there, rfl⟩ := getElem?_invalidateLocalityStale after
    rw [regionsOf, there] at before
    cases before
    rw [if_pos live]
  · rw [regionsOf_step happens recovery, before] at after
    cases after
    exact (fenced happens).resolve_left recovery id r before live

end Run

/-- Stale evidence is never current in a run exactly when every event that makes it stale is a
recovery, or finds no live region with the flag. -/
theorem never_current_iff (backend : β) (heap : Heap) (calls : List Call) :
    NeverCurrent b probe (.create backend heap) calls ↔
      Meets (step b probe) (Fenced probe) (.create backend heap) calls := by
  constructor
  · intro never
    refine meets_iff.mpr fun pre call reached happens => ?_
    by_cases recovery : ∃ disk path, call = .runtime (.recover disk path)
    · exact .inl recovery
    · refine .inr fun id r found live => Bool.eq_false_iff.mpr fun flag => ?_
      have same : regionsOf (run b probe (.create backend heap) (pre ++ [call])) =
          regionsOf (run b probe (.create backend heap) pre) := by
        rw [run, List.foldl_concat]
        exact regionsOf_step happens recovery
      exact never pre call [] reached happens id r r found live (by rw [same]; exact found) flag rfl
  · rintro meets pre call post ⟨rest, rfl⟩ happens id r r' found live found' flag same
    have before := handle_le_given backend heap pre found
    rw [List.append_assoc, meets_append, List.cons_append] at meets
    have fenced : Fenced probe (run b probe (.create backend heap) pre) call := meets.2.1
    have later : run b probe (.create backend heap) (pre ++ call :: post) =
        run b probe (step b probe (run b probe (.create backend heap) pre) call) post :=
      List.foldl_append
    rw [later] at found'
    generalize run b probe (.create backend heap) pre = s at *
    cases (carries_run b probe (step b probe s call) post).regions id r' found' with
    | kept q there _ set =>
      have unset := unflagged happens fenced found live there
      rw [set flag] at unset
      cases unset
    | renewed above _ =>
      have grown := (carries_step b probe s call).given
      omega
    | failed _ stale =>
      rw [flag] at stale
      cases stale

open SyntheticBackend PlannedExecution in
/-- A region is allocated, and then the topology is discovered. The region is live and unmoved,
and its locality still current. -/
theorem current_after_refresh :
    ¬ ∀ {β : Type} (b : Backend β) (probe : HostProbe β) (backend : β) (heap : Heap)
      (calls : List Call), NeverCurrent b probe (.create backend heap) calls := by
  intro never
  have accepted : tinyHost.host.validate = .ok () := by decide
  have refreshes : ∀ s, ∃ found t, (discover (probe tinyHost)).run s = .ok found t := by
    intro s
    rw [discover, EStateM.run_bind, onBackend, run_zoom, probe, accepted]
    exact ⟨_, _, rfl⟩
  have marked : ((regionsOf (run (backend tinyHost) (probe tinyHost) (.create {} fun _ => 0)
      [.runtime (.allocate { bytes := ⟨1⟩ })]))[(⟨1⟩ : MemoryRegionId)]?).any
      (fun r => r.state.isLive && r.localityCurrent) = true := by decide
  obtain ⟨r, found, good⟩ := (Option.any_eq_true _ _).mp marked
  obtain ⟨live, flag⟩ := Bool.and_eq_true_iff.mp good
  refine never (backend tinyHost) (probe tinyHost) {} (fun _ => 0)
    [.runtime (.allocate { bytes := ⟨1⟩ }), .runtime .discover]
    [.runtime (.allocate { bytes := ⟨1⟩ })] (.runtime .discover) [] List.prefix_rfl (refreshes _) ⟨1⟩
    r r found live ?_ flag rfl
  rw [← found, ← regionsOf_discover (probe tinyHost)]
  rfl

end NumaFabric.LocalityFreshness
