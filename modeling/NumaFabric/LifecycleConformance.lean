import NumaFabric.FaultRun
import NumaFabric.MigrationRace
import NumaFabric.MigrationOutcome
import NumaFabric.MemoryLedger
import NumaFabric.SyntheticBackend

/-! The memory manager against its own lifecycle. `transition` asks the guard; `release` and a
migration that gets no buffer write the state of the region directly. -/
namespace NumaFabric.LifecycleConformance
open Std FaultState FaultRun LedgerCounter MemoryManager MigrationManager MemoryLedger

variable {β : Type} (b : Backend β)

/-- A call on either manager, the reallocation without an attempt among them. -/
inductive Call
  | managed (op : Op)
  | governedReallocate (id : MemoryRegionId) (target : NumaNodeId) (copyData : Bool)
  deriving DecidableEq, Repr

def step (s : MigrationManager β) : Call → MigrationManager β
  | .managed op => MigrationManager.step b s op
  | .governedReallocate id target copyData =>
    stateAfter (onMemory (MemoryManager.governedReallocate b id target copyData)) s

def run (backend : β) (heap : Heap) (calls : List Call) : MigrationManager β :=
  calls.foldl (step b) (initial backend heap)

/-- The region a call sets out to move, and where to. -/
def reallocation (s : MigrationManager β) : Call → Option (MemoryRegionId × NumaNodeId)
  | .governedReallocate id target _ => some (id, target)
  | .managed (.execute id) =>
    match s.attempts[id]? with
    | none => none
    | some m =>
      if (executeRefusal m id).isSome then none else some (m.memoryRegion, m.targetNode)
  | _ => none

/-- The rule of the operations, with the reallocation among them. -/
theorem step_memory {b : Backend β} {P : MemoryManager β → Prop} {s : MigrationManager β} (call : Call)
    (stays : P s.mem) (allocated : ∀ req, P (stateAfter (allocate b req) s.mem))
    (released : ∀ id expected, P (stateAfter (release b id expected) s.mem))
    (stale : P s.mem.invalidateLocalityStale)
    (moved : ∀ id next, (next.isReleased = true → call = .managed (.transition id next)) →
      P (stateAfter (transition id next) s.mem))
    (governed : ∀ id target copyData, reallocation s call = some (id, target) →
      P (stateAfter (governedReallocate b id target copyData) s.mem)) : P (step b s call).mem := by
  cases call with
  | governedReallocate id target copyData =>
    rw [step, stateAfter_onMemory]
    exact governed id target copyData rfl
  | managed op =>
    refine op_memory op stays allocated released stale (fun id next named => ?_)
      fun id m same found good => governed _ _ _ ?_
    · exact moved id next fun ended => congrArg Call.managed (named ended)
    · subst same
      simp [reallocation, found, good]

/-- Where the state of a region changes, the lifecycle permits it. -/
def Lawful (s t : MemoryManager β) : Prop :=
  ∀ (id : MemoryRegionId) r r', s.regions[id]? = some r → t.regions[id]? = some r' →
    r'.state ≠ r.state → canTransition r.state r'.state = true

/-- The manager after each phase of a reallocation. A phase changes the state of a region once at
most: the commit writes the region twice, and the first time leaves its state. -/
def reallocationTrail (id : MemoryRegionId) (target : NumaNodeId) (copyData : Bool)
    (s : MemoryManager β) : List (MemoryManager β) :=
  match (markMigrating id).run s with
  | .error _ t => [t]
  | .ok snapshot t =>
    match (obtainTarget b snapshot target).run t with
    | .error _ u => [t, u]
    | .ok none u => [t, u, stateAfter (retainOriginal id) u]
    | .ok (some result) u =>
      match (giveBack b snapshot result copyData).run u with
      | .error _ v => [t, u, v]
      | .ok _ v => [t, u, v, stateAfter (commitMove id snapshot result target) v]

/-- The regions after each assignment that a call makes to the state of one. -/
def trail (s : MigrationManager β) : Call → List (MemoryManager β)
  | .governedReallocate id target copyData => reallocationTrail b id target copyData s.mem
  | .managed (.execute id) =>
    match s.attempts[id]? with
    | none => [s.mem]
    | some m =>
      if (executeRefusal m id).isSome then [s.mem]
      else reallocationTrail b m.memoryRegion m.targetNode m.copyData s.mem
  | call => [(step b s call).mem]

section Trail
variable {b} {s : MemoryManager β} {id : MemoryRegionId} {target : NumaNodeId} {copyData : Bool}

/-- The phases end where the call ends. -/
theorem getLast?_reallocationTrail :
    (reallocationTrail b id target copyData s).getLast? =
      some (stateAfter (governedReallocate b id target copyData) s) := by
  rw [stateAfter, governedReallocate_phases, EStateM.run_bind, reallocationTrail]
  cases marked : (markMigrating id).run s with
  | error e t => rfl
  | ok snapshot t =>
    dsimp only
    rw [EStateM.run_bind]
    cases asked : (obtainTarget b snapshot target).run t with
    | error e u => rfl
    | ok answer u =>
      cases answer with
      | none =>
        dsimp only
        rw [EStateM.run_bind, stateAfter]
        cases (retainOriginal id).run u <;> rfl
      | some result =>
        dsimp only
        rw [EStateM.run_bind]
        cases (giveBack b snapshot result copyData).run u with
        | error e v => rfl
        | ok _ v =>
          dsimp only
          rw [stateAfter]
          cases (commitMove id snapshot result target).run v <;> rfl

theorem getLast?_trail (s : MigrationManager β) (call : Call) :
    (trail b s call).getLast? = some (step b s call).mem := by
  cases call with
  | governedReallocate id target copyData =>
    rw [step, stateAfter_onMemory]
    exact getLast?_reallocationTrail
  | managed op =>
    cases op with
    | execute id =>
      have ho := execute_outcome b id s
      generalize hres : (execute b id).run s = res at ho
      have state : (step b s (.managed (.execute id))) = stateAfter (execute b id) s := rfl
      cases ho with
      | unknown absent => simp [trail, absent, state, stateAfter_of_error hres]
      | refused m e found bad => simp [trail, found, bad, state, stateAfter_of_error hres]
      | threw m e mem found good call =>
        simp only [trail, found, good, Option.isSome_none, Bool.false_eq_true, if_false]
        rw [getLast?_reallocationTrail, state, stateAfter_of_error hres, stateAfter_of_error call]
      | finished m view mem found good call =>
        simp only [trail, found, good, Option.isSome_none, Bool.false_eq_true, if_false]
        rw [getLast?_reallocationTrail, state, stateAfter_of_ok hres, stateAfter_of_ok call]
    | _ => rfl

end Trail

section Law
variable {b} {s t : MemoryManager β} {id : MemoryRegionId} {r r' : MemoryRegion}

theorem lawful_of_regions (same : t.regions = s.regions) : Lawful s t := by
  intro id r r' before after changed
  rw [same, before] at after
  cases after
  exact absurd rfl changed

/-- A call that writes one region is judged by that region. -/
theorem lawful_insert (found : s.regions[id]? = some r)
    (written : t.regions = s.regions.insert id r') :
    Lawful s t ↔ (r'.state ≠ r.state → canTransition r.state r'.state = true) := by
  constructor
  · intro lawful changed
    refine lawful id r r' found ?_ changed
    rw [written, ExtTreeMap.getElem?_insert_self]
  · intro permitted j q q' before after changed
    rw [written, ExtTreeMap.getElem?_insert] at after
    split_ifs at after with same
    · cases after
      rw [← Std.compare_eq_iff_eq.mp same, found] at before
      cases before
      exact permitted changed
    · rw [before] at after
      cases after
      exact absurd rfl changed

theorem lawful_rewrite (found : s.regions[id]? = some r)
    (written : t.regions = s.regions.insert id r') (same : r'.state = r.state) : Lawful s t :=
  (lawful_insert found written).mpr fun changed => absurd same changed

/-- A region under a new number is not an assignment to an old one. -/
theorem lawful_record (fresh : s.regions[id]? = none) (written : t.regions = s.regions.insert id r) :
    Lawful s t := by
  intro j q q' before after changed
  rw [written, ExtTreeMap.getElem?_insert] at after
  split_ifs at after with same
  · rw [← Std.compare_eq_iff_eq.mp same, fresh] at before
    cases before
  · rw [before] at after
    cases after
    exact absurd rfl changed

theorem lawful_allocate (numbered : Numbered s) (req : AllocateRequest) :
    Lawful s (stateAfter (allocate b req) s) := by
  have ho := allocate_outcome b req s
  generalize hres : (allocate b req).run s = res at ho
  cases ho with
  | zero bad => rw [stateAfter_of_error hres]; exact lawful_of_regions rfl
  | exhausted last => rw [stateAfter_of_error hres]; exact lawful_of_regions rfl
  | failed g e w nonzero next call =>
    rw [stateAfter_of_ok hres]
    exact lawful_record (numbered.fresh next) rfl
  | granted g result w nonzero next call r region_eq =>
    rw [stateAfter_of_ok hres]
    exact lawful_record (numbered.fresh next) rfl

theorem lawful_transition (id : MemoryRegionId) (next : LifecycleState) :
    Lawful s (stateAfter (transition id next) s) := by
  have ho := transition_outcome id next s
  generalize hres : (transition id next).run s = res at ho
  cases ho with
  | unknown absent => rw [stateAfter_of_error hres]; exact lawful_of_regions rfl
  | notGuarded r found bad => rw [stateAfter_of_error hres]; exact lawful_of_regions rfl
  | moved r found good =>
    rw [stateAfter_of_ok hres]
    exact (lawful_insert found rfl).mpr fun _ => good

theorem lawful_invalidateLocalityStale : Lawful s s.invalidateLocalityStale := by
  intro id r r' before after changed
  rw [invalidateLocalityStale, ExtTreeMap.getElem?_map, before] at after
  cases after
  dsimp only at changed
  split_ifs at changed <;> exact absurd rfl changed

/-- A release that goes through finds its region where the lifecycle lets it end. -/
def ReleasesLawfully (s : MemoryManager β) (id : MemoryRegionId)
    (expected : Option MemoryGeneration) : Prop :=
  ∀ r, s.regions[id]? = some r → releaseRefusal r id expected = none →
    underflows r s.nodeUsage = false → canTransition r.state .released = true

theorem lawful_release (expected : Option MemoryGeneration) :
    Lawful s (stateAfter (release b id expected) s) ↔ ReleasesLawfully s id expected := by
  have ho := release_outcome b id expected s
  generalize hres : (release b id expected).run s = res at ho
  unfold ReleasesLawfully
  cases ho with
  | unknown absent =>
    rw [stateAfter_of_error hres]
    exact iff_of_true (lawful_of_regions rfl) fun r found => by rw [absent] at found; cases found
  | refused q e there bad =>
    rw [stateAfter_of_error hres]
    refine iff_of_true (lawful_of_regions rfl) fun r found good => ?_
    rw [there] at found
    cases found
    rw [bad] at good
    cases good
  | underflow q there good under =>
    rw [stateAfter_of_error hres]
    refine iff_of_true (lawful_of_regions rfl) fun r found _ covered => ?_
    rw [there] at found
    cases found
    rw [under] at covered
    cases covered
  | released q there good covered =>
    rw [stateAfter_of_ok hres, lawful_insert there rfl]
    have standing : LifecycleState.released ≠ q.state := by
      intro ended
      have open_ := isReleased_of_releaseRefusal good
      rw [← ended] at open_
      cases open_
    refine ⟨fun permitted r found _ _ => ?_, fun all _ => all q there good covered⟩
    rw [there] at found
    cases found
    exact permitted standing

theorem markMigrating_run (found : s.regions[id]? = some r) (good : migrateRefusal r id = none) :
    (markMigrating id).run s = .ok { r with state := .migrating }
      { s with regions := s.regions.insert id { r with state := .migrating } } := by
  simp only [markMigrating, EStateM.run_bind, EStateM.run_get, found, good]
  rfl

theorem markMigrating_refused (bad : ∀ r, s.regions[id]? = some r → migrateRefusal r id ≠ none) :
    ∃ e, (markMigrating id).run s = .error e s := by
  simp only [markMigrating, EStateM.run_bind, EStateM.run_get]
  cases found : s.regions[id]? with
  | none => exact ⟨_, rfl⟩
  | some r =>
    cases refusal : migrateRefusal r id with
    | none => exact absurd refusal (bad r found)
    | some e => simp only [refusal]; exact ⟨_, rfl⟩

section Target
variable {target : NumaNodeId}

theorem obtainTarget_declined (declined : Declines b r target s.world) :
    ∃ w, (obtainTarget b r target).run s = .ok none { s with world := w } := by
  simp only [obtainTarget, EStateM.run_bind, tryAllocate_run, EStateM.run_pure]
  cases call : (World.allocate b (migrationSpec r.grantedBytes target)).run s.world with
  | error e w => exact ⟨w, rfl⟩
  | ok result w => exact ⟨w, by simp [declined result w call]⟩

theorem obtainTarget_granted (granted : ¬Declines b r target s.world) :
    ∃ result w, (obtainTarget b r target).run s = .ok (some result) { s with world := w } := by
  simp only [Declines, not_forall, Bool.not_eq_false] at granted
  obtain ⟨result, w, call, usable⟩ := granted
  refine ⟨result, w, ?_⟩
  have called : (World.allocate b (migrationSpec r.grantedBytes target)).run s.world = _ := call
  simp only [obtainTarget, EStateM.run_bind, tryAllocate_run, EStateM.run_pure, called]
  simp [usable]

theorem retainOriginal_run (found : s.regions[id]? = some r) (migrating : r.state = .migrating) :
    stateAfter (retainOriginal id) s =
      { s with regions := s.regions.insert id { r with state := .active } } := by
  simp only [stateAfter, retainOriginal, EStateM.run_bind, EStateM.run_get, found, migrating]
  rfl

/-- The commit rebinds a region that is migrating, or leaves it so. -/
theorem lawful_commitMove (found : s.regions[id]? = some r) (migrating : r.state = .migrating)
    (result : AllocationResult) : Lawful s (stateAfter (commitMove id r result target) s) := by
  have left : ∀ m w, Lawful s { s with
      regions := s.regions.insert id (r.rebindTo result target), nodeUsage := m, world := w } :=
    fun _ _ => lawful_rewrite found rfl rfl
  have bound : ∀ g m w, Lawful s { s with
      regions := s.regions.insert id (rebound r result target g), nodeUsage := m, world := w } :=
    fun _ _ _ => (lawful_insert found rfl).mpr fun _ => by rw [migrating]; rfl
  rw [stateAfter, commitMove_run result target found]
  cases underflows r s.nodeUsage with
  | true => exact lawful_of_regions rfl
  | false =>
    cases r.generation.next with
    | error e => exact left _ _
    | ok g => exact bound _ _ _

end Target

/-- A migration that starts gets a buffer from the backend. -/
def Obtains (b : Backend β) (s : MemoryManager β) (id : MemoryRegionId) (target : NumaNodeId) : Prop :=
  ∀ r, s.regions[id]? = some r → migrateRefusal r id = none → ¬Declines b r target s.world

/-- A region that begins to move. -/
theorem lawful_markMigrating (found : s.regions[id]? = some r) (good : migrateRefusal r id = none) :
    Lawful s { s with regions := s.regions.insert id { r with state := .migrating } } := by
  refine (lawful_insert found rfl).mpr fun _ => ?_
  rw [pending_of_migrateRefusal good]
  rfl

/-- Without a buffer the region is marked, and becomes active again. -/
theorem reallocationTrail_declined {target : NumaNodeId} (found : s.regions[id]? = some r)
    (good : migrateRefusal r id = none) (declined : Declines b r target s.world) (copyData : Bool) :
    ∃ t u v : MemoryManager β, reallocationTrail b id target copyData s = [t, u, v] ∧
      Lawful s t ∧ Lawful t u ∧ u.regions[id]? = some { r with state := .migrating } ∧
      v.regions = u.regions.insert id { r with state := .active } := by
  obtain ⟨w, asked⟩ := obtainTarget_declined (s := { s with
    regions := s.regions.insert id { r with state := .migrating } })
    (r := { r with state := .migrating }) declined
  let u : MemoryManager β :=
    { s with regions := s.regions.insert id { r with state := .migrating }, world := w }
  have marked : u.regions[id]? = some { r with state := .migrating } :=
    ExtTreeMap.getElem?_insert_self
  have retained := retainOriginal_run marked rfl
  refine ⟨_, u, stateAfter (retainOriginal id) u, ?_, lawful_markMigrating found good,
    lawful_of_regions rfl, marked, by rw [retained]⟩
  rw [reallocationTrail, markMigrating_run found good]
  dsimp only
  rw [asked]

theorem isChain_reallocationTrail (target : NumaNodeId) (copyData : Bool) :
    List.IsChain Lawful (s :: reallocationTrail b id target copyData s) ↔ Obtains b s id target := by
  by_cases starts : ∃ r, s.regions[id]? = some r ∧ migrateRefusal r id = none
  · obtain ⟨r, found, good⟩ := starts
    have one : Obtains b s id target ↔ ¬Declines b r target s.world := by
      refine ⟨fun all => all r found good, fun granted q there _ => ?_⟩
      rw [found] at there
      cases there
      exact granted
    rw [one]
    by_cases declined : Declines b r target s.world
    · refine iff_of_false (fun chain => ?_) (not_not.mpr declined)
      obtain ⟨t, u, v, phases, -, -, marked, retained⟩ :=
        reallocationTrail_declined found good declined copyData
      rw [phases] at chain
      simp only [List.isChain_cons_cons] at chain
      exact absurd ((lawful_insert marked retained).mp chain.2.2.1 (by simp)) (by simp [canTransition])
    · obtain ⟨result, w, asked⟩ := obtainTarget_granted (s := { s with
        regions := s.regions.insert id { r with state := .migrating } })
        (r := { r with state := .migrating }) declined
      refine iff_of_true ?_ declined
      have marked : ∀ w : World β, ({ s with
          regions := s.regions.insert id { r with state := .migrating }, world := w } :
          MemoryManager β).regions[id]? = some { r with state := .migrating } := by simp
      rw [reallocationTrail, markMigrating_run found good]
      dsimp only
      rw [asked]
      simp only [giveBack_run, List.isChain_cons_cons, List.isChain_singleton, and_true]
      exact ⟨lawful_markMigrating found good, lawful_of_regions rfl, lawful_of_regions rfl,
        lawful_commitMove (marked _) rfl result⟩
  · have refused : ∀ r, s.regions[id]? = some r → migrateRefusal r id ≠ none :=
      fun r found good => starts ⟨r, found, good⟩
    obtain ⟨e, stays⟩ := markMigrating_refused refused
    rw [reallocationTrail, stays]
    refine iff_of_true ?_ fun r found good => absurd good (refused r found)
    simp only [List.isChain_cons_cons, List.isChain_singleton, and_true]
    exact lawful_of_regions rfl

end Law

section Numbers
variable {b} {s : MemoryManager β}

theorem numbered_allocate (h : Numbered s) (req : AllocateRequest) :
    Numbered (stateAfter (allocate b req) s) := by
  have ho := allocate_outcome b req s
  generalize hres : (allocate b req).run s = res at ho
  cases ho with
  | zero bad => rw [stateAfter_of_error hres]; exact h
  | exhausted last =>
    rw [stateAfter_of_error hres]
    exact ⟨h.issued, fun left => absurd last left⟩
  | failed g e w nonzero next call =>
    rw [stateAfter_of_ok hres]
    exact h.record next _ rfl rfl rfl
  | granted g result w nonzero next call r region_eq =>
    rw [stateAfter_of_ok hres]
    exact h.record next r rfl rfl rfl

theorem numbered_release (h : Numbered s) (id : MemoryRegionId) (expected : Option MemoryGeneration) :
    Numbered (stateAfter (release b id expected) s) := by
  have ho := release_outcome b id expected s
  generalize hres : (release b id expected).run s = res at ho
  cases ho with
  | unknown absent => rw [stateAfter_of_error hres]; exact h
  | refused r e found bad => rw [stateAfter_of_error hres]; exact h
  | underflow r found good under => rw [stateAfter_of_error hres]; exact ⟨h.issued, h.aligned⟩
  | released r found good covered => rw [stateAfter_of_ok hres]; exact h.rewrite found rfl rfl rfl

theorem numbered_transition (h : Numbered s) (id : MemoryRegionId) (next : LifecycleState) :
    Numbered (stateAfter (transition id next) s) := by
  have ho := transition_outcome id next s
  generalize hres : (transition id next).run s = res at ho
  cases ho with
  | unknown absent => rw [stateAfter_of_error hres]; exact h
  | notGuarded r found bad => rw [stateAfter_of_error hres]; exact h
  | moved r found good => rw [stateAfter_of_ok hres]; exact h.rewrite found rfl rfl rfl

theorem numbered_governed (h : Numbered s) (id : MemoryRegionId) (target : NumaNodeId)
    (copyData : Bool) : Numbered (stateAfter (governedReallocate b id target copyData) s) := by
  have ho := governed_outcome b id target copyData s
  generalize hres : (governedReallocate b id target copyData).run s = res at ho
  cases ho with
  | unknown absent => rw [stateAfter_of_error hres]; exact h
  | refused r e found bad => rw [stateAfter_of_error hres]; exact h
  | retained r found good declined => rw [stateAfter_of_ok hres]; exact h.rewrite found rfl rfl rfl
  | underflow r result w found good call usable under =>
    rw [stateAfter_of_error hres]
    exact h.rewrite found rfl rfl rfl
  | exhausted r result w found good call usable covered last =>
    rw [stateAfter_of_error hres]
    exact h.rewrite found rfl rfl rfl
  | committed r result w g found good call usable covered next view done =>
    rw [stateAfter_of_ok hres]
    exact h.rewrite found rfl rfl rfl

theorem numbered_invalidateLocalityStale (h : Numbered s) : Numbered s.invalidateLocalityStale := by
  refine ⟨fun id q found => ?_, h.aligned⟩
  rw [invalidateLocalityStale, ExtTreeMap.getElem?_map] at found
  obtain ⟨r, there, -⟩ := Option.map_eq_some_iff.mp found
  exact h.issued id r there

theorem numbered_step (s : MigrationManager β) (h : Numbered s.mem) (call : Call) :
    Numbered (step b s call).mem :=
  step_memory call h (numbered_allocate h) (numbered_release h)
    (numbered_invalidateLocalityStale h) (fun id next _ => numbered_transition h id next)
    (fun id target copyData _ => numbered_governed h id target copyData)

theorem initial_numbered (backend : β) (heap : Heap) : Numbered (initial backend heap).mem :=
  ⟨fun id r found => by simp [initial] at found, fun _ => rfl⟩

theorem numbered_run (backend : β) (heap : Heap) (calls : List Call) :
    Numbered (run b backend heap calls).mem := by
  have keep : ∀ (s : MigrationManager β) (call : Call), Numbered s.mem → True →
      Numbered (step b s call).mem := fun s call h _ => numbered_step s h call
  exact foldl_invariant keep (initial_numbered backend heap) (meets_of_forall fun _ _ _ => trivial)

end Numbers

/-- What a call must meet so that each of its assignments is one the lifecycle permits. -/
def Conforms (s : MigrationManager β) : Call → Prop
  | .managed (.release id expected) => ReleasesLawfully s.mem id expected
  | .managed (.execute id) => ∀ m, s.attempts[id]? = some m → executeRefusal m id = none →
      Obtains b s.mem m.memoryRegion m.targetNode
  | .governedReallocate id target _ => Obtains b s.mem id target
  | _ => True

section Run
variable {b} {s : MigrationManager β}

theorem isChain_execute (id : AttemptId) :
    List.IsChain Lawful (s.mem :: trail b s (.managed (.execute id))) ↔
      Conforms b s (.managed (.execute id)) := by
  have stays : List.IsChain Lawful (s.mem :: [s.mem]) := by
    simp only [List.isChain_cons_cons, List.isChain_singleton, and_true]
    exact lawful_of_regions rfl
  cases found : s.attempts[id]? with
  | none =>
    have short : trail b s (.managed (.execute id)) = [s.mem] := by simp only [trail, found]
    rw [short]
    refine iff_of_true stays fun m there => ?_
    rw [found] at there
    cases there
  | some m =>
    have one : Conforms b s (.managed (.execute id)) ↔ (executeRefusal m id = none →
        Obtains b s.mem m.memoryRegion m.targetNode) := by
      refine ⟨fun all => all m found, fun obtains q there => ?_⟩
      rw [found] at there
      cases there
      exact obtains
    rw [one]
    cases refusal : executeRefusal m id with
    | some e =>
      have short : trail b s (.managed (.execute id)) = [s.mem] := by
        simp [trail, found, refusal]
      rw [short]
      exact iff_of_true stays fun good => by cases good
    | none =>
      have long : trail b s (.managed (.execute id)) =
          reallocationTrail b m.memoryRegion m.targetNode m.copyData s.mem := by
        simp [trail, found, refusal]
      rw [long, isChain_reallocationTrail]
      exact ⟨fun obtains _ => obtains, fun obtains => obtains rfl⟩

theorem isChain_trail (numbered : Numbered s.mem) (call : Call) :
    List.IsChain Lawful (s.mem :: trail b s call) ↔ Conforms b s call := by
  have single : ∀ t : MemoryManager β, List.IsChain Lawful (s.mem :: [t]) ↔ Lawful s.mem t :=
    fun t => by simp only [List.isChain_cons_cons, List.isChain_singleton, and_true]
  cases call with
  | governedReallocate id target copyData => exact isChain_reallocationTrail target copyData
  | managed op =>
    cases op with
    | allocate req =>
      refine iff_of_true ((single _).mpr ?_) trivial
      rw [step, MigrationManager.step, stateAfter_onMemory]
      exact lawful_allocate numbered req
    | release id expected =>
      refine (single _).trans ?_
      rw [step, MigrationManager.step, stateAfter_onMemory]
      exact lawful_release expected
    | invalidateLocalityStale =>
      exact iff_of_true ((single _).mpr lawful_invalidateLocalityStale) trivial
    | transition id next =>
      refine iff_of_true ((single _).mpr ?_) trivial
      rw [step, MigrationManager.step, stateAfter_onMemory]
      exact lawful_transition id next
    | begin req =>
      refine iff_of_true ((single _).mpr ?_) trivial
      exact begin_memory (P := Lawful s.mem) (lawful_of_regions rfl) req (lawful_transition _ _)
    | rollback id =>
      refine iff_of_true ((single _).mpr ?_) trivial
      exact rollback_memory (P := Lawful s.mem) (lawful_of_regions rfl) id
        fun m => lawful_transition _ _
    | execute id => exact isChain_execute id

end Run

/-- Over a run, every assignment to the state of a region is one the lifecycle permits exactly when
each release finds its region where it may be released, and each migration that starts gets a
buffer. -/
theorem lifecycle_iff (backend : β) (heap : Heap) (calls : List Call) :
    (∀ pre call, pre ++ [call] <+: calls → List.IsChain Lawful
        ((run b backend heap pre).mem :: trail b (run b backend heap pre) call)) ↔
      Meets (step b) (Conforms b) (initial backend heap) calls := by
  rw [meets_iff]
  have judged := fun pre call =>
    isChain_trail (b := b) (numbered_run (b := b) backend heap pre) call
  exact ⟨fun all pre call reached => (judged pre call).mp (all pre call reached),
    fun all pre call reached => (judged pre call).mpr (all pre call reached)⟩

/-- The two assignments for which the guard is not asked, or asked for another state: a release ends
a region that the guard lets end in one way or the other, and a migration without a buffer leaves its
region active. -/
inductive Bypass (b : Backend β) (s : MigrationManager β) (call : Call) (id : MemoryRegionId) :
    LifecycleState → LifecycleState → Prop
  | release {a : LifecycleState} (expected : Option MemoryGeneration)
      (named : call = .managed (.release id expected))
      (ends : canTransition a .released = true ∨ canTransition a .invalidated = true) :
      Bypass b s call id a .released
  | retain (target : NumaNodeId) (moves : reallocation s call = some (id, target))
      (declined : ¬Obtains b s.mem id target) : Bypass b s call id .migrating .active

/-- Where the call changes the state of a region, the lifecycle permits it, but for the bypasses. -/
def Permitted (b : Backend β) (m : MigrationManager β) (call : Call) (s t : MemoryManager β) : Prop :=
  ∀ (id : MemoryRegionId) r r', s.regions[id]? = some r → t.regions[id]? = some r' →
    r'.state ≠ r.state → canTransition r.state r'.state = true ∨ Bypass b m call id r.state r'.state

section Bypasses
variable {b} {m : MigrationManager β} {call : Call} {s t : MemoryManager β} {id : MemoryRegionId}
  {r r' : MemoryRegion}

theorem Lawful.permitted (h : Lawful s t) : Permitted b m call s t :=
  fun id r r' before after changed => .inl (h id r r' before after changed)

theorem permitted_insert (found : s.regions[id]? = some r)
    (written : t.regions = s.regions.insert id r') (bypass : Bypass b m call id r.state r'.state) :
    Permitted b m call s t := by
  intro j q q' before after changed
  rw [written, ExtTreeMap.getElem?_insert] at after
  split_ifs at after with same
  · cases after
    obtain rfl := Std.compare_eq_iff_eq.mp same
    rw [found] at before
    cases before
    exact .inr bypass
  · rw [before] at after
    cases after
    exact absurd rfl changed

theorem ends_of_releaseRefusal {expected : Option MemoryGeneration}
    (good : releaseRefusal r id expected = none) :
    canTransition r.state .released = true ∨ canTransition r.state .invalidated = true := by
  unfold releaseRefusal at good
  split_ifs at good with stale ended barred
  rw [Bool.and_eq_true, not_and_or, Bool.not_eq_true', Bool.not_eq_true'] at barred
  simpa using barred

theorem permitted_release (m : MigrationManager β) (id : MemoryRegionId)
    (expected : Option MemoryGeneration) :
    Permitted b m (.managed (.release id expected)) m.mem
      (stateAfter (MemoryManager.release b id expected) m.mem) := by
  have ho := release_outcome b id expected m.mem
  generalize hres : (MemoryManager.release b id expected).run m.mem = res at ho
  cases ho with
  | unknown absent => rw [stateAfter_of_error hres]; exact (lawful_of_regions rfl).permitted
  | refused r e found bad => rw [stateAfter_of_error hres]; exact (lawful_of_regions rfl).permitted
  | underflow r found good under =>
    rw [stateAfter_of_error hres]
    exact (lawful_of_regions rfl).permitted
  | released r found good covered =>
    rw [stateAfter_of_ok hres]
    exact permitted_insert found rfl (.release expected rfl (ends_of_releaseRefusal good))

/-- A reallocation bypasses the guard only where it gets no buffer. -/
theorem isChain_permitted_reallocation {target : NumaNodeId} (copyData : Bool)
    (moves : reallocation m call = some (id, target)) :
    List.IsChain (Permitted b m call) (m.mem :: reallocationTrail b id target copyData m.mem) := by
  by_cases obtains : Obtains b m.mem id target
  · exact ((isChain_reallocationTrail target copyData).mpr obtains).imp fun _ _ h => h.permitted
  · have bypass := Bypass.retain (b := b) target moves obtains
    simp only [Obtains, not_forall, not_not] at obtains
    obtain ⟨r, found, good, declined⟩ := obtains
    obtain ⟨t, u, v, phases, begins, waits, marked, retained⟩ :=
      reallocationTrail_declined found good declined copyData
    rw [phases]
    simp only [List.isChain_cons_cons, List.isChain_singleton, and_true]
    exact ⟨begins.permitted, waits.permitted, permitted_insert marked retained bypass⟩

theorem isChain_permitted_trail (numbered : Numbered m.mem) (call : Call) :
    List.IsChain (Permitted b m call) (m.mem :: trail b m call) := by
  have lawful : Conforms b m call → List.IsChain (Permitted b m call) (m.mem :: trail b m call) :=
    fun conforms => ((isChain_trail numbered call).mpr conforms).imp fun _ _ h => h.permitted
  cases call with
  | governedReallocate id target copyData => exact isChain_permitted_reallocation copyData rfl
  | managed op =>
    cases op with
    | release id expected =>
      simp only [trail, List.isChain_cons_cons, List.isChain_singleton, and_true]
      rw [step, MigrationManager.step, stateAfter_onMemory]
      exact permitted_release m id expected
    | execute id =>
      by_cases starts : ∃ a, m.attempts[id]? = some a ∧ executeRefusal a id = none
      · obtain ⟨a, found, good⟩ := starts
        have long : trail b m (.managed (.execute id)) =
            reallocationTrail b a.memoryRegion a.targetNode a.copyData m.mem := by
          simp [trail, found, good]
        rw [long]
        exact isChain_permitted_reallocation a.copyData (by simp [reallocation, found, good])
      · exact lawful fun a found good => absurd ⟨a, found, good⟩ starts
    | _ => exact lawful trivial

end Bypasses

/-- In every run, every assignment that changes the state of a region is one the lifecycle permits,
but for the end of a release and the retreat of a migration without a buffer. -/
theorem lifecycle_permitted (b : Backend β) (backend : β) (heap : Heap) (calls : List Call) (call : Call) :
    List.IsChain (Permitted b (run b backend heap calls) call)
      ((run b backend heap calls).mem :: trail b (run b backend heap calls) call) :=
  isChain_permitted_trail (numbered_run backend heap calls) call

/-- An active region is released at once, where the lifecycle asks for a pending release first. -/
theorem active_region_released :
    ¬ ∀ {β : Type} (b : Backend β) (backend : β) (heap : Heap) (calls pre : List Call) (call : Call),
      pre ++ [call] <+: calls → List.IsChain Lawful
        ((run b backend heap pre).mem :: trail b (run b backend heap pre) call) := by
  intro conforms
  let allocated : List Call := [.managed (.allocate { bytes := ⟨1⟩ })]
  have chain := conforms (SyntheticBackend.backend {}) {} (fun _ => 0)
    (allocated ++ [.managed (.release ⟨1⟩ none)]) allocated (.managed (.release ⟨1⟩ none)) List.prefix_rfl
  rw [isChain_trail (numbered_run _ _ _)] at chain
  have active : ((run (SyntheticBackend.backend {}) {} (fun _ => 0) allocated).mem.regions[
      (⟨1⟩ : MemoryRegionId)]?).any (fun r => (MemoryManager.releaseRefusal r ⟨1⟩ none).isNone &&
        !underflows r (run (SyntheticBackend.backend {}) {} (fun _ => 0) allocated).mem.nodeUsage &&
        !canTransition r.state .released) = true := by decide
  obtain ⟨r, found, holds⟩ := (Option.any_eq_true _ _).mp active
  simp only [Bool.and_eq_true, Option.isNone_iff_eq_none, Bool.not_eq_true'] at holds
  obtain ⟨⟨good, covered⟩, forbidden⟩ := holds
  rw [chain r found good covered] at forbidden
  cases forbidden

end NumaFabric.LifecycleConformance
