import NumaFabric.LifecycleConformance
import NumaFabric.RegionWrites

/-! What becomes of an attempt. As long as it is active no other attempt can claim its region, and
its execution ends it unless the reallocation throws. -/
namespace NumaFabric.MigrationSettlement
open Std FaultState FaultRun LedgerCounter MemoryManager MemoryLedger RegionWrites
open MigrationManager

variable {β : Type} {b : Backend β} {s t : MigrationManager β}

/-- No region is named by two active attempts. -/
def Exclusive (s : MigrationManager β) : Prop :=
  ∀ (a a' : AttemptId) (m m' : Migration), s.attempts[a]? = some m → s.attempts[a']? = some m' →
    m.active = true → m'.active = true → m.memoryRegion = m'.memoryRegion → a = a'

/-- The region is there, and may not become pending. -/
def Taken (s : MemoryManager β) (id : MemoryRegionId) : Prop :=
  ∃ r, s.regions[id]? = some r ∧ canTransition r.state .migrationPending = false

/-- Active attempts are not committed, and each has a region that no other attempt can begin with. -/
structure Attempting (s : MigrationManager β) : Prop where
  numbered : Numbered s.mem
  uncommitted : ∀ (a : AttemptId) m, s.attempts[a]? = some m → m.active = true → m.committed = false
  taken : ∀ (a : AttemptId) m, s.attempts[a]? = some m → m.active = true → Taken s.mem m.memoryRegion
  exclusive : Exclusive s

section Keep

/-- A call that leaves the attempts and takes no region back. -/
theorem Attempting.sameAttempts (h : Attempting s) (numbered : Numbered t.mem)
    (attempts_eq : t.attempts = s.attempts)
    (kept : ∀ id, Taken s.mem id → Taken t.mem id) : Attempting t where
  numbered := numbered
  uncommitted a m found := h.uncommitted a m (by rwa [← attempts_eq])
  taken a m found active := kept _ (h.taken a m (by rwa [← attempts_eq]) active)
  exclusive := by
    unfold Exclusive
    rw [attempts_eq]
    exact h.exclusive

/-- A call that writes one attempt. The regions of the others stay taken. -/
theorem Attempting.writeAttempt (h : Attempting s) {id : AttemptId} {m : Migration}
    (numbered : Numbered t.mem) (attempts_eq : t.attempts = s.attempts.insert id m)
    (uncommitted : m.active = true → m.committed = false)
    (taken : m.active = true → Taken t.mem m.memoryRegion)
    (others : ∀ a q, a ≠ id → s.attempts[a]? = some q → q.active = true →
      Taken t.mem q.memoryRegion ∧ (m.active = true → q.memoryRegion ≠ m.memoryRegion)) :
    Attempting t := by
  have lookup (a : AttemptId) (q : Migration) (found : t.attempts[a]? = some q) :
      a = id ∧ q = m ∨ a ≠ id ∧ s.attempts[a]? = some q := by
    rw [attempts_eq, ExtTreeMap.getElem?_insert] at found
    split_ifs at found with here
    · exact .inl ⟨(Std.compare_eq_iff_eq.mp here).symm, (Option.some.inj found).symm⟩
    · exact .inr ⟨fun same => here (Std.compare_eq_iff_eq.mpr same.symm), found⟩
  refine ⟨numbered, ?_, ?_, ?_⟩
  · intro a q found active
    rcases lookup a q found with ⟨rfl, rfl⟩ | ⟨-, old⟩
    · exact uncommitted active
    · exact h.uncommitted a q old active
  · intro a q found active
    rcases lookup a q found with ⟨rfl, rfl⟩ | ⟨other, old⟩
    · exact taken active
    · exact (others a q other old active).1
  · intro a a' q q' found found' active active' same
    rcases lookup a q found with ⟨rfl, rfl⟩ | ⟨other, old⟩
    · rcases lookup a' q' found' with ⟨rfl, rfl⟩ | ⟨other', old'⟩
      · rfl
      · exact absurd same.symm ((others a' q' other' old' active').2 active)
    · rcases lookup a' q' found' with ⟨rfl, rfl⟩ | ⟨other', old'⟩
      · exact absurd same ((others a q other old active).2 active')
      · exact h.exclusive a a' q q' old old' active active' same

theorem taken_allocate {s : MemoryManager β} (numbered : Numbered s) (req : AllocateRequest)
    {id : MemoryRegionId} (h : Taken s id) : Taken (stateAfter (allocate b req) s) id := by
  unfold Taken
  rcases allocate_writes numbered req with ⟨same, -⟩ | ⟨r, fresh, -, -, written⟩
  · rwa [same]
  · obtain ⟨q, found, blocked⟩ := h
    refine ⟨q, ?_, blocked⟩
    rw [written, ExtTreeMap.getElem?_insert, if_neg, found]
    intro here
    rw [Std.compare_eq_iff_eq.mp here, found] at fresh
    cases fresh

theorem taken_release {s : MemoryManager β} (j : MemoryRegionId) (expected : Option MemoryGeneration)
    {id : MemoryRegionId} (h : Taken s id) : Taken (stateAfter (release b j expected) s) id := by
  refine (wrote_release j expected).kept h ?_
  rintro r ⟨q, -, rfl⟩
  rfl

theorem taken_stale {s : MemoryManager β} {id : MemoryRegionId} (h : Taken s id) :
    Taken s.invalidateLocalityStale id := by
  obtain ⟨r, found, blocked⟩ := h
  refine ⟨_, by rw [invalidateLocalityStale, ExtTreeMap.getElem?_map, found, Option.map_some], ?_⟩
  split_ifs <;> exact blocked

/-- A transition of another region. -/
theorem taken_transition {s : MemoryManager β} {j : MemoryRegionId} (next : LifecycleState)
    {id : MemoryRegionId} (other : id ≠ j) (h : Taken s id) :
    Taken (stateAfter (transition j next) s) id := by
  refine (wrote_transition j next).kept h ?_
  rintro r ⟨same, -⟩
  exact absurd same other

theorem taken_governed {s : MemoryManager β} {j : MemoryRegionId} (target : NumaNodeId)
    (copyData : Bool) {id : MemoryRegionId} (other : id ≠ j) (h : Taken s id) :
    Taken (stateAfter (governedReallocate b j target copyData) s) id := by
  refine (wrote_governed j target copyData).kept h ?_
  rintro r ⟨same, -⟩
  exact absurd same other

/-- A reallocation that throws leaves its region taken. -/
theorem taken_of_threw {s u : MemoryManager β} {id : MemoryRegionId} {target : NumaNodeId}
    {copyData : Bool} {e : Exn} (call : (governedReallocate b id target copyData).run s = .error e u)
    (h : Taken s id) : Taken u id := by
  have ho := governed_outcome b id target copyData s
  rw [call] at ho
  cases ho with
  | unknown absent => exact h
  | refused r e found bad => exact h
  | underflow r result w found good call usable under =>
    exact ⟨_, ExtTreeMap.getElem?_insert_self, rfl⟩
  | exhausted r result w found good call usable covered last =>
    exact ⟨_, ExtTreeMap.getElem?_insert_self, rfl⟩

end Keep

section Step

theorem active_of_executeRefusal {m : Migration} {id : AttemptId} (good : executeRefusal m id = none) :
    m.active = true := by
  unfold executeRefusal at good
  split_ifs at good with idle
  simpa using idle

theorem begin_attempting (h : Attempting s) {req : MigrateRequest}
    (numbered : Numbered (stateAfter (MigrationManager.begin req) s).mem) :
    Attempting (stateAfter (MigrationManager.begin req) s) := by
  have ho := begin_outcome req s
  generalize hres : (MigrationManager.begin req).run s = res at ho
  cases ho with
  | malformed e bad =>
    rw [stateAfter_of_error hres]
    exact h
  | refused e wellFormed bad =>
    -- The attempt is erased again, with whatever stood under its number.
    rw [stateAfter_of_error hres]
    have lookup (a : AttemptId) (q : Migration) (found : ((s.attempts.insert s.nextAttemptId
        (req.attempt s.nextAttemptId)).erase s.nextAttemptId)[a]? = some q) :
        s.attempts[a]? = some q := by
      rw [ExtTreeMap.getElem?_erase, ExtTreeMap.getElem?_insert] at found
      split_ifs at found
      exact found
    exact ⟨h.numbered, fun a q found => h.uncommitted a q (lookup a q found),
      fun a q found => h.taken a q (lookup a q found),
      fun a a' q q' found found' => h.exclusive a a' q q' (lookup a q found) (lookup a' q' found')⟩
  | started r wellFormed found good =>
    rw [stateAfter_of_ok hres] at numbered ⊢
    refine h.writeAttempt numbered rfl (fun _ => rfl) ?_ ?_
    · intro _
      exact ⟨_, ExtTreeMap.getElem?_insert_self, rfl⟩
    · intro a q _ old active
      have taken := h.taken a q old active
      have other : q.memoryRegion ≠ req.memoryRegion := by
        intro same
        obtain ⟨r', found', blocked⟩ := taken
        rw [same, found] at found'
        cases found'
        rw [good] at blocked
        cases blocked
      have kept := taken_transition .migrationPending other taken
      rw [stateAfter_of_ok (transition_run found good)] at kept
      exact ⟨kept, fun _ => other⟩

theorem execute_attempting (h : Attempting s) {id : AttemptId}
    (numbered : Numbered (stateAfter (execute b id) s).mem) :
    Attempting (stateAfter (execute b id) s) := by
  have ho := execute_outcome b id s
  generalize hres : (execute b id).run s = res at ho
  have apart {m : Migration} (found : s.attempts[id]? = some m) (active : m.active = true)
      (a : AttemptId) (q : Migration) (other : a ≠ id) (old : s.attempts[a]? = some q)
      (still : q.active = true) : q.memoryRegion ≠ m.memoryRegion :=
    fun same => other (h.exclusive a id q m old found still active same)
  cases ho with
  | unknown absent =>
    rw [stateAfter_of_error hres]
    exact h
  | refused m e found bad =>
    rw [stateAfter_of_error hres]
    exact h
  | threw m e mem found good call =>
    rw [stateAfter_of_error hres] at numbered ⊢
    have active := active_of_executeRefusal good
    refine h.writeAttempt numbered rfl (fun _ => h.uncommitted id m found active)
      (fun _ => taken_of_threw call (h.taken id m found active)) ?_
    intro a q other old still
    have ne := apart found active a q other old still
    have kept := taken_governed (b := b) m.targetNode m.copyData ne (h.taken a q old still)
    rw [stateAfter_of_error call] at kept
    exact ⟨kept, fun _ => ne⟩
  | finished m view mem found good call =>
    rw [stateAfter_of_ok hres] at numbered ⊢
    have active := active_of_executeRefusal good
    refine h.writeAttempt numbered rfl (fun ended => by cases ended) (fun ended => by cases ended) ?_
    intro a q other old still
    have ne := apart found active a q other old still
    have kept := taken_governed (b := b) m.targetNode m.copyData ne (h.taken a q old still)
    rw [stateAfter_of_ok call] at kept
    exact ⟨kept, fun _ => ne⟩

theorem rollback_attempting (h : Attempting s) {id : AttemptId}
    (numbered : Numbered (stateAfter (rollback id) s).mem) :
    Attempting (stateAfter (rollback id) s) := by
  have ho := rollback_outcome id s
  generalize hres : (rollback id).run s = res at ho
  cases ho with
  | unknown absent =>
    rw [stateAfter_of_error hres]
    exact h
  | committed m found bad =>
    rw [stateAfter_of_error hres]
    exact h
  | idle m found ended =>
    rw [stateAfter_of_ok hres]
    exact h
  | undone m found pending =>
    rw [stateAfter_of_ok hres] at numbered ⊢
    refine h.writeAttempt numbered rfl (fun ended => by cases ended) (fun ended => by cases ended) ?_
    intro a q other old still
    have ne : q.memoryRegion ≠ m.memoryRegion :=
      fun same => other (h.exclusive a id q m old found still pending same)
    exact ⟨taken_transition .active ne (h.taken a q old still), fun _ => ne⟩

/-- The call is not a transition of a region by name. -/
def Plain : Op → Bool
  | .transition _ _ => false
  | _ => true

theorem step_attempting (h : Attempting s) {op : Op} (plain : Plain op = true) :
    Attempting (MigrationManager.step b s op) := by
  have numbered := LifecycleConformance.numbered_step (b := b) s h.numbered (.managed op)
  cases op with
  | allocate req =>
    refine h.sameAttempts numbered (by rw [step, stateAfter_onMemory]) ?_
    intro id taken
    rw [step, stateAfter_onMemory]
    exact taken_allocate h.numbered req taken
  | release j expected =>
    refine h.sameAttempts numbered (by rw [step, stateAfter_onMemory]) ?_
    intro id taken
    rw [step, stateAfter_onMemory]
    exact taken_release j expected taken
  | invalidateLocalityStale => exact h.sameAttempts numbered rfl fun id => taken_stale
  | transition j next => cases plain
  | begin req => exact begin_attempting h numbered
  | execute id => exact execute_attempting h numbered
  | rollback id => exact rollback_attempting h numbered

end Step

section Settle

/-- An execution of an active attempt, however it leaves, leaves the attempt inactive. -/
def Settled (s t : MigrationManager β) (op : Op) : Prop :=
  ∀ a m, op = .execute a → s.attempts[a]? = some m → m.active = true →
    ∀ m', t.attempts[a]? = some m' → m'.active = false

/-- The region of an attempt is still pending when it is executed, and the backend declines or the
commit can go through: the ledger has the bytes of the region, and its generation is not the last. -/
def Movable (b : Backend β) (s : MemoryManager β) (m : Migration) : Prop :=
  ∃ r, s.regions[m.memoryRegion]? = some r ∧ r.state = .migrationPending ∧
    (Declines b r m.targetNode s.world ∨
      underflows r s.nodeUsage = false ∧ r.generation.value ≠ u64Max)

variable (b) in
/-- Every active attempt that is executed can be moved. -/
def Settling (s : MigrationManager β) (op : Op) : Prop :=
  ∀ a m, op = .execute a → s.attempts[a]? = some m → m.active = true → Movable b s.mem m

/-- The reallocation of an attempt returns exactly when the attempt can be moved. -/
theorem not_movable_of_threw {m : Migration} {e : Exn} {u : MemoryManager β} {s : MemoryManager β}
    (call : (governedReallocate b m.memoryRegion m.targetNode m.copyData).run s = .error e u) :
    ¬ Movable b s m := by
  rintro ⟨r, found, pending, rest⟩
  have ho := governed_outcome b m.memoryRegion m.targetNode m.copyData s
  rw [call] at ho
  cases ho with
  | unknown absent =>
    rw [absent] at found
    cases found
  | refused q e found' bad =>
    rw [found'] at found
    cases found
    rw [migrateRefusal_of_pending pending] at bad
    cases bad
  | underflow q result w found' good answer usable under =>
    rw [found'] at found
    cases found
    rcases rest with declines | ⟨covered, -⟩
    · rw [declines result w answer] at usable
      cases usable
    · rw [under] at covered
      cases covered
  | exhausted q result w found' good answer usable covered last =>
    rw [found'] at found
    cases found
    rcases rest with declines | ⟨-, more⟩
    · rw [declines result w answer] at usable
      cases usable
    · exact more last

theorem movable_of_returned {m : Migration} {view : MigrationView} {u : MemoryManager β}
    {s : MemoryManager β}
    (call : (governedReallocate b m.memoryRegion m.targetNode m.copyData).run s = .ok view u) :
    Movable b s m := by
  have ho := governed_outcome b m.memoryRegion m.targetNode m.copyData s
  rw [call] at ho
  cases ho with
  | retained r found good declined =>
    exact ⟨r, found, pending_of_migrateRefusal good, .inl declined⟩
  | committed r result w g found good answer usable covered next view done =>
    exact ⟨r, found, pending_of_migrateRefusal good,
      .inr ⟨covered, Generation.ne_max_of_next next⟩⟩

/-- An execution under a number of no active attempt has nothing to settle. -/
theorem settled_of_idle {id : AttemptId} (idle : ∀ m, s.attempts[id]? = some m → m.active = false) :
    Settled s t (.execute id) ∧ Settling b s (.execute id) := by
  constructor
  · rintro a m ⟨⟩ found active
    rw [idle m found] at active
    cases active
  · rintro a m ⟨⟩ found active
    rw [idle m found] at active
    cases active

theorem settled_iff (h : Attempting s) (op : Op) :
    Settled s (MigrationManager.step b s op) op ↔ Settling b s op := by
  cases op with
  | execute id =>
    rw [step]
    have ho := execute_outcome b id s
    generalize hres : (execute b id).run s = res at ho
    cases ho with
    | unknown absent =>
      have vacuous := settled_of_idle (b := b) (t := stateAfter (execute b id) s) fun m found => by
        rw [absent] at found
        cases found
      exact iff_of_true vacuous.1 vacuous.2
    | refused m e found bad =>
      have idle : m.active = false := by
        by_contra still
        rw [Bool.not_eq_false] at still
        simp [executeRefusal, still, h.uncommitted id m found still] at bad
      have vacuous := settled_of_idle (b := b) (t := stateAfter (execute b id) s) fun q found' => by
        rw [found] at found'
        cases found'
        exact idle
      exact iff_of_true vacuous.1 vacuous.2
    | threw m e mem found good call =>
      have active := active_of_executeRefusal good
      rw [stateAfter_of_error hres]
      refine iff_of_false ?_ ?_
      · intro settled
        have ended := settled id m rfl found active _ ExtTreeMap.getElem?_insert_self
        rw [active] at ended
        cases ended
      · intro settling
        exact not_movable_of_threw call (settling id m rfl found active)
    | finished m view mem found good call =>
      rw [stateAfter_of_ok hres]
      refine iff_of_true ?_ ?_
      · rintro a q ⟨⟩ _ _ m' after
        rw [ExtTreeMap.getElem?_insert_self] at after
        cases after
        rfl
      · rintro a q ⟨⟩ found' _
        rw [found] at found'
        cases found'
        exact movable_of_returned call
  | _ => exact iff_of_true (fun a m named => by cases named) fun a m named => by cases named

end Settle

section Run
variable (b) (backend : β) (heap : Heap)

theorem initial_attempting : Attempting (initial backend heap) where
  numbered := LifecycleConformance.initial_numbered backend heap
  uncommitted a m found := by simp [initial] at found
  taken a m found := by simp [initial] at found
  exclusive a a' m m' found := by simp [initial] at found

theorem run_attempting {ops : List Op} (plain : ∀ op ∈ ops, Plain op = true) :
    Attempting (run b backend heap ops) := by
  have keep : ∀ (s : MigrationManager β) op, Attempting s → Plain op = true →
      Attempting (MigrationManager.step b s op) := fun s op h plain => step_attempting h plain
  exact foldl_invariant keep (initial_attempting backend heap)
    (meets_iff.mpr fun pre op before => plain op (before.subset (by simp)))

/-- No region is ever named by two active attempts; and every execution of an active attempt settles
it exactly when each finds its attempt movable. -/
theorem settles_every_attempt_iff (ops : List Op) (plain : ∀ op ∈ ops, Plain op = true) :
    (∀ pre, pre <+: ops → Exclusive (run b backend heap pre)) ∧
      ((∀ pre op, pre ++ [op] <+: ops → Settled (run b backend heap pre)
          (run b backend heap (pre ++ [op])) op) ↔
        Meets (MigrationManager.step b) (Settling b) (initial backend heap) ops) := by
  have attempting (pre : List Op) (before : pre <+: ops) : Attempting (run b backend heap pre) :=
    run_attempting b backend heap fun op mem => plain op (before.subset mem)
  refine ⟨fun pre before => (attempting pre before).exclusive, ?_⟩
  have judged (pre : List Op) (op : Op) (before : pre ++ [op] <+: ops) :
      Settled (run b backend heap pre) (run b backend heap (pre ++ [op])) op ↔
        Settling b (run b backend heap pre) op := by
    have next : run b backend heap (pre ++ [op]) = MigrationManager.step b (run b backend heap pre) op := by
      simp [run]
    rw [next]
    exact settled_iff (attempting pre ((List.prefix_append pre [op]).trans before)) op
  rw [meets_iff]
  exact ⟨fun all pre op before => (judged pre op before).mp (all pre op before),
    fun all pre op before => (judged pre op before).mpr (all pre op before)⟩

end Run

/-- Enough for an execution: the region is pending, charged, and not at its last generation. -/
theorem settling_execute {a : AttemptId} (check : s.attempts[a]?.all (fun m =>
      s.mem.regions[m.memoryRegion]?.any fun r => r.state == .migrationPending &&
        !underflows r s.mem.nodeUsage && r.generation.value != u64Max) = true) :
    Settling b s (.execute a) := by
  rintro a m ⟨⟩ found _
  rw [found, Option.all_some, Option.any_eq_true] at check
  obtain ⟨r, region, holds⟩ := check
  simp only [Bool.and_eq_true, beq_iff_eq, Bool.not_eq_true', bne_iff_ne] at holds
  exact ⟨r, region, holds.1.1, .inr ⟨holds.1.2, holds.2⟩⟩

/-- A region is allocated, moved to the second node, and its attempt is over. -/
theorem settles_every_attempt_iff_moved_region :
    let b := SyntheticBackend.backend {}
    let ops : List Op := [.allocate { bytes := ⟨1⟩ },
      .begin { memoryRegion := ⟨1⟩, targetNode := ⟨2⟩ }, .execute ⟨1⟩]
    ∀ pre op, pre ++ [op] <+: ops → Settled (run b {} (fun _ => 0) pre)
      (run b {} (fun _ => 0) (pre ++ [op])) op := by
  intro b ops
  refine ((settles_every_attempt_iff b {} (fun _ => 0) ops (by decide)).2).mpr ⟨?_, ?_, ?_, trivial⟩
  · intro a m named
    cases named
  · intro a m named
    cases named
  · exact settling_execute (by decide +kernel)

/-- The region is released between the beginning of its migration and the execution, which throws and
leaves the attempt active. -/
theorem released_region_strands_attempt :
    ¬ ∀ {β : Type} (b : Backend β) (backend : β) (heap : Heap) (ops : List Op),
      (∀ op ∈ ops, Plain op = true) →
      (∀ pre op, pre ++ [op] <+: ops → Settled (run b backend heap pre)
        (run b backend heap (pre ++ [op])) op) ∧
      ∀ pre, pre <+: ops → Exclusive (run b backend heap pre) := by
  intro settlesAll
  let begun : List Op := [.allocate { bytes := ⟨1⟩ },
    .begin { memoryRegion := ⟨1⟩, targetNode := ⟨2⟩ }, .release ⟨1⟩ none]
  have settled := (settlesAll (SyntheticBackend.backend {}) {} (fun _ => 0) (begun ++ [.execute ⟨1⟩])
    (by decide)).1 begun (.execute ⟨1⟩) List.prefix_rfl
  have before : ((run (SyntheticBackend.backend {}) {} (fun _ => 0) begun).attempts[
      (⟨1⟩ : AttemptId)]?).any (·.active) = true := by decide +kernel
  have after : ((run (SyntheticBackend.backend {}) {} (fun _ => 0) (begun ++ [.execute ⟨1⟩])).attempts[
      (⟨1⟩ : AttemptId)]?).any (·.active) = true := by decide +kernel
  obtain ⟨m, found, active⟩ := (Option.any_eq_true _ _).mp before
  obtain ⟨m', found', still⟩ := (Option.any_eq_true _ _).mp after
  rw [settled ⟨1⟩ m rfl found active m' found'] at still
  cases still

end NumaFabric.MigrationSettlement
