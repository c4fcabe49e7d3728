import NumaFabric.RecoveryAuthority
import NumaFabric.RegistryFencing
import NumaFabric.RuntimeFrames

/-! The counters of a runtime over its whole life. Recovery writes what the file holds, so
epoch, policy generation and the generations of a worker stand still or rise only when
each file that is recovered is not behind the runtime. -/
namespace NumaFabric.CounterHistory
open Std FaultState FaultRun Persistence RegistryFencing RecoveryAuthority RuntimeFrames

variable {β : Type}

/-- One incarnation of a worker, no earlier in its generations. -/
structure Onward (x y : Worker) : Prop where
  boot : y.bootId = x.bootId
  binding : x.bindingGeneration.value ≤ y.bindingGeneration.value
  observation : x.lastObservationGeneration.value ≤ y.lastObservationGeneration.value

/-- The later state has no counter below the earlier one. -/
structure NeverBack (s t : Runtime β) : Prop where
  epoch : s.epoch.value ≤ t.epoch.value
  policyGeneration : s.policyGeneration ≤ t.policyGeneration
  workers : ∀ (w : WorkerId) (x y : Worker), s.registry.workers[w]? = some x →
    t.registry.workers[w]? = some y → y.bootId = x.bootId → Onward x y

theorem Onward.refl (x : Worker) : Onward x x :=
  ⟨rfl, BitVec.le_def.mpr (Nat.le_refl _), BitVec.le_def.mpr (Nat.le_refl _)⟩

theorem Onward.trans {x y z : Worker} (h : Onward x y) (g : Onward y z) : Onward x z where
  boot := g.boot.trans h.boot
  binding := BitVec.le_def.mpr ((BitVec.le_def.mp h.binding).trans (BitVec.le_def.mp g.binding))
  observation :=
    BitVec.le_def.mpr ((BitVec.le_def.mp h.observation).trans (BitVec.le_def.mp g.observation))

section Registry

/-- The boot has not been issued or recorded before now. -/
def Unspent (s : WorkerRegistry) (boot : WorkerBootId) : Prop :=
  s.nextBoot ≠ 0 ∧ s.nextBoot.toNat ≤ boot.value.toNat

def AllSpent (s : WorkerRegistry) : Prop :=
  ∀ (w : WorkerId) (x : Worker), s.workers[w]? = some x → Spent s x.bootId

/-- Every worker is still there, further on in its incarnation or in a new one. -/
structure Follows (s t : WorkerRegistry) : Prop where
  counter : t.nextBoot = 0 ∨ s.nextBoot ≠ 0 ∧ s.nextBoot.toNat ≤ t.nextBoot.toNat
  workers : ∀ (w : WorkerId) (x : Worker), s.workers[w]? = some x →
    ∃ y, t.workers[w]? = some y ∧ (Onward x y ∨ Unspent s y.bootId)
  spent : AllSpent s → AllSpent t

theorem Follows.refl (s : WorkerRegistry) : Follows s s where
  counter := by
    by_cases h : s.nextBoot = 0
    · exact .inl h
    · exact .inr ⟨h, Nat.le_refl _⟩
  workers w x found := ⟨x, found, .inl (.refl x)⟩
  spent h := h

theorem Unspent.back {s t : WorkerRegistry} {boot : WorkerBootId}
    (counter : t.nextBoot = 0 ∨ s.nextBoot ≠ 0 ∧ s.nextBoot.toNat ≤ t.nextBoot.toNat)
    (h : Unspent t boot) : Unspent s boot := by
  rcases counter with wrapped | ⟨running, further⟩
  · exact absurd wrapped h.1
  · exact ⟨running, further.trans h.2⟩

theorem Follows.trans {s t u : WorkerRegistry} (h : Follows s t) (g : Follows t u) : Follows s u where
  counter := by
    rcases g.counter with wrapped | ⟨running, further⟩
    · exact .inl wrapped
    · rcases h.counter with zero | ⟨started, before⟩
      · exact absurd zero running
      · exact .inr ⟨started, before.trans further⟩
  workers w x found := by
    obtain ⟨y, foundY, same | fresh⟩ := h.workers w x found
    · obtain ⟨z, foundZ, again | later⟩ := g.workers w y foundY
      · exact ⟨z, foundZ, .inl (same.trans again)⟩
      · exact ⟨z, foundZ, .inr (later.back h.counter)⟩
    · obtain ⟨z, foundZ, again | later⟩ := g.workers w y foundY
      · refine ⟨z, foundZ, .inr ?_⟩
        rw [Unspent, again.boot]
        exact fresh
      · exact ⟨z, foundZ, .inr (later.back h.counter)⟩
  spent below := g.spent (h.spent below)

/-- The counter moves on, and a record that is new or further on takes its place. -/
theorem follows_insert {s t : WorkerRegistry} (id : WorkerId) {y : Worker}
    (inserted : t.workers = s.workers.insert id y) (running : s.nextBoot ≠ 0)
    (moved : t.nextBoot = 0 ∨ s.nextBoot.toNat ≤ t.nextBoot.toNat) (spent : Spent t y.bootId)
    (onward : ∀ x, s.workers[id]? = some x → Onward x y ∨ Unspent s y.bootId) : Follows s t where
  counter := moved.imp_right fun further => ⟨running, further⟩
  workers w x found := by
    rw [inserted, ExtTreeMap.getElem?_insert]
    split_ifs with here
    · rw [← Std.compare_eq_iff_eq.mp here] at found
      exact ⟨y, rfl, onward x found⟩
    · exact ⟨x, found, .inl (.refl x)⟩
  spent below := by
    intro w x found
    rw [inserted, ExtTreeMap.getElem?_insert] at found
    split_ifs at found with here
    · cases found
      exact spent
    · rcases moved with wrapped | further
      · exact .inr wrapped
      · exact .inl (Nat.lt_of_lt_of_le ((below w x found).resolve_right running) further)

/-- A record rewritten in its place. -/
theorem follows_rewrite {s : WorkerRegistry} {id : WorkerId} {x y : Worker}
    (found : s.workers[id]? = some x) (onward : Onward x y) :
    Follows s { s with workers := s.workers.insert id y } where
  counter := (Follows.refl s).counter
  workers w z hz := by
    dsimp only
    rw [ExtTreeMap.getElem?_insert]
    split_ifs with here
    · rw [← Std.compare_eq_iff_eq.mp here, found, Option.some.injEq] at hz
      subst hz
      exact ⟨y, rfl, .inl onward⟩
    · exact ⟨z, hz, .inl (.refl z)⟩
  spent below := by
    intro w z hz
    dsimp only at hz
    rw [ExtTreeMap.getElem?_insert] at hz
    split_ifs at hz with here
    · cases hz
      have old := below id x found
      rw [Spent, onward.boot]
      exact old
    · exact below w z hz

/-- The record is refused because its worker lives, or the worker is new to the registry, or
its boot is, or it continues the incarnation that the registry holds. -/
def Resumes (s : WorkerRegistry) (x : PersistedWorker) : Prop :=
  s.workers[x.id]?.any (·.alive) = true ∨
    s.nextBoot ≠ 0 ∧ ∀ w, s.workers[x.id]? = some w →
      s.nextBoot ≤ x.boot.value ∨ Onward w x.recovered

theorem Resumes.follows {s : WorkerRegistry} {x : PersistedWorker} (h : Resumes s x) :
    Follows s (s.takeBack x) := by
  unfold WorkerRegistry.takeBack
  split_ifs with live
  · exact .refl s
  · obtain ⟨running, resumed⟩ := h.resolve_left live
    refine follows_insert x.id (y := x.recovered) rfl running (moved_reinstated _ s)
      (spent_reinstated _ s) fun w found => ?_
    rcases resumed w found with fresh | onward
    · exact .inr ⟨running, BitVec.le_def.mp fresh⟩
    · exact .inl onward

theorem follows_foldl {s : WorkerRegistry} {xs : List PersistedWorker}
    (h : Meets WorkerRegistry.takeBack Resumes s xs) :
    Follows s (xs.foldl WorkerRegistry.takeBack s) := by
  induction xs generalizing s with
  | nil => exact .refl s
  | cons x xs ih => exact h.1.follows.trans (ih h.2)

theorem follows_issued {s : WorkerRegistry} (running : s.nextBoot ≠ 0) (id : WorkerId) {w : Worker}
    (boot : w.bootId = ⟨s.nextBoot⟩) :
    Follows s { workers := s.workers.insert id w, nextBoot := s.nextBoot + 1 } := by
  have enters := enters_issued running id boot
  refine follows_insert _ rfl running enters.moved enters.spent fun x _ => .inr ⟨running, ?_⟩
  rw [boot]

theorem follows_markDead (s : WorkerRegistry) (id : WorkerId) (boot : WorkerBootId) :
    Follows s (s.markDead id boot) := by
  unfold WorkerRegistry.markDead
  cases found : s.workers[id]? with
  | none => exact .refl s
  | some w =>
    dsimp only
    split_ifs
    · exact follows_rewrite found ⟨rfl, (Onward.refl w).binding, (Onward.refl w).observation⟩
    · exact .refl s

end Registry

/-- No counter falls, and the registry follows. -/
structure Advances (s t : Runtime β) : Prop where
  epoch : s.epoch.value ≤ t.epoch.value
  policyGeneration : s.policyGeneration ≤ t.policyGeneration
  registry : Follows s.registry t.registry

theorem Advances.of_follows {s : Runtime β} {t : Runtime β} (epoch : t.epoch = s.epoch)
    (policy : t.policyGeneration = s.policyGeneration) (registry : Follows s.registry t.registry) :
    Advances s t where
  epoch := by rw [epoch]; exact BitVec.le_def.mpr (Nat.le_refl _)
  policyGeneration := by rw [policy]; exact BitVec.le_def.mpr (Nat.le_refl _)
  registry := registry

instance : Std.Refl (Advances (β := β)) := ⟨fun s => .of_follows rfl rfl (.refl s.registry)⟩

instance : IsTrans (Runtime β) Advances where
  trans _ _ _ h g :=
    { epoch := BitVec.le_def.mpr ((BitVec.le_def.mp h.epoch).trans (BitVec.le_def.mp g.epoch))
      policyGeneration := BitVec.le_def.mpr
        ((BitVec.le_def.mp h.policyGeneration).trans (BitVec.le_def.mp g.policyGeneration))
      registry := h.registry.trans g.registry }

section Operations

theorem ignoresMemory_advances : IgnoresMemory (Advances (β := β)) :=
  fun s _ => .of_follows rfl rfl (.refl s.registry)

theorem ignoresReservations_advances : IgnoresReservations (Advances (β := β)) :=
  fun s _ => .of_follows rfl rfl (.refl s.registry)

theorem advances_recordBinding (id : WorkerId) (node : NumaNodeId) (set : AffinitySet)
    (applied : Bool) : Preserves (Advances (β := β)) (Runtime.recordBinding id node set applied) := by
  refine preserves_recordBinding fun s w r found next => ?_
  have further := Generation.next_ok next
  refine .of_follows rfl rfl (follows_rewrite found ⟨rfl, ?_, (Onward.refl w).observation⟩)
  exact BitVec.le_def.mpr (by simp only [Runtime.boundTo]; omega)

/-- The epoch refuses to wrap. -/
theorem advances_advanceEpoch : Preserves (Advances (β := β)) Runtime.advanceEpoch := by
  intro s
  rw [stateAfter, Runtime.advanceEpoch, run_bind_of_ok (EStateM.run_get s)]
  cases next : s.epoch.next with
  | error e => exact Std.Refl.refl s
  | ok epoch =>
    have further := Generation.next_ok next
    refine ⟨BitVec.le_def.mpr ?_, BitVec.le_def.mpr (Nat.le_refl _), .refl s.registry⟩
    change s.epoch.value.toNat ≤ epoch.value.toNat
    omega

end Operations

/-- The condition on a call: a boot is issued from a counter that has not wrapped, an
observation takes a number no lower than the worker's last, the policy generation is not
exhausted, and a file is not behind the runtime it is recovered into. -/
def Sound (s : Runtime β) : Runtime.Op → Prop
  | .registerWorker id _ =>
    id.isValid = true → s.registry.workers[id]? = none → s.registry.nextBoot ≠ 0
  | .restartWorker id _ =>
    id.isValid = true → s.registry.workers[id]? ≠ none → s.registry.nextBoot ≠ 0
  | .observe id boot => ∀ w, s.registry.find id = some w → w.bootId = boot →
      w.lastObservationGeneration.value ≤ s.nextObservation
  | .advancePolicyGeneration => s.policyGeneration ≠ u64Max
  | .recover disk path => ∀ p, Runtime.loaded disk path = .ok p →
      s.epoch.value ≤ p.coordinatorEpoch ∧ s.policyGeneration ≤ p.policyGeneration ∧
        Meets WorkerRegistry.takeBack Resumes s.registry (reached p.workers)
  | _ => True

section Step
variable {s : Runtime β}

theorem advances_register {id : WorkerId} {pid : ProcessId}
    (sound : Sound s (.registerWorker id pid)) :
    Advances s (stateAfter (Runtime.registerWorker id pid) s) := by
  rw [Runtime.registerWorker, Runtime.onRegistry, stateAfter_zoom]
  refine .of_follows rfl rfl ?_
  dsimp only
  rcases WorkerRegistry.registerWorker_cases id pid s.registry with same | ⟨valid, absent, issued⟩
  · rw [same]
    exact .refl s.registry
  · rw [issued]
    exact follows_issued (sound valid absent) id rfl

theorem advances_restart {id : WorkerId} {pid : ProcessId}
    (sound : Sound s (.restartWorker id pid)) :
    Advances s (stateAfter (Runtime.restartWorker id pid) s) := by
  rw [Runtime.restartWorker, Runtime.onRegistry, stateAfter_zoom]
  refine .of_follows rfl rfl ?_
  dsimp only
  rcases WorkerRegistry.restartWorker_cases id pid s.registry with same | ⟨w, valid, found, issued⟩
  · rw [same]
    exact .refl s.registry
  · rw [issued]
    exact follows_issued (sound valid (by simp [found])) id rfl

theorem advances_observe {id : WorkerId} {boot : WorkerBootId} (sound : Sound s (.observe id boot)) :
    Advances s (stateAfter (Runtime.observe id boot) s) := by
  rw [stateAfter]
  simp only [Runtime.observe, EStateM.run_bind, EStateM.run_get, WorkerRegistry.find]
  cases found : s.registry.workers[id]? with
  | none => exact Std.Refl.refl s
  | some w =>
    dsimp only
    split_ifs with current
    · exact .of_follows rfl rfl
        (follows_rewrite found ⟨rfl, (Onward.refl w).binding, sound w found current⟩)
    · exact Std.Refl.refl s

theorem advances_policy (sound : Sound s .advancePolicyGeneration) :
    Advances s s.advancePolicyGeneration := by
  have next := u64_succ (Nat.le_refl _) (value_lt_max sound)
  refine ⟨BitVec.le_def.mpr (Nat.le_refl _), BitVec.le_def.mpr ?_, .refl s.registry⟩
  change s.policyGeneration.toNat ≤ (s.policyGeneration + 1).toNat
  omega

theorem recover_counters {disk : Disk} {path : ByteString} {p : PersistedState}
    (read : Runtime.loaded disk path = .ok p) (s : Runtime β) :
    (stateAfter (Runtime.recover disk path) s).epoch = ⟨p.coordinatorEpoch⟩ ∧
      (stateAfter (Runtime.recover disk path) s).policyGeneration = p.policyGeneration := by
  have ran := Runtime.recover_run read s
  cases put : (restoreWorkers p.workers).run s.registry with
  | error e r =>
    rw [put] at ran
    rw [stateAfter_of_error ran]
    exact ⟨rfl, rfl⟩
  | ok u r =>
    rw [put] at ran
    dsimp only at ran
    cases back : (restoreReservations s.nodeCapacityProvider p.reservations).run s.reservations with
    | error e q =>
      rw [back] at ran
      rw [stateAfter_of_error ran]
      exact ⟨rfl, rfl⟩
    | ok u q =>
      rw [back] at ran
      rw [stateAfter_of_ok ran]
      exact ⟨rfl, rfl⟩

theorem advances_recover {disk : Disk} {path : ByteString} (sound : Sound s (.recover disk path)) :
    Advances s (stateAfter (Runtime.recover disk path) s) := by
  cases read : Runtime.loaded disk path with
  | error e =>
    rw [stateAfter_of_error (Runtime.recover_unread read s)]
    exact Std.Refl.refl s
  | ok p =>
    obtain ⟨epoch, policy, resumes⟩ := sound p read
    obtain ⟨newEpoch, newPolicy⟩ := recover_counters read s
    refine ⟨?_, ?_, ?_⟩
    · rw [newEpoch]
      exact epoch
    · rw [newPolicy]
      exact policy
    · rw [registry_after_recover read]
      exact follows_foldl resumes

theorem advances_step (b : Backend β) (probe : HostProbe β) {op : Runtime.Op} (sound : Sound s op) :
    Advances s (Runtime.step b probe s op) := by
  cases op with
  | discover =>
    exact ignoresMemory_advances.discover (fun s _ => .of_follows rfl rfl (.refl s.registry)) probe s
  | refreshAccelerators =>
    exact ignoresMemory_advances.refreshAccelerators
      (fun s _ => .of_follows rfl rfl (.refl s.registry)) probe s
  | registerAccelerators found => exact .of_follows rfl rfl (.refl s.registry)
  | allocate req => exact ignoresMemory_advances.onMigrator _ s
  | release id => exact ignoresMemory_advances.onMigrator _ s
  | allocateOnNode bytes node kind => exact ignoresMemory_advances.onMigrator _ s
  | execute d opts => exact ignoresMemory_advances.execute b d opts s
  | reserve req => exact ignoresReservations_advances.reserve req s
  | releaseReservation id => exact ignoresReservations_advances.onReservations _ s
  | registerWorker id pid => exact advances_register sound
  | restartWorker id pid => exact advances_restart sound
  | markWorkerDead id boot => exact .of_follows rfl rfl (follows_markDead s.registry id boot)
  | bindWorker id boot node applyAffinity =>
    exact ignoresMemory_advances.bindWorker b id boot node applyAffinity (advances_recordBinding id node) s
  | observe id boot => exact advances_observe sound
  | migrate region target worker auth reason =>
    exact ignoresMemory_advances.migrate b region target worker auth reason s
  | advanceEpoch => exact advances_advanceEpoch s
  | advancePolicyGeneration => exact advances_policy sound
  | recover disk path => exact advances_recover sound

theorem advances_run (b : Backend β) (probe : HostProbe β) {ops : List Runtime.Op}
    (meets : Meets (Runtime.step b probe) Sound s ops) : Advances s (Runtime.run b probe s ops) := by
  induction ops generalizing s with
  | nil => exact Std.Refl.refl s
  | cons op ops ih =>
    exact IsTrans.trans _ _ _ (advances_step b probe meets.1) (ih meets.2)

/-- A worker with the boot it had earlier is in the same incarnation, since a new one has a
boot that was not spent then. -/
theorem Advances.neverBack {t : Runtime β} (h : Advances s t) (spent : AllSpent s.registry) :
    NeverBack s t where
  epoch := h.epoch
  policyGeneration := h.policyGeneration
  workers w x y foundX foundY boot := by
    obtain ⟨z, foundZ, onward | ⟨running, fresh⟩⟩ := h.registry.workers w x foundX
    · rw [foundY, Option.some.injEq] at foundZ
      rw [foundZ]
      exact onward
    · rw [foundY, Option.some.injEq] at foundZ
      rw [← foundZ, boot] at fresh
      have old := (spent w x foundX).resolve_right running
      omega

end Step

/-- In every run of a new runtime whose calls meet the condition, no later state has a
counter below an earlier one. -/
theorem counters_never_roll_back (b : Backend β) (probe : HostProbe β) (backend : β) (heap : Heap)
    {before between : List Runtime.Op}
    (meets : Meets (Runtime.step b probe) Sound (.create backend heap) (before ++ between)) :
    NeverBack (Runtime.run b probe (.create backend heap) before)
      (Runtime.run b probe (.create backend heap) (before ++ between)) := by
  obtain ⟨first, second⟩ := meets_append.mp meets
  have start : AllSpent (Runtime.create backend heap).registry := by
    intro w x found
    simp [Runtime.create] at found
  have early := advances_run b probe first
  have late := advances_run b probe second
  unfold Runtime.run at early late ⊢
  rw [List.foldl_append]
  exact late.neverBack (early.registry.spent start)

/-- Nothing is known of the host. -/
def blindProbe : HostProbe Unit := ⟨pure {}, pure []⟩

/-- A later file is recovered, with a worker that the runtime has not seen. -/
theorem counters_never_roll_back_later_file :
    let p : PersistedState :=
      { coordinatorEpoch := 5, policyGeneration := 3
        workers := [{ id := ⟨2⟩, boot := ⟨9⟩, liveGeneration := 4 }] }
    let s := Runtime.create () fun _ => 0
    ∃ disk, Runtime.loaded disk (ascii "state") = .ok p ∧
      NeverBack (Runtime.run (MemoryAccounting.budgeted 64) blindProbe s [.registerWorker ⟨1⟩ ⟨7⟩])
        (Runtime.run (MemoryAccounting.budgeted 64) blindProbe s
          ([.registerWorker ⟨1⟩ ⟨7⟩] ++ [.advanceEpoch, .recover disk (ascii "state")])) := by
  intro p s
  have storable : Storable p := by constructor <;> decide
  obtain ⟨disk, -, read⟩ := Runtime.loaded_of_saved storable (fun _ => none) (ascii "state")
  refine ⟨disk, read, counters_never_roll_back _ _ _ _ ⟨fun _ _ => by decide, trivial, ?_, trivial⟩⟩
  intro q again
  rw [read, Except.ok.injEq] at again
  subst again
  refine ⟨by decide, by decide, .inr ⟨by decide, fun w found => ?_⟩, trivial⟩
  have new : (Runtime.run (MemoryAccounting.budgeted 64) blindProbe s
    [.registerWorker ⟨1⟩ ⟨7⟩, .advanceEpoch]).registry.workers[(⟨2⟩ : WorkerId)]? = none := by decide
  exact absurd (new.symm.trans found) (by simp)

/-- A file written before the epoch was advanced takes the epoch back. -/
theorem recovery_rolls_epoch_back :
    ¬ ∀ (before between : List Runtime.Op),
      NeverBack
        (Runtime.run (MemoryAccounting.budgeted 64) blindProbe (.create () fun _ => 0) before)
        (Runtime.run (MemoryAccounting.budgeted 64) blindProbe (.create () fun _ => 0)
          (before ++ between)) := by
  intro neverBack
  let p : PersistedState := { coordinatorEpoch := 1, policyGeneration := 1 }
  have storable : Storable p := by constructor <;> decide
  obtain ⟨disk, -, read⟩ := Runtime.loaded_of_saved storable (fun _ => none) (ascii "state")
  have epoch := (neverBack [.advanceEpoch] [.recover disk (ascii "state")]).epoch
  let s := Runtime.run (MemoryAccounting.budgeted 64) blindProbe (.create () fun _ => 0) [.advanceEpoch]
  have back : (stateAfter (Runtime.recover disk (ascii "state")) s).epoch = ⟨1⟩ :=
    (recover_counters read s).1
  change s.epoch.value ≤ (stateAfter (Runtime.recover disk (ascii "state")) s).epoch.value at epoch
  rw [back] at epoch
  exact absurd epoch (by decide)

end NumaFabric.CounterHistory
