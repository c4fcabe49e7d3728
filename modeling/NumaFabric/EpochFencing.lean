import NumaFabric.CoordinatorFencing
import NumaFabric.CoordinatorFrames
import NumaFabric.FaultRun
import NumaFabric.MemoryAccounting
import NumaFabric.MigrationOutcome

/-! What an advance of the epoch does to the sessions that were acknowledged before it.
Only a placement request carries an epoch; the requests that change something are
refused after an advance exactly as far as their boots are. -/
namespace NumaFabric.EpochFencing
open Std FaultState FaultRun ByteCodec RuntimeFrames Coordinator CoordinatorConnection
  CoordinatorAuthority CoordinatorFencing CoordinatorFrames

variable {β : Type} (b : Backend β) (float : FloatCosts)

section Epoch

/-- The runtime is at the same epoch. -/
def SameEpoch (s t : Runtime β) : Prop := t.epoch = s.epoch

instance : Std.Refl (SameEpoch (β := β)) := ⟨fun _ => rfl⟩

instance : IsTrans (Runtime β) SameEpoch := ⟨fun _ _ _ h g => Eq.trans g h⟩

/-- The same on a coordinator. -/
def AtEpoch (s t : Coordinator β) : Prop := SameEpoch s.runtime t.runtime

instance : Std.Refl (AtEpoch (β := β)) := ⟨fun _ => rfl⟩

instance : IsTrans (Coordinator β) AtEpoch := ⟨fun _ _ _ h g => Eq.trans g h⟩

theorem atEpoch_onRuntime {α : Type} {x : Exec (Runtime β) α} (h : Preserves SameEpoch x) :
    Preserves AtEpoch (onRuntime x) := h.zoom fun _ _ h => h

theorem ignoresMemory_sameEpoch : IgnoresMemory (SameEpoch (β := β)) := fun _ _ => rfl

theorem ignoresReservations_sameEpoch : IgnoresReservations (SameEpoch (β := β)) := fun _ _ => rfl

theorem ignoresRegistry_sameEpoch : IgnoresRegistry (SameEpoch (β := β)) := fun _ _ => rfl

/-- Nothing but an advance moves the epoch. -/
theorem keeps_atEpoch : KeepsEvents b float AtEpoch where
  plan _ := atEpoch_onRuntime (preserves_plan b float _)
  reserve _ := atEpoch_onRuntime (ignoresReservations_sameEpoch.reserve _)
  release _ := atEpoch_onRuntime (ignoresReservations_sameEpoch.onReservations _)
  bindWorker id boot node apply := atEpoch_onRuntime
    (ignoresMemory_sameEpoch.bindWorker b id boot node apply
      (ignoresRegistry_sameEpoch.recordBinding id node))
  migrate region target worker auth reason := atEpoch_onRuntime
    (ignoresMemory_sameEpoch.migrate b region target worker auth reason)
  observe id boot := atEpoch_onRuntime (ignoresRegistry_sameEpoch.observe (fun _ _ => rfl) id boot)
  shutdown _ := rfl
  register _ _ := atEpoch_onRuntime (ignoresRegistry_sameEpoch.onRegistry _)
  restart _ _ := atEpoch_onRuntime (ignoresRegistry_sameEpoch.onRegistry _)
  conns _ _ := rfl
  markDead _ _ _ := rfl

/-- Only an advance moves the epoch, and an exhausted epoch is not moved by it. -/
theorem step_epoch (s : Coordinator β) {ev : Event}
    (h : ev = .advanceEpoch → s.runtime.epoch.value = u64Max) :
    (step b float s ev).runtime.epoch = s.runtime.epoch := by
  by_cases advance : ev = .advanceEpoch
  · have last := h advance
    subst advance
    have exhausted : s.runtime.epoch.next = .error .invalidId := by
      rw [Generation.next, if_pos last]
    have threw : Runtime.advanceEpoch.run s.runtime = .error .invalidId s.runtime := by
      rw [Runtime.advanceEpoch, run_bind_of_ok (EStateM.run_get _), exhausted]
      rfl
    change (stateAfter (onRuntime Runtime.advanceEpoch) s).runtime.epoch = _
    rw [onRuntime, stateAfter_zoom, stateAfter_of_error threw]
  · exact (keeps_atEpoch b float).step advance s

end Epoch

/-- The requests that change reservations, bindings, regions or observations. -/
def mutations : List MsgType :=
  [.reserveRequest, .releaseRequest, .bindRequest, .migrateRequest, .observeReport]

/-- The worker was acknowledged under the boot, has not registered since, and the epoch has
moved on from the one it was told. -/
def Outlived (s : Coordinator β) (events : List Event) (w : WorkerId) (boot : WorkerBootId) : Prop :=
  ∃ before ack after, events = before ++ ack :: after ∧ registers ack = some w ∧
    authority (run b float s (before ++ [ack])).runtime.registry w = some (boot, true) ∧
    (∀ ev ∈ after, registers ev ≠ some w) ∧
    (run b float s (before ++ [ack])).runtime.epoch.value <
      (run b float s events).runtime.epoch.value

/-- The epoch is advanced only while no worker is alive. -/
def Drained (s : Coordinator β) (ev : Event) : Prop :=
  ev = .advanceEpoch → s.runtime.epoch.value ≠ u64Max →
    ∀ w boot, authority s.runtime.registry w ≠ some (boot, true)

/-- The worker is alive at most as long as the epoch stays. -/
def Held (epoch : CoordinatorEpoch) (w : WorkerId) (s : Coordinator β) : Prop :=
  ∀ boot, authority s.runtime.registry w = some (boot, true) → s.runtime.epoch = epoch

theorem Held.step {s : Coordinator β} {epoch : CoordinatorEpoch} {w : WorkerId} {ev : Event}
    (h : Held epoch w s) (drained : Drained s ev) (other : registers ev ≠ some w) :
    Held epoch w (step b float s ev) := by
  intro boot live
  have before : authority s.runtime.registry w = some (boot, true) := by
    cases hr : registers ev with
    | none => exact (step_fades b float hr s).live w boot live
    | some v =>
      have apart : w ≠ v := fun same => other (same ▸ hr)
      rw [← (step_issues b float hr s).others w apart]
      exact live
  rw [step_epoch b float s, h boot before]
  intro advance
  by_contra notLast
  exact drained advance notLast w boot before

theorem Held.run {s : Coordinator β} {epoch : CoordinatorEpoch} {w : WorkerId} {events : List Event}
    (h : Held epoch w s) (meets : Meets (CoordinatorAuthority.step b float) Drained s events)
    (others : ∀ ev ∈ events, registers ev ≠ some w) :
    Held epoch w (run b float s events) := by
  induction events generalizing s with
  | nil => exact h
  | cons ev events ih =>
    obtain ⟨first, rest⟩ := List.forall_mem_cons.mp others
    exact ih (h.step b float meets.1 first) meets.2 rest

/-- A session that was outlived by its epoch has lost its boot. -/
theorem Outlived.stale {s : Coordinator β} {events : List Event} {w : WorkerId}
    {boot : WorkerBootId} (meets : Meets (CoordinatorAuthority.step b float) Drained s events)
    (outlived : Outlived b float s events w boot) :
    authority (run b float s events).runtime.registry w ≠ some (boot, true) := by
  obtain ⟨before, ack, after, rfl, -, -, others, moved⟩ := outlived
  have split : run b float s (before ++ ack :: after) =
      run b float (run b float s (before ++ [ack])) after := by
    rw [← run_append, List.append_assoc, List.singleton_append]
  have rest : Meets (CoordinatorAuthority.step b float) Drained (run b float s (before ++ [ack]))
      after := by
    rw [List.append_cons, meets_append] at meets
    exact meets.2
  have held : Held (run b float s (before ++ [ack])).runtime.epoch w
      (run b float s (before ++ [ack])) := fun _ _ => rfl
  have atEnd := held.run b float rest others
  rw [split] at moved ⊢
  intro live
  rw [atEnd boot live] at moved
  exact absurd moved (BitVec.lt_irrefl _)

section Migrate
variable {b} {s : Runtime β} {region : MemoryRegionId} {target : NumaNodeId} {worker : WorkerId}
  {auth : Auth} {reason : ByteString}

theorem malformed_eq_none {req : MigrateRequest} (hr : req.memoryRegion.isValid = true)
    (ht : req.targetNode.isValid = true) : req.malformed = none := by
  simp [MigrateRequest.malformed, hr, ht]

theorem execute_nextAttempt (id : AttemptId) (m : MigrationManager β) :
    (stateAfter (MigrationManager.execute b id) m).nextAttempt = m.nextAttempt := by
  have outcome := MigrationManager.execute_outcome b id m
  rw [stateAfter]
  generalize (MigrationManager.execute b id).run m = res at outcome
  cases outcome <;> rfl

theorem begin_nextAttempt {req : MigrateRequest} (wellFormed : req.malformed = none)
    (m : MigrationManager β) :
    (stateAfter (MigrationManager.begin req) m).nextAttempt = m.nextAttempt + 1 := by
  have outcome := MigrationManager.begin_outcome req m
  rw [stateAfter]
  generalize (MigrationManager.begin req).run m = res at outcome
  cases outcome with
  | malformed e bad => rw [wellFormed] at bad; cases bad
  | refused e wf bad => rfl
  | started r wf found good => rfl

/-- A migration under the current boot that names a region and a target takes a number. -/
theorem migrate_takes_attempt (live : s.registry.validateBoot worker auth.boot = true)
    (hr : region.isValid = true) (ht : target.isValid = true) :
    (stateAfter (Runtime.migrate b region target worker auth reason) s).migrator.nextAttempt =
      s.migrator.nextAttempt + 1 := by
  let req : MigrateRequest :=
    { worker, workerBoot := auth.boot, epoch := s.epoch, memoryRegion := region
      targetNode := target, reason }
  have wellFormed : req.malformed = none := malformed_eq_none hr ht
  have began := begin_nextAttempt wellFormed s.migrator
  rw [stateAfter] at began
  rw [stateAfter, Runtime.migrate]
  simp only [EStateM.run_bind, EStateM.run_get, live, Bool.not_true, run_throwIf_false,
    Runtime.onMigrator, run_zoom]
  change _ = s.migrator.nextAttempt + 1
  cases hb : (MigrationManager.begin req).run s.migrator with
  | error e m =>
    rw [hb] at began
    exact began
  | ok id m =>
    rw [hb] at began
    have executed := execute_nextAttempt (b := b) id m
    rw [stateAfter] at executed
    dsimp only
    cases hx : (MigrationManager.execute b id).run m with
    | error e m' =>
      rw [hx] at executed
      exact executed.trans began
    | ok u m' =>
      rw [hx] at executed
      exact executed.trans began

/-- Whatever the epoch of the authority, a migration is refused without a trace exactly when
its boot is not current or it names no region or no target. -/
theorem migrate_refused_iff :
    (∃ e, (Runtime.migrate b region target worker auth reason).run s = .error e s) ↔
      s.registry.validateBoot worker auth.boot = false ∨ region.isValid = false ∨
        target.isValid = false := by
  constructor
  · rintro ⟨e, refused⟩
    by_contra! hc
    simp only [ne_eq, Bool.not_eq_false] at hc
    have taken := @migrate_takes_attempt _ b s region target worker auth reason hc.1 hc.2.1 hc.2.2
    rw [stateAfter_of_error refused] at taken
    exact absurd taken (by simp)
  · intro h
    cases live : s.registry.validateBoot worker auth.boot with
    | false =>
      refine ⟨.runtime .staleMigration, ?_⟩
      simp only [Runtime.migrate, EStateM.run_bind, EStateM.run_get, live, Bool.not_false,
        run_throwIf_true]
    | true =>
      rw [live] at h
      have malformed : ∃ e, MigrateRequest.malformed
          { worker, workerBoot := auth.boot, epoch := s.epoch, memoryRegion := region
            targetNode := target, reason } = some e := by
        rcases h with h | h | h
        · cases h
        · exact ⟨.requiresRegion, by simp [MigrateRequest.malformed, h]⟩
        · cases hr : region.isValid with
          | false => exact ⟨.requiresRegion, by simp [MigrateRequest.malformed, hr]⟩
          | true => exact ⟨.requiresTarget, by simp [MigrateRequest.malformed, hr, h]⟩
      obtain ⟨e, bad⟩ := malformed
      refine ⟨.migration e, ?_⟩
      simp only [Runtime.migrate, EStateM.run_bind, EStateM.run_get, live, Bool.not_true,
        run_throwIf_false, Runtime.onMigrator, run_zoom]
      rw [MigrationManager.begin, bad]
      rfl

end Migrate

/-- In every run that advances the epoch only while no worker is alive, a mutating request
of a session from before the advance is answered with an error frame and changes nothing. A
direct migration under another epoch is refused exactly when its boot is not current or it
is malformed. -/
theorem epoch_fenced_when_drained :
    (∀ (s : Coordinator β) (events : List Event) (w : WorkerId) (boot : WorkerBootId) (conn : U64)
      (frame : Frame) (kind : MsgType),
      Meets (CoordinatorAuthority.step b float) Drained s events →
      Outlived b float s events w boot → MsgType.ofU16? frame.type = some kind →
      kind ∈ mutations → Carries frame.payload w boot →
      ∃ payload, (handleFrame b float conn frame).run (run b float s events) =
        .ok (frameBytes MsgType.error.toU16 payload) (run b float s events)) ∧
    ∀ (s : Runtime β) (region : MemoryRegionId) (target : NumaNodeId) (worker : WorkerId)
      (auth : Auth) (reason : ByteString), auth.epoch ≠ s.epoch →
      ((∃ e, (Runtime.migrate b region target worker auth reason).run s = .error e s) ↔
        s.registry.validateBoot worker auth.boot = false ∨ region.isValid = false ∨
          target.isValid = false) := by
  constructor
  · intro s events w boot conn frame kind meets outlived type mutation carries
    have fenced : kind ∈ fencedRequests := by
      fin_cases mutation <;> decide
    exact handleFrame_of_refuses b float
      (refuses_dispatch b float conn type fenced carries (outlived.stale b float meets))
  · intro s region target worker auth reason _
    exact migrate_refused_iff

section Runs

def fresh : Coordinator Unit := { runtime := { migrator := MigrationManager.initial () fun _ => 0 } }

def noCosts : FloatCosts := ⟨fun _ _ => 0, fun _ => 0⟩

/-- Worker 1 registers over connection 1. -/
def register : Event := .frame 1
  { type := MsgType.register.toU16, payload := WireWriter.u64 1 ++ WireWriter.u64 7 }

theorem register_live : authority
    (run (MemoryAccounting.budgeted 64) noCosts fresh [register]).runtime.registry ⟨1⟩ =
      some (⟨1⟩, true) :=
  (step_issues (MemoryAccounting.budgeted 64) noCosts
    (by decide : registers register = some ⟨1⟩) fresh).current

/-- The connection of worker 1 is lost before the epoch advances: its release request is
refused. So is a migration under a boot that no worker has. -/
theorem epoch_fenced_when_drained_lost_connection :
    (∃ payload, (handleFrame (MemoryAccounting.budgeted 64) noCosts 2
      { type := MsgType.releaseRequest.toU16
        payload := WireWriter.u64 1 ++ WireWriter.u64 1 ++ WireWriter.u64 1 }).run
        (run (MemoryAccounting.budgeted 64) noCosts fresh [register, .lost 1, .advanceEpoch]) =
        .ok (frameBytes MsgType.error.toU16 payload)
          (run (MemoryAccounting.budgeted 64) noCosts fresh [register, .lost 1, .advanceEpoch])) ∧
    ∃ e, (Runtime.migrate (MemoryAccounting.budgeted 64) ⟨1⟩ ⟨1⟩ ⟨1⟩ ⟨⟨2⟩, ⟨9⟩⟩ []).run
      fresh.runtime = .error e fresh.runtime := by
  have registered : registers register = some ⟨1⟩ := by decide
  have drained : Meets (CoordinatorAuthority.step (MemoryAccounting.budgeted 64) noCosts) Drained
      fresh [register, .lost 1, .advanceEpoch] := by
    refine ⟨fun h => (by cases h), fun h => (by cases h), fun _ _ w boot live => ?_, trivial⟩
    have dead : marksDead (step (MemoryAccounting.budgeted 64) noCosts fresh register) (.lost 1) =
        some (⟨1⟩, ⟨1⟩) := by decide
    have silent : registers (.lost 1) = none := rfl
    have alive := (step_fades (MemoryAccounting.budgeted 64) noCosts silent _).live w boot live
    have issues := step_issues (MemoryAccounting.budgeted 64) noCosts registered fresh
    by_cases hw : w = ⟨1⟩
    · subst hw
      rw [issues.current, Option.some.injEq, Prod.mk.injEq] at alive
      rw [← alive.1] at live
      exact not_live_of_marksDead _ _ dead live
    · rw [issues.others w hw] at alive
      simp [authority, fresh] at alive
  have type : MsgType.ofU16? MsgType.releaseRequest.toU16 = some .releaseRequest := by decide
  have outlived : Outlived (MemoryAccounting.budgeted 64) noCosts fresh
      [register, .lost 1, .advanceEpoch] ⟨1⟩ ⟨1⟩ :=
    ⟨[], register, [.lost 1, .advanceEpoch], rfl, registered, register_live, by decide, by decide⟩
  obtain ⟨frames, migrations⟩ := epoch_fenced_when_drained (MemoryAccounting.budgeted 64) noCosts
  exact ⟨frames fresh _ ⟨1⟩ ⟨1⟩ 2 _ _ drained outlived type (by decide) ⟨_, rfl⟩,
    (migrations fresh.runtime ⟨1⟩ ⟨1⟩ ⟨1⟩ ⟨⟨2⟩, ⟨9⟩⟩ [] (by decide)).mpr (.inl (by decide))⟩

/-- Worker 1 registers at epoch 1 and reports an observation at epoch 2: the report is taken. -/
theorem outlived_session_observes :
    Outlived (MemoryAccounting.budgeted 64) noCosts fresh [register, .advanceEpoch] ⟨1⟩ ⟨1⟩ ∧
    let t := run (MemoryAccounting.budgeted 64) noCosts fresh [register, .advanceEpoch]
    let report : Frame :=
      { type := MsgType.observeReport.toU16
        payload := WireWriter.u64 1 ++ WireWriter.u64 1 ++ WireWriter.u64 1 ++ WireWriter.u8 0 ++
          WireWriter.u8 0 }
    let t' := step (MemoryAccounting.budgeted 64) noCosts t (.frame 1 report)
    ((t.runtime.worker ⟨1⟩).map (·.lastObservationGeneration)) = some ⟨0⟩ ∧
      ((t'.runtime.worker ⟨1⟩).map (·.lastObservationGeneration)) = some ⟨1⟩ := by
  refine ⟨⟨[], register, [.advanceEpoch], rfl, by decide, register_live, by decide, by decide⟩, ?_⟩
  decide

end Runs

end NumaFabric.EpochFencing
