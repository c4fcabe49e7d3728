import NumaFabric.CoordinatorConnection
import NumaFabric.RuntimeFrames

/-! What an event of a coordinator does to the boots of its workers: an accepted
registration issues the next boot, and nothing else makes a boot current. -/
namespace NumaFabric.CoordinatorAuthority
open Std FaultState ByteCodec RuntimeFrames Coordinator CoordinatorConnection

variable {β : Type}

/-- The boot a worker currently has, and whether it is alive. -/
def authority (s : WorkerRegistry) (w : WorkerId) : Option (WorkerBootId × Bool) :=
  s.workers[w]?.map fun x => (x.bootId, x.alive)

/-- The same boots are current, alive or dead. -/
structure SameAuthority (s t : Coordinator β) : Prop where
  nextBoot : t.runtime.registry.nextBoot = s.runtime.registry.nextBoot
  authority : ∀ w, authority t.runtime.registry w = authority s.runtime.registry w

instance : Std.Refl (SameAuthority (β := β)) := ⟨fun _ => ⟨rfl, fun _ => rfl⟩⟩

instance : IsTrans (Coordinator β) SameAuthority :=
  ⟨fun _ _ _ h g => ⟨g.nextBoot.trans h.nextBoot, fun w => (g.authority w).trans (h.authority w)⟩⟩

/-- The same on a runtime alone. -/
def SameBoots (s t : Runtime β) : Prop :=
  t.registry.nextBoot = s.registry.nextBoot ∧
    ∀ w, authority t.registry w = authority s.registry w

instance : Std.Refl (SameBoots (β := β)) := ⟨fun _ => ⟨rfl, fun _ => rfl⟩⟩

instance : IsTrans (Runtime β) SameBoots :=
  ⟨fun _ _ _ h g => ⟨g.1.trans h.1, fun w => (g.2 w).trans (h.2 w)⟩⟩

theorem preserves_onRuntime {α : Type} {x : Exec (Runtime β) α} (h : Preserves SameBoots x) :
    Preserves SameAuthority (onRuntime x) :=
  h.zoom fun _ _ h => ⟨h.1, h.2⟩

theorem ignoresMemory_sameBoots : IgnoresMemory (SameBoots (β := β)) := fun _ _ => ⟨rfl, fun _ => rfl⟩

theorem ignoresReservations_sameBoots : IgnoresReservations (SameBoots (β := β)) :=
  fun _ _ => ⟨rfl, fun _ => rfl⟩

/-- Rewriting a worker keeps its authority when it keeps its boot and its life. -/
theorem authority_insert {s : WorkerRegistry} {id : WorkerId} {old new : Worker}
    (found : s.workers[id]? = some old) (boot : new.bootId = old.bootId)
    (alive : new.alive = old.alive) (w : WorkerId) :
    authority { s with workers := s.workers.insert id new } w = authority s w := by
  unfold authority
  rw [ExtTreeMap.getElem?_insert]
  split_ifs with h
  · rw [← Std.compare_eq_iff_eq.mp h, found, Option.map_some, Option.map_some, boot, alive]
  · rfl

theorem sameBoots_observe (id : WorkerId) (boot : WorkerBootId) :
    Preserves (SameBoots (β := β)) (Runtime.observe id boot) :=
  preserves_observe fun _ _ found _ => ⟨rfl, authority_insert found rfl rfl⟩

theorem sameBoots_recordBinding (id : WorkerId) (node : NumaNodeId) (set : AffinitySet)
    (applied : Bool) : Preserves (SameBoots (β := β)) (Runtime.recordBinding id node set applied) :=
  preserves_recordBinding fun _ _ _ found _ => ⟨rfl, authority_insert found rfl rfl⟩

section Handlers
variable {R : Coordinator β → Coordinator β → Prop} [Std.Refl R] [IsTrans (Coordinator β) R]

omit [IsTrans (Coordinator β) R] in
theorem preserves_parse {α : Type} (r : Reader Exn α) (payload : ByteString) :
    Preserves R (parse r payload) := by
  unfold parse
  split
  · exact Preserves.pure _
  · exact Preserves.throw _

omit [IsTrans (Coordinator β) R] in
theorem preserves_errorReply (msg : ByteString) (av : AuthorityVerification) :
    Preserves R (errorReply msg av) :=
  Preserves.ofExcept _

theorem preserves_authorized (id : WorkerId) (boot : WorkerBootId) (refusal : ByteString)
    {body : Exec (Coordinator β) ByteString} (h : Preserves R body) :
    Preserves R (authorized id boot refusal body) := by
  refine Preserves.get.bind fun s => ?_
  dsimp only
  split_ifs
  · exact preserves_errorReply _ _
  · exact h

/-- What the requests do to a coordinator, each of them keeping the relation. -/
structure Keeps (b : Backend β) (float : FloatCosts) (R : Coordinator β → Coordinator β → Prop) :
    Prop where
  plan : ∀ req, Preserves R (onRuntime (Runtime.plan b float req))
  reserve : ∀ req, Preserves R (onRuntime (Runtime.reserve req))
  release : ∀ id, Preserves R (onRuntime (Runtime.releaseReservation id))
  bindWorker : ∀ id boot node apply, Preserves R (onRuntime (Runtime.bindWorker b id boot node apply))
  migrate : ∀ region target worker auth reason,
    Preserves R (onRuntime (Runtime.migrate b region target worker auth reason))
  observe : ∀ id boot, Preserves R (onRuntime (Runtime.observe id boot))
  shutdown : ∀ s : Coordinator β, R s { s with running := false }

/-- The same for a frame of one type, whose call on the reservations matters only if the
frame asks for it. -/
structure KeepsFor (b : Backend β) (float : FloatCosts) (R : Coordinator β → Coordinator β → Prop)
    (type : U16) : Prop where
  plan : ∀ req, Preserves R (onRuntime (Runtime.plan b float req))
  reserve : MsgType.ofU16? type = some .reserveRequest →
    ∀ req, Preserves R (onRuntime (Runtime.reserve req))
  release : MsgType.ofU16? type = some .releaseRequest →
    ∀ id, Preserves R (onRuntime (Runtime.releaseReservation id))
  bindWorker : ∀ id boot node apply, Preserves R (onRuntime (Runtime.bindWorker b id boot node apply))
  migrate : ∀ region target worker auth reason,
    Preserves R (onRuntime (Runtime.migrate b region target worker auth reason))
  observe : ∀ id boot, Preserves R (onRuntime (Runtime.observe id boot))
  shutdown : ∀ s : Coordinator β, R s { s with running := false }

theorem KeepsFor.dispatch {b : Backend β} {float : FloatCosts} {frame : Frame}
    (keeps : KeepsFor b float R frame.type) (conn : U64)
    (other : MsgType.ofU16? frame.type ≠ some .register) :
    Preserves R (dispatch b float conn frame) := by
  unfold Coordinator.dispatch
  split
  · contradiction
  · refine (preserves_parse _ _).bind fun ⟨⟨worker, boot⟩, f⟩ => Preserves.get.bind fun s => ?_
    split_ifs
    · exact preserves_errorReply _ _
    · exact preserves_authorized _ _ _ (Preserves.get.bind fun _ =>
        (keeps.plan _).bind fun _ => Preserves.ofExcept _)
  · next type =>
    exact (preserves_parse _ _).bind fun _ => preserves_authorized _ _ _
      ((keeps.reserve type _).bind fun _ => Preserves.ofExcept _)
  · next type =>
    exact (preserves_parse _ _).bind fun _ => preserves_authorized _ _ _
      ((keeps.release type _).bind fun _ => Preserves.ofExcept _)
  · exact (preserves_parse _ _).bind fun _ => preserves_authorized _ _ _
      ((keeps.bindWorker _ _ _ _).bind fun _ => Preserves.ofExcept _)
  · exact (preserves_parse _ _).bind fun _ => preserves_authorized _ _ _ (Preserves.get.bind
      fun _ => (keeps.migrate _ _ _ _ _).bind fun _ => Preserves.ofExcept _)
  · exact (preserves_parse _ _).bind fun _ => preserves_authorized _ _ _
      ((keeps.observe _ _).bind fun _ => Preserves.ofExcept _)
  · exact Preserves.ofExcept _
  · exact (Preserves.modify keeps.shutdown).bind fun _ => Preserves.ofExcept _
  · exact Preserves.get.bind fun _ => Preserves.ofExcept _
  · exact (preserves_parse _ _).bind fun _ => preserves_authorized _ _ _ (Preserves.ofExcept _)
  · exact preserves_errorReply _ _

theorem Keeps.dispatch {b : Backend β} {float : FloatCosts} (keeps : Keeps b float R) (conn : U64)
    {frame : Frame} (other : MsgType.ofU16? frame.type ≠ some .register) :
    Preserves R (dispatch b float conn frame) :=
  KeepsFor.dispatch { keeps with
    reserve := fun _ => keeps.reserve
    release := fun _ => keeps.release } conn other

/-- Of all requests only a registration changes which boots are current. -/
theorem preserves_dispatch (b : Backend β) (float : FloatCosts) (conn : U64) {frame : Frame}
    (other : MsgType.ofU16? frame.type ≠ some .register) :
    Preserves SameAuthority (dispatch b float conn frame) := by
  refine Keeps.dispatch ?_ conn other
  exact
    { plan := fun req => preserves_onRuntime (preserves_plan b float req)
      reserve := fun req => preserves_onRuntime (ignoresReservations_sameBoots.reserve req)
      release := fun _ => preserves_onRuntime (ignoresReservations_sameBoots.onReservations _)
      bindWorker := fun id boot node apply => preserves_onRuntime
        (ignoresMemory_sameBoots.bindWorker b id boot node apply (sameBoots_recordBinding id node))
      migrate := fun region target worker auth reason => preserves_onRuntime
        (ignoresMemory_sameBoots.migrate b region target worker auth reason)
      observe := fun id boot => preserves_onRuntime (sameBoots_observe id boot)
      shutdown := fun _ => ⟨rfl, fun _ => rfl⟩ }

end Handlers

/-- What happens to a coordinator between two requests of one connection. -/
inductive Event
  | frame (conn : U64) (f : Frame)
  | opened (conn : U64)
  | closed (conn : U64)
  | lost (conn : U64)
  | advanceEpoch
  deriving DecidableEq, Repr

def step (b : Backend β) (float : FloatCosts) (s : Coordinator β) : Event → Coordinator β
  | .frame conn f => stateAfter (handleFrame b float conn f) s
  | .opened conn => s.openConnection conn
  | .closed conn => s.closeController conn
  | .lost conn => s.connectionLost conn
  | .advanceEpoch => stateAfter Coordinator.advanceEpoch s

def run (b : Backend β) (float : FloatCosts) (s : Coordinator β) (events : List Event) :
    Coordinator β :=
  events.foldl (step b float) s

/-- The worker a registration frame asks a boot for, when its payload is acceptable. -/
def registrant (payload : ByteString) : Option WorkerId :=
  match registerFields.run payload with
  | .ok (w, _) _ => if w.isValid then some w else none
  | .error _ _ => none

/-- The worker an event issues a boot to. -/
def registers : Event → Option WorkerId
  | .frame _ f => if MsgType.ofU16? f.type = some .register then registrant f.payload else none
  | _ => none

/-- A fresh boot becomes current, and no other worker is touched. -/
structure Issues (w : WorkerId) (s t : Coordinator β) : Prop where
  nextBoot : t.runtime.registry.nextBoot = s.runtime.registry.nextBoot + 1
  current : authority t.runtime.registry w = some (⟨s.runtime.registry.nextBoot⟩, true)
  others : ∀ v, v ≠ w → authority t.runtime.registry v = authority s.runtime.registry v

theorem authority_insert_ne {s : WorkerRegistry} {w v : WorkerId} (x : Worker) (n : U64)
    (h : v ≠ w) : authority { workers := s.workers.insert w x, nextBoot := n } v = authority s v := by
  unfold authority
  rw [ExtTreeMap.getElem?_insert, if_neg fun hc => h (Std.compare_eq_iff_eq.mp hc).symm]

theorem authority_insert_self (s : WorkerRegistry) (w : WorkerId) (x : Worker) (n : U64) :
    authority { workers := s.workers.insert w x, nextBoot := n } w = some (x.bootId, x.alive) := by
  unfold authority
  rw [ExtTreeMap.getElem?_insert_self, Option.map_some]

theorem onRegistry_run {α : Type} {x : Exec WorkerRegistry α} {s : Coordinator β} {a : α}
    {r : WorkerRegistry} (h : x.run s.runtime.registry = .ok a r) :
    (onRuntime (Runtime.onRegistry x)).run s =
      .ok a { s with runtime := { s.runtime with registry := r } } := by
  rw [onRuntime, run_zoom, Runtime.onRegistry, run_zoom, h]

theorem issues_insert {s : Coordinator β} {w : WorkerId} (x : Worker)
    (boot : x.bootId = ⟨s.runtime.registry.nextBoot⟩) (alive : x.alive = true) :
    Issues w s { s with
      runtime := { s.runtime with
        registry := { workers := s.runtime.registry.workers.insert w x
                      nextBoot := s.runtime.registry.nextBoot + 1 } } } where
  nextBoot := rfl
  current := by
    rw [authority_insert_self, boot, alive]
  others v h := authority_insert_ne x _ h

theorem enroll_run {w : WorkerId} (valid : w.isValid = true) (pid : ProcessId) (s : Coordinator β) :
    ∃ x t, (enroll w pid).run s = .ok x t ∧ Issues w s t ∧
      x.bootId = ⟨s.runtime.registry.nextBoot⟩ ∧ t.conns = s.conns := by
  simp only [enroll, EStateM.run_bind, EStateM.run_get, Runtime.worker, WorkerRegistry.find]
  cases hw : s.runtime.registry.workers[w]? with
  | none =>
    exact ⟨_, _, onRegistry_run (WorkerRegistry.registerWorker_run pid valid hw),
      issues_insert _ rfl rfl, rfl, rfl⟩
  | some x =>
    exact ⟨_, _, onRegistry_run (WorkerRegistry.restartWorker_run pid valid hw),
      issues_insert _ rfl rfl, rfl, rfl⟩

theorem reply_run (type : MsgType) {payload : ByteString}
    (small : payload.length ≤ kMaxPayloadLength) (s : Coordinator β) :
    (reply type payload).run s = .ok (frameBytes type.toU16 payload) s := by
  rw [reply, encodeFrame_of_le small]
  rfl

theorem length_registerAck (w : Worker) (s : Runtime β) : (registerAck w s).length = 44 := rfl

theorem parse_run {α : Type} {r : Reader Exn α} {payload rest : ByteString} {a : α}
    (h : r.run payload = .ok a rest) (s : Coordinator β) : (parse r payload).run s = .ok a s := by
  rw [parse, h]
  rfl

theorem handleRegister_issues (conn : U64) {payload : ByteString} {w : WorkerId}
    (h : registrant payload = some w) (s : Coordinator β) :
    ∃ out t, (handleRegister conn payload).run s = .ok out t ∧ Issues w s t ∧
      t.conns = s.conns.insert conn ⟨w, ⟨s.runtime.registry.nextBoot⟩, true⟩ := by
  unfold registrant at h
  cases hp : registerFields.run payload with
  | error e rest => rw [hp] at h; cases h
  | ok fields rest =>
    obtain ⟨worker, process⟩ := fields
    simp only [hp] at h
    split_ifs at h with valid
    cases h
    obtain ⟨x, t, enrolled, issues, boot, conns⟩ := enroll_run valid process s
    have small : (registerAck x t.runtime).length ≤ kMaxPayloadLength := by
      rw [length_registerAck, kMaxPayloadLength]
      omega
    have acked := reply_run .registerAck small { t with conns := t.conns.insert conn ⟨w, x.bootId, true⟩ }
    refine ⟨frameBytes MsgType.registerAck.toU16 (registerAck x t.runtime),
      { t with conns := t.conns.insert conn ⟨w, x.bootId, true⟩ }, ?_, ?_, ?_⟩
    · rw [handleRegister, run_bind_of_ok (parse_run hp s)]
      simp only [valid, Bool.not_true, Bool.false_eq_true, if_false]
      rw [run_bind_of_ok enrolled]
      exact acked
    · exact ⟨issues.nextBoot, issues.current, issues.others⟩
    · rw [boot, conns]

/-- A registration that is not acceptable is answered without a change. -/
theorem handleRegister_refuses (conn : U64) {payload : ByteString}
    (h : registrant payload = none) (s : Coordinator β) :
    stateAfter (handleRegister conn payload) s = s := by
  unfold registrant at h
  cases hp : registerFields.run payload with
  | error e rest =>
    refine stateAfter_of_error (run_bind_of_error (e := e) ?_)
    rw [parse, hp]
    rfl
  | ok fields rest =>
    obtain ⟨worker, process⟩ := fields
    simp only [hp] at h
    split_ifs at h with valid
    rw [stateAfter, handleRegister, run_bind_of_ok (parse_run hp s)]
    simp only [valid, Bool.not_false, if_true]
    rw [errorReply_run (by decide)]

/-- No boot is issued, and a worker keeps its boot but may die. -/
structure Fades (s t : Coordinator β) : Prop where
  nextBoot : t.runtime.registry.nextBoot = s.runtime.registry.nextBoot
  live : ∀ w boot, authority t.runtime.registry w = some (boot, true) →
    authority s.runtime.registry w = some (boot, true)

theorem SameAuthority.fades {s t : Coordinator β} (h : SameAuthority s t) : Fades s t where
  nextBoot := h.nextBoot
  live w boot hw := by
    rw [← h.authority w]
    exact hw

section Dead
variable {s : WorkerRegistry}

theorem markDead_nextBoot (w : WorkerId) (boot : WorkerBootId) :
    (s.markDead w boot).nextBoot = s.nextBoot := by
  unfold WorkerRegistry.markDead
  split
  · rfl
  · split_ifs <;> rfl

theorem live_of_markDead {w v : WorkerId} {boot old : WorkerBootId}
    (h : authority (s.markDead w boot) v = some (old, true)) : authority s v = some (old, true) := by
  unfold WorkerRegistry.markDead at h
  split at h
  · exact h
  · next x hx =>
    split_ifs at h
    · by_cases hv : v = w
      · subst hv
        rw [authority_insert_self] at h
        cases h
      · rwa [authority_insert_ne _ _ hv] at h
    · exact h

/-- The boot that was named is no longer alive. -/
theorem not_live_markDead (w : WorkerId) (boot : WorkerBootId) :
    authority (s.markDead w boot) w ≠ some (boot, true) := by
  intro h
  unfold WorkerRegistry.markDead at h
  split at h
  · next hx =>
    rw [authority, hx] at h
    cases h
  · next x hx =>
    split_ifs at h with hb
    · rw [authority_insert_self] at h
      cases h
    · rw [authority, hx, Option.map_some, Option.some.injEq, Prod.mk.injEq] at h
      exact hb h.1

end Dead

section Step
variable (b : Backend β) (float : FloatCosts)

theorem connectionLost_fades (conn : U64) (s : Coordinator β) : Fades s (s.connectionLost conn) := by
  unfold connectionLost
  dsimp only
  split_ifs
  · exact ⟨markDead_nextBoot _ _, fun _ _ => live_of_markDead⟩
  · exact ⟨rfl, fun _ _ h => h⟩

theorem preserves_handleFrame (conn : U64) {frame : Frame}
    (other : MsgType.ofU16? frame.type ≠ some .register) :
    Preserves SameAuthority (handleFrame b float conn frame) :=
  (preserves_dispatch b float conn other).tryCatch fun _ => preserves_errorReply _ _

theorem dispatch_register (conn : U64) {frame : Frame}
    (h : MsgType.ofU16? frame.type = some .register) :
    dispatch b float conn frame = handleRegister conn frame.payload := by
  rw [dispatch, h]

/-- An accepted registration issues the next boot to its worker, and notes both for the
connection. -/
theorem step_registers {conn : U64} {f : Frame} {w : WorkerId}
    (h : registers (.frame conn f) = some w) (s : Coordinator β) :
    Issues w s (step b float s (.frame conn f)) ∧
      (step b float s (.frame conn f)).conns =
        s.conns.insert conn ⟨w, ⟨s.runtime.registry.nextBoot⟩, true⟩ := by
  rw [registers] at h
  split_ifs at h with hf
  obtain ⟨out, t, handled, issues⟩ := handleRegister_issues conn h s
  have after : stateAfter (handleFrame b float conn f) s = t := by
    rw [stateAfter, handleFrame, run_tryCatch, dispatch_register b float conn hf, handled]
  rw [step, after]
  exact issues

theorem step_issues {ev : Event} {w : WorkerId} (h : registers ev = some w) (s : Coordinator β) :
    Issues w s (step b float s ev) := by
  cases ev with
  | frame conn f => exact (step_registers b float h s).1
  | _ => cases h

/-- A registration frame that is not acceptable changes nothing. -/
theorem step_refused {conn : U64} {f : Frame} (type : MsgType.ofU16? f.type = some .register)
    (h : registers (.frame conn f) = none) (s : Coordinator β) :
    step b float s (.frame conn f) = s := by
  rw [registers, if_pos type] at h
  have refused := handleRegister_refuses conn h s
  rw [step, stateAfter, handleFrame, run_tryCatch, dispatch_register b float conn type]
  cases hr : (handleRegister conn f.payload).run s with
  | ok out t =>
    rw [stateAfter_of_ok hr] at refused
    exact refused
  | error e t =>
    rw [stateAfter_of_error hr] at refused
    subst refused
    dsimp only
    rw [errorReply_run e.what_length_le]

/-- No other event makes a boot current. -/
theorem step_fades {ev : Event} (h : registers ev = none) (s : Coordinator β) :
    Fades s (step b float s ev) := by
  cases ev with
  | frame conn f =>
    by_cases hf : MsgType.ofU16? f.type = some .register
    · rw [step_refused b float hf h s]
      exact SameAuthority.fades (Std.Refl.refl s)
    · exact (preserves_handleFrame b float conn hf s).fades
  | opened conn => exact ⟨rfl, fun _ _ h => h⟩
  | closed conn => exact ⟨rfl, fun _ _ h => h⟩
  | lost conn => exact connectionLost_fades conn s
  | advanceEpoch =>
    have kept : Preserves SameAuthority (Coordinator.advanceEpoch (β := β)) :=
      preserves_onRuntime (Preserves.get.bind fun _ => (Preserves.ofExcept _).bind fun _ =>
        Preserves.modify fun _ => ⟨rfl, fun _ => rfl⟩)
    exact (kept s).fades

end Step

end NumaFabric.CoordinatorAuthority
