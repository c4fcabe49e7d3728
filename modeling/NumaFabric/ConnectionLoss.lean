import NumaFabric.RecoveryAuthority
import NumaFabric.RuntimeOperations

/-! The end of a connection. A connection remembers the worker that registered over it last,
and its loss marks that worker dead under the boot it got there, never a newer one.
Workers that registered over it before the last one are not remembered. -/
namespace NumaFabric.ConnectionLoss
open Std FaultState FaultRun Coordinator CoordinatorAuthority CoordinatorFencing RecoveryAuthority

variable {β : Type} (b : Backend β) (float : FloatCosts)

/-- The worker that an event over this connection issues a boot to. -/
def registersOver (conn : U64) : Event → Option WorkerId
  | .frame c f => if c = conn then registers (.frame c f) else none
  | _ => none

/-- The boot was issued to the worker over this connection, some time in the run. -/
def IssuedOver (s : Coordinator β) (events : List Event) (conn : U64) (w : WorkerId)
    (boot : WorkerBootId) : Prop :=
  ∃ before ev after, events = before ++ ev :: after ∧ registersOver conn ev = some w ∧
    authority (run b float s (before ++ [ev])).runtime.registry w = some (boot, true)

/-- It is the last boot that was issued over the connection. -/
def LastIssuedOver (s : Coordinator β) (events : List Event) (conn : U64) (w : WorkerId)
    (boot : WorkerBootId) : Prop :=
  ∃ before ev after, events = before ++ ev :: after ∧ registersOver conn ev = some w ∧
    authority (run b float s (before ++ [ev])).runtime.registry w = some (boot, true) ∧
    ∀ e ∈ after, registersOver conn e = none

/-- The boot that the worker has at the end of the run was issued over this connection. -/
def CurrentOver (events : List Event) (conn : U64) (w : WorkerId) : Prop :=
  ∃ before ev after, events = before ++ ev :: after ∧ registersOver conn ev = some w ∧
    ∀ e ∈ after, registers e ≠ some w

theorem registers_of_over {conn : U64} {ev : Event} {w : WorkerId}
    (h : registersOver conn ev = some w) : registers ev = some w := by
  cases ev with
  | frame c f =>
    rw [registersOver] at h
    split_ifs at h
    exact h
  | _ => cases h

theorem eq_of_over {conn conn' : U64} {ev : Event} {w : WorkerId}
    (h : registersOver conn ev = some w) (other : registersOver conn' ev ≠ none) : conn = conn' := by
  cases ev with
  | frame c f =>
    rw [registersOver] at h other
    split_ifs at h other with same same'
    · exact same.symm.trans same'
    · exact absurd rfl other
  | _ => cases h

theorem LastIssuedOver.issuedOver {s : Coordinator β} {events : List Event} {conn : U64}
    {w : WorkerId} {boot : WorkerBootId} (h : LastIssuedOver b float s events conn w boot) :
    IssuedOver b float s events conn w boot := by
  obtain ⟨before, ev, after, split, asked, current, -⟩ := h
  exact ⟨before, ev, after, split, asked, current⟩

section Conns

/-- The connections are known as before. -/
def SameConns (s t : Coordinator β) : Prop := t.conns = s.conns

instance : Std.Refl (SameConns (β := β)) := ⟨fun _ => rfl⟩

instance : IsTrans (Coordinator β) SameConns := ⟨fun _ _ _ h g => Eq.trans g h⟩

theorem sameConns_onRuntime {α : Type} (x : Exec (Runtime β) α) :
    Preserves SameConns (onRuntime x) :=
  Preserves.zoom (Q := fun _ _ => True) (fun _ => trivial) fun _ _ _ => rfl

theorem sameConns_handleFrame (conn : U64) {f : Frame}
    (other : MsgType.ofU16? f.type ≠ some .register) :
    Preserves SameConns (handleFrame b float conn f) := by
  refine (Keeps.dispatch ?_ conn other).tryCatch fun _ => preserves_errorReply _ _
  exact
    { plan := fun _ => sameConns_onRuntime _
      reserve := fun _ => sameConns_onRuntime _
      release := fun _ => sameConns_onRuntime _
      bindWorker := fun _ _ _ _ => sameConns_onRuntime _
      migrate := fun _ _ _ _ _ => sameConns_onRuntime _
      observe := fun _ _ => sameConns_onRuntime _
      shutdown := fun _ => rfl }

/-- A frame that issues no boot leaves the connections alone. -/
theorem conns_frame {conn : U64} {f : Frame} (h : registers (.frame conn f) = none)
    (s : Coordinator β) : (step b float s (.frame conn f)).conns = s.conns := by
  by_cases type : MsgType.ofU16? f.type = some .register
  · rw [step_refused b float type h]
  · exact sameConns_handleFrame b float conn type s

/-- An event that registers nothing over the connection leaves its last registration. -/
theorem LastIssuedOver.append {s : Coordinator β} {events : List Event} {conn : U64}
    {id : WorkerId} {boot : WorkerBootId} (issued : LastIssuedOver b float s events conn id boot)
    {ev : Event} (quiet : registersOver conn ev = none) :
    LastIssuedOver b float s (events ++ [ev]) conn id boot := by
  obtain ⟨pre, e, post, split, asked, current, later⟩ := issued
  refine ⟨pre, e, post ++ [ev], by simp [split], asked, current, ?_⟩
  intro e' he'
  rcases List.mem_append.mp he' with old | new
  · exact later e' old
  · rw [List.mem_singleton.mp new]
    exact quiet

/-- An entry that names a worker was written by the last registration over the connection. -/
theorem lastIssued_of_conns {s : Coordinator β} (start : s.conns = ∅) {events : List Event}
    {conn : U64} {st : ConnState} (found : (run b float s events).conns[conn]? = some st)
    (worker : st.isWorker = true) :
    LastIssuedOver b float s events conn st.workerId st.boot := by
  induction events using List.reverseRecOn generalizing st with
  | nil =>
    change s.conns[conn]? = some st at found
    rw [start] at found
    simp at found
  | append_singleton events ev ih =>
    have carried : registersOver conn ev = none →
        (run b float s events).conns[conn]? = some st →
        LastIssuedOver b float s (events ++ [ev]) conn st.workerId st.boot :=
      fun quiet before => LastIssuedOver.append b float (ih before worker) quiet
    rw [run_append] at found
    change (step b float (run b float s events) ev).conns[conn]? = some st at found
    cases ev with
    | frame c f =>
      cases hr : registers (.frame c f) with
      | none =>
        rw [conns_frame b float hr] at found
        exact carried (by rw [registersOver, hr, ite_self]) found
      | some w =>
        obtain ⟨issues, conns⟩ := step_registers b float hr (run b float s events)
        rw [conns, ExtTreeMap.getElem?_insert] at found
        split_ifs at found with here
        · cases found
          have same : c = conn := Std.compare_eq_iff_eq.mp here
          refine ⟨events, .frame c f, [], rfl, by rw [registersOver, if_pos same, hr], ?_, by simp⟩
          rw [run_append]
          exact issues.current
        · refine carried ?_ found
          rw [registersOver, if_neg fun same => here (Std.compare_eq_iff_eq.mpr same)]
    | opened c =>
      change ((run b float s events).conns.insert c {})[conn]? = some st at found
      rw [ExtTreeMap.getElem?_insert] at found
      split_ifs at found
      · cases found
        cases worker
      · exact carried rfl found
    | closed c =>
      change ((run b float s events).conns.erase c)[conn]? = some st at found
      rw [ExtTreeMap.getElem?_erase] at found
      split_ifs at found
      exact carried rfl found
    | lost c =>
      change ((run b float s events).conns.erase c)[conn]? = some st at found
      rw [ExtTreeMap.getElem?_erase] at found
      split_ifs at found
      exact carried rfl found
    | advanceEpoch => exact carried rfl (by
        have kept : Preserves SameConns (Coordinator.advanceEpoch (β := β)) := sameConns_onRuntime _
        rw [← found]
        exact congrArg (fun m : ExtTreeMap U64 ConnState => m[conn]?) (kept (run b float s events)).symm)

end Conns

section Unique
variable {s : Coordinator β} {w v : WorkerId} {boot other : WorkerBootId}

/-- A later registration issues a greater boot. -/
theorem boot_lt {pre mid post : List Event} {e e' : Event}
    (room : Room s (pre ++ e :: (mid ++ e' :: post))) (first : registers e = some w)
    (current : authority (run b float s (pre ++ [e])).runtime.registry w = some (boot, true))
    (second : registers e' = some v)
    (current' : authority (run b float s (pre ++ e :: mid ++ [e'])).runtime.registry v =
      some (other, true)) : boot.value.toNat < other.value.toNat := by
  have atFirst := room.run b float
  have afterFirst := atFirst.step b float
  rw [run_append, run_cons] at current
  have issued := (issued_of_registers b float atFirst first current).run b float afterFirst
  rw [run_append, run_append, run_cons, run_cons] at current'
  have next := (step_issues b float second
    (run b float (step b float (run b float s pre) e) mid)).current.symm.trans current'
  rw [Option.some.injEq, Prod.mk.injEq] at next
  rw [← next.1]
  exact issued

/-- A boot is issued once: to one worker, over one connection. -/
theorem issued_once {events : List Event} (room : Room s events) {conn conn' : U64}
    (one : IssuedOver b float s events conn w boot) (two : IssuedOver b float s events conn' v boot) :
    conn = conn' ∧ w = v := by
  obtain ⟨pre, e, post, rfl, asked, current⟩ := one
  obtain ⟨pre', e', post', split, asked', current'⟩ := two
  have first := registers_of_over asked
  have second := registers_of_over asked'
  rcases List.append_eq_append_iff.mp split with ⟨mid, rfl, rest⟩ | ⟨mid, rfl, rest⟩
  · cases mid with
    | nil =>
      simp only [List.nil_append, List.cons.injEq] at rest
      obtain ⟨rfl, -⟩ := rest
      exact ⟨eq_of_over asked (by simp [asked']), Option.some.inj (first.symm.trans second)⟩
    | cons x mid =>
      simp only [List.cons_append, List.cons.injEq] at rest
      obtain ⟨rfl, rfl⟩ := rest
      exact absurd (boot_lt b float room first current second current') (Nat.lt_irrefl _)
  · cases mid with
    | nil =>
      simp only [List.nil_append, List.cons.injEq] at rest
      obtain ⟨rfl, -⟩ := rest
      exact ⟨eq_of_over asked (by simp [asked']), Option.some.inj (first.symm.trans second)⟩
    | cons x mid =>
      simp only [List.cons_append, List.cons.injEq] at rest
      obtain ⟨rfl, rfl⟩ := rest
      rw [List.append_assoc, List.cons_append] at room
      exact absurd (boot_lt b float room second current' first current) (Nat.lt_irrefl _)

end Unique

/-- The loss of a connection touches nothing, or kills the worker last registered over it. -/
theorem registry_lost (conn : U64) (s : Coordinator β) :
    (s.connectionLost conn).runtime.registry = s.runtime.registry ∨
      ∃ st x, s.conns[conn]? = some st ∧ st.isWorker = true ∧
        s.runtime.registry.workers[st.workerId]? = some x ∧ x.bootId = st.boot ∧
        (s.connectionLost conn).runtime.registry =
          { s.runtime.registry with
            workers := s.runtime.registry.workers.insert st.workerId { x with alive := false } } := by
  unfold connectionLost
  cases found : s.conns[conn]? with
  | none => exact .inl rfl
  | some st =>
    dsimp only [Option.getD_some]
    split_ifs with known
    · rw [Runtime.markWorkerDead]
      dsimp only
      unfold WorkerRegistry.markDead
      cases here : s.runtime.registry.workers[st.workerId]? with
      | none => exact .inl rfl
      | some x =>
        dsimp only
        split_ifs with same
        · exact .inr ⟨st, x, rfl, (Bool.and_eq_true_iff.mp known).1, here, same, rfl⟩
        · exact .inl rfl
    · exact .inl rfl

theorem lastIssued_unique {s : Coordinator β} {events : List Event} {conn : U64} {w v : WorkerId}
    {x y : WorkerBootId} (one : LastIssuedOver b float s events conn w x)
    (two : LastIssuedOver b float s events conn v y) : w = v ∧ x = y := by
  obtain ⟨pre, e, post, rfl, asked, current, last⟩ := one
  obtain ⟨pre', e', post', split, asked', current', last'⟩ := two
  have same : pre = pre' ∧ e = e' := by
    rcases List.append_eq_append_iff.mp split with ⟨mid, rfl, rest⟩ | ⟨mid, rfl, rest⟩
    · cases mid with
      | nil => simp_all
      | cons z mid =>
        simp only [List.cons_append, List.cons.injEq] at rest
        obtain ⟨rfl, rfl⟩ := rest
        simp [last e' (by simp)] at asked'
    · cases mid with
      | nil => simp_all
      | cons z mid =>
        simp only [List.cons_append, List.cons.injEq] at rest
        obtain ⟨rfl, rfl⟩ := rest
        simp [last' e (by simp)] at asked
  obtain ⟨rfl, rfl⟩ := same
  have worker : w = v := Option.some.inj (asked.symm.trans asked')
  subst worker
  have boot := current.symm.trans current'
  simp only [Option.some.injEq, Prod.mk.injEq, and_true] at boot
  exact ⟨rfl, boot⟩

/-- What the loss of a connection may do after a run: the worker whose current boot is the
last one issued over the connection may die, and nothing else of a worker changes. -/
structure Harmless (s : Coordinator β) (events : List Event) (conn : U64) : Prop where
  rest : (run b float s events).connectionLost conn =
    { run b float s events with
      runtime := { (run b float s events).runtime with
        registry := ((run b float s events).connectionLost conn).runtime.registry }
      conns := (run b float s events).conns.erase conn }
  counter : ((run b float s events).connectionLost conn).runtime.registry.nextBoot =
    (run b float s events).runtime.registry.nextBoot
  workers : ∀ w : WorkerId,
    ((run b float s events).connectionLost conn).runtime.registry.workers[w]? =
      (run b float s events).runtime.registry.workers[w]? ∨
    ∃ x, (run b float s events).runtime.registry.workers[w]? = some x ∧
      LastIssuedOver b float s events conn w x.bootId ∧
      ((run b float s events).connectionLost conn).runtime.registry.workers[w]? =
        some { x with alive := false }
  single : ∀ w v x y, LastIssuedOver b float s events conn w x →
    LastIssuedOver b float s events conn v y → w = v ∧ x = y
  others : ∀ conn', conn' ≠ conn → ∀ (w : WorkerId) (x : Worker),
    (run b float s events).runtime.registry.workers[w]? = some x →
    IssuedOver b float s events conn' w x.bootId →
    ((run b float s events).connectionLost conn).runtime.registry.workers[w]? = some x ∧
      ∀ boot, ((run b float s events).connectionLost conn).runtime.registry.validateBoot w boot =
        (run b float s events).runtime.registry.validateBoot w boot

theorem connectionLost_rest (conn : U64) (s : Coordinator β) :
    s.connectionLost conn =
      { s with
        runtime := { s.runtime with registry := (s.connectionLost conn).runtime.registry }
        conns := s.conns.erase conn } := by
  unfold connectionLost
  dsimp only
  split_ifs <;> rfl

/-- The worker that a loss kills has the last boot issued over the connection. -/
theorem workers_lost {s : Coordinator β} (start : s.conns = ∅) (events : List Event) (conn : U64)
    (w : WorkerId) :
    ((run b float s events).connectionLost conn).runtime.registry.workers[w]? =
      (run b float s events).runtime.registry.workers[w]? ∨
    ∃ x, (run b float s events).runtime.registry.workers[w]? = some x ∧
      LastIssuedOver b float s events conn w x.bootId ∧
      ((run b float s events).connectionLost conn).runtime.registry.workers[w]? =
        some { x with alive := false } := by
  rcases registry_lost conn (run b float s events) with same | ⟨st, x, entry, worker, found, boot, died⟩
  · rw [same]
    exact .inl rfl
  · have last := lastIssued_of_conns b float start entry worker
    rw [died]
    dsimp only
    rw [ExtTreeMap.getElem?_insert]
    split_ifs with here
    · have same : st.workerId = w := Std.compare_eq_iff_eq.mp here
      rw [← same]
      exact .inr ⟨x, found, by rw [boot]; exact last, rfl⟩
    · exact .inl rfl

/-- Over any run of a new coordinator that does not exhaust the boot counter, the loss of a
connection leaves every incarnation alone that registered over another one. -/
theorem loss_harms_no_other_boot {s : Coordinator β} (fresh : s.runtime.registry = {})
    (start : s.conns = ∅) {events : List Event} (few : registrations events < 2 ^ 64 - 1)
    (conn : U64) : Harmless b float s events conn where
  rest := connectionLost_rest conn (run b float s events)
  counter := by
    rcases registry_lost conn (run b float s events) with same | ⟨_, _, _, _, _, _, died⟩
    · rw [same]
    · rw [died]
  workers := workers_lost b float start events conn
  single _ _ _ _ one two := lastIssued_unique b float one two
  others conn' apart w x found issued := by
    have room : Room s events := by
      have one : (1 : U64).toNat = 1 := rfl
      rw [Room, fresh]
      dsimp only
      omega
    have kept : ((run b float s events).connectionLost conn).runtime.registry.workers[w]? =
        (run b float s events).runtime.registry.workers[w]? := by
      rcases workers_lost b float start events conn w with same | ⟨y, foundY, last, -⟩
      · exact same
      · rw [found, Option.some.injEq] at foundY
        subst foundY
        exact absurd (issued_once b float room issued (last.issuedOver b float)).1 apart
    refine ⟨kept.trans found, fun boot => ?_⟩
    rw [WorkerRegistry.validateBoot, WorkerRegistry.validateBoot, kept]

/-- The registration of a worker under its number. -/
def registration (w : U64) : Frame :=
  { type := MsgType.register.toU16, payload := WireWriter.u64 w ++ WireWriter.u64 7 }

/-- A worker that reconnects before its first connection is lost keeps its second boot. -/
theorem loss_harms_no_other_boot_reconnected :
    Harmless (MemoryAccounting.budgeted 64) ⟨fun _ _ => 0, fun _ => 0⟩
      { runtime := .create () fun _ => 0 } [.frame 1 (registration 1), .frame 2 (registration 1)] 1 :=
  loss_harms_no_other_boot _ _ rfl rfl (by decide) 1

section Noticed

/-- The connection is remembered for a worker that lives under the boot noted for it. -/
def Remembers (s : Coordinator β) (conn : U64) (w : WorkerId) : Prop :=
  ∃ st, s.conns[conn]? = some st ∧ st.isWorker = true ∧ st.workerId = w ∧
    authority s.runtime.registry w = some (st.boot, true)

/-- An event does not overwrite what a connection remembers of a living worker, unless that
worker registers itself. -/
def Tracks (s : Coordinator β) : Event → Prop
  | .frame conn f => ∀ w, registers (.frame conn f) = some w → ∀ v, Remembers s conn v → v = w
  | .opened conn => ∀ v, ¬Remembers s conn v
  | .closed conn => ∀ v, ¬Remembers s conn v
  | .lost _ => True
  | .advanceEpoch => True

theorem currentOver_snoc {events : List Event} {ev : Event} {conn : U64} {w : WorkerId}
    (h : CurrentOver (events ++ [ev]) conn w) :
    registersOver conn ev = some w ∨ CurrentOver events conn w ∧ registers ev ≠ some w := by
  obtain ⟨before, e, after, split, asked, later⟩ := h
  induction after using List.reverseRecOn with
  | nil =>
    obtain ⟨-, rfl⟩ := List.append_inj' split rfl |>.imp_right List.singleton_inj.mp
    exact .inl asked
  | append_singleton after e' _ =>
    rw [← List.cons_append, ← List.append_assoc] at split
    obtain ⟨rfl, same⟩ := List.append_inj' split rfl
    rw [List.singleton_inj.mp same]
    exact .inr ⟨⟨before, e, after, rfl, asked, fun x hx => later x (by simp [hx])⟩,
      later e' (by simp)⟩

theorem valid_of_registers {ev : Event} {w : WorkerId} (h : registers ev = some w) :
    w.isValid = true := by
  cases ev with
  | frame conn f =>
    rw [registers] at h
    split_ifs at h
    unfold registrant at h
    split at h
    · split_ifs at h with valid
      cases h
      exact valid
    · cases h
  | _ => cases h

theorem CurrentOver.isValid {events : List Event} {conn : U64} {w : WorkerId}
    (h : CurrentOver events conn w) : w.isValid = true := by
  obtain ⟨before, ev, after, -, asked, -⟩ := h
  exact valid_of_registers (registers_of_over asked)

/-- A worker that lives after an event not its own registration lived under the same boot
before. -/
theorem live_before {s : Coordinator β} {ev : Event} {w : WorkerId} {boot : WorkerBootId}
    (other : registers ev ≠ some w)
    (live : authority (step b float s ev).runtime.registry w = some (boot, true)) :
    authority s.runtime.registry w = some (boot, true) := by
  cases hr : registers ev with
  | none => exact (step_fades b float hr s).live w boot live
  | some v =>
    rw [(step_issues b float hr s).others w fun same => other (by rw [hr, same])] at live
    exact live

/-- The loss of the connection that remembers a worker kills it. -/
theorem dies_of_lost {s : Coordinator β} {conn : U64} {w : WorkerId} {boot : WorkerBootId}
    (valid : w.isValid = true) (entry : s.conns[conn]? = some ⟨w, boot, true⟩) :
    authority (step b float s (.lost conn)).runtime.registry w ≠ some (boot, true) := by
  apply not_live_of_marksDead b float
  simp [marksDead, entry, valid]

/-- What a connection remembers of a living worker outlasts an event that tracks it. -/
theorem entry_step {s : Coordinator β} {ev : Event} (late : Tracks s ev) {conn : U64}
    {w : WorkerId} {boot : WorkerBootId} (valid : w.isValid = true) (other : registers ev ≠ some w)
    (entry : s.conns[conn]? = some ⟨w, boot, true⟩)
    (live : authority (step b float s ev).runtime.registry w = some (boot, true)) :
    (step b float s ev).conns[conn]? = some ⟨w, boot, true⟩ := by
  have remembers : Remembers s conn w := ⟨_, entry, rfl, rfl, live_before b float other live⟩
  cases ev with
  | frame c f =>
    cases hr : registers (.frame c f) with
    | none =>
      rw [conns_frame b float hr]
      exact entry
    | some v =>
      rw [(step_registers b float hr s).2, ExtTreeMap.getElem?_insert]
      split_ifs with here
      · have same : c = conn := Std.compare_eq_iff_eq.mp here
        subst same
        exact absurd (by rw [hr, late v hr w remembers]) other
      · exact entry
  | opened c =>
    change (s.conns.insert c {})[conn]? = _
    rw [ExtTreeMap.getElem?_insert]
    split_ifs with here
    · rw [Std.compare_eq_iff_eq.mp here] at late
      exact absurd remembers (late w)
    · exact entry
  | closed c =>
    change (s.conns.erase c)[conn]? = _
    rw [ExtTreeMap.getElem?_erase]
    split_ifs with here
    · rw [Std.compare_eq_iff_eq.mp here] at late
      exact absurd remembers (late w)
    · exact entry
  | lost c =>
    change (s.conns.erase c)[conn]? = _
    rw [ExtTreeMap.getElem?_erase]
    split_ifs with here
    · rw [Std.compare_eq_iff_eq.mp here] at live
      exact absurd live (dies_of_lost b float valid entry)
    · exact entry
  | advanceEpoch =>
    have kept : Preserves SameConns (Coordinator.advanceEpoch (β := β)) := sameConns_onRuntime _
    have same : (stateAfter Coordinator.advanceEpoch s).conns = s.conns := kept s
    change (stateAfter Coordinator.advanceEpoch s).conns[conn]? = _
    rw [same]
    exact entry

/-- As long as nothing is overwritten, every living worker is remembered by the connection
its boot was issued over. -/
theorem remembered {s : Coordinator β} {events : List Event}
    (tracks : Meets (step b float) Tracks s events) {conn : U64} {w : WorkerId}
    {boot : WorkerBootId} (here : CurrentOver events conn w)
    (live : authority (run b float s events).runtime.registry w = some (boot, true)) :
    (run b float s events).conns[conn]? = some ⟨w, boot, true⟩ := by
  induction events using List.reverseRecOn generalizing boot with
  | nil =>
    obtain ⟨before, ev, after, split, -⟩ := here
    simp at split
  | append_singleton events ev ih =>
    obtain ⟨early, late, -⟩ := meets_append.mp tracks
    change Tracks (run b float s events) ev at late
    rw [run_append] at live ⊢
    change authority (step b float (run b float s events) ev).runtime.registry w = _ at live
    change (step b float (run b float s events) ev).conns[conn]? = _
    rcases currentOver_snoc here with issued | ⟨current, other⟩
    · cases ev with
      | frame c f =>
        have registered := registers_of_over issued
        obtain ⟨issues, conns⟩ := step_registers b float registered (run b float s events)
        have same : c = conn := by
          rw [registersOver] at issued
          split_ifs at issued with same
          exact same
        have boots := issues.current.symm.trans live
        simp only [Option.some.injEq, Prod.mk.injEq, and_true] at boots
        rw [conns, same, ExtTreeMap.getElem?_insert_self, boots]
      | _ => cases issued
    · have before := live_before b float other live
      exact entry_step b float late here.isValid other (ih early current before) live

/-- If no connection has overwritten a living worker, then from the loss of a connection on
no worker whose boot was issued over it is alive, until it registers again. -/
theorem loss_noticed {s : Coordinator β} {events : List Event}
    (tracks : Meets (step b float) Tracks s events) {conn : U64} {w : WorkerId}
    (here : CurrentOver events conn w) {later : List Event}
    (quiet : ∀ ev ∈ later, registers ev ≠ some w) (x : Worker)
    (found : (run b float s (events ++ .lost conn :: later)).runtime.registry.workers[w]? = some x) :
    x.alive = false := by
  rw [← Bool.not_eq_true]
  intro alive
  have live : authority (run b float s (events ++ .lost conn :: later)).runtime.registry w =
      some (x.bootId, true) := by
    rw [authority, found, Option.map_some, alive]
  rw [run_append, run_cons] at live
  refine not_live_run b float (fun boot atLoss => ?_) quiet x.bootId live
  have other : registers (.lost conn) ≠ some w := by simp [registers]
  have before := live_before b float other atLoss
  exact dies_of_lost b float here.isValid (remembered b float tracks here before) atLoss

end Noticed

theorem loss_noticed_one_each :
    let s : Coordinator Unit := { runtime := .create () fun _ => 0 }
    ∀ x, (run (MemoryAccounting.budgeted 64) ⟨fun _ _ => 0, fun _ => 0⟩ s
      ([.frame 1 (registration 1), .frame 2 (registration 2)] ++
        .lost 1 :: [])).runtime.registry.workers[(⟨1⟩ : WorkerId)]? = some x → x.alive = false := by
  intro s x found
  have tracks : Meets (step (MemoryAccounting.budgeted 64) ⟨fun _ _ => 0, fun _ => 0⟩) Tracks s
      [.frame 1 (registration 1), .frame 2 (registration 2)] := by
    refine ⟨?_, ?_, trivial⟩
    · rintro w - v ⟨st, entry, -⟩
      simp [s] at entry
    · rintro w - v ⟨st, entry, -⟩
      have absent : (step (MemoryAccounting.budgeted 64) ⟨fun _ _ => 0, fun _ => 0⟩ s
        (.frame 1 (registration 1))).conns[(2 : U64)]? = none := by decide
      exact absurd (absent.symm.trans entry) (by simp)
  exact loss_noticed _ _ tracks ⟨[], _, [.frame 2 (registration 2)], rfl, rfl, by decide⟩ (by simp) x
    found

/-- Of two workers registered over one connection only the second dies with it. -/
theorem loss_unnoticed :
    ¬ ∀ (s : Coordinator Unit) (events : List Event) (conn : U64) (w : WorkerId),
      CurrentOver events conn w → ∀ x,
      (run (MemoryAccounting.budgeted 64) ⟨fun _ _ => 0, fun _ => 0⟩ s
        (events ++ [.lost conn])).runtime.registry.workers[w]? = some x → x.alive = false := by
  intro noticed
  have dead := noticed { runtime := .create () fun _ => 0 }
    [.frame 1 (registration 1), .frame 1 (registration 2)] 1 ⟨1⟩
    ⟨[], _, [.frame 1 (registration 2)], rfl, rfl, by decide⟩
    (Worker.registered ⟨1⟩ ⟨1⟩ ⟨7⟩) (by decide)
  exact absurd dead (by decide)

end NumaFabric.ConnectionLoss
