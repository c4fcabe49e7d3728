import NumaFabric.CoordinatorAuthority

/-! Boot fencing over runs of the coordinator: a boot that was replaced or marked dead
never becomes current again, and a request under it is refused without a trace. -/
namespace NumaFabric.CoordinatorFencing
open Std FaultState ByteCodec Coordinator CoordinatorConnection CoordinatorAuthority

variable {β : Type} (b : Backend β) (float : FloatCosts)

/-- How many boots the events issue. -/
def registrations (events : List Event) : ℕ := events.countP fun ev => (registers ev).isSome

/-- The boot counter does not wrap during the events. A new registry starts it at one. -/
def Room (s : Coordinator β) (events : List Event) : Prop :=
  s.runtime.registry.nextBoot.toNat + registrations events < 2 ^ 64

/-- The worker and boot an event marks dead. -/
def marksDead (s : Coordinator β) : Event → Option (WorkerId × WorkerBootId)
  | .lost conn =>
    (s.conns[conn]?.filter fun st => st.isWorker && st.workerId.isValid).map fun st =>
      (st.workerId, st.boot)
  | _ => none

/-- The event ends the time of a boot: its worker registers again, or the boot is
marked dead. -/
def Retires (s : Coordinator β) (w : WorkerId) (boot : WorkerBootId) (ev : Event) : Prop :=
  registers ev = some w ∨ marksDead s ev = some (w, boot)

/-- Some event of the run issued the boot to the worker, and a later one retired it. -/
def Stale (s : Coordinator β) (events : List Event) (w : WorkerId) (boot : WorkerBootId) : Prop :=
  ∃ before issue between retire after,
    events = before ++ issue :: between ++ retire :: after ∧
    registers issue = some w ∧
    authority (run b float s (before ++ [issue])).runtime.registry w = some (boot, true) ∧
    Retires (run b float s (before ++ issue :: between)) w boot retire

/-- The boot was issued before now. -/
def Issued (s : Coordinator β) (boot : WorkerBootId) : Prop :=
  boot.value.toNat < s.runtime.registry.nextBoot.toNat

/-- An old boot that its worker does not have, or has only as a dead one. -/
structure Fenced (s : Coordinator β) (w : WorkerId) (boot : WorkerBootId) : Prop where
  issued : Issued s boot
  stale : authority s.runtime.registry w ≠ some (boot, true)

section Counter
variable {s : Coordinator β} {ev : Event} {events : List Event}

theorem registrations_cons (ev : Event) (events : List Event) :
    registrations (ev :: events) = registrations events + if (registers ev).isSome then 1 else 0 := by
  simp only [registrations, List.countP_cons]

theorem Room.nextBoot_succ {w : WorkerId} (room : Room s (ev :: events))
    (h : registers ev = some w) :
    (s.runtime.registry.nextBoot + 1).toNat = s.runtime.registry.nextBoot.toNat + 1 := by
  simp only [Room, registrations_cons, h, Option.isSome_some, if_true] at room
  exact u64_succ (Nat.le_refl _) (by omega)

/-- A step uses up at most the room counted for it. -/
theorem Room.step (room : Room s (ev :: events)) : Room (step b float s ev) events := by
  cases h : registers ev with
  | none =>
    rw [Room, (step_fades b float h s).nextBoot]
    simpa [Room, registrations_cons, h] using room
  | some w =>
    have next := room.nextBoot_succ h
    rw [Room, (step_issues b float h s).nextBoot, next]
    simp only [Room, registrations_cons, h, Option.isSome_some, if_true] at room
    omega

theorem Issued.step {boot : WorkerBootId} (room : Room s (ev :: events)) (issued : Issued s boot) :
    Issued (step b float s ev) boot := by
  cases h : registers ev with
  | none =>
    rw [Issued, (step_fades b float h s).nextBoot]
    exact issued
  | some w =>
    rw [Issued, (step_issues b float h s).nextBoot, room.nextBoot_succ h]
    exact Nat.lt_succ_of_lt issued

theorem Room.run {xs ys : List Event} (room : Room s (xs ++ ys)) : Room (run b float s xs) ys := by
  induction xs generalizing s with
  | nil => exact room
  | cons x xs ih => exact ih (room.step b float)

theorem Issued.run {boot : WorkerBootId} {xs ys : List Event} (room : Room s (xs ++ ys))
    (issued : Issued s boot) : Issued (run b float s xs) boot := by
  induction xs generalizing s with
  | nil => exact issued
  | cons x xs ih => exact ih (room.step b float) (issued.step b float room)

end Counter

section Fencing
variable {s : Coordinator β} {w : WorkerId} {boot : WorkerBootId} {ev : Event}
  {events : List Event}

theorem issued_of_registers (room : Room s (ev :: events)) (h : registers ev = some w)
    (current : authority (step b float s ev).runtime.registry w = some (boot, true)) :
    Issued (step b float s ev) boot := by
  have issues := step_issues b float h s
  rw [issues.current, Option.some.injEq, Prod.mk.injEq] at current
  rw [Issued, issues.nextBoot, room.nextBoot_succ h, ← current.1]
  exact Nat.lt_succ_self _

/-- A new boot is none of the old ones, so no step brings a fenced boot back. -/
theorem Fenced.step (room : Room s (ev :: events)) (fenced : Fenced s w boot) :
    Fenced (step b float s ev) w boot where
  issued := fenced.issued.step b float room
  stale current := by
    cases h : registers ev with
    | none => exact fenced.stale ((step_fades b float h s).live w boot current)
    | some v =>
      have issues := step_issues b float h s
      by_cases hv : w = v
      · subst hv
        rw [issues.current, Option.some.injEq, Prod.mk.injEq] at current
        have old := fenced.issued
        rw [Issued, ← current.1] at old
        exact Nat.lt_irrefl _ old
      · rw [issues.others w hv] at current
        exact fenced.stale current

theorem Fenced.run {xs : List Event} (room : Room s xs) (fenced : Fenced s w boot) :
    Fenced (run b float s xs) w boot := by
  induction xs generalizing s with
  | nil => exact fenced
  | cons x xs ih => exact ih (room.step b float) (fenced.step b float room)

theorem not_live_of_marksDead (h : marksDead s ev = some (w, boot)) :
    authority (step b float s ev).runtime.registry w ≠ some (boot, true) := by
  cases ev with
  | lost conn =>
    simp only [marksDead, Option.map_eq_some_iff, Option.filter_eq_some_iff, Prod.mk.injEq] at h
    obtain ⟨st, ⟨found, known⟩, rfl, rfl⟩ := h
    rw [step, connectionLost, found, Option.getD_some, if_pos known]
    exact not_live_markDead st.workerId st.boot
  | _ => cases h

/-- Whatever ends the time of an issued boot fences it. -/
theorem Retires.fenced (room : Room s (ev :: events)) (issued : Issued s boot)
    (retires : Retires s w boot ev) : Fenced (step b float s ev) w boot where
  issued := issued.step b float room
  stale current := by
    rcases retires with again | dead
    · rw [(step_issues b float again s).current, Option.some.injEq, Prod.mk.injEq] at current
      rw [Issued, ← current.1] at issued
      exact Nat.lt_irrefl _ issued
    · exact not_live_of_marksDead b float dead current

theorem run_append (xs ys : List Event) (s : Coordinator β) :
    run b float s (xs ++ ys) = run b float (run b float s xs) ys := List.foldl_append ..

theorem run_cons (x : Event) (xs : List Event) (s : Coordinator β) :
    run b float s (x :: xs) = run b float (CoordinatorAuthority.step b float s x) xs := rfl

/-- A stale boot is fenced at the end of its run. -/
theorem Stale.fenced (room : Room s events) (stale : Stale b float s events w boot) :
    Fenced (run b float s events) w boot := by
  obtain ⟨before, issue, between, retire, after, rfl, registered, current, retires⟩ := stale
  rw [List.append_assoc, List.cons_append] at room
  have atIssue := room.run b float
  have afterIssue := atIssue.step b float
  have atRetire := afterIssue.run b float
  rw [run_append, run_cons] at current retires
  have issued := (issued_of_registers b float atIssue registered current).run b float afterIssue
  have fenced := retires.fenced b float atRetire issued
  rw [run_append, run_append, run_cons]
  exact fenced.run b float (atRetire.step b float)

end Fencing

/-- Answered with an error frame or raised, and nothing changed. -/
def Refuses (s : Coordinator β) (x : Exec (Coordinator β) ByteString) : Prop :=
  (∃ payload, x.run s = .ok (frameBytes MsgType.error.toU16 payload) s) ∨ ∃ e, x.run s = .error e s

/-- The requests that carry a worker and a boot. -/
def fencedRequests : List MsgType :=
  [.placementRequest, .reserveRequest, .releaseRequest, .bindRequest, .migrateRequest,
    .observeReport, .revalidateRequest]

/-- The payload starts with these credentials. -/
def Carries (payload : ByteString) (w : WorkerId) (boot : WorkerBootId) : Prop :=
  ∃ rest, payload = WireWriter.u64 w.value ++ WireWriter.u64 boot.value ++ rest

section Refusal
variable {s : Coordinator β} {w : WorkerId} {boot : WorkerBootId}

theorem refuses_errorReply {msg : ByteString} (short : msg.length ≤ 128)
    (av : AuthorityVerification) : Refuses s (errorReply msg av) :=
  .inl ⟨_, errorReply_run short av s⟩

theorem validateAuthority_of_stale (stale : authority s.runtime.registry w ≠ some (boot, true)) :
    validateAuthority s w boot ≠ .accepted := by
  unfold validateAuthority Runtime.worker WorkerRegistry.find
  cases hw : s.runtime.registry.workers[w]? with
  | none => simp
  | some x =>
    rw [authority, hw, Option.map_some] at stale
    by_cases alive : x.alive <;> by_cases same : x.bootId = boot <;> simp_all

theorem refuses_authorized {refusal : ByteString} (short : refusal.length ≤ 128)
    (stale : authority s.runtime.registry w ≠ some (boot, true))
    (body : Exec (Coordinator β) ByteString) : Refuses s (authorized w boot refusal body) := by
  have refused : (authorized w boot refusal body).run s =
      (errorReply refusal (validateAuthority s w boot)).run s := by
    rw [authorized, run_bind_of_ok (EStateM.run_get s)]
    simp only [validateAuthority_of_stale stale, ne_eq, not_false_eq_true, if_true]
  rw [Refuses, refused]
  exact refuses_errorReply short _

theorem reads_credentials (w : WorkerId) (boot : WorkerBootId) :
    Reads credentials (WireWriter.u64 w.value ++ WireWriter.u64 boot.value) (w, boot) :=
  (WireReader.reads_u64 w.value).bind (WireReader.reads_u64 boot.value).pure_bind

/-- Whatever follows the credentials, a request that parses is judged by them. -/
theorem refuses_request {α : Type} {payload : ByteString} (carries : Carries payload w boot)
    {fields : WorkerId × WorkerBootId → Reader Exn α}
    {f : (WorkerId × WorkerBootId) × α → Exec (Coordinator β) ByteString}
    (h : ∀ a, Refuses s (f ((w, boot), a))) :
    Refuses s (parse (credentials >>= fun c => fields c >>= fun a => pure (c, a)) payload >>= f) := by
  obtain ⟨rest, rfl⟩ := carries
  have read := reads_credentials w boot rest
  cases hf : (fields (w, boot)).run rest with
  | ok a unread =>
    have parsed : (parse (credentials >>= fun c => fields c >>= fun a => pure (c, a))
        (WireWriter.u64 w.value ++ WireWriter.u64 boot.value ++ rest)).run s =
          .ok ((w, boot), a) s := by
      rw [parse, run_bind_of_ok read, run_bind_of_ok hf]
      rfl
    rw [Refuses, run_bind_of_ok parsed]
    exact h a
  | error e unread =>
    right
    refine ⟨e, run_bind_of_error ?_⟩
    rw [parse, run_bind_of_ok read, run_bind_of_error hf]
    rfl

theorem refuses_handlePlacement {payload : ByteString} (carries : Carries payload w boot)
    (stale : authority s.runtime.registry w ≠ some (boot, true)) :
    Refuses s (handlePlacement b float payload) := by
  refine refuses_request carries fun f => ?_
  rw [Refuses, run_bind_of_ok (EStateM.run_get s)]
  by_cases epoch : f.epoch = s.runtime.epoch.value
  · simp only [epoch, ne_eq, not_true_eq_false, if_false]
    exact refuses_authorized (by decide) stale _
  · simp only [epoch, ne_eq, not_false_eq_true, if_true]
    exact refuses_errorReply (by decide) _

theorem refuses_handleRevalidate {payload : ByteString} (carries : Carries payload w boot)
    (stale : authority s.runtime.registry w ≠ some (boot, true)) :
    Refuses s (handleRevalidate payload) := by
  obtain ⟨rest, rfl⟩ := carries
  rw [Refuses, handleRevalidate, run_bind_of_ok (parse_run (reads_credentials w boot rest) s)]
  exact refuses_authorized (by decide) stale _

theorem refuses_dispatch (conn : U64) {frame : Frame} {kind : MsgType}
    (type : MsgType.ofU16? frame.type = some kind) (fenced : kind ∈ fencedRequests)
    (carries : Carries frame.payload w boot)
    (stale : authority s.runtime.registry w ≠ some (boot, true)) :
    Refuses s (dispatch b float conn frame) := by
  unfold dispatch
  rw [type]
  fin_cases fenced
  · exact refuses_handlePlacement b float carries stale
  · exact refuses_request carries fun _ => refuses_authorized (by decide) stale _
  · exact refuses_request carries fun _ => refuses_authorized (by decide) stale _
  · exact refuses_request carries fun _ => refuses_authorized (by decide) stale _
  · exact refuses_request carries fun _ => refuses_authorized (by decide) stale _
  · exact refuses_request carries fun _ => refuses_authorized (by decide) stale _
  · exact refuses_handleRevalidate carries stale

/-- What the switch refuses is answered with an error frame. -/
theorem handleFrame_of_refuses {conn : U64} {frame : Frame}
    (refuses : Refuses s (dispatch b float conn frame)) :
    ∃ payload, (handleFrame b float conn frame).run s =
      .ok (frameBytes MsgType.error.toU16 payload) s := by
  rw [handleFrame, run_tryCatch]
  rcases refuses with ⟨payload, answered⟩ | ⟨e, raised⟩
  · rw [answered]
    exact ⟨payload, rfl⟩
  · rw [raised]
    exact ⟨_, errorReply_run e.what_length_le _ s⟩

end Refusal

/-- After any run that does not exhaust the boot counter, a fenced request under a stale
boot is answered with an error frame and changes nothing. -/
theorem stale_boot_refused {s : Coordinator β} {events : List Event} (room : Room s events)
    {w : WorkerId} {boot : WorkerBootId} (stale : Stale b float s events w boot) (conn : U64)
    {frame : Frame} {kind : MsgType} (type : MsgType.ofU16? frame.type = some kind)
    (fenced : kind ∈ fencedRequests) (carries : Carries frame.payload w boot) :
    ∃ payload, (handleFrame b float conn frame).run (run b float s events) =
      .ok (frameBytes MsgType.error.toU16 payload) (run b float s events) :=
  handleFrame_of_refuses b float
    (refuses_dispatch b float conn type fenced carries (stale.fenced b float room).stale)

/-- A worker that registers twice has its first boot refused. -/
theorem stale_boot_refused_second_register :
    let s : Coordinator Unit := { runtime := { migrator := MigrationManager.initial () fun _ => 0 } }
    let register : Event := .frame 1
      { type := MsgType.register.toU16, payload := WireWriter.u64 1 ++ WireWriter.u64 7 }
    let t := run (MemoryAccounting.budgeted 64) ⟨fun _ _ => 0, fun _ => 0⟩ s [register, register]
    ∃ payload, (handleFrame (MemoryAccounting.budgeted 64) ⟨fun _ _ => 0, fun _ => 0⟩ 1
      { type := MsgType.releaseRequest.toU16
        payload := WireWriter.u64 1 ++ WireWriter.u64 1 ++ WireWriter.u64 1 }).run t =
        .ok (frameBytes MsgType.error.toU16 payload) t := by
  intro s register t
  have registered : registers register = some ⟨1⟩ := by decide
  have issued : authority (step (MemoryAccounting.budgeted 64) ⟨fun _ _ => 0, fun _ => 0⟩ s
      register).runtime.registry ⟨1⟩ = some (⟨1⟩, true) :=
    (step_issues _ _ registered s).current
  have room : Room s [register, register] := by
    simp only [Room, registrations_cons, registered]
    decide
  have type : MsgType.ofU16? MsgType.releaseRequest.toU16 = some .releaseRequest := by decide
  exact stale_boot_refused _ _ room
    ⟨[], register, [], register, [], rfl, registered, issued, .inl registered⟩ 1 type (by decide)
    ⟨_, rfl⟩

end NumaFabric.CoordinatorFencing
