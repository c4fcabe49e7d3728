import NumaFabric.ConnectionLoss
import NumaFabric.CoordinatorFrames
import NumaFabric.ReservationTotals
import NumaFabric.RuntimeFrames

/-! What the frames of one worker do to the reservations of another. The coordinator checks
that a sender is who it says it is, and never whose reservation it names; so a worker is
spared by every foreign frame except a release of one of its active reservations. -/
namespace NumaFabric.ReservationIsolation
open Std FaultState FaultRun ByteCodec LedgerTotal ReservationIdentity ReservationLedger
  ReservationTotals RuntimeFrames Coordinator CoordinatorConnection CoordinatorAuthority
  CoordinatorFencing CoordinatorFrames
open ReservationStore hiding step run

variable {β : Type}

section Store

/-- What the active reservations of a worker add up to. -/
def share (w : WorkerId) (f : Reservation → ℕ) (s : ReservationStore) : ℕ :=
  activeTotal (fun r => if r.worker = w then f r else 0) s

/-- A worker has the same records, which take the same of every counter. -/
structure Untouched (w : WorkerId) (s t : ReservationStore) : Prop where
  records : ∀ (id : ReservationId) (r : Reservation), r.worker = w →
    (t.reservations[id]? = some r ↔ s.reservations[id]? = some r)
  bytes : ∀ n, share w (bytesOn n) t = share w (bytesOn n) s
  slots : ∀ n, share w (slotsOn n) t = share w (slotsOn n) s
  accel : ∀ a, share w (bytesAt a) t = share w (bytesAt a) s

/-- The call writes no record over one of the worker and closes none of its active ones. -/
def Spares (w : WorkerId) (s : ReservationStore) : Call → Prop
  | .reserve _ => ∀ r, s.reservations[(⟨s.nextId⟩ : ReservationId)]? = some r → r.worker ≠ w
  | .release id _ => ∀ r, s.reservations[id]? = some r → r.active = true → r.worker ≠ w
  | .restore _ => False

variable {w : WorkerId} {s t u : ReservationStore}

theorem Untouched.of_eq (h : t.reservations = s.reservations) : Untouched w s t where
  records id r _ := by rw [h]
  bytes _ := activeTotal_congr _ h
  slots _ := activeTotal_congr _ h
  accel _ := activeTotal_congr _ h

theorem Untouched.trans (h : Untouched w s t) (g : Untouched w t u) : Untouched w s u where
  records id r hr := (g.records id r hr).trans (h.records id r hr)
  bytes n := (g.bytes n).trans (h.bytes n)
  slots n := (g.slots n).trans (h.slots n)
  accel a := (g.accel a).trans (h.accel a)

/-- A foreign record over nothing, or over another foreign one. -/
theorem Untouched.insert {id : ReservationId} {q : Reservation} (new : q.worker ≠ w)
    (old : ∀ r, s.reservations[id]? = some r → r.worker ≠ w)
    (h : t.reservations = s.reservations.insert id q) : Untouched w s t := by
  have sums : ∀ f, share w f t = share w f s := by
    intro f
    unfold share activeTotal
    rw [h]
    apply total_insert_of_zero
    · simp [new]
    · intro r found
      simp [old r found]
  refine ⟨fun j r hr => ?_, fun n => sums _, fun n => sums _, fun a => sums _⟩
  rw [h, ExtTreeMap.getElem?_insert]
  split_ifs with here
  · rw [← Std.compare_eq_iff_eq.mp here]
    constructor
    · intro same
      cases same
      exact absurd hr new
    · intro found
      exact absurd hr (old r found)
  · rfl

/-- A call on behalf of one worker that spares another leaves it untouched. -/
theorem untouched_step (cap : CapacityFn) {c : Call} (own : ∀ req, c = .reserve req → req.worker ≠ w)
    (spares : Spares w s c) : Untouched w s (ReservationStore.step cap s c) := by
  cases c with
  | reserve req =>
    rw [ReservationStore.step]
    have outcome := reserve_outcome cap req s
    generalize returned : (reserve cap req).run s = res at outcome
    cases outcome with
    | malformed e bad => rw [stateAfter_of_error returned]; exact .of_eq rfl
    | exhausted wf last => rw [stateAfter_of_error returned]; exact .of_eq rfl
    | overMemory g wf next ex =>
      rw [stateAfter_of_error returned, touchMemory_eq]
      exact .of_eq rfl
    | overAccelerator g wf next fits ex =>
      rw [stateAfter_of_error returned, touchMemory_eq]
      exact .of_eq rfl
    | granted g wf next fits below r record_eq =>
      rw [stateAfter_of_ok returned, record_eq]
      exact .insert (own req rfl) spares rfl
  | release id expected =>
    rw [ReservationStore.step]
    have outcome := release_outcome id expected s
    generalize returned : (release id expected).run s = res at outcome
    cases outcome with
    | unknown absent => rw [stateAfter_of_error returned]; exact .of_eq rfl
    | refused r e found bad => rw [stateAfter_of_error returned]; exact .of_eq rfl
    | memory r found good under => rw [stateAfter_of_error returned]; exact .of_eq rfl
    | slots r m found good mem under => rw [stateAfter_of_error returned]; exact .of_eq rfl
    | accelerator r m k found good mem slot under =>
      rw [stateAfter_of_error returned]; exact .of_eq rfl
    | released r m k a found good mem slot accel =>
      rw [stateAfter_of_ok returned]
      have foreign : r.worker ≠ w := spares r found (active_of_releaseRefusal good)
      refine Untouched.insert (q := { r with active := false }) foreign (fun q same => ?_) rfl
      rw [found, Option.some.injEq] at same
      exact same ▸ foreign
  | restore r => exact spares.elim

end Store

section Frames

def reserveReader : Reader Exn ((WorkerId × WorkerBootId) × ReserveRequest) := do
  let c ← credentials
  return (c, ← reserveFields c.1)

def releaseReader : Reader Exn ((WorkerId × WorkerBootId) × U64) := do
  return (← credentials, ← WireReader.u64)

/-- The call on the reservations that a frame asks for. -/
def asks (f : Frame) : Option Call :=
  match MsgType.ofU16? f.type with
  | some .reserveRequest =>
    match reserveReader.run f.payload with
    | .ok (_, req) _ => some (.reserve req)
    | .error _ _ => none
  | some .releaseRequest =>
    match releaseReader.run f.payload with
    | .ok (_, id) _ => some (.release ⟨id⟩ none)
    | .error _ _ => none
  | _ => none

/-- A fenced request that carries the worker and the boot. -/
def SentBy (w : WorkerId) (boot : WorkerBootId) : Event → Prop
  | .frame _ f => ∃ kind, MsgType.ofU16? f.type = some kind ∧ kind ∈ fencedRequests ∧
      Carries f.payload w boot
  | _ => False

theorem quiet_reply (type : MsgType) (payload : ByteString) :
    Quiet (reply (β := β) type payload) :=
  quiet_ofExcept _

theorem stateAfter_handleFrame (b : Backend β) (float : FloatCosts) (conn : U64) (f : Frame)
    (s : Coordinator β) :
    stateAfter (handleFrame b float conn f) s = stateAfter (dispatch b float conn f) s :=
  stateAfter_tryCatch_quiet (fun _ => quiet_reply _ _) s

/-- An authorized request runs its body; any other leaves the state alone. -/
theorem stateAfter_authorized (w : WorkerId) (boot : WorkerBootId) (refusal : ByteString)
    (body : Exec (Coordinator β) ByteString) (s : Coordinator β) :
    stateAfter (authorized w boot refusal body) s = s ∨
      stateAfter (authorized w boot refusal body) s = stateAfter body s := by
  by_cases accepted : validateAuthority s w boot = .accepted
  · right
    rw [stateAfter, authorized, run_bind_of_ok (EStateM.run_get s)]
    simp only [accepted, ne_eq, not_true_eq_false, if_false, stateAfter]
  · left
    rw [stateAfter, authorized, run_bind_of_ok (EStateM.run_get s)]
    simp only [accepted, ne_eq, not_false_eq_true, if_true]
    exact quiet_reply _ _ s

theorem stateAfter_parse {α : Type} (r : Reader Exn α) (payload : ByteString)
    (body : α → Exec (Coordinator β) ByteString) (s : Coordinator β) :
    stateAfter (parse r payload >>= body) s =
      match r.run payload with
      | .ok a _ => stateAfter (body a) s
      | .error _ _ => s := by
  cases read : r.run payload with
  | ok a rest =>
    rw [stateAfter, run_bind_of_ok (parse_run read s)]
    rfl
  | error e rest =>
    refine stateAfter_of_error (run_bind_of_error (e := e) ?_)
    rw [parse, read]
    rfl

/-- The same reservations. -/
def SameStore (s t : Coordinator β) : Prop := t.runtime.reservations = s.runtime.reservations

instance : Std.Refl (SameStore (β := β)) := ⟨fun _ => rfl⟩

instance : IsTrans (Coordinator β) SameStore := ⟨fun _ _ _ h g => g.trans h⟩

theorem sameStore_onRuntime {α : Type} {x : Exec (Runtime β) α} (h : Preserves SameReservations x) :
    Preserves SameStore (onRuntime x) :=
  h.zoom fun _ _ h => h

theorem registers_sameStore : KeepsRegister (SameStore (β := β)) where
  register _ _ := sameStore_onRuntime (ignoresRegistry_sameReservations.onRegistry _)
  restart _ _ := sameStore_onRuntime (ignoresRegistry_sameReservations.onRegistry _)
  conns _ _ := rfl

/-- Only the two requests about reservations change any. -/
theorem sameStore_dispatch (b : Backend β) (float : FloatCosts) (conn : U64) {f : Frame}
    (reserves : MsgType.ofU16? f.type ≠ some .reserveRequest)
    (releases : MsgType.ofU16? f.type ≠ some .releaseRequest) :
    Preserves SameStore (dispatch b float conn f) := by
  by_cases registers : MsgType.ofU16? f.type = some .register
  · rw [dispatch_register b float conn registers]
    exact registers_sameStore.handleRegister conn f.payload
  · have keeps : KeepsFor b float SameStore f.type :=
      { plan := fun req => sameStore_onRuntime (preserves_plan b float req)
        reserve := fun h => absurd h reserves
        release := fun h => absurd h releases
        bindWorker := fun id boot node apply => sameStore_onRuntime
          (ignoresMemory_sameReservations.bindWorker b id boot node apply
            (ignoresRegistry_sameReservations.recordBinding id node))
        migrate := fun region target worker auth reason => sameStore_onRuntime
          (ignoresMemory_sameReservations.migrate b region target worker auth reason)
        observe := fun id boot => sameStore_onRuntime
          (ignoresRegistry_sameReservations.observe (fun _ _ => rfl) id boot)
        shutdown := fun _ => rfl }
    exact keeps.dispatch conn registers

/-- A parsed request under the current boot of its sender is one call on the runtime; any
other request leaves the state alone. -/
theorem request_cases {α γ : Type} (r : Reader Exn ((WorkerId × WorkerBootId) × α))
    (payload refusal : ByteString) (call : α → Exec (Runtime β) γ) (type : MsgType)
    (answer : γ → ByteString) (s : Coordinator β) :
    let request : Exec (Coordinator β) ByteString := parse r payload >>= fun x =>
      authorized x.1.1 x.1.2 refusal (onRuntime (call x.2) >>= fun a => reply type (answer a))
    stateAfter request s = s ∨ ∃ x rest, r.run payload = .ok x rest ∧
      stateAfter request s = { s with runtime := stateAfter (call x.2) s.runtime } := by
  dsimp only
  rw [stateAfter_parse]
  cases read : r.run payload with
  | error e rest => exact .inl rfl
  | ok x rest =>
    dsimp only
    have called : stateAfter (onRuntime (call x.2) >>= fun a => reply type (answer a)) s =
        { s with runtime := stateAfter (call x.2) s.runtime } := by
      rw [stateAfter_bind_quiet fun _ => quiet_reply _ _, onRuntime, stateAfter_zoom]
    rcases stateAfter_authorized x.1.1 x.1.2 refusal
      (onRuntime (call x.2) >>= fun a => reply type (answer a)) s with refused | ran
    · exact .inl refused
    · exact .inr ⟨x, rest, rfl, ran.trans called⟩

theorem reserve_reservations (req : ReserveRequest) (s : Runtime β) :
    (stateAfter (Runtime.reserve req) s).reservations =
      ReservationStore.step s.nodeCapacityProvider s.reservations (.reserve req) := by
  rw [stateAfter, Runtime.reserve, run_bind_of_ok (EStateM.run_get s)]
  change (stateAfter (Runtime.onReservations _) s).reservations = _
  rw [Runtime.onReservations, stateAfter_zoom, ReservationStore.step]

theorem release_reservations (id : ReservationId) (s : Runtime β) :
    (stateAfter (Runtime.releaseReservation id) s).reservations =
      ReservationStore.step s.nodeCapacityProvider s.reservations (.release id none) := by
  rw [Runtime.releaseReservation, Runtime.onReservations, stateAfter_zoom, ReservationStore.step]

/-- What a frame does to the reservations: nothing, or the one call it asks for. -/
theorem step_reservations (b : Backend β) (float : FloatCosts) (conn : U64) (f : Frame)
    (s : Coordinator β) :
    (step b float s (.frame conn f)).runtime.reservations = s.runtime.reservations ∨
      ∃ c, asks f = some c ∧ (step b float s (.frame conn f)).runtime.reservations =
        ReservationStore.step s.runtime.nodeCapacityProvider s.runtime.reservations c := by
  rw [step, stateAfter_handleFrame]
  by_cases reserves : MsgType.ofU16? f.type = some .reserveRequest
  · have body : dispatch b float conn f = handleReserve f.payload := by
      unfold dispatch
      rw [reserves]
    rw [body]
    rcases request_cases reserveReader f.payload (ascii "stale reserve authority") Runtime.reserve
      .reserveReply (fun r => WireWriter.u64 r.id.value ++ WireWriter.u64 r.generation.value) s with
      refused | ⟨⟨c, req⟩, rest, read, ran⟩
    · exact .inl (congrArg (·.runtime.reservations) refused)
    · refine .inr ⟨.reserve req, ?_, ?_⟩
      · rw [asks, reserves]
        dsimp only
        rw [read]
      · rw [← reserve_reservations]
        exact congrArg (·.runtime.reservations) ran
  · by_cases releases : MsgType.ofU16? f.type = some .releaseRequest
    · have body : dispatch b float conn f = handleRelease f.payload := by
        unfold dispatch
        rw [releases]
      rw [body]
      rcases request_cases releaseReader f.payload (ascii "stale release authority")
        (fun id => Runtime.releaseReservation ⟨id⟩) .releaseReply (fun _ => WireWriter.u8 1) s with
        refused | ⟨⟨c, id⟩, rest, read, ran⟩
      · exact .inl (congrArg (·.runtime.reservations) refused)
      · refine .inr ⟨.release ⟨id⟩ none, ?_, ?_⟩
        · rw [asks, releases]
          dsimp only
          rw [read]
        · rw [← release_reservations]
          exact congrArg (·.runtime.reservations) ran
    · exact .inl (sameStore_dispatch b float conn reserves releases s)

theorem worker_of_reserveFields {w : WorkerId} {req : ReserveRequest} {payload rest : ByteString}
    (read : (reserveFields w).run payload = .ok req rest) : req.worker = w := by
  obtain ⟨node, _, -, read⟩ := run_bind_eq_ok.mp read
  obtain ⟨bytes, _, -, read⟩ := run_bind_eq_ok.mp read
  obtain ⟨slots, _, -, read⟩ := run_bind_eq_ok.mp read
  obtain ⟨accelerator, _, -, read⟩ := run_bind_eq_ok.mp read
  obtain ⟨capacity, _, -, read⟩ := run_bind_eq_ok.mp read
  obtain ⟨rfl, -⟩ := run_pure_eq_ok.mp read
  rfl

/-- A request is made in the name of its sender. -/
theorem worker_of_asks {w : WorkerId} {boot : WorkerBootId} {conn : U64} {f : Frame}
    (sent : SentBy w boot (.frame conn f)) {req : ReserveRequest}
    (h : asks f = some (.reserve req)) : req.worker = w := by
  obtain ⟨kind, type, fenced, unread, carries⟩ := sent
  unfold asks at h
  split at h
  · cases read : reserveReader.run f.payload with
    | error e rest => simp [read] at h
    | ok x rest =>
      obtain ⟨c, asked⟩ := x
      simp only [read, Option.some.injEq, Call.reserve.injEq] at h
      subst h
      rw [carries, reserveReader, run_bind_of_ok (reads_credentials w boot unread)] at read
      obtain ⟨req, _, fields, read⟩ := run_bind_eq_ok.mp read
      obtain ⟨same, -⟩ := run_pure_eq_ok.mp read
      cases same
      exact worker_of_reserveFields fields
  · split at h <;> cases h
  · cases h

end Frames

section Isolation

/-- A request of the frame that spares the worker. A release names none of its active
reservations; the number of a new reservation is not the number of one it has. -/
def SparesWorker (w : WorkerId) (s : Coordinator β) : Event → Prop
  | .frame _ f => ∀ c, asks f = some c → Spares w s.runtime.reservations c
  | _ => True

/-- A request of the frame wraps no counter. -/
def WrapsNothing (s : Coordinator β) : Event → Prop
  | .frame _ f => ∀ c, asks f = some c →
      Exact s.runtime.nodeCapacityProvider AllNodes s.runtime.reservations c
  | _ => True

/-- Each counter is the exact sum over the active reservations, and the numbers they have
are spent. -/
structure Accounted (s : ReservationStore) : Prop where
  dominated : Dominated s
  tracks : Tracks AllNodes s

variable (b : Backend β) (float : FloatCosts) {s : Coordinator β} {sender other : WorkerId}
  {boot : WorkerBootId} {ev : Event}

theorem untouched_frame (distinct : sender ≠ other) (sent : SentBy sender boot ev)
    (spares : SparesWorker other s ev) :
    Untouched other s.runtime.reservations (step b float s ev).runtime.reservations := by
  cases ev with
  | frame conn f =>
    rcases step_reservations b float conn f s with same | ⟨c, asked, called⟩
    · exact .of_eq (congrArg ReservationStore.reservations same)
    · rw [called]
      refine untouched_step _ (fun req hc => ?_) (spares c asked)
      rw [worker_of_asks sent (hc ▸ asked)]
      exact distinct
  | _ => exact sent.elim

theorem accounted_frame (sent : SentBy sender boot ev) (wraps : WrapsNothing s ev)
    (h : Accounted s.runtime.reservations) :
    Accounted (step b float s ev).runtime.reservations := by
  cases ev with
  | frame conn f =>
    rcases step_reservations b float conn f s with same | ⟨c, asked, called⟩
    · rw [same]
      exact h
    · rw [called]
      obtain ⟨dominated, tracks⟩ := step_tracks h.dominated h.tracks (wraps c asked)
      exact ⟨dominated, tracks⟩
  | _ => exact sent.elim

/-- Frames of one worker that release no active reservation of another leave the records of
the other and their part of the accounting as they are. As long as no request wraps a
counter, the counters go on holding that part. -/
theorem foreign_frames_spare (distinct : sender ≠ other) {frames : List Event}
    (sent : ∀ ev ∈ frames, ∃ boot, SentBy sender boot ev)
    (spared : Meets (step b float) (SparesWorker other) s frames) :
    Untouched other s.runtime.reservations (run b float s frames).runtime.reservations ∧
      (Accounted s.runtime.reservations → Meets (step b float) WrapsNothing s frames →
        Accounted (run b float s frames).runtime.reservations) := by
  induction frames generalizing s with
  | nil => exact ⟨.of_eq rfl, fun h _ => h⟩
  | cons ev frames ih =>
    obtain ⟨boot, first⟩ := sent ev (by simp)
    obtain ⟨here, later⟩ := spared
    obtain ⟨untouched, accounted⟩ := ih (fun ev' h => sent ev' (by simp [h])) later
    refine ⟨(untouched_frame b float distinct first here).trans untouched, fun h wraps => ?_⟩
    exact accounted (accounted_frame b float first wraps.1 h) wraps.2

end Isolation

/-- A request for 64 bytes on the first node. -/
def reservation (w boot : U64) : Frame :=
  { type := MsgType.reserveRequest.toU16
    payload := WireWriter.u64 w ++ WireWriter.u64 boot ++
      (WireWriter.u64 1 ++ WireWriter.u64 64 ++ WireWriter.u32 1 ++ WireWriter.u64 0 ++
        WireWriter.u8 0) }

def releaseOf (w boot id : U64) : Frame :=
  { type := MsgType.releaseRequest.toU16
    payload := WireWriter.u64 w ++ WireWriter.u64 boot ++ WireWriter.u64 id }

theorem sentBy_reservation (conn w boot : U64) :
    SentBy ⟨w⟩ ⟨boot⟩ (.frame conn (reservation w boot)) := by
  have type : MsgType.ofU16? MsgType.reserveRequest.toU16 = some .reserveRequest := by decide
  exact ⟨.reserveRequest, type, by decide, _, rfl⟩

theorem sentBy_releaseOf (conn w boot id : U64) :
    SentBy ⟨w⟩ ⟨boot⟩ (.frame conn (releaseOf w boot id)) := by
  have type : MsgType.ofU16? MsgType.releaseRequest.toU16 = some .releaseRequest := by decide
  exact ⟨.releaseRequest, type, by decide, _, rfl⟩

/-- Two workers register. -/
def twoWorkers : Coordinator Unit :=
  run (MemoryAccounting.budgeted 64) ⟨fun _ _ => 0, fun _ => 0⟩ { runtime := .create () fun _ => 0 }
    [.frame 1 (ConnectionLoss.registration 1), .frame 2 (ConnectionLoss.registration 2)]

/-- The second worker has a reservation when the first reserves for itself, and releases what
it got. -/
theorem foreign_frames_spare_own_release :
    let s := step (MemoryAccounting.budgeted 64) ⟨fun _ _ => 0, fun _ => 0⟩ twoWorkers
      (.frame 2 (reservation 2 2))
    let t := run (MemoryAccounting.budgeted 64) ⟨fun _ _ => 0, fun _ => 0⟩ s
      [.frame 1 (reservation 1 1), .frame 1 (releaseOf 1 1 2)]
    Untouched ⟨2⟩ s.runtime.reservations t.runtime.reservations ∧
      Accounted t.runtime.reservations := by
  intro s t
  have asked (w : U64) (h : w = 1 ∨ w = 2) : asks (reservation w w) = some (.reserve
      { node := ⟨1⟩, bytes := ⟨64⟩, cpuSlots := 1, accelerator := ⟨0⟩, worker := ⟨w⟩ }) := by
    rcases h with rfl | rfl <;> decide
  have released : asks (releaseOf 1 1 2) = some (.release ⟨2⟩ none) := by decide
  have fresh : Accounted twoWorkers.runtime.reservations := ⟨initial_dominated, initial_tracks _⟩
  have before : Accounted s.runtime.reservations := by
    refine accounted_frame _ _ (sentBy_reservation 2 2 2) (fun c h => ?_) fresh
    rw [asked 2 (.inr rfl)] at h
    cases h
    decide
  have sent : ∀ ev ∈ [Event.frame 1 (reservation 1 1), .frame 1 (releaseOf 1 1 2)],
      ∃ boot, SentBy ⟨1⟩ boot ev := by
    intro ev mem
    simp only [List.mem_cons, List.not_mem_nil, or_false] at mem
    rcases mem with rfl | rfl
    · exact ⟨_, sentBy_reservation 1 1 1⟩
    · exact ⟨_, sentBy_releaseOf 1 1 1 2⟩
  have spared : Meets (step (MemoryAccounting.budgeted 64) ⟨fun _ _ => 0, fun _ => 0⟩)
      (SparesWorker ⟨2⟩) s [.frame 1 (reservation 1 1), .frame 1 (releaseOf 1 1 2)] := by
    refine ⟨fun c h => ?_, fun c h => ?_, trivial⟩
    · rw [asked 1 (.inl rfl)] at h
      cases h
      intro r found
      have absent : s.runtime.reservations.reservations[(⟨2⟩ : ReservationId)]? = none := by decide
      exact absurd (absent.symm.trans found) (by simp)
    · rw [released] at h
      cases h
      intro r found
      have own : (step (MemoryAccounting.budgeted 64) ⟨fun _ _ => 0, fun _ => 0⟩ s
          (.frame 1 (reservation 1 1))).runtime.reservations.reservations[(⟨2⟩ : ReservationId)]?.map
            (·.worker) = some ⟨1⟩ := by decide
      rw [found, Option.map_some, Option.some.injEq] at own
      simp [own]
  have wraps : Meets (step (MemoryAccounting.budgeted 64) ⟨fun _ _ => 0, fun _ => 0⟩)
      WrapsNothing s [.frame 1 (reservation 1 1), .frame 1 (releaseOf 1 1 2)] := by
    refine ⟨fun c h => ?_, fun c h => ?_, trivial⟩
    · rw [asked 1 (.inl rfl)] at h
      cases h
      decide
    · rw [released] at h
      cases h
      trivial
  obtain ⟨untouched, accounted⟩ := foreign_frames_spare _ _ (by decide) sent spared
  exact ⟨untouched, accounted before wraps⟩

/-- The first worker releases the reservation of the second. -/
theorem foreign_release_closes :
    ¬ ∀ (events frames : List Event) (sender other : WorkerId) (boot : WorkerBootId),
      let s := run (MemoryAccounting.budgeted 64) ⟨fun _ _ => 0, fun _ => 0⟩ twoWorkers events
      sender ≠ other → authority s.runtime.registry sender = some (boot, true) →
      (∀ ev ∈ frames, SentBy sender boot ev) →
      Untouched other s.runtime.reservations
        (run (MemoryAccounting.budgeted 64) ⟨fun _ _ => 0, fun _ => 0⟩ s frames).runtime.reservations := by
  intro isolated
  have untouched := isolated [.frame 2 (reservation 2 2)] [.frame 1 (releaseOf 1 1 1)] ⟨1⟩ ⟨2⟩ ⟨1⟩
    (by decide) (by decide) (by simpa using sentBy_releaseOf 1 1 1 1)
  have same := untouched.bytes ⟨1⟩
  revert same
  decide

end NumaFabric.ReservationIsolation
