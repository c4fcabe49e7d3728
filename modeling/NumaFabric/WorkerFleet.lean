import NumaFabric.CoordinatorReplies
import NumaFabric.PlacementPromise
import NumaFabric.WorkerProgram

/-! Any number of worker processes and one coordinator. Their calls interleave in any order,
other clients come in between, connections fail at any time, and any piece of work may not get
its memory. -/
namespace NumaFabric.WorkerFleet
open Std FaultState LedgerCounter ByteCodec Coordinator CoordinatorAuthority CoordinatorFencing
  CoordinatorReplies ReservationIdentity ReservationLedger ReservationTotals ReservationIsolation
  PlacementPromise WorkerProgram
open ReservationStore hiding step run
open SessionAgreement (Request frameBytes_inj)

variable {β : Type}

/-- The processes, whether the connection of each has failed, and whether its work has thrown. -/
structure Fleet (β : Type) where
  coordinator : Coordinator β
  phases : U64 → Phase := fun _ => .registering
  cut : U64 → Bool := fun _ => false
  threw : U64 → Bool := fun _ => false

/-- A process makes its next call and waits for the reply, or does its work, which gets its memory
or not; its connection fails, in the middle of a call after or before the coordinator has handled
it; the coordinator notices that a connection is gone; or something else happens to the
coordinator. -/
inductive Turn
  | move (conn : U64) (allocates : Bool)
  | fail (conn : U64) (handled : Bool)
  | lost (conn : U64)
  | other (ev : Event)
  deriving DecidableEq, Repr

section Step
variable (b : Backend β) (float : FloatCosts) (crew : U64 → Option CommandLine)

/-- The frame that the client receives. -/
def delivered (out : ByteString) : Option Frame :=
  match FrameStreamDecoder.decodeOne out with
  | .ok (some (f, _)) => some f
  | _ => none

/-- What the coordinator answers. -/
def answer (s : Coordinator β) (conn : U64) (f : Frame) : Option Frame :=
  match (handleFrame b float conn f).run s with
  | .ok out _ => delivered out
  | .error _ _ => none

namespace Fleet
variable (s : Fleet β) (conn : U64)

/-- The reservations of the worker may have been left behind. -/
def excused : Bool := s.cut conn || s.threw conn

def receive (c : CommandLine) (reply : Option Frame) : Fleet β :=
  { s with phases := Function.update s.phases conn ((s.phases conn).receive c reply) }

def handle (f : Frame) : Fleet β :=
  { s with coordinator := CoordinatorAuthority.step b float s.coordinator (.frame conn f) }

def sever : Fleet β := { s with cut := Function.update s.cut conn true }

/-- The call that comes next on a connection. -/
def pending : Option (CommandLine × Request) := do
  let c ← crew conn
  let q ← (s.phases conn).request c
  return (c, q)

def call : Fleet β :=
  match s.pending crew conn with
  | none => s
  | some (c, q) =>
    if s.cut conn then s.receive conn c none
    else (s.handle b float conn q.frame).receive conn c (answer b float s.coordinator conn q.frame)

def work (allocates : Bool) : Fleet β :=
  match crew conn with
  | none => s
  | some c =>
    { s with
      phases := Function.update s.phases conn ((s.phases conn).work c allocates)
      threw := Function.update s.threw conn (s.threw conn || !allocates) }

def fail (handled : Bool) : Fleet β :=
  match s.pending crew conn with
  | none => s.sever conn
  | some (c, q) =>
    let t := if handled && !s.cut conn then s.handle b float conn q.frame else s
    (t.receive conn c none).sever conn

def step (s : Fleet β) : Turn → Fleet β
  | .move conn allocates =>
    if (s.phases conn).atWork then s.work crew conn allocates else s.call b float crew conn
  | .fail conn handled => s.fail b float crew conn handled
  | .lost conn =>
    { s.sever conn with coordinator := CoordinatorAuthority.step b float s.coordinator (.lost conn) }
  | .other ev => { s with coordinator := CoordinatorAuthority.step b float s.coordinator ev }

def run (s : Fleet β) (turns : List Turn) : Fleet β := turns.foldl (step b float crew) s

end Fleet

variable {b float crew} {s : Fleet β} {conn : U64} {c : CommandLine} {q : Request}

theorem pending_eq_some : s.pending crew conn = some (c, q) ↔
    crew conn = some c ∧ (s.phases conn).request c = some q := by
  simp only [Fleet.pending, Option.bind_eq_bind, Option.bind_eq_some_iff]
  constructor
  · rintro ⟨d, member, r, asked, same⟩
    cases same
    exact ⟨member, asked⟩
  · rintro ⟨member, asked⟩
    exact ⟨c, member, q, asked, rfl⟩

theorem pending_of_atWork (works : (s.phases conn).atWork = true) : s.pending crew conn = none := by
  cases next : s.pending crew conn with
  | none => rfl
  | some x =>
    obtain ⟨c, q⟩ := x
    obtain ⟨-, asked⟩ := pending_eq_some.mp next
    obtain ⟨reg, left, id, phase⟩ := Phase.atWork_iff.mp works
    rw [phase] at asked
    cases asked

end Step

section Replies
variable (b : Backend β) (float : FloatCosts) {s t : Coordinator β} {conn : U64} {f : Frame}

theorem delivered_frameBytes (kind : MsgType) {payload : ByteString}
    (small : payload.length ≤ kMaxPayloadLength) :
    delivered (frameBytes kind.toU16 payload) = some { type := kind.toU16, payload } := by
  have whole := FrameStreamDecoder.decodeOne_frameBytes kind [] small
  rw [List.append_nil] at whole
  rw [delivered, whole]

theorem answer_of_handled {kind : MsgType} {payload : ByteString}
    (small : payload.length ≤ kMaxPayloadLength)
    (handled : (handleFrame b float conn f).run s = .ok (frameBytes kind.toU16 payload) t) :
    answer b float s conn f = some { type := kind.toU16, payload } := by
  rw [answer, handled]
  exact delivered_frameBytes kind small

theorem accepted_error (payload : ByteString) :
    WorkerSession.accepted (some { type := MsgType.error.toU16, payload }) = none := by
  rw [WorkerSession.accepted, Option.filter_some, if_neg (by simp)]

end Replies

section Calls
variable (b : Backend β) (float : FloatCosts) {s : Coordinator β} {conn : U64} {w : WorkerId}
  {boot : WorkerBootId}

/-- The records of the reservations. -/
abbrev table (s : Coordinator β) : ExtTreeMap ReservationId Reservation :=
  s.runtime.reservations.reservations

theorem length_reserve {node bytes : U64} {cpu : U32} :
    (Request.reserve w boot node bytes cpu 0 false).payload.length ≤ kMaxPayloadLength := by
  simp [Request.payload, WireWriter.u64, WireWriter.u32, WireWriter.flag, WireWriter.u8,
    kMaxPayloadLength]

theorem length_release {id : U64} :
    (Request.release w boot id).payload.length ≤ kMaxPayloadLength := by
  simp [Request.payload, WireWriter.u64, kMaxPayloadLength]

theorem asks_release (id : U64) :
    asks (Request.release w boot id).frame = some (.release ⟨id⟩ none) := by
  have read : releaseReader.run (Request.release w boot id).payload = .ok ((w, boot), id) [] :=
    SessionAgreement.request_decoded _ length_release
  have type : MsgType.ofU16? (Request.release w boot id).frame.type = some .releaseRequest :=
    MsgType.ofU16?_toU16 _
  rw [asks, type]
  dsimp only
  rw [Request.frame, read]

/-- An error reply is no acceptance. -/
theorem answer_error {f : Frame} {payload : ByteString} {t : Coordinator β}
    (handled : (handleFrame b float conn f).run s = .ok (frameBytes MsgType.error.toU16 payload) t) :
    WorkerSession.accepted (answer b float s conn f) = none := by
  obtain ⟨kind, payload', u, -, small, handled'⟩ := handleFrame_answers b float conn f s
  obtain ⟨same, -⟩ := EStateM.Result.ok.inj (handled.symm.trans handled')
  obtain ⟨rfl, rfl⟩ := frameBytes_inj same
  rw [answer_of_handled b float small handled, accepted_error]

/-- A refused request is answered with an error and changes nothing. -/
theorem refused_effect (conn : U64) {f : Frame} {kind : MsgType} (type : MsgType.ofU16? f.type = some kind)
    (fenced : kind ∈ fencedRequests) (carries : Carries f.payload w boot)
    (stale : authority s.runtime.registry w ≠ some (boot, true)) :
    WorkerSession.accepted (answer b float s conn f) = none ∧ step b float s (.frame conn f) = s := by
  have refused := refuses_dispatch b float conn type fenced carries stale
  obtain ⟨payload, handled⟩ := handleFrame_of_refuses b float refused
  exact ⟨answer_error b float handled, stateAfter_of_ok handled⟩

/-- What a reserve request does, and what its sender is told. -/
inductive ReserveEffect (s : Coordinator β) (conn : U64) (w : WorkerId) (boot : WorkerBootId)
    (node bytes : U64) (cpu : U32) : Prop
  | refused (told : WorkerSession.accepted (answer b float s conn
        (Request.reserve w boot node bytes cpu 0 false).frame) = none)
      (same : table (step b float s (.frame conn
        (Request.reserve w boot node bytes cpu 0 false).frame)) = table s)
  | granted (x : Reservation) (live : authority s.runtime.registry w = some (boot, true))
      (going : s.runtime.reservations.watermark.value ≠ u64Max)
      (id : x.id = ⟨s.runtime.reservations.nextId⟩) (worker : x.worker = w) (active : x.active = true)
      (told : answer b float s conn (Request.reserve w boot node bytes cpu 0 false).frame =
        some { type := MsgType.reserveReply.toU16
               payload := WireWriter.u64 x.id.value ++ WireWriter.u64 x.generation.value })
      (recorded : table (step b float s (.frame conn
        (Request.reserve w boot node bytes cpu 0 false).frame)) = (table s).insert x.id x)

theorem reserve_effect (s : Coordinator β) (conn : U64) (w : WorkerId) (boot : WorkerBootId)
    (node bytes : U64) (cpu : U32) : ReserveEffect b float s conn w boot node bytes cpu := by
  have type : MsgType.ofU16? (Request.reserve w boot node bytes cpu 0 false).frame.type =
      some .reserveRequest := MsgType.ofU16?_toU16 _
  by_cases live : authority s.runtime.registry w = some (boot, true)
  · cases returned : (ReservationStore.reserve s.runtime.nodeCapacityProvider
        (wanted w node bytes cpu)).run s.runtime.reservations with
    | ok x store =>
      have admitted := admitted_of_reserve returned
      obtain ⟨g, next, granted⟩ := reserve_of_admitted admitted
      rw [granted] at returned
      obtain ⟨rfl, rfl⟩ := EStateM.Result.ok.inj returned
      have called := SessionAgreement.onRuntime_eq_ok.mpr ⟨_, reserve_run granted, rfl⟩
      have handled := reserve_answered b float conn live called
      refine .granted _ live admitted.2.1 rfl rfl rfl (answer_of_handled b float ?_ handled) ?_
      · simp [WireWriter.u64, kMaxPayloadLength]
      · rw [step, stateAfter_of_ok handled]
        rfl
    | error e store =>
      have called : (onRuntime (Runtime.reserve (wanted w node bytes cpu))).run s =
          .error e { s with runtime := { s.runtime with reservations := store } } := by
        rw [onRuntime, run_zoom, Runtime.reserve, run_bind_of_ok (EStateM.run_get s.runtime),
          Runtime.onReservations, run_zoom, returned]
      have threw : (dispatch b float conn (Request.reserve w boot node bytes cpu 0 false).frame).run s =
          .error e { s with runtime := { s.runtime with reservations := store } } := by
        rw [dispatch, type]
        change (handleReserve (Request.reserve w boot node bytes cpu 0 false).payload).run s = _
        rw [handleReserve, run_bind_of_ok
          (parse_run (SessionAgreement.request_decoded _ length_reserve) s)]
        change (authorized w boot (ascii "stale reserve authority") _).run s = _
        rw [authorized_run live]
        exact run_bind_of_error called
      obtain ⟨payload, -, handled⟩ := handleFrame_of_throws threw
      refine .refused (answer_error b float handled) ?_
      rw [step, stateAfter_of_ok handled]
      exact (reserve_refused_ledgers returned).1
  · have carries : Carries (Request.reserve w boot node bytes cpu 0 false).payload w boot :=
      ⟨_, (List.append_assoc _ _ _).symm⟩
    obtain ⟨silent, same⟩ := refused_effect b float conn type (by decide) carries live
    exact .refused silent (by rw [same])

/-- A release request of the current boot closes an active reservation. -/
theorem release_effect (conn : U64) {id : U64} {x : Reservation} (accounted : Accounted s.runtime.reservations)
    (live : authority s.runtime.registry w = some (boot, true))
    (found : (table s)[(⟨id⟩ : ReservationId)]? = some x) (active : x.active = true) :
    table (step b float s (.frame conn (Request.release w boot id).frame)) =
      (table s).insert ⟨id⟩ { x with active := false } := by
  have type : MsgType.ofU16? (Request.release w boot id).frame.type = some .releaseRequest :=
    MsgType.ofU16?_toU16 _
  obtain ⟨store, released⟩ : ∃ t, (ReservationStore.release ⟨id⟩ none).run s.runtime.reservations =
      .ok () t := release_active_ok accounted.tracks found active (.inl rfl)
  have called : (onRuntime (Runtime.releaseReservation ⟨id⟩)).run s =
      .ok () { s with runtime := { s.runtime with reservations := store } } := by
    rw [onRuntime, run_zoom, Runtime.releaseReservation, Runtime.onReservations, run_zoom, released]
  have after : stateAfter (dispatch b float conn (Request.release w boot id).frame) s =
      { s with runtime := { s.runtime with reservations := store } } := by
    rw [dispatch, type]
    change stateAfter (handleRelease (Request.release w boot id).payload) s = _
    rw [handleRelease, stateAfter, run_bind_of_ok
      (parse_run (SessionAgreement.request_decoded _ length_release) s)]
    change stateAfter (authorized w boot (ascii "stale release authority") _) s = _
    rw [stateAfter, authorized_run live]
    exact stateAfter_of_ok ((run_bind_of_ok called).trans (reply_run _ (by decide) _))
  rw [step, stateAfter_handleFrame, after]
  have outcome := release_outcome ⟨id⟩ none s.runtime.reservations
  rw [released] at outcome
  cases outcome with
  | released y m k a present good mem slot accel =>
    obtain rfl : x = y := Option.some.inj (found.symm.trans present)
    rfl

end Calls

end NumaFabric.WorkerFleet
