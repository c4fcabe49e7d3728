import NumaFabric.CoordinatorProtocol
import NumaFabric.FrameStream
import NumaFabric.MemoryAccounting

/-! The thread of one connection. Handling a frame never raises, but extracting one does,
and nothing in the thread catches it. -/
namespace NumaFabric.CoordinatorConnection
open FaultState FrameStreamDecoder FrameStream Coordinator

variable {β : Type} (b : Backend β) (float : FloatCosts) (conn : U64)

theorem length_errorPayload (msg : ByteString) (av : AuthorityVerification) :
    (errorPayload msg av).length = 5 + msg.length := by
  simp only [errorPayload, WireWriter.str, WireWriter.count, WireWriter.u8, WireWriter.u32,
    List.length_append, ByteCodec.length_toBytes]
  omega

/-- A short message is always sent as an error frame, and nothing changes. -/
theorem errorReply_run {msg : ByteString} (short : msg.length ≤ 128) (av : AuthorityVerification)
    (s : Coordinator β) :
    (errorReply msg av).run s = .ok (frameBytes MsgType.error.toU16 (errorPayload msg av)) s := by
  have small : (errorPayload msg av).length ≤ kMaxPayloadLength := by
    rw [length_errorPayload, kMaxPayloadLength]
    omega
  rw [errorReply, reply, encodeFrame_of_le small]
  rfl

/-- Every frame is answered: an exception of the switch is caught, and its text is too
short for the reply to fail. -/
theorem handleFrame_ok (frame : Frame) (s : Coordinator β) :
    ∃ out t, (handleFrame b float conn frame).run s = .ok out t := by
  rw [handleFrame, run_tryCatch]
  cases (dispatch b float conn frame).run s with
  | ok out t => exact ⟨out, t, rfl⟩
  | error e t => exact ⟨_, t, errorReply_run e.what_length_le _ t⟩

/-- Handle a frame and send its reply. The `n`-th send of the thread succeeds when
`sends n` does, and the peer is lost when it fails. -/
def answer (sends : ℕ → Bool) (frame : Frame) : Exec (Coordinator β × ℕ) Bool := do
  let out ← zoom Prod.fst (fun s c => (c, s.2)) (handleFrame b float conn frame)
  if out.isEmpty then return false
  else
    let n := (← get).2
    modify fun s => (s.1, n + 1)
    return !sends n

/-- The body of the thread: frames are handled until the peer is gone. -/
def connectionThread (sends : ℕ → Bool) (chunks : List ByteString) :
    Exec (FrameStreamDecoder × Coordinator β × ℕ) Unit := do
  let _ ← receiveAll (answer b float conn sends) chunks
  modify fun s => (s.1, connectionLost conn s.2.1, s.2.2)

theorem answer_ok (sends : ℕ → Bool) (frame : Frame) (s : Coordinator β × ℕ) :
    ∃ lost t, (answer b float conn sends frame).run s = .ok lost t ∧
      ((∀ n, sends n = true) → lost = false) := by
  obtain ⟨out, c, handled⟩ := handleFrame_ok b float conn frame s.1
  have zoomed : (zoom Prod.fst (fun s c => (c, s.2)) (handleFrame b float conn frame)).run s =
      .ok out (c, s.2) := by
    rw [run_zoom, handled]
  rw [answer, run_bind_of_ok zoomed]
  cases out.isEmpty with
  | true => exact ⟨false, _, rfl, fun _ => rfl⟩
  | false => exact ⟨!sends s.2, _, rfl, fun all => by rw [all]; rfl⟩

theorem deliverAll_ok (sends : ℕ → Bool) (fs : List Frame) (s : Coordinator β × ℕ) :
    ∃ lost t, (deliverAll (answer b float conn sends) fs).run s = .ok lost t := by
  induction fs generalizing s with
  | nil => exact ⟨false, s, rfl⟩
  | cons f fs ih =>
    obtain ⟨lost, t, answered, -⟩ := answer_ok b float conn sends f s
    rw [deliverAll, run_bind_of_ok answered]
    cases lost with
    | true => exact ⟨true, t, rfl⟩
    | false => exact ih t

theorem receiveAll_ok {chunks : List ByteString} (wellFormed : WellFormedStream chunks.flatten)
    (sends : ℕ → Bool) (s : Coordinator β × ℕ) :
    ∃ lost t, (receiveAll (answer b float conn sends) chunks).run ({}, s) = .ok lost t := by
  obtain ⟨ms, r, small, residue, stream⟩ := wellFormed
  have agrees := receiveAll_agrees (answer b float conn sends) stream residue small s
  obtain ⟨lost, t, delivered⟩ := deliverAll_ok b float conn sends (ms.map Message.frame) s
  rw [delivered] at agrees
  generalize (receiveAll (answer b float conn sends) chunks).run ({}, s) = res at agrees
  cases agrees with
  | going h => exact ⟨_, _, rfl⟩
  | lost => exact ⟨_, _, rfl⟩

/-- No exception escapes the thread, however its sends go, exactly when the received
bytes are whole frames followed by an unfinished one. -/
theorem connection_survives_iff (s : Coordinator β) (chunks : List ByteString) :
    (∀ sends : ℕ → Bool, ∃ t, (connectionThread b float conn sends chunks).run ({}, s, 0) = .ok () t) ↔
      WellFormedStream chunks.flatten := by
  constructor
  · intro survives
    obtain ⟨t, ended⟩ := survives fun _ => true
    have steady : ∀ f x, ∃ y, (answer b float conn (fun _ => true) f).run x = .ok false y := by
      intro f x
      obtain ⟨lost, y, answered, going⟩ := answer_ok b float conn (fun _ => true) f x
      rw [going fun _ => rfl] at answered
      exact ⟨y, answered⟩
    cases hr : (receiveAll (answer b float conn fun _ => true) chunks).run ({}, s, 0) with
    | error e y =>
      rw [connectionThread, run_bind_of_error hr] at ended
      cases ended
    | ok lost y => exact wellFormed_of_receiveAll steady (b := []) (.inl (by decide)) hr
  · intro wellFormed sends
    obtain ⟨lost, t, received⟩ := receiveAll_ok b float conn wellFormed sends (s, 0)
    exact ⟨_, run_bind_of_ok received⟩

/-- Bytes that the decoder refuses end the thread with its exception, before the worker
of the connection is marked dead. -/
theorem connectionThread_malformed {chunk : ByteString} {e : Exn} (chunks : List ByteString)
    (malformed : decodeOne chunk = .error e) (sends : ℕ → Bool) (s : Coordinator β) :
    (connectionThread b float conn sends (chunk :: chunks)).run ({}, s, 0) =
      .error e (⟨chunk⟩, s, 0) := by
  have received : (receive (answer b float conn sends) chunk).run ({}, s, 0) =
      .error e (⟨chunk⟩, s, 0) := by
    rw [receive_run]
    exact drain_malformed (d := ⟨chunk⟩) malformed
  have all : (receiveAll (answer b float conn sends) (chunk :: chunks)).run ({}, s, 0) =
      .error e (⟨chunk⟩, s, 0) := run_bind_of_error received
  exact run_bind_of_error all

/-- Twenty zero bytes are a whole header with the wrong magic. -/
theorem zero_header_escapes :
    let s : Coordinator Unit := { runtime := { migrator := MigrationManager.initial () fun _ => 0 } }
    ¬ ∃ t, (connectionThread (MemoryAccounting.budgeted 64) ⟨fun _ _ => 0, fun _ => 0⟩ 1
      (fun _ => true) [List.replicate 20 0]).run ({}, s, 0) = .ok () t := by
  rintro s ⟨t, ended⟩
  rw [connectionThread_malformed _ _ _ [] (e := .protocol .malformedMagic) (by decide)] at ended
  cases ended

end NumaFabric.CoordinatorConnection
