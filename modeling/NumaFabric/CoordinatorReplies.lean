import NumaFabric.CoordinatorFencing

/-! One frame in, one frame out. Whatever a request is, the coordinator answers with the
bytes of a single frame, of the type its request asks for or an error; and a request is
parsed to its end before anything is done. -/
namespace NumaFabric.CoordinatorReplies
open FaultState ByteCodec Coordinator CoordinatorConnection CoordinatorAuthority CoordinatorFencing

variable {β : Type}

/-- The type of the reply to a request that is carried out. -/
def successReply : MsgType → Option MsgType
  | .register => some .registerAck
  | .placementRequest => some .placementReply
  | .reserveRequest => some .reserveReply
  | .releaseRequest => some .releaseReply
  | .bindRequest => some .bindReply
  | .migrateRequest => some .migrateReply
  | .observeReport => some .observeAck
  | .ping => some .pong
  | .shutdown => some .shutdown
  | .discoverRequest => some .discoverReply
  | .revalidateRequest => some .revalidateReply
  | _ => none

/-- The reader takes the bytes for a value and leaves none of them. -/
def Exact {α : Type} (r : Reader Exn α) (payload : ByteString) : Prop :=
  ∃ a, r.run payload = .ok a []

/-- The payload is the fields of such a request and nothing else. -/
def WellFormed (payload : ByteString) : MsgType → Prop
  | .register => Exact registerFields payload
  | .placementRequest => Exact (do return (← credentials, ← placementFields)) payload
  | .reserveRequest => Exact (do
      let c ← credentials
      return (c, ← reserveFields c.1)) payload
  | .releaseRequest => Exact (do return (← credentials, ← WireReader.u64)) payload
  | .bindRequest => Exact (do return (← credentials, ← bindFields)) payload
  | .migrateRequest => Exact (do return (← credentials, ← migrateFields)) payload
  | .observeReport => Exact (do return (← credentials, ← observeFields)) payload
  | .revalidateRequest => Exact credentials payload
  | .ping | .shutdown | .discoverRequest => payload = []
  | _ => False

section Answers

/-- What is returned is one frame of such a type. -/
def Answers (kinds : MsgType → Prop) (x : Exec (Coordinator β) ByteString) : Prop :=
  ∀ s out t, x.run s = .ok out t →
    ∃ kind payload, kinds kind ∧ payload.length ≤ kMaxPayloadLength ∧
      out = frameBytes kind.toU16 payload

variable {kinds : MsgType → Prop}

theorem answers_reply {kind : MsgType} (h : kinds kind) (payload : ByteString) :
    Answers (β := β) kinds (reply kind payload) := by
  intro s out t returned
  rw [reply, encodeFrame] at returned
  split_ifs at returned with large
  · cases returned
  · cases returned
    exact ⟨kind, payload, h, Nat.not_lt.mp large, rfl⟩

theorem Answers.bind {α : Type} (x : Exec (Coordinator β) α)
    {f : α → Exec (Coordinator β) ByteString} (h : ∀ a, Answers kinds (f a)) :
    Answers kinds (x >>= f) := by
  intro s out t returned
  obtain ⟨a, u, -, second⟩ := run_bind_eq_ok.mp returned
  exact h a u out t second

theorem answers_authorized (id : WorkerId) (boot : WorkerBootId) (refusal : ByteString)
    {body : Exec (Coordinator β) ByteString} (error : kinds .error) (h : Answers kinds body) :
    Answers kinds (authorized id boot refusal body) := by
  refine Answers.bind _ fun s => ?_
  dsimp only
  split_ifs
  · exact answers_reply error _
  · exact h

/-- A request for a type is answered with its reply or with an error. -/
def Fitting (type : U16) (kind : MsgType) : Prop :=
  kind = .error ∨ (MsgType.ofU16? type).bind successReply = some kind

theorem answers_dispatch (b : Backend β) (float : FloatCosts) (conn : U64) (frame : Frame) :
    Answers (Fitting frame.type) (dispatch b float conn frame) := by
  have error : Fitting frame.type .error := .inl rfl
  have success {request kind : MsgType} (type : MsgType.ofU16? frame.type = some request)
      (h : successReply request = some kind) : Fitting frame.type kind := .inr (by rw [type]; exact h)
  unfold dispatch
  split
  · next type =>
    refine Answers.bind _ fun ⟨worker, process⟩ => ?_
    dsimp only
    split_ifs
    · exact answers_reply error _
    · exact Answers.bind _ fun _ => Answers.bind _ fun _ => Answers.bind _ fun _ =>
        answers_reply (success type rfl) _
  · next type =>
    refine Answers.bind _ fun ⟨⟨worker, boot⟩, f⟩ => Answers.bind _ fun s => ?_
    dsimp only
    split_ifs
    · exact answers_reply error _
    · exact answers_authorized _ _ _ error (Answers.bind _ fun _ => Answers.bind _ fun _ =>
        answers_reply (success type rfl) _)
  · next type =>
    exact Answers.bind _ fun _ => answers_authorized _ _ _ error
      (Answers.bind _ fun _ => answers_reply (success type rfl) _)
  · next type =>
    exact Answers.bind _ fun _ => answers_authorized _ _ _ error
      (Answers.bind _ fun _ => answers_reply (success type rfl) _)
  · next type =>
    exact Answers.bind _ fun _ => answers_authorized _ _ _ error
      (Answers.bind _ fun _ => answers_reply (success type rfl) _)
  · next type =>
    exact Answers.bind _ fun _ => answers_authorized _ _ _ error
      (Answers.bind _ fun _ => Answers.bind _ fun _ => answers_reply (success type rfl) _)
  · next type =>
    exact Answers.bind _ fun _ => answers_authorized _ _ _ error
      (Answers.bind _ fun _ => answers_reply (success type rfl) _)
  · next type => exact answers_reply (success type rfl) _
  · next type => exact Answers.bind _ fun _ => answers_reply (success type rfl) _
  · next type => exact Answers.bind _ fun _ => answers_reply (success type rfl) _
  · next type =>
    exact Answers.bind _ fun _ => answers_authorized _ _ _ error (answers_reply (success type rfl) _)
  · exact answers_reply error _

end Answers

section Prefixes

/-- Bytes behind the fields do not matter to the reader; it may raise anything. -/
abbrev StrictReader {α : Type} (r : Reader Exn α) : Prop := Strict (fun _ => True) r

theorem strict_u8 : StrictReader WireReader.u8 := strict_word 1 trivial

theorem strict_u32 : StrictReader WireReader.u32 := strict_word 4 trivial

theorem strict_u64 : StrictReader WireReader.u64 := strict_word 8 trivial

theorem strict_flag : StrictReader WireReader.flag := strict_u8.bind fun _ => strict_pure _

theorem strict_str : StrictReader WireReader.str := strict_u32.bind fun _ => strict_take _ trivial

theorem strict_credentials : StrictReader credentials :=
  strict_u64.bind fun _ => strict_u64.bind fun _ => strict_pure _

theorem strict_registerFields : StrictReader registerFields :=
  strict_u64.bind fun _ => strict_u64.bind fun _ => strict_pure _

theorem strict_placementFields : StrictReader placementFields :=
  strict_u64.bind fun _ => strict_u64.bind fun _ => strict_u64.bind fun _ => strict_u64.bind fun _ =>
  strict_flag.bind fun _ => strict_flag.bind fun _ => strict_u64.bind fun _ => strict_u32.bind fun _ =>
  strict_flag.bind fun _ => strict_flag.bind fun _ => strict_pure _

theorem strict_reserveFields (worker : WorkerId) : StrictReader (reserveFields worker) :=
  strict_u64.bind fun _ => strict_u64.bind fun _ => strict_u32.bind fun _ => strict_u64.bind fun _ =>
  strict_flag.bind fun _ => strict_pure _

theorem strict_bindFields : StrictReader bindFields :=
  strict_u64.bind fun _ => strict_flag.bind fun _ => strict_pure _

theorem strict_migrateFields : StrictReader migrateFields :=
  strict_u64.bind fun _ => strict_u64.bind fun _ => strict_str.bind fun _ => strict_pure _

theorem strict_observeFields : StrictReader observeFields :=
  strict_u64.bind fun _ => strict_u8.bind fun _ => strict_flag.bind fun _ => strict_pure _

/-- The credentials and then the fields of a fenced request. -/
theorem strict_request {α : Type} {fields : WorkerId × WorkerBootId → Reader Exn α}
    (h : ∀ c, StrictReader (fields c)) :
    StrictReader (credentials >>= fun c => fields c >>= fun a => pure (c, a)) :=
  strict_credentials.bind fun c => (h c).bind fun _ => strict_pure _

/-- Fields cut short are not read. -/
theorem raises_of_cut {α : Type} {r : Reader Exn α} (strict : StrictReader r)
    {payload more : ByteString} (whole : Exact r (payload ++ more)) (proper : more ≠ []) :
    ∃ e rest, r.run payload = .error e rest := by
  cases read : r.run payload with
  | error e rest => exact ⟨e, rest, rfl⟩
  | ok a rest =>
    obtain ⟨a', exact⟩ := whole
    have longer := strict.extend _ _ _ read more
    rw [exact] at longer
    cases rest with
    | nil => simp_all
    | cons x rest => simp at longer

/-- A request whose fields are not read is not carried out. -/
theorem throws_of_cut {α : Type} {r : Reader Exn α} (strict : StrictReader r)
    {payload more : ByteString} (whole : Exact r (payload ++ more)) (proper : more ≠ [])
    (f : α → Exec (Coordinator β) ByteString) (s : Coordinator β) :
    ∃ e, (parse r payload >>= f).run s = .error e s := by
  obtain ⟨e, rest, raised⟩ := raises_of_cut strict whole proper
  refine ⟨e, run_bind_of_error ?_⟩
  rw [parse, raised]
  rfl

theorem throws_truncated (b : Backend β) (float : FloatCosts) (conn : U64) {frame : Frame}
    {request : MsgType} (type : MsgType.ofU16? frame.type = some request) {more : ByteString}
    (whole : WellFormed (frame.payload ++ more) request) (proper : more ≠ []) (s : Coordinator β) :
    ∃ e, (dispatch b float conn frame).run s = .error e s := by
  unfold dispatch
  rw [type]
  cases request with
  | register => exact throws_of_cut strict_registerFields whole proper _ s
  | placementRequest =>
    exact throws_of_cut (strict_request fun _ => strict_placementFields) whole proper _ s
  | reserveRequest =>
    exact throws_of_cut (strict_request fun c => strict_reserveFields c.1) whole proper _ s
  | releaseRequest => exact throws_of_cut (strict_request fun _ => strict_u64) whole proper _ s
  | bindRequest => exact throws_of_cut (strict_request fun _ => strict_bindFields) whole proper _ s
  | migrateRequest =>
    exact throws_of_cut (strict_request fun _ => strict_migrateFields) whole proper _ s
  | observeReport =>
    exact throws_of_cut (strict_request fun _ => strict_observeFields) whole proper _ s
  | revalidateRequest => exact throws_of_cut strict_credentials whole proper _ s
  | ping => simp [WellFormed, proper] at whole
  | shutdown => simp [WellFormed, proper] at whole
  | discoverRequest => simp [WellFormed, proper] at whole
  | _ => exact whole.elim

end Prefixes

/-- A fresh decoder takes the bytes of a frame whole. -/
theorem push_frameBytes (kind : MsgType) {payload : ByteString}
    (small : payload.length ≤ kMaxPayloadLength) :
    (FrameStreamDecoder.push (frameBytes kind.toU16 payload)).run {} =
      .ok (some { type := kind.toU16, payload }) {} := by
  have decoded := FrameStreamDecoder.decodeOne_frameBytes kind [] small
  rw [List.append_nil] at decoded
  have all : (frameBytes kind.toU16 payload).drop (kFrameHeaderSize + payload.length) = [] := by
    rw [List.drop_eq_nil_iff, length_frameBytes]
  rw [FrameStream.push_run]
  dsimp only
  rw [List.nil_append, decoded]
  dsimp only
  rw [all]

/-- The text of an exception always fits its error frame. -/
theorem handleFrame_of_throws {b : Backend β} {float : FloatCosts} {conn : U64} {frame : Frame}
    {s t : Coordinator β} {e : Exn} (threw : (dispatch b float conn frame).run s = .error e t) :
    ∃ payload, payload.length ≤ kMaxPayloadLength ∧ (handleFrame b float conn frame).run s =
      .ok (frameBytes MsgType.error.toU16 payload) t := by
  have short := e.what_length_le
  refine ⟨errorPayload e.what .rejectedUnknown, ?_, ?_⟩
  · rw [length_errorPayload, kMaxPayloadLength]
    omega
  · rw [handleFrame, run_tryCatch, threw]
    exact errorReply_run short _ t

/-- What a frame is answered with, whether its request succeeds or not. -/
theorem handleFrame_answers (b : Backend β) (float : FloatCosts) (conn : U64) (frame : Frame)
    (s : Coordinator β) :
    ∃ kind payload t, Fitting frame.type kind ∧ payload.length ≤ kMaxPayloadLength ∧
      (handleFrame b float conn frame).run s = .ok (frameBytes kind.toU16 payload) t := by
  cases switched : (dispatch b float conn frame).run s with
  | ok out t =>
    obtain ⟨kind, payload, fitting, small, rfl⟩ := answers_dispatch b float conn frame s out t switched
    exact ⟨kind, payload, t, fitting, small, by rw [handleFrame, run_tryCatch, switched]⟩
  | error e t =>
    obtain ⟨payload, small, handled⟩ := handleFrame_of_throws switched
    exact ⟨.error, payload, t, .inl rfl, small, handled⟩

/-- Every frame is answered with the bytes of exactly one frame, the success reply of its
request or an error; and a request cut short is answered with an error and changes
nothing. -/
theorem one_reply_per_frame (b : Backend β) (float : FloatCosts) (conn : U64) (frame : Frame)
    (s : Coordinator β) :
    (∃ kind payload out t, (handleFrame b float conn frame).run s = .ok out t ∧
      (FrameStreamDecoder.push out).run {} = .ok (some { type := MsgType.toU16 kind, payload }) {} ∧
      (kind = .error ∨ (MsgType.ofU16? frame.type).bind successReply = some kind)) ∧
    ∀ (request : MsgType) (more : ByteString), MsgType.ofU16? frame.type = some request →
      WellFormed (frame.payload ++ more) request → more ≠ [] →
      ∃ payload out, (handleFrame b float conn frame).run s = .ok out s ∧
        (FrameStreamDecoder.push out).run {} =
          .ok (some { type := MsgType.error.toU16, payload }) {} := by
  constructor
  · obtain ⟨kind, payload, t, fitting, small, handled⟩ := handleFrame_answers b float conn frame s
    exact ⟨kind, payload, _, t, handled, push_frameBytes kind small, fitting⟩
  · intro request more type whole proper
    obtain ⟨e, threw⟩ := throws_truncated b float conn type whole proper s
    obtain ⟨payload, small, handled⟩ := handleFrame_of_throws threw
    exact ⟨payload, _, handled, push_frameBytes .error small⟩

/-- A registration that lacks its last byte. -/
theorem one_reply_per_frame_short_registration :
    let s : Coordinator Unit := { runtime := { migrator := MigrationManager.initial () fun _ => 0 } }
    let frame : Frame := { type := MsgType.register.toU16, payload := List.replicate 15 1 }
    ∃ payload out, (handleFrame (MemoryAccounting.budgeted 64) ⟨fun _ _ => 0, fun _ => 0⟩ 1 frame).run s =
        .ok out s ∧
      (FrameStreamDecoder.push out).run {} =
        .ok (some { type := MsgType.error.toU16, payload }) {} := by
  intro s frame
  have whole : WellFormed (frame.payload ++ [1]) .register := ⟨_, rfl⟩
  exact (one_reply_per_frame _ _ 1 frame s).2 .register [1] (by decide) whole (by simp)

end NumaFabric.CoordinatorReplies
