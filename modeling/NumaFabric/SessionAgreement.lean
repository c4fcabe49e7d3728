import NumaFabric.CoordinatorFencing
import NumaFabric.WorkerSession

/-! The two ends of the protocol against each other: the coordinator decodes what a session
sends, and a session returns what the coordinator's runtime produced. -/
namespace NumaFabric.SessionAgreement
open FaultState ByteCodec Coordinator CoordinatorConnection CoordinatorAuthority CoordinatorFencing
  FrameStreamDecoder WorkerSession

variable {β : Type}

section Receive

theorem toU16_ne_error {kind : MsgType} (h : kind ≠ .error) : kind.toU16 ≠ MsgType.error.toU16 := by
  intro same
  have back := MsgType.ofU16?_toU16 kind
  rw [same, MsgType.ofU16?_toU16] at back
  exact h (Option.some.inj back).symm

/-- An error is noted in three fields. -/
theorem recordError_eq (f : Frame) (s : WorkerSession) : ∃ code msg,
    recordError f s = { s with lastError := true, lastErrorCode := code, lastErrorMessage := msg } := by
  unfold recordError
  dsimp only
  split
  · exact ⟨_, _, rfl⟩
  · split
    · exact ⟨_, _, rfl⟩
    · exact ⟨_, _, rfl⟩

theorem noted_run (f : Frame) (s : WorkerSession) :
    ∃ t, (noted f).run s = .ok (some f) t ∧ t.sent = s.sent := by
  obtain ⟨code, msg, same⟩ := recordError_eq f s
  rw [noted]
  split_ifs
  · exact ⟨recordError f s, rfl, by rw [same]⟩
  · exact ⟨s, rfl, rfl⟩

theorem push_run (data : ByteString) (s : WorkerSession) :
    (WorkerSession.push data).run s =
      match decodeOne (s.decoder.buffer ++ data) with
      | .error e => .error e { s with decoder := ⟨s.decoder.buffer ++ data⟩ }
      | .ok none => .ok none { s with decoder := ⟨s.decoder.buffer ++ data⟩ }
      | .ok (some (f, n)) => .ok (some f) { s with decoder := ⟨(s.decoder.buffer ++ data).drop n⟩ } := by
  rw [WorkerSession.push, run_zoom, FrameStream.push_run]
  cases decodeOne (s.decoder.buffer ++ data) with
  | error e => rfl
  | ok r =>
    cases r with
    | none => rfl
    | some p => rfl

variable {kind : MsgType} {payload : ByteString}

/-- Bytes of a frame that arrive in any chunks end as that frame. -/
theorem recvChunks_run (small : payload.length ≤ kMaxPayloadLength)
    {chunks : List ByteString} {s : WorkerSession} (residue : Residue s.decoder.buffer)
    (nonempty : ∀ c ∈ chunks, c ≠ [])
    (stream : s.decoder.buffer ++ chunks.flatten = frameBytes kind.toU16 payload) :
    ∃ t, (recvChunks chunks).run s = .ok (some { type := kind.toU16, payload }) t ∧
      t.sent = s.sent := by
  induction chunks generalizing s with
  | nil =>
    have whole := decodeOne_frameBytes kind [] small
    rw [List.append_nil, ← stream, List.flatten_nil, List.append_nil,
      decodeOne_of_residue residue] at whole
    cases whole
  | cons chunk rest ih =>
    obtain ⟨filled, others⟩ := List.forall_mem_cons.mp nonempty
    rw [List.flatten_cons, ← List.append_assoc] at stream
    have pushed := push_run chunk { s with incoming := rest }
    rw [recvChunks]
    simp only [EStateM.run_bind, EStateM.run_modify, filled, if_false]
    by_cases last : rest.flatten = []
    · rw [last, List.append_nil] at stream
      have whole := decodeOne_frameBytes kind [] small
      rw [List.append_nil, ← stream] at whole
      dsimp only at pushed
      rw [whole] at pushed
      rw [pushed]
      exact noted_run _ _
    · have waiting := residue_of_frameBytes small stream.symm last
      dsimp only at pushed
      rw [decodeOne_of_residue waiting] at pushed
      rw [pushed]
      exact ih waiting others stream

theorem recvFrame_run (small : payload.length ≤ kMaxPayloadLength)
    {s : WorkerSession} (connected : s.connected = true) (empty : s.decoder.buffer = [])
    (nonempty : ∀ c ∈ s.incoming, c ≠ [])
    (stream : s.incoming.flatten = frameBytes kind.toU16 payload) :
    ∃ t, recvFrame.run s = .ok (some { type := kind.toU16, payload }) t ∧ t.sent = s.sent := by
  have nothing : Residue ([] : ByteString) := .inl (by decide)
  have pushed := push_run [] s
  rw [empty, List.append_nil, decodeOne_of_residue nothing] at pushed
  rw [recvFrame]
  simp only [EStateM.run_bind, EStateM.run_get, connected, Bool.not_true, Bool.false_eq_true,
    if_false, pushed]
  exact recvChunks_run (s := { s with connected := true, decoder := ⟨[]⟩ }) small nothing nonempty
    stream

/-- A request is sent whole, and its reply received whole. -/
theorem exchange_run (request : MsgType) (body : ByteString)
    (fits : body.length ≤ kMaxPayloadLength) (small : payload.length ≤ kMaxPayloadLength)
    {s : WorkerSession} (connected : s.connected = true) (empty : s.decoder.buffer = [])
    (nonempty : ∀ c ∈ s.incoming, c ≠ [])
    (stream : s.incoming.flatten = frameBytes kind.toU16 payload) :
    ∃ t, (exchange request body).run s = .ok (some { type := kind.toU16, payload }) t ∧
      t.sent = s.sent ++ [frameBytes request.toU16 body] := by
  have written : (sendFrame (frameBytes request.toU16 body)).run s =
      .ok () { s with sent := s.sent ++ [frameBytes request.toU16 body] } := by
    change EStateM.Result.ok () (if s.connected then _ else s) = _
    rw [if_pos connected]
  rw [exchange, encodeFrame_of_le fits]
  change ∃ t, (sendFrame (frameBytes request.toU16 body) >>= fun _ => recvFrame).run s = _ ∧ _
  rw [run_bind_of_ok written]
  exact recvFrame_run (s := { s with sent := s.sent ++ [frameBytes request.toU16 body] }) small
    connected empty nonempty stream

end Receive

section Reply
variable {kind : MsgType} {payload : ByteString} {s t : Coordinator β}

/-- A frame determines its type and its payload. -/
theorem frameBytes_inj {a b : MsgType} {x y : ByteString}
    (h : frameBytes a.toU16 x = frameBytes b.toU16 y) : a = b ∧ x = y := by
  have sizes : x.length = y.length := by
    have := congrArg List.length h
    rw [length_frameBytes, length_frameBytes] at this
    omega
  have bodies : x = y := by
    have body := payload_frameBytes a.toU16 x []
    rw [h, sizes, payload_frameBytes b.toU16 y []] at body
    exact body.symm
  have types : field 16 2 10 (frameBytes a.toU16 x) = a.toU16 := field_eq (by decide) rfl
  rw [h] at types
  have same : field 16 2 10 (frameBytes b.toU16 y) = b.toU16 := field_eq (by decide) rfl
  rw [same] at types
  have back := MsgType.ofU16?_toU16 b
  rw [types, MsgType.ofU16?_toU16] at back
  exact ⟨Option.some.inj back, bodies⟩

theorem reply_eq_ok {type : MsgType} {body out : ByteString} :
    (reply type body).run s = .ok out t ↔
      body.length ≤ kMaxPayloadLength ∧ out = frameBytes type.toU16 body ∧ t = s := by
  rw [reply, encodeFrame]
  split_ifs with large
  · simp [Nat.not_le.mpr large]
  · simp [Nat.not_lt.mp large, eq_comm]

theorem errorReply_ne {msg : ByteString} {av : AuthorityVerification} (answer : kind ≠ .error)
    (h : (errorReply msg av).run s = .ok (frameBytes kind.toU16 payload) t) : False := by
  obtain ⟨-, same, -⟩ := reply_eq_ok.mp h
  exact answer (frameBytes_inj same).1

/-- A reply that is no error frame comes from the switch. -/
theorem dispatch_of_handleFrame {b : Backend β} {float : FloatCosts} {conn : U64} {frame : Frame}
    (answer : kind ≠ .error)
    (h : (handleFrame b float conn frame).run s = .ok (frameBytes kind.toU16 payload) t) :
    (dispatch b float conn frame).run s = .ok (frameBytes kind.toU16 payload) t := by
  rw [handleFrame, run_tryCatch] at h
  cases hd : (dispatch b float conn frame).run s with
  | ok out u =>
    rw [hd] at h
    exact h
  | error e u =>
    rw [hd] at h
    exact (errorReply_ne answer h).elim

theorem body_of_authorized {id : WorkerId} {boot : WorkerBootId} {refusal : ByteString}
    {body : Exec (Coordinator β) ByteString} (answer : kind ≠ .error)
    (h : (authorized id boot refusal body).run s = .ok (frameBytes kind.toU16 payload) t) :
    body.run s = .ok (frameBytes kind.toU16 payload) t := by
  rw [authorized, run_bind_of_ok (EStateM.run_get s)] at h
  dsimp only at h
  split_ifs at h
  · exact (errorReply_ne answer h).elim
  · exact h

theorem onRuntime_eq_ok {α : Type} {x : Exec (Runtime β) α} {a : α} :
    (onRuntime x).run s = .ok a t ↔
      ∃ r, x.run s.runtime = .ok a r ∧ t = { s with runtime := r } := by
  rw [onRuntime, run_zoom]
  cases x.run s.runtime with
  | ok c r => simp [eq_comm]
  | error e r => simp

/-- A call of the runtime that is answered with this reply. -/
theorem answered {α : Type} {x : Exec (Runtime β) α} {write : α → ByteString} {type : MsgType}
    (h : (onRuntime x >>= fun a => reply type (write a)).run s =
      .ok (frameBytes kind.toU16 payload) t) :
    ∃ a, x.run s.runtime = .ok a t.runtime ∧ payload = write a ∧
      (write a).length ≤ kMaxPayloadLength := by
  obtain ⟨a, u, ran, replied⟩ := run_bind_eq_ok.mp h
  obtain ⟨r, called, rfl⟩ := onRuntime_eq_ok.mp ran
  obtain ⟨small, same, rfl⟩ := reply_eq_ok.mp replied
  exact ⟨a, called, (frameBytes_inj same).2, small⟩

end Reply

/-- A call of a session with its arguments. -/
inductive Request
  | register (id : WorkerId) (pid : ProcessId)
  | discover
  | placement (id : WorkerId) (boot : WorkerBootId) (f : PlacementFields)
  | reserve (id : WorkerId) (boot : WorkerBootId) (node bytes : U64) (cpu : U32) (accel : U64)
      (accelCap : Bool)
  | release (id : WorkerId) (boot : WorkerBootId) (reservationId : U64)
  | bind (id : WorkerId) (boot : WorkerBootId) (node : U64) (apply : Bool)
  | migrate (id : WorkerId) (boot : WorkerBootId) (region target : U64) (reason : ByteString)
  | observe (id : WorkerId) (boot : WorkerBootId) (node : U64) (source : U8) (stale : Bool)
  deriving DecidableEq, Repr

/-- What a call returns. -/
inductive Response
  | registered (info : RegisterInfo)
  | discovered (info : DiscoverInfo)
  | placed (out : PlacementOut)
  | pair (first second : U64)
  | done (ok : Bool)
  deriving DecidableEq, Repr

namespace Request

def type : Request → MsgType
  | register _ _ => .register
  | discover => .discoverRequest
  | placement _ _ _ => .placementRequest
  | reserve _ _ _ _ _ _ _ => .reserveRequest
  | release _ _ _ => .releaseRequest
  | bind _ _ _ _ => .bindRequest
  | migrate _ _ _ _ _ => .migrateRequest
  | observe _ _ _ _ _ => .observeReport

/-- The type of the reply to a request that was carried out. -/
def success : Request → MsgType
  | register _ _ => .registerAck
  | discover => .discoverReply
  | placement _ _ _ => .placementReply
  | reserve _ _ _ _ _ _ _ => .reserveReply
  | release _ _ _ => .releaseReply
  | bind _ _ _ _ => .bindReply
  | migrate _ _ _ _ _ => .migrateReply
  | observe _ _ _ _ _ => .observeAck

theorem success_ne_error (q : Request) : q.success ≠ .error := by
  cases q <;> simp [success]

def payload : Request → ByteString
  | register id pid => WireWriter.u64 id.value ++ WireWriter.u64 pid.value
  | discover => []
  | placement id boot f => placementPayload id boot f
  | reserve id boot node bytes cpu accel accelCap =>
    [WireWriter.u64 id.value, WireWriter.u64 boot.value, WireWriter.u64 node, WireWriter.u64 bytes,
      WireWriter.u32 cpu, WireWriter.u64 accel, WireWriter.flag accelCap].flatten
  | release id boot reservationId =>
    [WireWriter.u64 id.value, WireWriter.u64 boot.value, WireWriter.u64 reservationId].flatten
  | bind id boot node apply =>
    [WireWriter.u64 id.value, WireWriter.u64 boot.value, WireWriter.u64 node,
      WireWriter.flag apply].flatten
  | migrate id boot region target reason =>
    [WireWriter.u64 id.value, WireWriter.u64 boot.value, WireWriter.u64 region,
      WireWriter.u64 target, WireWriter.str reason].flatten
  | observe id boot node source stale =>
    [WireWriter.u64 id.value, WireWriter.u64 boot.value, WireWriter.u64 node, WireWriter.u8 source,
      WireWriter.flag stale].flatten

def frame (q : Request) : Frame := { type := q.type.toU16, payload := q.payload }

/-- The method of the session. -/
def send : Request → Exec WorkerSession Response
  | register id pid => return .registered (← sendRegister id pid)
  | discover => return .discovered (← sendDiscover)
  | placement id boot f => return .placed (← sendPlacement id boot f)
  | reserve id boot node bytes cpu accel accelCap => do
    let p ← sendReserve id boot node bytes cpu accel accelCap
    return .pair p.1 p.2
  | release id boot reservationId => return .done (← sendRelease id boot reservationId)
  | bind id boot node apply => do
    let p ← sendBind id boot node apply
    return .pair p.1 p.2
  | migrate id boot region target reason => return .done (← sendMigrate id boot region target reason)
  | observe id boot node source stale => return .done (← sendObserve id boot node source stale)

/-- How the method reads the payload of a success reply. -/
def reader : Request → Reader Exn Response
  | register _ _ => return .registered (← registerInfo)
  | discover => return .discovered (← discoverInfo)
  | placement _ _ _ => return .placed (← placementOut)
  | reserve _ _ _ _ _ _ _ => do
    let p ← WorkerSession.pair
    return .pair p.1 p.2
  | release _ _ _ => return .done true
  | bind _ _ _ _ => do
    let p ← WorkerSession.pair
    return .pair p.1 p.2
  | migrate _ _ _ _ _ => return .done (← WireReader.flag)
  | observe _ _ _ _ _ => return .done true

/-- The reader of the handler finds exactly the arguments, and reads the payload to its end. -/
def Decoded (q : Request) : Prop :=
  match q with
  | register id pid => registerFields.run q.payload = .ok (id, pid) []
  | discover => q.payload = []
  | placement id boot f =>
    (do return (← credentials, ← placementFields) : Reader Exn _).run q.payload =
      .ok ((id, boot), f) []
  | reserve id boot node bytes cpu accel accelCap =>
    (do let c ← credentials
        return (c, ← reserveFields c.1) : Reader Exn _).run q.payload =
      .ok ((id, boot), { node := ⟨node⟩, bytes := ⟨bytes⟩, cpuSlots := cpu, accelerator := ⟨accel⟩
                         acceleratorCapacity := accelCap, worker := id }) []
  | release id boot reservationId =>
    (do return (← credentials, ← WireReader.u64) : Reader Exn _).run q.payload =
      .ok ((id, boot), reservationId) []
  | bind id boot node apply =>
    (do return (← credentials, ← bindFields) : Reader Exn _).run q.payload =
      .ok ((id, boot), ⟨node⟩, apply) []
  | migrate id boot region target reason =>
    (do return (← credentials, ← migrateFields) : Reader Exn _).run q.payload =
      .ok ((id, boot), ⟨region⟩, ⟨target⟩, reason) []
  | observe id boot node source stale =>
    (do return (← credentials, ← observeFields) : Reader Exn _).run q.payload =
      .ok ((id, boot), ⟨node⟩, source, stale) []

end Request

/-- The acknowledgement of a registration: a count is a 32-bit word. -/
def ackInfo (w : Worker) (s : Runtime β) : RegisterInfo where
  boot := w.bootId
  epoch := s.epoch.value
  policyGen := s.policyGeneration
  hostGen := s.topo.generation.value
  nodeCount := BitVec.ofNat 32 s.topo.numaNodeCount
  digest := s.topo.semanticDigest

def topologyInfo (t : HostTopology) : DiscoverInfo where
  nodeCount := BitVec.ofNat 32 t.numaNodeCount
  groups := BitVec.ofNat 32 t.groups.length
  processors := BitVec.ofNat 32 t.processorCount
  digest := t.semanticDigest
  singleNode := t.isSingleNode

/-- What the session returns of a decision. -/
structure Shows (d : PlacementDecision) (out : PlacementOut) : Prop where
  ok : out.ok = true
  decision : out.decision = d.kind.toU8
  node : out.node = d.selectedNode.value
  penalty : out.penalty = d.expectedPenalty.value
  locality : out.locality = d.expectedLocalityClass.toU8
  bindingConstraint : out.bindingConstraint = d.bindingConstraint
  reason : out.reason = d.reason
  wouldChange : out.wouldChange = d.wouldChange
  candidateCount : out.candidateCount.toNat = d.rankedCandidates.length
  candidates : out.candidates = d.rankedCandidates.map fun c => (c.node.value, c.total.value)

/-- The coordinator went from one state to the other by the runtime operation of the request
under its arguments, and the response is what the operation produced. -/
def Reports (b : Backend β) (float : FloatCosts) (s t : Coordinator β) :
    Request → Response → Prop
  | .register id pid, .registered info =>
    ∃ w u, (enroll id pid).run s = .ok w u ∧ t.runtime = u.runtime ∧ info = ackInfo w t.runtime
  | .discover, .discovered info => t = s ∧ info = topologyInfo s.runtime.topo
  | .placement _ _ f, .placed out =>
    ∃ d, (Runtime.plan b float (f.request s.runtime.policyGeneration)).run s.runtime =
      .ok d t.runtime ∧ Shows d out
  | .reserve id _ node bytes cpu accel accelCap, .pair first second =>
    ∃ r, (Runtime.reserve { node := ⟨node⟩, bytes := ⟨bytes⟩, cpuSlots := cpu
                            accelerator := ⟨accel⟩, acceleratorCapacity := accelCap
                            worker := id }).run s.runtime = .ok r t.runtime ∧
      first = r.id.value ∧ second = r.generation.value
  | .release _ _ reservationId, .done ok =>
    (Runtime.releaseReservation ⟨reservationId⟩).run s.runtime = .ok () t.runtime ∧ ok = true
  | .bind id boot node apply, .pair first second =>
    ∃ r, (Runtime.bindWorker b id boot ⟨node⟩ apply).run s.runtime = .ok r t.runtime ∧
      first = r.bindingId.value ∧ second = r.generation.value
  | .migrate id boot region target reason, .done ok =>
    (Runtime.migrate b ⟨region⟩ ⟨target⟩ id ⟨s.runtime.epoch, boot⟩ reason).run s.runtime =
      .ok ok t.runtime
  | .observe id boot _ _ _, .done ok =>
    (Runtime.observe id boot).run s.runtime = .ok () t.runtime ∧ ok = true
  | _, _ => False

/-- The response tells the true number of nodes, if it tells any. -/
def Response.CountsNodes (topo : HostTopology) : Response → Prop
  | .registered info => info.nodeCount.toNat = topo.numaNodeCount
  | .discovered info => info.nodeCount.toNat = topo.numaNodeCount
  | _ => True

section Decode

theorem run_of_reads {α : Type} {r : Reader Exn α} {bytes : ByteString} {a : α}
    (h : Reads r bytes a) : r.run bytes = .ok a [] := by
  have whole := h []
  rwa [List.append_nil] at whole

/-- The credentials are read first, and then what the kind of request adds. -/
theorem reads_request {α : Type} {id : WorkerId} {boot : WorkerBootId}
    {fields : WorkerId × WorkerBootId → Reader Exn α} {tail : ByteString} {a : α}
    (h : Reads (fields (id, boot)) tail a) :
    Reads (credentials >>= fun c => fields c >>= fun a => pure (c, a))
      (WireWriter.u64 id.value ++ (WireWriter.u64 boot.value ++ tail)) ((id, boot), a) := by
  rw [← List.append_assoc]
  exact (reads_credentials id boot).bind h.pure_bind

theorem reads_registerFields (id : WorkerId) (pid : ProcessId) :
    Reads registerFields (WireWriter.u64 id.value ++ WireWriter.u64 pid.value) (id, pid) :=
  (WireReader.reads_u64 id.value).bind (WireReader.reads_u64 pid.value).pure_bind

theorem reads_placementFields (f : PlacementFields) :
    Reads placementFields
      [WireWriter.u64 f.epoch, WireWriter.u64 f.footprint, WireWriter.u64 f.preferred.value,
        WireWriter.u64 f.required.value, WireWriter.flag f.hasRequired,
        WireWriter.flag f.requireAccelerator, WireWriter.u64 f.accelerator.value,
        WireWriter.u32 f.cpu, WireWriter.flag f.allowFallback,
        WireWriter.flag f.revalidation].flatten f := by
  refine (WireReader.reads_u64 f.epoch).bind ?_
  refine (WireReader.reads_u64 f.footprint).bind ?_
  refine (WireReader.reads_u64 f.preferred.value).bind ?_
  refine (WireReader.reads_u64 f.required.value).bind ?_
  refine (WireReader.reads_flag f.hasRequired).bind ?_
  refine (WireReader.reads_flag f.requireAccelerator).bind ?_
  refine (WireReader.reads_u64 f.accelerator.value).bind ?_
  refine (WireReader.reads_u32 f.cpu).bind ?_
  refine (WireReader.reads_flag f.allowFallback).bind ?_
  refine (WireReader.reads_flag f.revalidation).bind ?_
  exact reads_pure f

theorem reads_reserveFields (id : WorkerId) (node bytes : U64) (cpu : U32) (accel : U64)
    (accelCap : Bool) :
    Reads (reserveFields id)
      [WireWriter.u64 node, WireWriter.u64 bytes, WireWriter.u32 cpu, WireWriter.u64 accel,
        WireWriter.flag accelCap].flatten
      { node := ⟨node⟩, bytes := ⟨bytes⟩, cpuSlots := cpu, accelerator := ⟨accel⟩
        acceleratorCapacity := accelCap, worker := id } := by
  refine (WireReader.reads_u64 node).bind ?_
  refine (WireReader.reads_u64 bytes).bind ?_
  refine (WireReader.reads_u32 cpu).bind ?_
  refine (WireReader.reads_u64 accel).bind ?_
  refine (WireReader.reads_flag accelCap).bind ?_
  exact reads_pure _

theorem reads_migrateFields (region target : U64) {reason : ByteString}
    (small : reason.length < 2 ^ 32) :
    Reads migrateFields
      [WireWriter.u64 region, WireWriter.u64 target, WireWriter.str reason].flatten
      (⟨region⟩, ⟨target⟩, reason) := by
  refine (WireReader.reads_u64 region).bind ?_
  refine (WireReader.reads_u64 target).bind ?_
  refine (WireReader.reads_str small).bind ?_
  exact reads_pure _

theorem length_reason_le {id : WorkerId} {boot : WorkerBootId} {region target : U64}
    {reason : ByteString} :
    reason.length ≤ (Request.migrate id boot region target reason).payload.length := by
  simp only [Request.payload, WireWriter.str, List.flatten_cons, List.length_append]
  omega

/-- Every request is decoded to the arguments it was made from. -/
theorem request_decoded (q : Request) (small : q.payload.length ≤ kMaxPayloadLength) :
    q.Decoded := by
  cases q with
  | register id pid => exact run_of_reads (reads_registerFields id pid)
  | discover => rfl
  | placement id boot f => exact run_of_reads (reads_request (reads_placementFields f))
  | reserve id boot node bytes cpu accel accelCap =>
    exact run_of_reads (reads_request (reads_reserveFields id node bytes cpu accel accelCap))
  | release id boot reservationId =>
    refine run_of_reads (reads_request ?_)
    rw [List.flatten_cons, List.flatten_nil, List.append_nil]
    exact WireReader.reads_u64 reservationId
  | bind id boot node apply =>
    refine run_of_reads (reads_request ?_)
    refine (WireReader.reads_u64 node).bind ?_
    exact (WireReader.reads_flag apply).bind (reads_pure _)
  | migrate id boot region target reason =>
    have fits : reason.length < 2 ^ 32 := by
      have := @length_reason_le id boot region target reason
      rw [kMaxPayloadLength] at small
      omega
    exact run_of_reads (reads_request (reads_migrateFields region target fits))
  | observe id boot node source stale =>
    refine run_of_reads (reads_request ?_)
    refine (WireReader.reads_u64 node).bind ?_
    refine (WireReader.reads_u8 source).bind ?_
    exact (WireReader.reads_flag stale).bind (reads_pure _)

end Decode

section Client
variable {s t : WorkerSession} {f : Frame}

theorem readReply_run {α : Type} {r : Reader Exn α} {a : α} {rest : ByteString}
    (h : r.run f.payload = .ok a rest) (s : WorkerSession) : (readReply r f).run s = .ok a s := by
  rw [readReply, h]
  rfl

theorem accepted_some (answer : f.type ≠ MsgType.error.toU16) : accepted (some f) = some f := by
  rw [accepted, Option.filter_some, if_pos (decide_eq_true answer)]

section Shapes
variable {α : Type} {type : MsgType} {body rest : ByteString} {r : Reader Exn α} {a : α}

theorem run_reading (got : (exchange type body).run s = .ok (some f) t)
    (found : r.run f.payload = .ok a rest) (default : α) :
    (exchange type body >>= fun reply =>
      match reply with
      | none => pure default
      | some f => readReply r f).run s = .ok a t := by
  rw [run_bind_of_ok got]
  exact readReply_run found t

theorem run_accepting (got : (exchange type body).run s = .ok (some f) t)
    (answer : f.type ≠ MsgType.error.toU16) (found : r.run f.payload = .ok a rest) (default : α) :
    (exchange type body >>= fun reply =>
      match accepted reply with
      | none => pure default
      | some f => readReply r f).run s = .ok a t := by
  rw [run_bind_of_ok got]
  simp only [accepted_some answer]
  exact readReply_run found t

theorem run_acknowledging (got : (exchange type body).run s = .ok (some f) t)
    (answer : f.type ≠ MsgType.error.toU16) :
    (exchange type body >>= fun reply => pure (accepted reply).isSome).run s = .ok true t := by
  rw [run_bind_of_ok got, accepted_some answer]
  rfl

end Shapes

/-- A method that got a reply returns what its reader finds there. -/
theorem send_run {q : Request} {r : Response} {rest : ByteString}
    (got : (exchange q.type q.payload).run s = .ok (some f) t)
    (answer : f.type ≠ MsgType.error.toU16) (read : q.reader.run f.payload = .ok r rest) :
    q.send.run s = .ok r t := by
  cases q with
  | register id pid =>
    obtain ⟨info, u, found, rfl, -⟩ := run_bind_eq_ok.mp read
    have called : (sendRegister id pid).run s = .ok info t := run_reading got found {}
    exact run_bind_of_ok called
  | discover =>
    obtain ⟨info, u, found, rfl, -⟩ := run_bind_eq_ok.mp read
    have called : sendDiscover.run s = .ok info t := run_reading got found {}
    exact run_bind_of_ok called
  | placement id boot fields =>
    obtain ⟨out, u, found, rfl, -⟩ := run_bind_eq_ok.mp read
    have called : (sendPlacement id boot fields).run s = .ok out t :=
      run_accepting got answer found {}
    exact run_bind_of_ok called
  | reserve id boot node bytes cpu accel accelCap =>
    obtain ⟨p, u, found, rfl, -⟩ := run_bind_eq_ok.mp read
    have called : (sendReserve id boot node bytes cpu accel accelCap).run s = .ok p t :=
      run_accepting got answer found (0, 0)
    exact run_bind_of_ok called
  | release id boot reservationId =>
    obtain ⟨rfl, -⟩ := run_pure_eq_ok.mp read
    have called : (sendRelease id boot reservationId).run s = .ok true t :=
      run_acknowledging got answer
    exact run_bind_of_ok called
  | bind id boot node apply =>
    obtain ⟨p, u, found, rfl, -⟩ := run_bind_eq_ok.mp read
    have called : (sendBind id boot node apply).run s = .ok p t :=
      run_accepting got answer found (0, 0)
    exact run_bind_of_ok called
  | migrate id boot region target reason =>
    obtain ⟨ok, u, found, rfl, -⟩ := run_bind_eq_ok.mp read
    have called : (sendMigrate id boot region target reason).run s = .ok ok t :=
      run_accepting got answer found false
    exact run_bind_of_ok called
  | observe id boot node source stale =>
    obtain ⟨rfl, -⟩ := run_pure_eq_ok.mp read
    have called : (sendObserve id boot node source stale).run s = .ok true t :=
      run_acknowledging got answer
    exact run_bind_of_ok called

end Client

section Replies

theorem reads_registerAck (w : Worker) (s : Runtime β) :
    Reads registerInfo (registerAck w s) (ackInfo w s) := by
  simp only [registerAck, List.append_assoc]
  refine (WireReader.reads_u64 w.bootId.value).bind ?_
  refine (WireReader.reads_u64 s.epoch.value).bind ?_
  refine (WireReader.reads_u64 s.policyGeneration).bind ?_
  refine (WireReader.reads_u64 s.topo.generation.value).bind ?_
  refine (WireReader.reads_u32 (BitVec.ofNat 32 s.topo.numaNodeCount)).bind ?_
  exact (WireReader.reads_u64 s.topo.semanticDigest).pure_bind

theorem reads_discoverReply (t : HostTopology) :
    Reads discoverInfo (discoverReply t) (topologyInfo t) := by
  simp only [discoverReply, List.append_assoc]
  refine (WireReader.reads_u32 (BitVec.ofNat 32 t.numaNodeCount)).bind ?_
  refine (WireReader.reads_u32 (BitVec.ofNat 32 t.groups.length)).bind ?_
  refine (WireReader.reads_u32 (BitVec.ofNat 32 t.processorCount)).bind ?_
  refine (WireReader.reads_u64 t.semanticDigest).bind ?_
  exact (WireReader.reads_flag t.isSingleNode).pure_bind

theorem reads_pair (first second : U64) :
    Reads WorkerSession.pair (WireWriter.u64 first ++ WireWriter.u64 second) (first, second) :=
  (WireReader.reads_u64 first).bind (WireReader.reads_u64 second).pure_bind

def candidateBytes (c : CandidateCost) : ByteString :=
  WireWriter.u64 c.node.value ++ (WireWriter.u64 c.total.value ++ WireWriter.flag c.eligible)

theorem reads_candidate (c : CandidateCost) :
    Reads candidate (candidateBytes c) (c.node.value, c.total.value) := by
  refine (WireReader.reads_u64 c.node.value).bind ?_
  refine (WireReader.reads_u64 c.total.value).bind ?_
  exact (WireReader.reads_u8 _).pure_bind

theorem length_candidates (cs : List CandidateCost) :
    cs.length ≤ (cs.flatMap candidateBytes).length := by
  induction cs with
  | nil => exact Nat.zero_le 0
  | cons c cs ih =>
    have full : 0 < (candidateBytes c).length := by
      simp only [candidateBytes, WireWriter.u64, List.length_append, length_toBytes]
      omega
    rw [List.flatMap_cons, List.length_append, List.length_cons]
    omega

/-- A placement reply up to the count of eliminated candidates: the part that is read. -/
def placementHead (d : PlacementDecision) : ByteString :=
  WireWriter.u8 d.kind.toU8 ++ (WireWriter.u64 d.selectedNode.value ++
    (WireWriter.u64 d.expectedPenalty.value ++ (WireWriter.u8 d.expectedLocalityClass.toU8 ++
    (WireWriter.str d.bindingConstraint ++ (WireWriter.str d.reason ++
    (WireWriter.str d.wouldChange ++ (WireWriter.count d.rankedCandidates.length ++
    (d.rankedCandidates.flatMap candidateBytes ++
    WireWriter.count d.eliminatedCandidates.length))))))))

theorem placementReply_eq (d : PlacementDecision) :
    placementReply d = placementHead d ++ d.eliminatedCandidates.flatMap WireWriter.str := by
  simp only [placementReply, placementHead, List.append_assoc]
  rfl

/-- What the session makes of a decision. -/
def shown (d : PlacementDecision) : PlacementOut where
  ok := true
  decision := d.kind.toU8
  node := d.selectedNode.value
  penalty := d.expectedPenalty.value
  locality := d.expectedLocalityClass.toU8
  bindingConstraint := d.bindingConstraint
  reason := d.reason
  wouldChange := d.wouldChange
  candidateCount := BitVec.ofNat 32 d.rankedCandidates.length
  candidates := d.rankedCandidates.map fun c => (c.node.value, c.total.value)

/-- The texts and the list of candidates of a decision fit their length fields. -/
structure Fits (d : PlacementDecision) : Prop where
  bindingConstraint : d.bindingConstraint.length < 2 ^ 32
  reason : d.reason.length < 2 ^ 32
  wouldChange : d.wouldChange.length < 2 ^ 32
  candidates : d.rankedCandidates.length < 2 ^ 32

variable {d : PlacementDecision}

theorem Fits.toNat_count (fits : Fits d) :
    (BitVec.ofNat 32 d.rankedCandidates.length).toNat = d.rankedCandidates.length := by
  rw [BitVec.toNat_ofNat, Nat.mod_eq_of_lt fits.candidates]

theorem Fits.shows (fits : Fits d) : Shows d (shown d) where
  ok := rfl
  decision := rfl
  node := rfl
  penalty := rfl
  locality := rfl
  bindingConstraint := rfl
  reason := rfl
  wouldChange := rfl
  candidateCount := fits.toNat_count
  candidates := rfl

theorem Fits.reads (fits : Fits d) : Reads placementOut (placementHead d) (shown d) := by
  refine (WireReader.reads_u8 d.kind.toU8).bind ?_
  refine (WireReader.reads_u64 d.selectedNode.value).bind ?_
  refine (WireReader.reads_u64 d.expectedPenalty.value).bind ?_
  refine (WireReader.reads_u8 d.expectedLocalityClass.toU8).bind ?_
  refine (WireReader.reads_str fits.bindingConstraint).bind ?_
  refine (WireReader.reads_str fits.reason).bind ?_
  refine (WireReader.reads_str fits.wouldChange).bind ?_
  refine (WireReader.reads_u32 (BitVec.ofNat 32 d.rankedCandidates.length)).bind ?_
  rw [fits.toNat_count]
  refine (reads_times_map d.rankedCandidates fun c _ => reads_candidate c).bind ?_
  exact (WireReader.reads_u32 _).pure_bind

/-- A reply that could be sent was within every length field. -/
theorem fits_of_sent (sent : (placementReply d).length ≤ kMaxPayloadLength) : Fits d := by
  have candidates := length_candidates d.rankedCandidates
  rw [placementReply_eq, kMaxPayloadLength] at sent
  simp only [placementHead, WireWriter.str, List.length_append] at sent
  constructor <;> omega

theorem placementOut_run (sent : (placementReply d).length ≤ kMaxPayloadLength) :
    placementOut.run (placementReply d) =
      .ok (shown d) (d.eliminatedCandidates.flatMap WireWriter.str) := by
  rw [placementReply_eq]
  exact (fits_of_sent sent).reads _

end Replies

section Coordinator
variable {b : Backend β} {float : FloatCosts} {conn : U64} {s t : Coordinator β} {kind : MsgType}
  {payload : ByteString}

/-- A fenced request that was carried out. -/
theorem body_of_fenced {α : Type} {r : Reader Exn ((WorkerId × WorkerBootId) × α)}
    {request rest refusal : ByteString} {id : WorkerId} {boot : WorkerBootId} {a : α}
    {body : (WorkerId × WorkerBootId) × α → Exec (Coordinator β) ByteString}
    (read : r.run request = .ok ((id, boot), a) rest) (answer : kind ≠ .error)
    (h : (parse r request >>= fun x => authorized x.1.1 x.1.2 refusal (body x)).run s =
      .ok (frameBytes kind.toU16 payload) t) :
    (body ((id, boot), a)).run s = .ok (frameBytes kind.toU16 payload) t := by
  rw [run_bind_of_ok (parse_run read s)] at h
  exact body_of_authorized answer h

theorem register_reported {id : WorkerId} {pid : ProcessId}
    (h : (handleRegister conn (Request.register id pid).payload).run s =
      .ok (frameBytes MsgType.registerAck.toU16 payload) t) :
    ∃ w u, (enroll id pid).run s = .ok w u ∧ t.runtime = u.runtime ∧
      payload = registerAck w t.runtime ∧ payload.length ≤ kMaxPayloadLength := by
  have read : (Request.register id pid).Decoded := run_of_reads (reads_registerFields id pid)
  rw [handleRegister, run_bind_of_ok (parse_run read s)] at h
  dsimp only at h
  split_ifs at h
  · exact (errorReply_ne (by decide) h).elim
  · obtain ⟨w, u, enrolled, acked⟩ := run_bind_eq_ok.mp h
    obtain ⟨⟨⟩, v, stored, acked⟩ := run_bind_eq_ok.mp acked
    obtain ⟨c, v', got, acked⟩ := run_bind_eq_ok.mp acked
    cases stored
    cases got
    obtain ⟨sent, same, rfl⟩ := reply_eq_ok.mp acked
    obtain rfl := (frameBytes_inj same).2
    exact ⟨w, u, enrolled, rfl, rfl, sent⟩

theorem placement_reported {id : WorkerId} {boot : WorkerBootId} {f : PlacementFields}
    (h : (handlePlacement b float (Request.placement id boot f).payload).run s =
      .ok (frameBytes MsgType.placementReply.toU16 payload) t) :
    ∃ d, (Runtime.plan b float (f.request s.runtime.policyGeneration)).run s.runtime =
      .ok d t.runtime ∧ payload = placementReply d ∧
      (placementReply d).length ≤ kMaxPayloadLength := by
  have read : (Request.placement id boot f).Decoded :=
    run_of_reads (reads_request (reads_placementFields f))
  rw [handlePlacement, run_bind_of_ok (parse_run read s), run_bind_of_ok (EStateM.run_get s)] at h
  dsimp only at h
  split_ifs at h
  · exact (errorReply_ne (by decide) h).elim
  · have ran := body_of_authorized (by decide) h
    rw [run_bind_of_ok (EStateM.run_get s)] at ran
    exact answered ran

/-- A success reply carries the outcome of the operation, and the session reads it so. -/
theorem reply_reports {q : Request} (small : q.payload.length ≤ kMaxPayloadLength)
    (h : (handleFrame b float conn q.frame).run s = .ok (frameBytes q.success.toU16 payload) t) :
    payload.length ≤ kMaxPayloadLength ∧
      ∃ r rest, q.reader.run payload = .ok r rest ∧ Reports b float s t q r := by
  have answer := q.success_ne_error
  have ran := dispatch_of_handleFrame answer h
  have type : MsgType.ofU16? q.frame.type = some q.type := MsgType.ofU16?_toU16 q.type
  unfold dispatch at ran
  rw [type] at ran
  have read := request_decoded q small
  cases q with
  | register id pid =>
    obtain ⟨w, u, enrolled, same, rfl, sent⟩ := register_reported ran
    refine ⟨sent, _, [], run_bind_of_ok (run_of_reads (reads_registerAck w t.runtime)), ?_⟩
    exact ⟨w, u, enrolled, same, rfl⟩
  | discover =>
    have replied := (run_bind_of_ok (EStateM.run_get s)).symm.trans ran
    obtain ⟨sent, same, rfl⟩ := reply_eq_ok.mp replied
    obtain rfl := (frameBytes_inj same).2
    refine ⟨sent, _, [], run_bind_of_ok (run_of_reads (reads_discoverReply t.runtime.topo)), ?_⟩
    exact ⟨rfl, rfl⟩
  | placement id boot f =>
    obtain ⟨d, planned, rfl, sent⟩ := placement_reported ran
    refine ⟨sent, _, _, run_bind_of_ok (placementOut_run sent), ?_⟩
    exact ⟨d, planned, (fits_of_sent sent).shows⟩
  | reserve id boot node bytes cpu accel accelCap =>
    obtain ⟨r, reserved, rfl, sent⟩ := answered (body_of_fenced read answer ran)
    refine ⟨sent, _, [], run_bind_of_ok (run_of_reads (reads_pair r.id.value r.generation.value)), ?_⟩
    exact ⟨r, reserved, rfl, rfl⟩
  | release id boot reservationId =>
    obtain ⟨⟨⟩, released, rfl, sent⟩ := answered (body_of_fenced read answer ran)
    exact ⟨sent, _, _, rfl, released, rfl⟩
  | bind id boot node apply =>
    obtain ⟨r, bound, rfl, sent⟩ := answered (body_of_fenced read answer ran)
    refine ⟨sent, _, _, run_bind_of_ok (reads_pair r.bindingId.value r.generation.value _), ?_⟩
    exact ⟨r, bound, rfl, rfl⟩
  | migrate id boot region target reason =>
    have body := body_of_fenced read answer ran
    rw [run_bind_of_ok (EStateM.run_get s)] at body
    obtain ⟨committed, migrated, rfl, sent⟩ := answered body
    refine ⟨sent, _, [], run_bind_of_ok (run_of_reads (WireReader.reads_flag committed)), ?_⟩
    exact migrated
  | observe id boot node source stale =>
    obtain ⟨⟨⟩, observed, rfl, sent⟩ := answered (body_of_fenced read answer ran)
    exact ⟨sent, _, _, rfl, observed, rfl⟩

end Coordinator

/-- A session that is connected, has read everything so far, and gets these bytes in some
pieces. -/
structure Awaits (s : WorkerSession) (bytes : ByteString) : Prop where
  connected : s.connected = true
  drained : s.decoder.buffer = []
  pieces : ∀ c ∈ s.incoming, c ≠ []
  stream : s.incoming.flatten = bytes

/-- A node count of the runtime that fits its word is returned as it is. -/
theorem Reports.countsNodes {b : Backend β} {float : FloatCosts} {s t : Coordinator β} {q : Request}
    {r : Response} (h : Reports b float s t q r) (fits : t.runtime.topo.numaNodeCount < 2 ^ 32) :
    r.CountsNodes t.runtime.topo := by
  have word : (BitVec.ofNat 32 t.runtime.topo.numaNodeCount).toNat = t.runtime.topo.numaNodeCount := by
    rw [BitVec.toNat_ofNat, Nat.mod_eq_of_lt fits]
  cases r with
  | registered info =>
    cases q with
    | register id pid =>
      obtain ⟨w, u, -, -, rfl⟩ := h
      exact word
    | _ => exact h.elim
  | discovered info =>
    cases q with
    | discover =>
      obtain ⟨rfl, rfl⟩ := h
      exact word
    | _ => exact h.elim
  | _ => trivial

/-- The coordinator decodes every request to its arguments with nothing left over, and when
it answers with success, the session returns what the runtime produced; group and processor
counts are the counts as 32-bit words, and so is the node count, which loses nothing below
`2 ^ 32`. -/
theorem session_agrees (q : Request) (small : q.payload.length ≤ kMaxPayloadLength) :
    let bytes := frameBytes q.type.toU16 q.payload
    encodeFrame q.type.toU16 q.payload = .ok bytes ∧
      decodeOne bytes = .ok (some (q.frame, bytes.length)) ∧ q.Decoded ∧
      ∀ {β : Type} (b : Backend β) (float : FloatCosts) (conn : U64) (s t : Coordinator β)
        (payload : ByteString), (handleFrame b float conn q.frame).run s =
          .ok (frameBytes q.success.toU16 payload) t →
        ∀ session : WorkerSession, Awaits session (frameBytes q.success.toU16 payload) →
          ∃ r session', q.send.run session = .ok r session' ∧
            session'.sent = session.sent ++ [bytes] ∧ Reports b float s t q r ∧
            (t.runtime.topo.numaNodeCount < 2 ^ 32 → r.CountsNodes t.runtime.topo) := by
  intro bytes
  refine ⟨encodeFrame_of_le small, ?_, request_decoded q small, ?_⟩
  · have whole := decodeOne_frameBytes q.type [] small
    rwa [List.append_nil, ← length_frameBytes q.type.toU16] at whole
  · intro β b float conn s t payload replied session awaits
    obtain ⟨sent, r, rest, read, reports⟩ := reply_reports small replied
    have answer := q.success_ne_error
    obtain ⟨session', got, wrote⟩ := exchange_run q.type q.payload small sent
      awaits.connected awaits.drained awaits.pieces awaits.stream
    exact ⟨r, session', send_run got (toU16_ne_error answer) read, wrote, reports, reports.countsNodes⟩

theorem discover_run (b : Backend β) (float : FloatCosts) (conn : U64) (s : Coordinator β) :
    (handleFrame b float conn Request.discover.frame).run s =
      .ok (frameBytes MsgType.discoverReply.toU16 (discoverReply s.runtime.topo)) s := by
  have short : (discoverReply s.runtime.topo).length ≤ kMaxPayloadLength := by
    simp [discoverReply, WireWriter.count, WireWriter.u32, WireWriter.u64, WireWriter.flag,
      WireWriter.u8, kMaxPayloadLength]
  have answered : (reply .discoverReply (discoverReply s.runtime.topo)).run s =
      .ok (frameBytes MsgType.discoverReply.toU16 (discoverReply s.runtime.topo)) s :=
    reply_eq_ok.mpr ⟨short, rfl, rfl⟩
  have type : MsgType.ofU16? Request.discover.frame.type = some .discoverRequest :=
    MsgType.ofU16?_toU16 _
  rw [handleFrame, run_tryCatch, dispatch, type]
  simp only [run_bind_of_ok (EStateM.run_get s), answered]

/-- The session that gets this reply at once. -/
def awaiting (bytes : ByteString) : WorkerSession := { connected := true, incoming := [bytes] }

theorem awaits_awaiting {bytes : ByteString} (h : bytes ≠ []) : Awaits (awaiting bytes) bytes where
  connected := rfl
  drained := rfl
  pieces := by simpa [awaiting] using h
  stream := by simp [awaiting]

section Register
variable {conn : U64} {s : Coordinator β} {id : WorkerId} {pid : ProcessId}

theorem enroll_new (valid : id.isValid = true) (absent : s.runtime.registry.workers[id]? = none) :
    ∃ w t, (enroll id pid).run s = .ok w t ∧ t.runtime.topo = s.runtime.topo := by
  have registered := onRegistry_run (WorkerRegistry.registerWorker_run pid valid absent)
  refine ⟨_, _, Eq.trans ?_ registered, rfl⟩
  simp only [enroll, EStateM.run_bind, EStateM.run_get, Runtime.worker, WorkerRegistry.find, absent]
  rfl

/-- A worker that is new to the registry is acknowledged, and the host stays. -/
theorem register_run (b : Backend β) (float : FloatCosts) (valid : id.isValid = true)
    (absent : s.runtime.registry.workers[id]? = none) :
    ∃ w t, (handleFrame b float conn (Request.register id pid).frame).run s =
        .ok (frameBytes MsgType.registerAck.toU16 (registerAck w t.runtime)) t ∧
      t.runtime.topo = s.runtime.topo := by
  have read : registerFields.run (Request.register id pid).frame.payload = .ok (id, pid) [] :=
    run_of_reads (reads_registerFields id pid)
  have type : MsgType.ofU16? (Request.register id pid).frame.type = some .register :=
    MsgType.ofU16?_toU16 _
  obtain ⟨w, t, enrolled, host⟩ := @enroll_new β s id pid valid absent
  have small : (registerAck w t.runtime).length ≤ kMaxPayloadLength := by
    rw [length_registerAck, kMaxPayloadLength]
    omega
  have acked := reply_run .registerAck small
    { t with conns := t.conns.insert conn ⟨id, w.bootId, true⟩ }
  have handled : (handleRegister conn (Request.register id pid).frame.payload).run s =
      .ok (frameBytes MsgType.registerAck.toU16 (registerAck w t.runtime))
        { t with conns := t.conns.insert conn ⟨id, w.bootId, true⟩ } := by
    rw [handleRegister, run_bind_of_ok (parse_run read s)]
    simp only [valid, Bool.not_true, Bool.false_eq_true, if_false]
    rw [run_bind_of_ok enrolled]
    exact acked
  refine ⟨w, { t with conns := t.conns.insert conn ⟨id, w.bootId, true⟩ }, ?_, host⟩
  rw [handleFrame, run_tryCatch, dispatch_register b float conn type, handled]

end Register

section Fresh

def idle : Backend Unit := MemoryAccounting.budgeted 64

def free : FloatCosts := ⟨fun _ _ => 0, fun _ => 0⟩

/-- Two nodes with a processor each. -/
def twoNodes : HostTopology where
  nodes := [{ id := ⟨1⟩, processors := [⟨1⟩] }, { id := ⟨2⟩, processors := [⟨2⟩] }]
  groups := [{ id := ⟨1⟩, processors := [⟨1⟩, ⟨2⟩] }]
  processors := [{ id := ⟨1⟩, group := ⟨1⟩, node := ⟨1⟩ }, { id := ⟨2⟩, group := ⟨1⟩, node := ⟨2⟩ }]

/-- A coordinator on a host of this topology. -/
def fresh (topo : HostTopology) : Coordinator Unit :=
  { runtime := { migrator := MigrationManager.initial () fun _ => 0, topo } }

/-- The first worker registers on a host of two nodes. -/
theorem session_agrees_register :
    let q := Request.register ⟨4⟩ ⟨7⟩
    ∃ x t r session', (handleFrame idle free 1 q.frame).run (fresh twoNodes) =
        .ok (frameBytes MsgType.registerAck.toU16 (registerAck x t.runtime)) t ∧
      q.send.run (awaiting (frameBytes MsgType.registerAck.toU16 (registerAck x t.runtime))) =
        .ok r session' ∧
      Reports idle free (fresh twoNodes) t q r ∧ r.CountsNodes twoNodes := by
  intro q
  have absent : (fresh twoNodes).runtime.registry.workers[(⟨4⟩ : WorkerId)]? = none := by simp [fresh]
  obtain ⟨x, t, handled, host⟩ := @register_run _ 1 _ ⟨4⟩ ⟨7⟩ idle free rfl absent
  obtain ⟨-, -, -, agrees⟩ := session_agrees q (by decide)
  obtain ⟨r, session', called, -, reports, counts⟩ := agrees idle free 1 (fresh twoNodes) t _
    handled _ (awaits_awaiting (frameBytes_ne_nil _ _))
  rw [host] at counts
  exact ⟨x, t, r, session', handled, called, reports, counts (by decide)⟩

end Fresh

end NumaFabric.SessionAgreement
