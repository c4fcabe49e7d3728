import NumaFabric.FrameCodec

/-! The receive loop of a connection. Frames and chunks are cut independently, and the
loop acts on a stream exactly as its handler acts on the frames one after another. -/
namespace NumaFabric.FrameStream
open FaultState ByteCodec FrameStreamDecoder

/-- A defined type and a payload, as a sender encodes them. -/
abbrev Message := MsgType × ByteString

def Message.small (m : Message) : Prop := m.2.length ≤ kMaxPayloadLength

instance (m : Message) : Decidable (Message.small m) :=
  inferInstanceAs (Decidable (m.2.length ≤ kMaxPayloadLength))

def Message.frame (m : Message) : Frame := { type := m.1.toU16, payload := m.2 }

def Message.bytes (m : Message) : ByteString := frameBytes m.1.toU16 m.2

section Loop
variable {σ : Type} (handle : Frame → Exec σ Bool)

def pushFrame (chunk : ByteString) : Exec (FrameStreamDecoder × σ) (Option Frame) :=
  zoom Prod.fst (fun s d => (d, s.2)) (push chunk)

/-- Handle a frame and send its reply; the answer says whether the peer was lost. -/
def deliver (f : Frame) : Exec (FrameStreamDecoder × σ) Bool :=
  zoom Prod.snd (fun s x => (s.1, x)) (handle f)

theorem push_run (data : ByteString) (d : FrameStreamDecoder) :
    (push data).run d =
      match decodeOne (d.buffer ++ data) with
      | .error e => .error e ⟨d.buffer ++ data⟩
      | .ok none => .ok none ⟨d.buffer ++ data⟩
      | .ok (some (f, n)) => .ok (some f) ⟨(d.buffer ++ data).drop n⟩ := by
  simp only [push, tryExtract, EStateM.run_bind, EStateM.run_modify, EStateM.run_get]
  cases decodeOne (d.buffer ++ data) with
  | error e => rfl
  | ok o =>
    cases o with
    | none => rfl
    | some p => rfl

theorem pushFrame_run (chunk : ByteString) (d : FrameStreamDecoder) (s : σ) :
    (pushFrame chunk).run (d, s) =
      match decodeOne (d.buffer ++ chunk) with
      | .error e => .error e (⟨d.buffer ++ chunk⟩, s)
      | .ok none => .ok none (⟨d.buffer ++ chunk⟩, s)
      | .ok (some (f, n)) => .ok (some f) (⟨(d.buffer ++ chunk).drop n⟩, s) := by
  rw [pushFrame, run_zoom, push_run]
  cases decodeOne (d.buffer ++ chunk) with
  | error e => rfl
  | ok o =>
    cases o with
    | none => rfl
    | some p => rfl

theorem deliver_run (f : Frame) (d : FrameStreamDecoder) (s : σ) :
    (deliver handle f).run (d, s) =
      match (handle f).run s with
      | .ok b t => .ok b (d, t)
      | .error e t => .error e (d, t) := by
  rw [deliver, run_zoom]
  cases (handle f).run s <;> rfl

/-- Extracting a frame shortens the buffer. -/
theorem pushFrame_nil_shorter {f : Frame} {d d' : FrameStreamDecoder} {s s' : σ}
    (h : (pushFrame []).run (d, s) = .ok (some f) (d', s')) :
    d'.buffer.length < d.buffer.length := by
  rw [pushFrame_run, List.append_nil] at h
  have ho := decodeOne_outcome d.buffer
  generalize decodeOne d.buffer = res at h ho
  cases ho with
  | residue _ => cases h
  | malformed e => cases h
  | frame t payload rest small bytes =>
    cases h
    have hlen := length_frameBytes t.toU16 payload
    have size : kFrameHeaderSize = 20 := rfl
    rw [bytes, drop_frameBytes, List.length_append]
    dsimp only
    omega

/-- Empty pushes until no complete frame is buffered or the peer is lost. -/
def drain (s : FrameStreamDecoder × σ) : EStateM.Result Exn (FrameStreamDecoder × σ) Bool :=
  match _h : (pushFrame []).run s with
  | .error e t => .error e t
  | .ok none t => .ok false t
  | .ok (some f) (d, x) =>
    match (handle f).run x with
    | .error e y => .error e (d, y)
    | .ok true y => .ok true (d, y)
    | .ok false y => drain (d, y)
termination_by s.1.buffer.length
decreasing_by exact pushFrame_nil_shorter _h

/-- One turn of the loop: a received chunk may already complete a frame. -/
def receive (chunk : ByteString) : Exec (FrameStreamDecoder × σ) Bool := do
  if let some f ← pushFrame chunk then
    if ← deliver handle f then return true
  fun s => drain handle s

/-- The chunks of a connection in order, until the peer is lost. -/
def receiveAll : List ByteString → Exec (FrameStreamDecoder × σ) Bool
  | [] => pure false
  | chunk :: chunks => do
    if ← receive handle chunk then return true
    receiveAll chunks

/-- The handler on a list of frames, until the peer is lost. -/
def deliverAll : List Frame → Exec σ Bool
  | [] => pure false
  | f :: fs => do
    if ← handle f then return true
    deliverAll fs

theorem deliverAll_append (fs gs : List Frame) (s : σ) :
    (deliverAll handle (fs ++ gs)).run s =
      match (deliverAll handle fs).run s with
      | .ok false t => (deliverAll handle gs).run t
      | r => r := by
  induction fs generalizing s with
  | nil => rfl
  | cons f fs ih =>
    simp only [List.cons_append, deliverAll, EStateM.run_bind]
    cases (handle f).run s with
    | error e t => rfl
    | ok b t =>
      cases b with
      | true => rfl
      | false => exact ih t

variable {handle} {d : FrameStreamDecoder} {s : σ}

theorem drain_residue (h : Residue d.buffer) : drain handle (d, s) = .ok false (d, s) := by
  have hp : (pushFrame []).run (d, s) = .ok none (d, s) := by
    rw [pushFrame_run, List.append_nil, decodeOne_of_residue h]
  rw [drain]
  split <;> simp_all

theorem drain_frame {m : Message} {rest : ByteString} (small : m.small)
    (h : d.buffer = m.bytes ++ rest) :
    drain handle (d, s) =
      match (handle m.frame).run s with
      | .error e t => .error e (⟨rest⟩, t)
      | .ok true t => .ok true (⟨rest⟩, t)
      | .ok false t => drain handle (⟨rest⟩, t) := by
  have hp : (pushFrame []).run (d, s) = .ok (some m.frame) (⟨rest⟩, s) := by
    rw [pushFrame_run, List.append_nil, h, Message.bytes, decodeOne_frameBytes m.1 rest small]
    dsimp only
    rw [drop_frameBytes]
    rfl
  rw [drain]
  split
  · simp_all
  · simp_all
  · rename_i f d' x heq
    rw [hp] at heq
    cases heq
    rfl

theorem drain_malformed {e : Exn} (h : decodeOne d.buffer = .error e) :
    drain handle (d, s) = .error e (d, s) := by
  have hp : (pushFrame []).run (d, s) = .error e (d, s) := by
    rw [pushFrame_run, List.append_nil, h]
  rw [drain]
  split <;> simp_all

end Loop

def streamBytes (ms : List Message) : ByteString := ms.flatMap Message.bytes

/-- The buffered bytes of a well-formed stream are an incomplete frame or start with the
next message. -/
theorem residue_or_message {ms : List Message} {b more r : ByteString}
    (stream : b ++ more = streamBytes ms ++ r) (residue : Residue r)
    (small : ∀ m ∈ ms, m.small) :
    Residue b ∨ ∃ m ms' rest, ms = m :: ms' ∧ b = m.bytes ++ rest ∧
      rest ++ more = streamBytes ms' ++ r := by
  cases ms with
  | nil =>
    left
    rw [streamBytes, List.flatMap_nil, List.nil_append] at stream
    rw [← stream] at residue
    exact residue_of_append residue
  | cons m ms =>
    have hm : m.small := small m List.mem_cons_self
    rw [streamBytes, List.flatMap_cons, List.append_assoc, List.append_eq_append_iff] at stream
    obtain ⟨a, bytes, tail⟩ | ⟨a, bytes, tail⟩ := stream
    · by_cases ha : a = []
      · subst ha
        rw [List.append_nil] at bytes
        exact .inr ⟨m, ms, [], rfl, by rw [bytes, List.append_nil], by simpa [streamBytes] using tail⟩
      · exact .inl (residue_of_frameBytes hm bytes ha)
    · exact .inr ⟨m, ms, a, rfl, bytes, tail.symm⟩

section Refinement
variable {σ : Type} {handle : Frame → Exec σ Bool}

/-- The loop ends as the handler does; as long as the peer is there, `P` holds of the
decoder. -/
inductive Agrees (P : FrameStreamDecoder → Prop) :
    EStateM.Result Exn σ Bool → EStateM.Result Exn (FrameStreamDecoder × σ) Bool → Prop
  | going {d : FrameStreamDecoder} {t : σ} (h : P d) : Agrees P (.ok false t) (.ok false (d, t))
  | lost {d : FrameStreamDecoder} {t : σ} : Agrees P (.ok true t) (.ok true (d, t))
  | raised {e : Exn} {d : FrameStreamDecoder} {t : σ} : Agrees P (.error e t) (.error e (d, t))

/-- The buffer holds an incomplete frame of what is left of the stream. -/
def Waiting (ms : List Message) (more r : ByteString) (d : FrameStreamDecoder) : Prop :=
  Residue d.buffer ∧ d.buffer ++ more = streamBytes ms ++ r

variable (handle) in
theorem drain_agrees {ms : List Message} {b more r : ByteString}
    (stream : b ++ more = streamBytes ms ++ r) (residue : Residue r)
    (small : ∀ m ∈ ms, m.small) (s : σ) :
    ∃ done left, ms = done ++ left ∧
      Agrees (Waiting left more r) ((deliverAll handle (done.map Message.frame)).run s)
        (drain handle (⟨b⟩, s)) := by
  induction ms generalizing b s with
  | nil =>
    have hb : Residue b := by
      obtain hb | ⟨m, ms', rest, h, -⟩ := residue_or_message stream residue small
      · exact hb
      · cases h
    rw [drain_residue hb]
    exact ⟨[], [], rfl, .going ⟨hb, stream⟩⟩
  | cons m ms ih =>
    obtain hb | ⟨m', ms', rest, h, bytes, tail⟩ := residue_or_message stream residue small
    · rw [drain_residue hb]
      exact ⟨[], m :: ms, rfl, .going ⟨hb, stream⟩⟩
    · cases h
      rw [drain_frame (small m List.mem_cons_self) bytes]
      cases hh : (handle m.frame).run s with
      | error e t =>
        refine ⟨[m], ms, rfl, ?_⟩
        rw [List.map_singleton, deliverAll, run_bind_of_error hh]
        exact .raised
      | ok lost t =>
        cases lost with
        | true =>
          refine ⟨[m], ms, rfl, ?_⟩
          rw [List.map_singleton, deliverAll, run_bind_of_ok hh]
          exact .lost
        | false =>
          obtain ⟨done, left, hms, agrees⟩ :=
            ih tail (fun m hm => small m (List.mem_cons_of_mem _ hm)) t
          refine ⟨m :: done, left, by rw [hms, List.cons_append], ?_⟩
          rw [List.map_cons, deliverAll, run_bind_of_ok hh]
          exact agrees

/-- Pushing a chunk and then draining is draining the extended buffer. -/
theorem receive_run (chunk : ByteString) (d : FrameStreamDecoder) (s : σ) :
    (receive handle chunk).run (d, s) = drain handle (⟨d.buffer ++ chunk⟩, s) := by
  have pushed := pushFrame_run chunk d s
  have ho := decodeOne_outcome (d.buffer ++ chunk)
  generalize hd : decodeOne (d.buffer ++ chunk) = res at ho pushed
  cases ho with
  | residue _ => rw [receive, run_bind_of_ok pushed]; rfl
  | malformed e =>
    rw [receive, run_bind_of_error pushed, drain_malformed (d := ⟨d.buffer ++ chunk⟩) hd]
  | frame t payload rest small bytes =>
    dsimp only at pushed
    rw [bytes, drop_frameBytes] at pushed
    rw [receive, run_bind_of_ok pushed,
      drain_frame (d := ⟨d.buffer ++ chunk⟩) (m := (t, payload)) small bytes]
    have delivered := deliver_run handle (Message.frame (t, payload)) ⟨rest⟩ s
    cases hh : (handle (Message.frame (t, payload))).run s with
    | error e x =>
      rw [hh] at delivered
      exact run_bind_of_error delivered
    | ok lost x =>
      rw [hh] at delivered
      refine (run_bind_of_ok delivered).trans ?_
      cases lost <;> rfl

/-- A buffer that waits for bytes does not start with a whole message. -/
theorem eq_nil_of_residue {ms : List Message} {b r : ByteString} (residue : Residue b)
    (stream : b = streamBytes ms ++ r) (small : ∀ m ∈ ms, m.small) : ms = [] := by
  cases ms with
  | nil => rfl
  | cons m ms =>
    have hm : m.small := small m List.mem_cons_self
    rw [streamBytes, List.flatMap_cons, List.append_assoc] at stream
    have whole := decodeOne_frameBytes m.1 (List.flatMap Message.bytes ms ++ r) hm
    rw [← Message.bytes, ← stream, decodeOne_of_residue residue] at whole
    cases whole

variable (handle) in
theorem receiveAll_agrees_from {ms : List Message} {chunks : List ByteString} {b r : ByteString}
    (waiting : Residue b) (stream : b ++ chunks.flatten = streamBytes ms ++ r)
    (residue : Residue r) (small : ∀ m ∈ ms, m.small) (s : σ) :
    Agrees (fun d => d.buffer = r) ((deliverAll handle (ms.map Message.frame)).run s)
      ((receiveAll handle chunks).run (⟨b⟩, s)) := by
  induction chunks generalizing ms b s with
  | nil =>
    rw [List.flatten_nil, List.append_nil] at stream
    obtain rfl := eq_nil_of_residue waiting stream small
    exact .going stream
  | cons chunk chunks ih =>
    rw [List.flatten_cons, ← List.append_assoc] at stream
    obtain ⟨done, left, rfl, agrees⟩ := drain_agrees handle stream residue small s
    rw [receiveAll, EStateM.run_bind, receive_run, List.map_append, deliverAll_append]
    dsimp only
    generalize (deliverAll handle (done.map Message.frame)).run s = x at agrees
    generalize drain handle (⟨b ++ chunk⟩, s) = y at agrees
    cases agrees with
    | raised => exact .raised
    | lost => exact .lost
    | @going d t h =>
      exact ih h.1 h.2 (fun m hm => small m (List.mem_append_right _ hm)) t

variable (handle) in
/-- However a well-formed stream is cut, the loop does what its handler does on the
messages in order, and keeps only the unfinished rest. -/
theorem receiveAll_agrees {ms : List Message} {chunks : List ByteString} {r : ByteString}
    (stream : chunks.flatten = streamBytes ms ++ r) (residue : Residue r)
    (small : ∀ m ∈ ms, m.small) (s : σ) :
    Agrees (fun d => d.buffer = r) ((deliverAll handle (ms.map Message.frame)).run s)
      ((receiveAll handle chunks).run ({}, s)) :=
  receiveAll_agrees_from handle (.inl (by decide)) stream residue small s

end Refinement

/-- The handler that records what it is given. -/
def collect (f : Frame) : Exec (List Frame) Bool := do
  modify fun fs => fs ++ [f]
  return false

theorem deliverAll_collect (fs acc : List Frame) :
    (deliverAll collect fs).run acc = .ok false (acc ++ fs) := by
  induction fs generalizing acc with
  | nil => rw [List.append_nil]; rfl
  | cons f fs ih =>
    have step : (collect f).run acc = .ok false (acc ++ [f]) := rfl
    have rest := ih (acc ++ [f])
    rw [List.append_assoc, List.singleton_append] at rest
    rw [deliverAll, run_bind_of_ok step]
    exact rest

theorem mapM_encodeFrame {ms : List Message} (small : ∀ m ∈ ms, m.small) :
    (ms.mapM fun m => encodeFrame m.1.toU16 m.2) = .ok (ms.map Message.bytes) := by
  induction ms with
  | nil => rfl
  | cons m ms ih =>
    rw [List.mapM_cons, encodeFrame_of_le (small m List.mem_cons_self),
      ih fun m hm => small m (List.mem_cons_of_mem _ hm)]
    rfl

/-- Every list of messages is encoded, and arrives complete, in order and once, under
every way of cutting its bytes into chunks. -/
theorem frames_survive_segmentation (ms : List (MsgType × ByteString))
    (small : ∀ m ∈ ms, m.2.length ≤ kMaxPayloadLength) :
    ∃ encoded : List ByteString,
      (ms.mapM fun m => encodeFrame m.1.toU16 m.2) = .ok encoded ∧
      ∀ chunks : List ByteString, chunks.flatten = encoded.flatten →
        ∃ d : FrameStreamDecoder, d.buffered = 0 ∧
          (receiveAll collect chunks).run ({}, []) =
            .ok false (d, ms.map fun m => { type := m.1.toU16, payload := m.2 }) := by
  refine ⟨ms.map Message.bytes, mapM_encodeFrame small, fun chunks cut => ?_⟩
  have stream : chunks.flatten = streamBytes ms ++ [] := by
    rw [cut, List.append_nil, streamBytes, List.flatMap_def]
  have agrees := receiveAll_agrees collect stream (.inl (by decide)) small []
  rw [deliverAll_collect, List.nil_append] at agrees
  generalize (receiveAll collect chunks).run ({}, []) = res at agrees
  cases agrees with
  | @going d t h =>
    refine ⟨d, ?_, rfl⟩
    rw [buffered, h]
    rfl

theorem frames_survive_single_bytes :
    ∃ encoded : List ByteString,
      (([(.ping, [1, 2]), (.shutdown, [])] : List (MsgType × ByteString)).mapM
        fun m => encodeFrame m.1.toU16 m.2) = .ok encoded ∧
      ∃ d : FrameStreamDecoder, d.buffered = 0 ∧
        (receiveAll collect (encoded.flatten.map fun b => [b])).run ({}, []) =
          .ok false (d, [{ type := 18, payload := [1, 2] }, { type := 20, payload := [] }]) := by
  obtain ⟨encoded, h, arrive⟩ :=
    frames_survive_segmentation [(.ping, [1, 2]), (.shutdown, [])] (by decide)
  exact ⟨encoded, h, arrive _ (by rw [← List.flatMap_def, List.flatMap_singleton'])⟩

/-- Whole frames of defined types followed by an unfinished frame. -/
def WellFormedStream (bytes : ByteString) : Prop :=
  ∃ (ms : List Message) (r : ByteString), (∀ m ∈ ms, m.small) ∧ Residue r ∧
    bytes = streamBytes ms ++ r

section Converse
variable {σ : Type} {handle : Frame → Exec σ Bool}

theorem drain_wellFormed (steady : ∀ f s, ∃ t, (handle f).run s = .ok false t) {b : ByteString}
    {s t : σ} {lost : Bool} {d : FrameStreamDecoder}
    (ended : drain handle (⟨b⟩, s) = .ok lost (d, t)) :
    lost = false ∧ ∃ ms : List Message, (∀ m ∈ ms, m.small) ∧ Residue d.buffer ∧
      b = streamBytes ms ++ d.buffer := by
  induction hn : b.length using Nat.strong_induction_on generalizing b s with
  | _ n ih =>
    have ho := decodeOne_outcome b
    generalize hd : decodeOne b = res at ho
    cases ho with
    | residue h =>
      rw [drain_residue (d := ⟨b⟩) h] at ended
      cases ended
      exact ⟨rfl, [], by simp, h, rfl⟩
    | malformed e =>
      rw [drain_malformed (d := ⟨b⟩) hd] at ended
      cases ended
    | frame ty payload rest small bytes =>
      obtain ⟨x, hx⟩ := steady (Message.frame (ty, payload)) s
      rw [drain_frame (d := ⟨b⟩) (m := (ty, payload)) small bytes, hx] at ended
      have shorter : rest.length < n := by
        have size : kFrameHeaderSize = 20 := rfl
        rw [← hn, bytes, List.length_append, length_frameBytes]
        omega
      obtain ⟨going, ms, hms, residue, hrest⟩ := ih rest.length shorter ended rfl
      refine ⟨going, (ty, payload) :: ms, ?_, residue, ?_⟩
      · rintro m (_ | ⟨_, hm⟩)
        · exact small
        · exact hms m hm
      · rw [bytes, streamBytes, List.flatMap_cons, List.append_assoc, ← streamBytes, ← hrest]
        rfl

theorem streamBytes_append (ms ns : List Message) :
    streamBytes (ms ++ ns) = streamBytes ms ++ streamBytes ns := List.flatMap_append

/-- When every reply is sent, a loop that ends without an exception has read a
well-formed stream. -/
theorem wellFormed_of_receiveAll (steady : ∀ f s, ∃ t, (handle f).run s = .ok false t)
    {chunks : List ByteString} {b : ByteString} {s : σ} {lost : Bool}
    {t : FrameStreamDecoder × σ} (waiting : Residue b)
    (ended : (receiveAll handle chunks).run (⟨b⟩, s) = .ok lost t) :
    WellFormedStream (b ++ chunks.flatten) := by
  induction chunks generalizing b s with
  | nil => exact ⟨[], b, by simp, waiting, by rw [List.flatten_nil, List.append_nil]; rfl⟩
  | cons chunk chunks ih =>
    rw [receiveAll, EStateM.run_bind, receive_run] at ended
    dsimp only at ended
    cases hd : drain handle (⟨b ++ chunk⟩, s) with
    | error e y => rw [hd] at ended; cases ended
    | ok l y =>
      obtain ⟨d, x⟩ := y
      obtain ⟨rfl, ms, small, residue, bytes⟩ := drain_wellFormed steady hd
      rw [hd] at ended
      obtain ⟨ns, r, smalls, hr, tail⟩ := ih residue ended
      refine ⟨ms ++ ns, r, ?_, hr, ?_⟩
      · intro m hm
        exact (List.mem_append.mp hm).elim (small m) (smalls m)
      · rw [List.flatten_cons, ← List.append_assoc, bytes, List.append_assoc, tail,
          streamBytes_append, List.append_assoc]

end Converse

end NumaFabric.FrameStream
