import NumaFabric.FrameStream

/-! Decoding of arbitrary bytes, malformed ones included: what a decoder delivers and how
it ends depend only on the bytes, and a malformed head is never left behind. -/
namespace NumaFabric.FrameSegmentation
open FaultState ByteCodec FrameStreamDecoder FrameStream

/-- A decoder, what it has delivered, and how its last drain ended. -/
structure Reception where
  decoder : FrameStreamDecoder := {}
  frames : List Frame := []
  verdict : Option Exn := none
  deriving DecidableEq, Repr

def Reception.ended : EStateM.Result Exn (FrameStreamDecoder × List Frame) Bool → Reception
  | .ok _ (d, fs) => ⟨d, fs, none⟩
  | .error e (d, fs) => ⟨d, fs, some e⟩

/-- Push a chunk and drain until nothing is complete or an error is raised. -/
def Reception.feed (r : Reception) (chunk : ByteString) : Reception :=
  .ended ((receive collect chunk).run (r.decoder, r.frames))

/-- Later chunks are fed whatever happened before. -/
def feedAll (chunks : List ByteString) : Reception := chunks.foldl Reception.feed {}

def drained (b : ByteString) (fs : List Frame) : Reception := .ended (drain collect (⟨b⟩, fs))

theorem feed_eq (r : Reception) (chunk : ByteString) :
    r.feed chunk = drained (r.decoder.buffer ++ chunk) r.frames := by
  rw [Reception.feed, receive_run, drained]

theorem drained_residue {b : ByteString} (h : Residue b) (fs : List Frame) :
    drained b fs = ⟨⟨b⟩, fs, none⟩ := by
  rw [drained, drain_residue h]
  rfl

theorem drained_malformed {b : ByteString} {e : Exn} (h : decodeOne b = .error e)
    (fs : List Frame) : drained b fs = ⟨⟨b⟩, fs, some e⟩ := by
  rw [drained, drain_malformed h]
  rfl

theorem drained_frame {m : Message} (small : m.small) (rest : ByteString) (fs : List Frame) :
    drained (m.bytes ++ rest) fs = drained rest (fs ++ [m.frame]) := by
  rw [drained, drain_frame small rfl]
  rfl

/-- The buffer starts with a whole message, waits for bytes, or is refused. -/
theorem buffer_cases (b : ByteString) :
    Residue b ∨ (∃ e, decodeOne b = .error (.protocol e)) ∨
      ∃ (m : Message) (rest : ByteString), m.small ∧ b = m.bytes ++ rest := by
  have outcome := decodeOne_outcome b
  generalize decodeOne b = res at outcome
  cases outcome with
  | residue h => exact .inl h
  | malformed e => exact .inr (.inl ⟨e, rfl⟩)
  | frame t payload rest small bytes => exact .inr (.inr ⟨(t, payload), rest, small, bytes⟩)

theorem length_lt_of_message (m : Message) (rest : ByteString) :
    rest.length < (m.bytes ++ rest).length := by
  have size : kFrameHeaderSize = 20 := rfl
  simp only [List.length_append, Message.bytes, length_frameBytes]
  omega

/-- A drain leaves off exactly where the bytes that follow have to be read. -/
theorem drained_append (b more : ByteString) (fs : List Frame) :
    drained ((drained b fs).decoder.buffer ++ more) (drained b fs).frames =
      drained (b ++ more) fs := by
  induction hn : b.length using Nat.strong_induction_on generalizing b fs with
  | _ n ih =>
    rcases buffer_cases b with residue | ⟨e, malformed⟩ | ⟨m, rest, small, rfl⟩
    · rw [drained_residue residue]
    · rw [drained_malformed malformed]
    · rw [drained_frame small, List.append_assoc, drained_frame small]
      exact ih _ (hn ▸ length_lt_of_message m rest) rest _ rfl

theorem feed_feed (r : Reception) (x y : ByteString) : (r.feed x).feed y = r.feed (x ++ y) := by
  simp only [feed_eq, drained_append, List.append_assoc]

theorem feed_flatten (r : Reception) (chunk : ByteString) (chunks : List ByteString) :
    chunks.foldl Reception.feed (r.feed chunk) = r.feed (chunk ++ chunks.flatten) := by
  induction chunks generalizing chunk with
  | nil => simp
  | cons c cs ih => rw [List.foldl_cons, feed_feed, ih, List.flatten_cons, List.append_assoc]

theorem feed_nil : Reception.feed {} [] = {} := by
  rw [feed_eq]
  exact drained_residue (.inl (by decide)) []

/-- Feeding chunks is feeding their concatenation at once. -/
theorem feedAll_eq (chunks : List ByteString) :
    feedAll chunks = Reception.feed {} chunks.flatten := by
  have h := feed_flatten {} [] chunks
  rwa [feed_nil, List.nil_append] at h

/-- A drain that was not refused leaves an unfinished frame. -/
theorem residue_of_verdict {b : ByteString} {fs : List Frame} (h : (drained b fs).verdict = none) :
    Residue (drained b fs).decoder.buffer := by
  induction hn : b.length using Nat.strong_induction_on generalizing b fs with
  | _ n ih =>
    rcases buffer_cases b with residue | ⟨e, malformed⟩ | ⟨m, rest, small, rfl⟩
    · rw [drained_residue residue]
      exact residue
    · rw [drained_malformed malformed] at h
      cases h
    · rw [drained_frame small] at h ⊢
      exact ih _ (hn ▸ length_lt_of_message m rest) h rfl

theorem length_lt_of_residue {b : ByteString} (h : Residue b) :
    b.length < kFrameHeaderSize + kMaxPayloadLength := by
  rcases h with short | ⟨⟨_, _, size⟩, incomplete⟩ <;> omega

section Refusal

/-- The head of these bytes is malformed. -/
def Refused (b : ByteString) : Prop := ∃ e, decodeOne b = .error e

theorem not_refused_of_residue {b : ByteString} (h : Residue b) : ¬ Refused b := by
  rintro ⟨e, refused⟩
  rw [decodeOne_of_residue h] at refused
  cases refused

theorem not_refused_of_message {m : Message} (small : m.small) (rest : ByteString) :
    ¬ Refused (m.bytes ++ rest) := by
  rintro ⟨e, refused⟩
  rw [Message.bytes, decodeOne_frameBytes m.1 rest small] at refused
  cases refused

/-- The checks are made at different fill levels, but none is undone by more bytes. -/
theorem Refused.append {b : ByteString} (refused : Refused b) (more : ByteString) :
    Refused (b ++ more) := by
  rcases buffer_cases (b ++ more) with residue | ⟨e, malformed⟩ | ⟨m, rest, small, bytes⟩
  · exact absurd refused (not_refused_of_residue (residue_of_append residue))
  · exact ⟨_, malformed⟩
  · rw [List.append_eq_append_iff] at bytes
    rcases bytes with ⟨a, whole, -⟩ | ⟨a, rfl, -⟩
    · by_cases ha : a = []
      · subst ha
        rw [List.append_nil] at whole
        rw [← whole, ← List.append_nil m.bytes] at refused
        exact absurd refused (not_refused_of_message small [])
      · exact absurd refused (not_refused_of_residue (residue_of_frameBytes small whole ha))
    · exact absurd refused (not_refused_of_message small a)

/-- The decoder after some pushes, thrown or not. -/
def pushAll (d : FrameStreamDecoder) (chunks : List ByteString) : FrameStreamDecoder :=
  chunks.foldl (fun d chunk => stateAfter (push chunk) d) d

theorem Refused.push {d : FrameStreamDecoder} (refused : Refused d.buffer) (chunk : ByteString) :
    ∃ e, (push chunk).run d = .error e ⟨d.buffer ++ chunk⟩ := by
  obtain ⟨e, he⟩ := refused.append chunk
  exact ⟨e, by rw [push_run, he]⟩

theorem refused_of_push {d t : FrameStreamDecoder} {e : Exn} {chunk : ByteString}
    (h : (push chunk).run d = .error e t) : Refused t.buffer := by
  rw [push_run] at h
  cases hd : decodeOne (d.buffer ++ chunk) with
  | error e' =>
    rw [hd] at h
    cases h
    exact ⟨_, hd⟩
  | ok o =>
    rw [hd] at h
    cases o with
    | none => cases h
    | some p => cases h

theorem Refused.pushAll {d : FrameStreamDecoder} (refused : Refused d.buffer)
    (chunks : List ByteString) : Refused (pushAll d chunks).buffer := by
  induction chunks generalizing d with
  | nil => exact refused
  | cons c cs ih =>
    obtain ⟨e, thrown⟩ := refused.push c
    have after : stateAfter (FrameStreamDecoder.push c) d = ⟨d.buffer ++ c⟩ := stateAfter_of_error thrown
    refine ih ?_
    dsimp only
    rw [after]
    exact refused.append c

end Refusal

/-- For all bytes: the frames and the verdict do not depend on how they are cut, a decoder
that has thrown throws on every later push, and what waits for bytes is bounded. -/
theorem decoding_ignores_segmentation :
    (∀ chunks chunks' : List ByteString, chunks.flatten = chunks'.flatten →
      (feedAll chunks).frames = (feedAll chunks').frames ∧
        (feedAll chunks).verdict = (feedAll chunks').verdict) ∧
    (∀ (d t : FrameStreamDecoder) (e : Exn) (chunk : ByteString),
      (push chunk).run d = .error e t → ∀ (later : List ByteString) (next : ByteString),
        ∃ e' u, (push next).run (pushAll t later) = .error e' u) ∧
    (∀ (r : Reception) (chunk : ByteString), (r.feed chunk).verdict = none →
      (r.feed chunk).decoder.buffered < 20 + 2 ^ 24) := by
  refine ⟨fun chunks chunks' cut => ?_, fun d t e chunk thrown later next => ?_,
    fun r chunk ended => ?_⟩
  · rw [feedAll_eq, feedAll_eq, cut]
    exact ⟨rfl, rfl⟩
  · obtain ⟨e', thrown'⟩ := ((refused_of_push thrown).pushAll later).push next
    exact ⟨e', _, thrown'⟩
  · rw [feed_eq] at ended ⊢
    exact length_lt_of_residue (residue_of_verdict ended)

theorem decoding_ignores_segmentation_bad_magic :
    (feedAll [List.replicate 20 0]).verdict =
        (feedAll [List.replicate 7 0, List.replicate 13 0]).verdict ∧
      (∃ e u, (push [1]).run (pushAll ⟨List.replicate 20 0⟩ [[2]]) = .error e u) ∧
      (Reception.feed {} [1]).decoder.buffered < 20 + 2 ^ 24 := by
  obtain ⟨cut, thrown, bounded⟩ := decoding_ignores_segmentation
  have malformed : (push (List.replicate 20 0)).run {} =
      .error (.protocol .malformedMagic) ⟨List.replicate 20 0⟩ := by
    rw [push_run]
    rfl
  have waiting : (Reception.feed {} [1]).verdict = none := by
    rw [feed_eq]
    exact congrArg Reception.verdict (drained_residue (.inl (by decide)) [])
  exact ⟨(cut [List.replicate 20 0] [List.replicate 7 0, List.replicate 13 0] rfl).2,
    thrown _ _ _ _ malformed [[2]] [1], bounded {} [1] waiting⟩

end NumaFabric.FrameSegmentation
