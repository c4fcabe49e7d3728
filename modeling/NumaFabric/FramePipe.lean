import NumaFabric.FrameSegmentation

/-! One direction of a connection: the bytes that were sent and not received, and the decoder
they are received into. -/
namespace NumaFabric
open FaultState FrameStreamDecoder FrameStream FrameSegmentation

/-- The size of the buffer both ends receive into. -/
def kReceiveBuffer : ℕ := 16 * 1024

structure Pipe where
  wire : ByteString := []
  decoder : FrameStreamDecoder := {}
  deriving DecidableEq, Repr

namespace Pipe

def write (bytes : ByteString) (p : Pipe) : Pipe := { p with wire := p.wire ++ bytes }

/-- Receive up to `n` bytes and push them; `read 0` pushes nothing. -/
def read (n : ℕ) : Exec Pipe (Option Frame) := do
  let chunk := (← get).wire.take (min n kReceiveBuffer)
  modify fun p => { p with wire := p.wire.drop (min n kReceiveBuffer) }
  zoom Pipe.decoder (fun p d => { p with decoder := d }) (push chunk)

/-- What the pipe carries: whole messages that nobody has taken yet, and behind them the
start of a frame that is never finished. -/
structure Carries (p : Pipe) (ms : List Message) (cut : ByteString) : Prop where
  small : ∀ m ∈ ms, m.small
  residue : Residue cut
  stream : p.decoder.buffer ++ p.wire = streamBytes ms ++ cut

theorem carries_empty : Carries {} [] [] := ⟨by simp, .inl (by decide), rfl⟩

variable {p : Pipe} {ms : List Message} {cut : ByteString}

theorem streamBytes_concat (ms : List Message) (m : Message) :
    streamBytes (ms ++ [m]) = streamBytes ms ++ m.bytes := by
  simp [streamBytes]

theorem Carries.write (h : p.Carries ms []) {m : Message} (small : m.small) :
    (p.write m.bytes).Carries (ms ++ [m]) [] where
  small := by
    intro x hx
    rcases List.mem_append.mp hx with old | new
    · exact h.small x old
    · simpa [List.mem_singleton.mp new] using small
  residue := h.residue
  stream := by
    have stream := h.stream
    simp only [List.append_nil] at stream
    simp [Pipe.write, streamBytes_concat, ← List.append_assoc, stream]

/-- A send that breaks off leaves the start of a frame behind. -/
theorem Carries.write_cut (h : p.Carries ms []) {m : Message} (small : m.small) {k : ℕ}
    (missing : k < m.bytes.length) : (p.write (m.bytes.take k)).Carries ms (m.bytes.take k) where
  small := h.small
  residue := residue_of_frameBytes small (List.take_append_drop k m.bytes).symm (by simpa using missing)
  stream := by
    have stream := h.stream
    simp only [List.append_nil] at stream
    simp [Pipe.write, ← List.append_assoc, stream]

/-- What a receive can do when whole messages are sent: take the first of them, or nothing. -/
inductive ReadOutcome (ms : List Message) (cut : ByteString) :
    EStateM.Result Exn Pipe (Option Frame) → Prop
  | nothing (q : Pipe) (carries : q.Carries ms cut) (waits : Residue q.decoder.buffer) :
      ReadOutcome ms cut (.ok none q)
  | message (q : Pipe) (m : Message) (rest : List Message) (first : ms = m :: rest)
      (carries : q.Carries rest cut) : ReadOutcome ms cut (.ok (some m.frame) q)

theorem Carries.read (h : p.Carries ms cut) (n : ℕ) : ReadOutcome ms cut ((Pipe.read n).run p) := by
  have split : p.decoder.buffer ++ p.wire.take (min n kReceiveBuffer) ++
      p.wire.drop (min n kReceiveBuffer) = streamBytes ms ++ cut := by
    simpa [List.append_assoc] using h.stream
  simp only [Pipe.read, EStateM.run_bind, EStateM.run_get, EStateM.run_modify, run_zoom, push_run]
  rcases residue_or_message split h.residue h.small with waits | ⟨m, rest, tail, rfl, bytes, left⟩
  · rw [decodeOne_of_residue waits]
    exact .nothing _ ⟨h.small, h.residue, split⟩ waits
  · have small : m.small := h.small m (by simp)
    rw [bytes, Message.bytes, decodeOne_frameBytes m.1 tail small]
    dsimp only
    rw [drop_frameBytes]
    exact .message _ m rest rfl ⟨fun x hx => h.small x (by simp [hx]), h.residue, left⟩

theorem wire_read {n : ℕ} {q : Pipe} {next : Option Frame} (h : (Pipe.read n).run p = .ok next q) :
    q.wire = p.wire.drop (min n kReceiveBuffer) := by
  simp only [Pipe.read, EStateM.run_bind, EStateM.run_get, EStateM.run_modify, run_zoom, push_run] at h
  cases hd : decodeOne (p.decoder.buffer ++ p.wire.take (min n kReceiveBuffer)) with
  | error e =>
    rw [hd] at h
    cases h
  | ok o =>
    rw [hd] at h
    cases o <;> cases h <;> rfl

/-- A receive buffers no more than it reads on top of what was there. -/
theorem length_read {n : ℕ} {q : Pipe} {next : Option Frame} (h : (Pipe.read n).run p = .ok next q) :
    q.decoder.buffer.length ≤ p.decoder.buffer.length + min n kReceiveBuffer := by
  have most := List.length_take_le (min n kReceiveBuffer) p.wire
  simp only [Pipe.read, EStateM.run_bind, EStateM.run_get, EStateM.run_modify, run_zoom, push_run] at h
  cases hd : decodeOne (p.decoder.buffer ++ p.wire.take (min n kReceiveBuffer)) with
  | error e =>
    rw [hd] at h
    cases h
  | ok o =>
    rw [hd] at h
    cases o with
    | none =>
      cases h
      simp only [List.length_append]
      omega
    | some r =>
      cases h
      simp only [List.length_drop, List.length_append]
      omega

/-- A pipe whose bytes are all received and wait for more carries no message. -/
theorem Carries.drained (h : p.Carries ms cut) (received : p.wire = [])
    (waits : Residue p.decoder.buffer) : ms = [] := by
  have stream := h.stream
  rw [received, List.append_nil] at stream
  exact eq_nil_of_residue waits stream h.small

end Pipe

end NumaFabric
