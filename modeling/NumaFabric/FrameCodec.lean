import NumaFabric.ByteCodec
import NumaFabric.CoreErrors

/-! The framed binary protocol: checksum, frame encoding, and the stream decoder that
buffers received bytes and extracts one frame per call. -/
namespace NumaFabric
open FaultState ByteCodec

/-- `NUMAFRM1`. -/
def kMagic : ByteString := [0x4E, 0x55, 0x4D, 0x41, 0x46, 0x52, 0x4D, 0x31]

def kProtocolVersion : U16 := 1

def kFrameHeaderSize : ℕ := 8 + 2 + 2 + 4 + 4

def kMaxPayloadLength : ℕ := 2 ^ 24

inductive MsgType
  | hello | register | registerAck | discoverRequest | discoverReply | placementRequest
  | placementReply | reserveRequest | reserveReply | releaseRequest | releaseReply | bindRequest
  | bindReply | migrateRequest | migrateReply | observeReport | observeAck | ping | pong | shutdown
  | workerLost | revalidateRequest | revalidateReply | error
  deriving DecidableEq, Repr

namespace MsgType

/-- The enumerators count from one. -/
def toU16 (t : MsgType) : U16 := BitVec.ofNat 16 (t.ctorIdx + 1)

def defined : List MsgType :=
  [hello, register, registerAck, discoverRequest, discoverReply, placementRequest, placementReply,
    reserveRequest, reserveReply, releaseRequest, releaseReply, bindRequest, bindReply,
    migrateRequest, migrateReply, observeReport, observeAck, ping, pong, shutdown, workerLost,
    revalidateRequest, revalidateReply, error]

/-- The cases of the decoder's switch; `none` is its default. -/
def ofU16? (n : U16) : Option MsgType := defined.find? fun t => t.toU16 == n

@[simp] theorem ofU16?_toU16 (t : MsgType) : ofU16? t.toU16 = some t := by
  cases t <;> decide

theorem toU16_of_ofU16? {n : U16} {t : MsgType} (h : ofU16? n = some t) : t.toU16 = n := by
  simpa using List.find?_some h

end MsgType

structure Frame where
  version : U16 := kProtocolVersion
  type : U16 := 0
  payload : ByteString := []
  deriving DecidableEq, Repr

/-- One bit of the reflected IEEE 802.3 polynomial division. -/
def crcStep (c : U32) : U32 := if c &&& 1 = 0 then c >>> 1 else 0xEDB88320 ^^^ (c >>> 1)

/-- An entry of the checksum table. -/
def crcEntry (i : U32) : U32 := crcStep^[8] i

def crc32 (data : ByteString) : U32 :=
  data.foldl (fun crc b => crcEntry ((crc ^^^ b.setWidth 32) &&& 0xFF) ^^^ (crc >>> 8))
    0xFFFFFFFF ^^^ 0xFFFFFFFF

/-- The header up to the checksum field. -/
def frameHead (type : U16) (payload : ByteString) : ByteString :=
  kMagic ++ toBytes 2 kProtocolVersion ++ toBytes 2 type ++
    toBytes 4 (BitVec.ofNat 32 payload.length)

def frameBytes (type : U16) (payload : ByteString) : ByteString :=
  let out := frameHead type payload
  let crc := crc32 (out ++ payload)
  out ++ toBytes 4 crc ++ payload

def encodeFrame (type : U16) (payload : ByteString) : Except Exn ByteString :=
  if kMaxPayloadLength < payload.length then .error (.protocol .payloadTooLarge)
  else .ok (frameBytes type payload)

structure FrameStreamDecoder where
  buffer : ByteString := []
  deriving DecidableEq, Repr

namespace FrameStreamDecoder

/-- The first frame of the bytes and its size, nothing when more bytes are needed. -/
def decodeOne (data : ByteString) : Except Exn (Option (Frame × ℕ)) :=
  if data.length < kFrameHeaderSize then .ok none
  else if data.take 8 ≠ kMagic then .error (.protocol .malformedMagic)
  else
    let version : U16 := field 16 2 8 data
    if version ≠ kProtocolVersion then .error (.protocol .unsupportedVersion)
    else
      let type : U16 := field 16 2 10 data
      let len := (field 32 4 12 data).toNat
      if kMaxPayloadLength < len then .error (.protocol .impossibleLength)
      else
        let total := kFrameHeaderSize + len
        if data.length < total then .ok none
        else
          let payload := (data.drop kFrameHeaderSize).take len
          if crc32 (data.take 16 ++ payload) ≠ field 32 4 16 data then
            .error (.protocol .corruptedChecksum)
          else
            match MsgType.ofU16? type with
            | none => .error (.protocol .unknownType)
            | some _ => .ok (some ({ version, type, payload }, total))

def tryExtract : Exec FrameStreamDecoder (Option Frame) := do
  match ← ofExcept (decodeOne (← get).buffer) with
  | none => return none
  | some (frame, consumed) =>
    modify fun d => { d with buffer := d.buffer.drop consumed }
    return some frame

def push (data : ByteString) : Exec FrameStreamDecoder (Option Frame) := do
  modify fun d => { d with buffer := d.buffer ++ data }
  tryExtract

def buffered (d : FrameStreamDecoder) : ℕ := d.buffer.length

end FrameStreamDecoder

theorem encodeFrame_of_le {type : U16} {payload : ByteString}
    (h : payload.length ≤ kMaxPayloadLength) :
    encodeFrame type payload = .ok (frameBytes type payload) := if_neg (by omega)

theorem length_frameHead (type : U16) (payload : ByteString) :
    (frameHead type payload).length = 16 := rfl

theorem length_frameBytes (type : U16) (payload : ByteString) :
    (frameBytes type payload).length = kFrameHeaderSize + payload.length := by
  simp only [frameBytes, List.length_append, length_frameHead, length_toBytes, kFrameHeaderSize]

theorem frameBytes_ne_nil (type : U16) (payload : ByteString) : frameBytes type payload ≠ [] := by
  intro h
  have := length_frameBytes type payload
  rw [h, List.length_nil, kFrameHeaderSize] at this
  omega

/-- A received header whose magic, version and length are acceptable. -/
def goodHeader (data : ByteString) : Prop :=
  data.take 8 = kMagic ∧ field 16 2 8 data = kProtocolVersion ∧
    (field 32 4 12 data).toNat ≤ kMaxPayloadLength

instance (data : ByteString) : Decidable (goodHeader data) := inferInstanceAs (Decidable (_ ∧ _))

/-- An incomplete frame that the decoder keeps waiting on. -/
def Residue (data : ByteString) : Prop :=
  data.length < kFrameHeaderSize ∨
    goodHeader data ∧ data.length < kFrameHeaderSize + (field 32 4 12 data).toNat

instance (data : ByteString) : Decidable (Residue data) := inferInstanceAs (Decidable (_ ∨ _))

namespace FrameStreamDecoder

theorem decodeOne_of_residue {data : ByteString} (h : Residue data) : decodeOne data = .ok none := by
  unfold decodeOne
  by_cases short : data.length < kFrameHeaderSize
  · rw [if_pos short]
  · obtain ⟨⟨magic, version, len⟩, incomplete⟩ := h.resolve_left short
    rw [if_neg short, if_neg (not_not.mpr magic)]
    dsimp only
    rw [if_neg (not_not.mpr version), if_neg (Nat.not_lt.mpr len), if_pos incomplete]

section
variable (type : U16) (payload rest : ByteString)

theorem frameBytes_append : frameBytes type payload ++ rest = frameHead type payload ++
    toBytes 4 (crc32 (frameHead type payload ++ payload)) ++ (payload ++ rest) := by
  simp only [frameBytes, List.append_assoc]

theorem take_frameBytes : (frameBytes type payload ++ rest).take 16 = frameHead type payload := by
  rw [frameBytes_append, List.append_assoc, List.take_left' (length_frameHead _ _)]

theorem payload_frameBytes :
    ((frameBytes type payload ++ rest).drop kFrameHeaderSize).take payload.length = payload := by
  have head : (frameHead type payload ++
      toBytes 4 (crc32 (frameHead type payload ++ payload))).length = kFrameHeaderSize := rfl
  rw [frameBytes_append, List.drop_left' head, List.take_left' rfl]

theorem drop_frameBytes :
    (frameBytes type payload ++ rest).drop (kFrameHeaderSize + payload.length) = rest :=
  List.drop_left' (length_frameBytes type payload)

variable {payload}

theorem size_frameBytes (small : payload.length ≤ kMaxPayloadLength) :
    (field 32 4 12 (frameBytes type payload ++ rest)).toNat = payload.length := by
  rw [field_eq (v := BitVec.ofNat 32 payload.length) (by decide)
    (by rw [frameBytes_append]; rfl), BitVec.toNat_ofNat, Nat.mod_eq_of_lt]
  rw [kMaxPayloadLength] at small
  omega

theorem goodHeader_frameBytes (small : payload.length ≤ kMaxPayloadLength) :
    goodHeader (frameBytes type payload ++ rest) := by
  refine ⟨?_, ?_, ?_⟩
  · rw [frameBytes_append]
    rfl
  · exact field_eq (by decide) (by rw [frameBytes_append]; rfl)
  · rw [size_frameBytes type rest small]
    exact small

end

theorem decodeOne_frameBytes (t : MsgType) {payload : ByteString} (rest : ByteString)
    (small : payload.length ≤ kMaxPayloadLength) :
    decodeOne (frameBytes t.toU16 payload ++ rest) =
      .ok (some ({ type := t.toU16, payload }, kFrameHeaderSize + payload.length)) := by
  have total : (frameBytes t.toU16 payload ++ rest).length =
      kFrameHeaderSize + payload.length + rest.length := by
    rw [List.length_append, length_frameBytes]
  obtain ⟨magic, version, -⟩ := goodHeader_frameBytes t.toU16 rest small
  have type : field 16 2 10 (frameBytes t.toU16 payload ++ rest) = t.toU16 :=
    field_eq (by decide) (by rw [frameBytes_append]; rfl)
  have crc : field 32 4 16 (frameBytes t.toU16 payload ++ rest) =
      crc32 (frameHead t.toU16 payload ++ payload) :=
    field_eq (by decide) (by rw [frameBytes_append]; rfl)
  unfold decodeOne
  rw [if_neg (by omega), if_neg (not_not.mpr magic)]
  dsimp only
  rw [version, size_frameBytes t.toU16 rest small, type, crc, take_frameBytes, payload_frameBytes,
    if_neg (not_not.mpr rfl), if_neg (by omega), if_neg (by omega), if_neg (not_not.mpr rfl),
    MsgType.ofU16?_toU16]

theorem goodHeader_append {data : ByteString} (more : ByteString)
    (long : kFrameHeaderSize ≤ data.length) : goodHeader (data ++ more) ↔ goodHeader data := by
  have size : kFrameHeaderSize = 20 := rfl
  rw [goodHeader, field_append more (by omega), field_append more (by omega),
    List.take_append_of_le_length (by omega), goodHeader]

/-- What waits for more bytes was waiting before the last bytes came. -/
theorem residue_of_append {data more : ByteString} (h : Residue (data ++ more)) : Residue data := by
  by_cases long : kFrameHeaderSize ≤ data.length
  · have size : kFrameHeaderSize = 20 := rfl
    right
    rw [Residue, goodHeader_append more long, field_append more (by omega),
      List.length_append] at h
    obtain short | ⟨header, incomplete⟩ := h
    · omega
    · exact ⟨header, by omega⟩
  · exact .inl (Nat.not_le.mp long)

/-- A frame whose last bytes are still to come. -/
theorem residue_of_frameBytes {type : U16} {payload data more : ByteString}
    (small : payload.length ≤ kMaxPayloadLength) (bytes : frameBytes type payload = data ++ more)
    (missing : more ≠ []) : Residue data := by
  have total : data.length + more.length = kFrameHeaderSize + payload.length := by
    rw [← List.length_append, ← bytes, length_frameBytes]
  have pos := List.length_pos_of_ne_nil missing
  by_cases long : kFrameHeaderSize ≤ data.length
  · have size : kFrameHeaderSize = 20 := rfl
    have header := goodHeader_frameBytes type [] small
    have length := size_frameBytes type [] small
    rw [List.append_nil, bytes, goodHeader_append more long] at header
    rw [List.append_nil, bytes, field_append more (by omega)] at length
    exact .inr ⟨header, by omega⟩
  · exact .inl (Nat.not_le.mp long)

/-- Every way the decoder can answer: what it accepts is what the encoder writes. -/
inductive DecodeOutcome (data : ByteString) : Except Exn (Option (Frame × ℕ)) → Prop
  | residue (h : Residue data) : DecodeOutcome data (.ok none)
  | frame (t : MsgType) (payload rest : ByteString) (small : payload.length ≤ kMaxPayloadLength)
      (bytes : data = frameBytes t.toU16 payload ++ rest) :
      DecodeOutcome data
        (.ok (some ({ type := t.toU16, payload }, kFrameHeaderSize + payload.length)))
  | malformed (e : ProtocolError) : DecodeOutcome data (.error (.protocol e))

/-- The fields of a header are its bytes. -/
theorem frameHead_of_fields {data payload : ByteString} (long : kFrameHeaderSize ≤ data.length)
    (magic : data.take 8 = kMagic) (version : field 16 2 8 data = kProtocolVersion)
    (len : (field 32 4 12 data).toNat = payload.length) :
    data.take 16 = frameHead (field 16 2 10 data) payload := by
  have size : kFrameHeaderSize = 20 := rfl
  have split : data.take 16 = data.take 8 ++ (data.drop 8).take 2 ++ (data.drop 10).take 2 ++
      (data.drop 12).take 4 := by
    rw [show 16 = 12 + 4 from rfl, List.take_add, show 12 = 10 + 2 from rfl, List.take_add,
      show 10 = 8 + 2 from rfl, List.take_add]
  rw [split, magic, ← toBytes_field (w := 16) rfl (by omega), ← toBytes_field (w := 16) rfl (by omega),
    ← toBytes_field (w := 32) rfl (by omega), version, frameHead, ← len, BitVec.ofNat_toNat,
    BitVec.setWidth_eq]

/-- A complete frame that passes the checksum is the encoding of its own fields. -/
theorem eq_frameBytes_of_fields {data : ByteString} (header : goodHeader data)
    (complete : kFrameHeaderSize + (field 32 4 12 data).toNat ≤ data.length)
    (crc : crc32 (data.take 16 ++ (data.drop kFrameHeaderSize).take (field 32 4 12 data).toNat) =
      field 32 4 16 data) :
    ∃ payload rest, payload = (data.drop kFrameHeaderSize).take (field 32 4 12 data).toNat ∧
      payload.length = (field 32 4 12 data).toNat ∧
      data = frameBytes (field 16 2 10 data) payload ++ rest := by
  obtain ⟨magic, version, small⟩ := header
  refine ⟨(data.drop kFrameHeaderSize).take (field 32 4 12 data).toNat,
    data.drop (kFrameHeaderSize + (field 32 4 12 data).toNat), rfl, ?_, ?_⟩
  · rw [List.length_take, List.length_drop]
    omega
  · generalize hp : (data.drop kFrameHeaderSize).take (field 32 4 12 data).toNat = payload at crc ⊢
    have hlen : (field 32 4 12 data).toNat = payload.length := by
      rw [← hp, List.length_take, List.length_drop]
      omega
    have head : data.take 16 = frameHead (field 16 2 10 data) payload :=
      frameHead_of_fields (by omega) magic version hlen
    have size : kFrameHeaderSize = 20 := rfl
    have sum : toBytes 4 (field 32 4 16 data) = (data.drop 16).take 4 :=
      toBytes_field rfl (by omega)
    rw [frameBytes_append, ← head, crc, sum, ← List.append_assoc, ← List.take_add, ← hp,
      List.append_assoc, ← List.drop_drop, List.take_append_drop]
    exact (List.take_append_drop 20 data).symm

theorem decodeOne_outcome (data : ByteString) : DecodeOutcome data (decodeOne data) := by
  unfold decodeOne
  by_cases short : data.length < kFrameHeaderSize
  · rw [if_pos short]
    exact .residue (.inl short)
  rw [if_neg short]
  by_cases magic : data.take 8 = kMagic
  case neg => rw [if_pos magic]; exact .malformed _
  rw [if_neg (not_not.mpr magic)]
  dsimp only
  by_cases version : field 16 2 8 data = kProtocolVersion
  case neg => rw [if_pos version]; exact .malformed _
  rw [if_neg (not_not.mpr version)]
  by_cases long : kMaxPayloadLength < (field 32 4 12 data).toNat
  · rw [if_pos long]
    exact .malformed _
  rw [if_neg long]
  have header : goodHeader data := ⟨magic, version, Nat.not_lt.mp long⟩
  by_cases incomplete : data.length < kFrameHeaderSize + (field 32 4 12 data).toNat
  · rw [if_pos incomplete]
    exact .residue (.inr ⟨header, incomplete⟩)
  rw [if_neg incomplete]
  by_cases crc : crc32 (data.take 16 ++ (data.drop kFrameHeaderSize).take
      (field 32 4 12 data).toNat) = field 32 4 16 data
  case neg => rw [if_pos crc]; exact .malformed _
  rw [if_neg (not_not.mpr crc)]
  obtain ⟨payload, rest, hp, hlen, bytes⟩ :=
    eq_frameBytes_of_fields header (Nat.not_lt.mp incomplete) crc
  rw [← hp, ← hlen, version]
  cases ht : MsgType.ofU16? (field 16 2 10 data) with
  | none => exact .malformed _
  | some t =>
    rw [← MsgType.toU16_of_ofU16? ht] at bytes ⊢
    exact .frame t payload rest (by omega) bytes

end FrameStreamDecoder

end NumaFabric
