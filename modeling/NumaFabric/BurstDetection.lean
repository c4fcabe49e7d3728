import NumaFabric.FrameStream
import NumaFabric.PersistenceRoundtrip
import NumaFabric.ShiftRegister

/-! Corruption in at most four consecutive bytes: it always changes the checksum, and no
decoder of a checksummed layout accepts it. -/
namespace NumaFabric.BurstDetection
open FaultState ByteCodec ShiftRegister

/-- The second string is the first with some bytes at positions from `lo` to `hi` replaced
by as many others: a change of at most four consecutive bytes. -/
def Altered (lo hi : ℕ) (x y : ByteString) : Prop :=
  ∃ before u v after, x = before ++ u ++ after ∧ y = before ++ v ++ after ∧
    u.length = v.length ∧ u ≠ v ∧ u.length ≤ 4 ∧ lo ≤ before.length ∧ before.length + u.length ≤ hi

theorem crcStep_eq_shift : crcStep = shift 0xEDB88320#32 := by
  funext c
  have low : (c &&& 1 = 0) ↔ c.getLsbD 0 = false := by
    rw [show (1 : U32) = 1#32 from rfl, BitVec.and_one_eq_setWidth_ofBool_getLsbD]
    cases c.getLsbD 0 <;> decide
  simp only [crcStep, shift, low]
  cases c.getLsbD 0 <;> rfl

theorem crc32_eq_foldl (x : ByteString) :
    crc32 x = x.foldl (absorb 0xEDB88320#32) 0xFFFFFFFF ^^^ 0xFFFFFFFF := by
  have step : (fun (crc : U32) (b : U8) =>
      crcEntry ((crc ^^^ b.setWidth 32) &&& 0xFF) ^^^ (crc >>> 8)) = absorb 0xEDB88320#32 := by
    funext crc b
    rw [absorb_eq_table, crcEntry, crcStep_eq_shift]
    rfl
  rw [crc32, step]

theorem crc32_ne_of_altered {lo hi : ℕ} {x y : ByteString} (altered : Altered lo hi x y) :
    crc32 x ≠ crc32 y := by
  obtain ⟨before, u, v, after, rfl, rfl, same, differ, short, -, -⟩ := altered
  intro h
  rw [crc32_eq_foldl, crc32_eq_foldl] at h
  exact foldl_absorb_ne (by decide) _ before after same (by omega) differ
    ((BitVec.xor_left_inj _).mp h)

theorem length_of_altered {lo hi : ℕ} {x y : ByteString} (altered : Altered lo hi x y) :
    y.length = x.length := by
  obtain ⟨before, u, v, after, rfl, rfl, same, -⟩ := altered
  simp only [List.length_append, same]

theorem ne_of_altered {lo hi : ℕ} {x y : ByteString} (altered : Altered lo hi x y) : x ≠ y :=
  fun h => crc32_ne_of_altered altered (congrArg crc32 h)

theorem take_of_altered {lo hi k : ℕ} {x y : ByteString} (altered : Altered lo hi x y)
    (h : k ≤ lo) : y.take k = x.take k := by
  obtain ⟨before, u, v, after, rfl, rfl, -, -, -, low, -⟩ := altered
  rw [List.append_assoc, List.append_assoc, List.take_append_of_le_length (by omega),
    List.take_append_of_le_length (by omega)]

theorem drop_of_altered {lo hi k : ℕ} {x y : ByteString} (altered : Altered lo hi x y)
    (h : hi ≤ k) : y.drop k = x.drop k := by
  obtain ⟨before, u, v, after, rfl, rfl, same, -, -, -, high⟩ := altered
  simp only [List.drop_append, List.drop_of_length_le (by omega : before.length ≤ k),
    List.drop_of_length_le (by omega : u.length ≤ k - before.length),
    List.drop_of_length_le (by omega : v.length ≤ k - before.length), List.length_append, same]

/-- Four bytes at an offset hold the checksum of all the others. -/
def Sealed (k : ℕ) (x : ByteString) : Prop :=
  (x.drop k).take 4 = toBytes 4 (crc32 (x.take k ++ x.drop (k + 4)))

theorem eq_of_pieces {k : ℕ} {x y : ByteString} (head : y.take k = x.take k)
    (sum : (y.drop k).take 4 = (x.drop k).take 4) (tail : y.drop (k + 4) = x.drop (k + 4)) :
    y = x := by
  rw [← List.take_append_drop k y, ← List.take_append_drop 4 (y.drop k), List.drop_drop, head, sum,
    tail, ← List.drop_drop, List.take_append_drop, List.take_append_drop]

/-- Outside the checksum the change reaches the bytes that are summed. -/
theorem covered_altered {k lo hi : ℕ} {x y : ByteString} (altered : Altered lo hi x y)
    (outside : hi ≤ k ∨ k + 4 ≤ lo) :
    Altered 0 x.length (x.take k ++ x.drop (k + 4)) (y.take k ++ y.drop (k + 4)) := by
  rcases outside with early | late
  · rw [drop_of_altered altered (by omega)]
    obtain ⟨before, u, v, after, rfl, rfl, same, differ, short, low, high⟩ := altered
    refine ⟨before, u, v, after.take (k - (before ++ u).length) ++ (before ++ u ++ after).drop (k + 4),
      ?_, ?_, same, differ, short, by omega, by simp only [List.length_append]; omega⟩
    · rw [List.take_append, List.take_of_length_le (by rw [List.length_append]; omega)]
      simp only [List.append_assoc]
    · rw [List.take_append, List.take_of_length_le (by rw [List.length_append]; omega)]
      simp only [List.append_assoc, List.length_append, same]
  · rw [take_of_altered altered (by omega)]
    obtain ⟨before, u, v, after, rfl, rfl, same, differ, short, low, high⟩ := altered
    refine ⟨(before ++ u ++ after).take k ++ before.drop (k + 4), u, v, after, ?_, ?_, same, differ,
      short, by omega, ?_⟩
    · rw [List.append_assoc before, List.drop_append_of_le_length (by omega)]
      simp only [List.append_assoc]
    · rw [List.append_assoc before v, List.drop_append_of_le_length (by omega)]
      simp only [List.append_assoc]
    · simp only [List.length_append, List.length_take, List.length_drop]
      omega

/-- Both cannot be sealed when the change misses the checksum. -/
theorem not_sealed_of_altered {k lo hi : ℕ} {x y : ByteString} (sealedX : Sealed k x)
    (altered : Altered lo hi x y) (outside : hi ≤ k ∨ k + 4 ≤ lo) : ¬ Sealed k y := by
  intro sealedY
  have sum : (y.drop k).take 4 = (x.drop k).take 4 := by
    rcases outside with early | late
    · rw [drop_of_altered altered early]
    · rw [List.take_drop, List.take_drop, take_of_altered altered (by omega)]
  rw [Sealed] at sealedX sealedY
  rw [sealedX, sealedY] at sum
  have words := congrArg (ofBytes : _ → U32) sum
  rw [ofBytes_toBytes _ (by decide), ofBytes_toBytes _ (by decide)] at words
  exact crc32_ne_of_altered (covered_altered altered outside) words.symm

/-- Nor when what is summed did not change. -/
theorem eq_of_sealed {k : ℕ} {x y : ByteString} (sealedX : Sealed k x) (sealedY : Sealed k y)
    (head : y.take k = x.take k) (tail : y.drop (k + 4) = x.drop (k + 4)) : y = x := by
  refine eq_of_pieces head ?_ tail
  rw [sealedX, sealedY, head, tail]

section Frames
open FrameStreamDecoder

theorem sealed_frameBytes (type : U16) (payload : ByteString) :
    Sealed 16 (frameBytes type payload) := by
  have head := take_frameBytes type payload []
  rw [List.append_nil] at head
  have tail : (frameBytes type payload).drop (16 + 4) = payload := by
    rw [frameBytes]
    exact List.drop_left' rfl
  rw [Sealed, head, tail, frameBytes]
  rfl

/-- An altered frame whose length field is intact is complete, so it is accepted or
refused, never kept waiting. -/
theorem decodeOne_altered {type : U16} {payload y : ByteString}
    (small : payload.length ≤ kMaxPayloadLength)
    (length : y.length = (frameBytes type payload).length)
    (size : field 32 4 12 y = field 32 4 12 (frameBytes type payload)) :
    (∃ e, decodeOne y = .error (.protocol e)) ∨ Sealed 16 y := by
  have total := length_frameBytes type payload
  have sized := size_frameBytes type [] small
  rw [List.append_nil, ← size] at sized
  have outcome := decodeOne_outcome y
  generalize hd : decodeOne y = res at outcome
  cases outcome with
  | malformed e => exact .inl ⟨e, rfl⟩
  | residue h =>
    rcases h with short | ⟨-, incomplete⟩
    · omega
    · rw [sized] at incomplete
      omega
  | frame t payload' rest small' bytes =>
    right
    have fields := size_frameBytes t.toU16 rest small'
    have total' := length_frameBytes t.toU16 payload'
    rw [← bytes] at fields
    have none : rest = [] := by
      have := congrArg List.length bytes
      rw [List.length_append] at this
      exact List.eq_nil_of_length_eq_zero (by omega)
    rw [none, List.append_nil] at bytes
    rw [bytes]
    exact sealed_frameBytes t.toU16 payload'

theorem field_of_take {w n k m : ℕ} {x y : ByteString} (same : y.take m = x.take m) (h : k + n ≤ m) :
    field w n k y = field w n k x := by
  have slice : (y.drop k).take n = (x.drop k).take n := by
    have shorter := congrArg (List.take (k + n)) same
    rw [List.take_take, List.take_take, Nat.min_eq_left h] at shorter
    rw [List.take_drop, List.take_drop, shorter]
  rw [field, slice, field]

theorem field_of_drop {w n k m : ℕ} {x y : ByteString} (same : y.drop m = x.drop m) (h : m ≤ k) :
    field w n k y = field w n k x := by
  have tail : y.drop k = x.drop k := by
    rw [← Nat.add_sub_cancel' h, ← List.drop_drop, same, List.drop_drop]
  rw [field, tail, field]

/-- A change in the payload, in version and type, or in the checksum is refused. -/
theorem decodeOne_of_altered {type : U16} {payload x y : ByteString}
    (encoded : encodeFrame type payload = .ok x)
    (altered : Altered 20 x.length x y ∨ Altered 8 12 x y ∨ Altered 16 20 x y) :
    ∃ e, decodeOne y = .error (.protocol e) := by
  unfold encodeFrame at encoded
  split_ifs at encoded with large
  cases encoded
  have small : payload.length ≤ kMaxPayloadLength := Nat.not_lt.mp large
  have stamped := sealed_frameBytes type payload
  rcases altered with inPayload | inHeader | inSum
  · have head := take_of_altered inPayload (Nat.le_refl 20)
    rcases decodeOne_altered small (length_of_altered inPayload) (field_of_take head (by omega)) with
        refused | accepted
    · exact refused
    · exact absurd accepted (not_sealed_of_altered stamped inPayload (.inr (by omega)))
  · have tail := drop_of_altered inHeader (Nat.le_refl 12)
    rcases decodeOne_altered small (length_of_altered inHeader) (field_of_drop tail (by omega)) with
        refused | accepted
    · exact refused
    · exact absurd accepted (not_sealed_of_altered stamped inHeader (.inl (by omega)))
  · have head := take_of_altered inSum (Nat.le_refl 16)
    have tail := drop_of_altered inSum (Nat.le_refl 20)
    rcases decodeOne_altered small (length_of_altered inSum) (field_of_take head (by omega)) with
        refused | accepted
    · exact refused
    · exact absurd (eq_of_sealed stamped accepted head tail).symm (ne_of_altered inSum)

end Frames

section Containers
open Persistence

theorem sealed_container (payload : ByteString) : Sealed 20 (container payload) := by
  have tail : (container payload).drop (20 + 4) = payload := drop_container payload
  rw [Sealed, take_container, tail, container_eq]
  rfl

/-- An accepted container is sealed, and its length determines the rest of its header. -/
theorem of_openContainer {y payload : ByteString} (accepted : openContainer y = .ok payload) :
    Sealed 20 y ∧ y.take 20 = containerHead (y.drop kHeaderSize) := by
  obtain ⟨long, magic, version, -, length, sum, -⟩ := openContainer_eq_ok accepted
  have size : kHeaderSize = 24 := rfl
  have split : y.take 20 = y.take 12 ++ (y.drop 12).take 4 ++ (y.drop 16).take 4 := by
    rw [show 20 = 16 + 4 from rfl, List.take_add, show 16 = 12 + 4 from rfl, List.take_add]
  have sumBytes : toBytes 4 (field 32 4 20 y) = (y.drop 20).take 4 := toBytes_field rfl (by omega)
  constructor
  · rw [Sealed, ← sumBytes, ← sum]
    rfl
  · rw [split, magic, ← toBytes_field (w := 32) rfl (by omega), version,
      ← toBytes_field (w := 32) rfl (by omega), containerHead, List.length_drop, length,
      Nat.add_sub_cancel_left, BitVec.ofNat_toNat, BitVec.setWidth_eq]

/-- A change in the payload or in the header of a container is refused. -/
theorem openContainer_of_altered {payload x y : ByteString} (written : x = container payload)
    (altered : Altered 24 x.length x y ∨ Altered 0 24 x y) :
    ∃ e, openContainer y = .error e := by
  subst written
  cases accepted : openContainer y with
  | error e => exact ⟨e, rfl⟩
  | ok payload' =>
    obtain ⟨stamped', head⟩ := of_openContainer accepted
    have stamped := sealed_container payload
    rcases altered with inPayload | inHeader
    · exact absurd stamped' (not_sealed_of_altered stamped inPayload (.inr (by omega)))
    · have tail := drop_of_altered inHeader (Nat.le_refl 24)
      have body := drop_container payload
      rw [show kHeaderSize = 24 from rfl] at head body
      rw [tail, body, ← take_container] at head
      exact absurd (eq_of_sealed stamped stamped' head tail).symm (ne_of_altered inHeader)

end Containers

/-- A change of at most four consecutive bytes always changes the checksum; a decoder
throws on a frame so changed in its payload, its version and type or its checksum, and
`load` throws on a container so changed in its payload or its header. -/
theorem burst_detected :
    (∀ (lo hi : ℕ) (x y : ByteString), Altered lo hi x y → crc32 x ≠ crc32 y) ∧
    (∀ (type : U16) (payload x y : ByteString), encodeFrame type payload = .ok x →
      (Altered 20 x.length x y ∨ Altered 8 12 x y ∨ Altered 16 20 x y) →
      ∃ e t, (FrameStreamDecoder.push y).run {} = .error (.protocol e) t) ∧
    (∀ (s : PersistedState) (path : ByteString) (disk disk' : Persistence.Disk) (x y : ByteString),
      (Persistence.save none s path).run disk = .ok () disk' → disk' path = some x →
      (Altered 24 x.length x y ∨ Altered 0 24 x y) →
      ∃ e, (Persistence.load path).run (disk'.put path (some y)) =
        .error e (disk'.put path (some y))) := by
  refine ⟨fun lo hi x y altered => crc32_ne_of_altered altered,
    fun type payload x y encoded altered => ?_, fun s path disk disk' x y saved found altered => ?_⟩
  · obtain ⟨e, refused⟩ := decodeOne_of_altered encoded altered
    refine ⟨e, ⟨y⟩, ?_⟩
    rw [FrameStream.push_run, show ({} : FrameStreamDecoder).buffer ++ y = y from rfl, refused]
  · obtain ⟨payload, -, content⟩ := Persistence.container_of_save saved
    rw [content, Option.some.injEq] at found
    obtain ⟨e, refused⟩ := openContainer_of_altered found.symm altered
    exact ⟨e, Persistence.load_refused (by simp [Persistence.Disk.put]) refused⟩

theorem burst_detected_single_bytes :
    crc32 [1, 2, 3] ≠ crc32 [1, 7, 3] ∧
    (∃ e t, (FrameStreamDecoder.push (frameHead 18 [5] ++
      toBytes 4 (crc32 (frameHead 18 [5] ++ [5])) ++ [6])).run {} = .error (.protocol e) t) ∧
    let stored := Persistence.container (Persistence.payloadOf Persistence.recorded)
    ∃ disk' e, (Persistence.save none Persistence.recorded [1]).run (fun _ => none) = .ok () disk' ∧
      disk' [1] = some stored ∧ (Persistence.load [1]).run (disk'.put [1] (some (0 :: stored.tail))) =
        .error e (disk'.put [1] (some (0 :: stored.tail))) := by
  obtain ⟨sum, frame, stored⟩ := burst_detected
  obtain ⟨disk', run, content⟩ :=
    Persistence.save_run Persistence.storable_recorded.counted [1] fun _ => none
  obtain ⟨e, refused⟩ := stored Persistence.recorded [1] _ disk' _
    (0 :: (Persistence.container (Persistence.payloadOf Persistence.recorded)).tail) run content
    (.inr ⟨[], [0x4E], [0], (Persistence.container (Persistence.payloadOf Persistence.recorded)).tail,
      rfl, rfl, rfl, by decide, by decide, by decide, by decide⟩)
  exact ⟨sum 0 3 _ _ ⟨[1], [2], [7], [3], rfl, rfl, rfl, by decide, by decide, by decide, by decide⟩,
    frame 18 [5] _ _ rfl (.inl ⟨frameHead 18 [5] ++ toBytes 4 (crc32 (frameHead 18 [5] ++ [5])),
      [5], [6], [], by rw [List.append_nil]; rfl, by rw [List.append_nil], rfl, by decide,
      by decide, Nat.le_refl 20, Nat.le_refl 21⟩),
    disk', e, run, content, refused⟩

end NumaFabric.BurstDetection
