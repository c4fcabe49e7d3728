import NumaFabric.BurstDetection

/-! The checksum as it is defined, one input bit after the other, and the loop over a
table of 256 words that computes it. -/
namespace NumaFabric
open FaultState ByteCodec ShiftRegister BurstDetection

/-- The table the function builds on its first call. -/
def crcTable : Vector U32 256 := Vector.ofFn fun i => crcEntry (BitVec.ofNat 32 i)

theorem tableIndex_lt (crc : U32) (b : U8) :
    ((crc ^^^ b.setWidth 32) &&& 0xFF).toNat < 256 := by
  rw [BitVec.toNat_and]
  exact Nat.lt_of_le_of_lt Nat.and_le_right (by decide)

/-- One round of the loop: the table is read inside its bounds. -/
def crcRound (table : Vector U32 256) (crc : U32) (b : U8) : U32 :=
  table.get ⟨((crc ^^^ b.setWidth 32) &&& 0xFF).toNat, tableIndex_lt crc b⟩ ^^^ (crc >>> 8)

def tableCrc32 (table : Vector U32 256) (data : ByteString) : U32 :=
  data.foldl (crcRound table) 0xFFFFFFFF ^^^ 0xFFFFFFFF

/-- The reflected CRC-32: every input bit is shifted in, least significant first, into a
register of ones, and the register is complemented at the end. -/
def bitwiseCrc32 (data : ByteString) : U32 :=
  ~~~ ((data.flatMap bits).foldl (clock 0xEDB88320) 0xFFFFFFFF)

theorem get_crcTable (i : Fin 256) : crcTable.get i = crcEntry (BitVec.ofNat 32 i) := by
  simp [crcTable, Vector.get_eq_getElem]

theorem crcRound_eq_absorb (crc : U32) (b : U8) :
    crcRound crcTable crc b = absorb 0xEDB88320#32 crc b := by
  have entry : BitVec.ofNat 32 ((crc ^^^ b.setWidth 32) &&& 0xFF).toNat =
      (crc ^^^ b.setWidth 32) &&& 0xFF := BitVec.ofNat_toNat _ _
  rw [crcRound, get_crcTable, entry, crcEntry, crcStep_eq_shift, absorb_eq_table]
  rfl

theorem tableCrc32_crcTable (data : ByteString) : tableCrc32 crcTable data = crc32 data := by
  have round : crcRound crcTable = absorb 0xEDB88320#32 := by
    funext crc b
    exact crcRound_eq_absorb crc b
  rw [tableCrc32, round, crc32_eq_foldl]

theorem foldl_clock_flatMap (data : ByteString) (crc : U32) :
    (data.flatMap bits).foldl (clock 0xEDB88320) crc = data.foldl (absorb 0xEDB88320#32) crc := by
  induction data generalizing crc with
  | nil => rfl
  | cons b data ih =>
    rw [List.flatMap_cons, List.foldl_append, foldl_clock_bits _ (by decide), ih, List.foldl_cons]
    rfl

theorem crc32_eq_bitwise (data : ByteString) :
    tableCrc32 crcTable data = bitwiseCrc32 data ∧ crc32 data = bitwiseCrc32 data := by
  have reference : crc32 data = bitwiseCrc32 data := by
    rw [crc32_eq_foldl, bitwiseCrc32, foldl_clock_flatMap, BitVec.not_def, BitVec.xor_comm]
    rfl
  exact ⟨(tableCrc32_crcTable data).trans reference, reference⟩

end NumaFabric
