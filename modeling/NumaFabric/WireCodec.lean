import NumaFabric.FrameCodec

/-! The payload codec of protocol messages: little-endian words and length-prefixed
strings, strict on decode. -/
namespace NumaFabric
open FaultState ByteCodec

namespace WireWriter

def u8 (v : U8) : ByteString := toBytes 1 v

def u16 (v : U16) : ByteString := toBytes 2 v

def u32 (v : U32) : ByteString := toBytes 4 v

def u64 (v : U64) : ByteString := toBytes 8 v

def flag (b : Bool) : ByteString := u8 (if b then 1 else 0)

/-- A `size_t` narrowed to 32 bits. -/
def count (n : ℕ) : ByteString := u32 (BitVec.ofNat 32 n)

def str (s : ByteString) : ByteString := count s.length ++ s

def bytes (v : ByteString) : ByteString := count v.length ++ v

end WireWriter

namespace WireReader

def u8 : Reader Exn U8 := word 8 1 (.wire .truncatedPayload)

def u16 : Reader Exn U16 := word 16 2 (.wire .truncatedPayload)

def u32 : Reader Exn U32 := word 32 4 (.wire .truncatedPayload)

def u64 : Reader Exn U64 := word 64 8 (.wire .truncatedPayload)

def flag : Reader Exn Bool := do
  return (← u8) != 0

def str : Reader Exn ByteString := do
  let l ← u32
  take l.toNat (.wire .truncatedString)

def bytes : Reader Exn ByteString := do
  let l ← u32
  take l.toNat (.wire .truncatedBlob)

theorem reads_u8 (v : U8) : Reads u8 (WireWriter.u8 v) v := reads_word _ v (by decide)

theorem reads_u16 (v : U16) : Reads u16 (WireWriter.u16 v) v := reads_word _ v (by decide)

theorem reads_u32 (v : U32) : Reads u32 (WireWriter.u32 v) v := reads_word _ v (by decide)

theorem reads_u64 (v : U64) : Reads u64 (WireWriter.u64 v) v := reads_word _ v (by decide)

theorem reads_flag (b : Bool) : Reads flag (WireWriter.flag b) b := by
  have read := (reads_u8 (if b then 1 else 0)).pure_bind (f := fun v => v != 0)
  cases b
  · exact read
  · exact read

theorem reads_counted (e : Exn) {s : ByteString} (small : s.length < 2 ^ 32) :
    Reads (u32 >>= fun l => take l.toNat e) (WireWriter.count s.length ++ s) s := by
  have read : s.length = (BitVec.ofNat 32 s.length).toNat := by
    rw [BitVec.toNat_ofNat, Nat.mod_eq_of_lt small]
  exact (reads_u32 _).bind (reads_take _ _ read)

theorem reads_str {s : ByteString} (small : s.length < 2 ^ 32) :
    Reads str (WireWriter.str s) s := reads_counted _ small

theorem reads_bytes {v : ByteString} (small : v.length < 2 ^ 32) :
    Reads bytes (WireWriter.bytes v) v := reads_counted _ small

end WireReader

end NumaFabric
