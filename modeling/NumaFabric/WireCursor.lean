import NumaFabric.WireCodec

/-! The payload reader as the code has it: a position in a buffer that is read byte by
byte. It follows the readers that consume a list, so it returns what was written; and
whatever is read, it stays inside the buffer. -/
namespace NumaFabric
open FaultState ByteCodec

/-- A pointer and a length: no object is larger than `PTRDIFF_MAX` bytes. -/
structure WireSpan where
  data : ByteString
  fits : data.length < 2 ^ 63

inductive CursorFault
  | thrown (e : WireError)
  /-- A byte outside the buffer was read: the behaviour is undefined. -/
  | outside
  deriving DecidableEq, Repr

/-- The state is `i_`. -/
abbrev Cursor (α : Type) := Fault CursorFault U64 α

namespace WireCursor
variable (b : WireSpan)

def size : U64 := BitVec.ofNat 64 b.data.length

/-- `p_[j]`. -/
def byteAt (j : U64) : Cursor U8 :=
  match b.data[j.toNat]? with
  | some v => pure v
  | none => throw .outside

def remaining (i : U64) : U64 := size b - i

def atEnd (i : U64) : Bool := i == size b

def need (k : U64) : Cursor Unit := do
  throwIf (decide (size b < (← get) + k)) (.thrown .truncatedPayload)

def u8 : Cursor U8 := do
  need b 1#64
  let v ← byteAt b (← get)
  modify (· + 1)
  return v

/-- The two bytes are promoted to `int` before they are joined. -/
def u16 : Cursor U16 := do
  need b 2#64
  let i ← get
  let low ← byteAt b i
  let high ← byteAt b (i + 1#64)
  modify (· + 2)
  return (low.setWidth 32 ||| (high.setWidth 32 <<< 8)).setWidth 16

/-- The loop over the bytes of a wider word. -/
def assemble (w n : ℕ) : Cursor (BitVec w) := do
  need b (BitVec.ofNat 64 n)
  let i ← get
  let v ← (List.range n).foldlM (fun v k => do
    return v ||| ((← byteAt b (i + BitVec.ofNat 64 k)).setWidth w <<< (8 * k))) 0
  modify (· + BitVec.ofNat 64 n)
  return v

def u32 : Cursor U32 := assemble b 32 4

def u64 : Cursor U64 := assemble b 64 8

/-- A length and as many bytes, copied out of the buffer one by one. -/
def counted (e : WireError) : Cursor ByteString := do
  let l ← u32 b
  let i ← get
  throwIf (decide (remaining b i < l.setWidth 64)) (.thrown e)
  let s ← (List.range l.toNat).mapM fun k => byteAt b (i + BitVec.ofNat 64 k)
  modify (· + l.setWidth 64)
  return s

def str : Cursor ByteString := counted b .truncatedString

def bytes : Cursor ByteString := counted b .truncatedBlob

section Follows
variable {b} {α β : Type}

/-- The same outcome, with the position standing for the bytes behind it. -/
inductive Tracks (b : WireSpan) :
    EStateM.Result CursorFault U64 α → EStateM.Result Exn ByteString α → Prop
  | ok (a : α) {j : U64} (inside : j.toNat ≤ b.data.length) :
      Tracks b (.ok a j) (.ok a (b.data.drop j.toNat))
  | thrown (e : WireError) {j : U64} (inside : j.toNat ≤ b.data.length) :
      Tracks b (.error (.thrown e) j) (.error (.wire e) (b.data.drop j.toNat))

/-- From every position of the buffer the cursor does what the reader does on the rest. -/
def Follows (b : WireSpan) (c : Cursor α) (r : Reader Exn α) : Prop :=
  ∀ i : U64, i.toNat ≤ b.data.length → Tracks b (c.run i) (r.run (b.data.drop i.toNat))

theorem follows_pure (a : α) : Follows b (pure a) (pure a) := fun _ inside => .ok a inside

theorem Follows.bind {c : Cursor α} {r : Reader Exn α} {f : α → Cursor β} {g : α → Reader Exn β}
    (hc : Follows b c r) (hf : ∀ a, Follows b (f a) (g a)) : Follows b (c >>= f) (r >>= g) := by
  intro i inside
  have first := hc i inside
  generalize hx : c.run i = x at first
  generalize hy : r.run (b.data.drop i.toNat) = y at first
  cases first with
  | ok a inside' =>
    rw [run_bind_of_ok hx, run_bind_of_ok hy]
    exact hf a _ inside'
  | thrown e inside' =>
    rw [run_bind_of_error hx, run_bind_of_error hy]
    exact .thrown e inside'

theorem toNat_size : (size b).toNat = b.data.length := by
  have := b.fits
  rw [size, BitVec.toNat_ofNat, Nat.mod_eq_of_lt (by omega)]

theorem toNat_advance {i : U64} {k : ℕ} (inside : i.toNat + k ≤ b.data.length) :
    (i + BitVec.ofNat 64 k).toNat = i.toNat + k := by
  have := b.fits
  rw [BitVec.toNat_add, BitVec.toNat_ofNat, Nat.mod_eq_of_lt (a := k) (by omega),
    Nat.mod_eq_of_lt (by omega)]

theorem byteAt_of_lt {j : U64} (inside : j.toNat < b.data.length) (i : U64) :
    (byteAt b j).run i = .ok b.data[j.toNat] i := by
  rw [byteAt, List.getElem?_eq_getElem inside]
  rfl

/-- The check before a word: the sum does not wrap for a buffer that exists. -/
theorem run_need {n : ℕ} (few : n ≤ 8) {i : U64} (inside : i.toNat ≤ b.data.length) :
    (need b (BitVec.ofNat 64 n)).run i =
      if b.data.length < i.toNat + n then .error (.thrown .truncatedPayload) i else .ok () i := by
  have sum : (size b < i + BitVec.ofNat 64 n) ↔ b.data.length < i.toNat + n := by
    have := b.fits
    rw [BitVec.lt_def, toNat_size, BitVec.toNat_add, BitVec.toNat_ofNat,
      Nat.mod_eq_of_lt (a := n) (by omega), Nat.mod_eq_of_lt (by omega)]
  change (throwIf (decide (size b < i + BitVec.ofNat 64 n)) _ : Cursor Unit).run i = _
  rw [run_throwIf]
  simp only [sum, decide_eq_true_eq]

theorem take_succ_drop {i n : ℕ} (inside : i + n < b.data.length) :
    (b.data.drop i).take (n + 1) = (b.data.drop i).take n ++ [b.data[i + n]] := by
  rw [List.take_succ_eq_append_getElem (by rw [List.length_drop]; omega), List.getElem_drop]

theorem length_take_drop {i n : ℕ} (inside : i + n ≤ b.data.length) :
    ((b.data.drop i).take n).length = n := by
  rw [List.length_take, List.length_drop]
  omega

theorem byteAt_advance {i : U64} {n : ℕ} (inside : i.toNat + n < b.data.length) (j : U64) :
    (byteAt b (i + BitVec.ofNat 64 n)).run j = .ok b.data[i.toNat + n] j := by
  have sum := toNat_advance (b := b) (i := i) (k := n) (by omega)
  rw [byteAt_of_lt (by omega)]
  simp only [sum]

/-- The loop joins the next bytes, the first one lowest. -/
theorem run_assemble_loop {w n : ℕ} {i : U64} (inside : i.toNat + n ≤ b.data.length) (j : U64) :
    ((List.range n).foldlM (fun v k => do
      return v ||| ((← byteAt b (i + BitVec.ofNat 64 k)).setWidth w <<< (8 * k))) 0 :
        Cursor (BitVec w)).run j = .ok (field w n i.toNat b.data) j := by
  induction n with
  | zero => rfl
  | succ n ih =>
    rw [List.range_succ, List.foldlM_append, run_bind_of_ok (ih (by omega)), List.foldlM_cons]
    simp only [List.foldlM_nil, bind_pure]
    rw [run_bind_of_ok (byteAt_advance (by omega) j), field, field, take_succ_drop (by omega),
      ofBytes_concat, length_take_drop (by omega)]
    rfl

theorem run_copy_loop {n : ℕ} {i : U64} (inside : i.toNat + n ≤ b.data.length) (j : U64) :
    ((List.range n).mapM fun k => byteAt b (i + BitVec.ofNat 64 k)).run j =
      .ok ((b.data.drop i.toNat).take n) j := by
  induction n with
  | zero => rfl
  | succ n ih =>
    rw [List.range_succ, List.mapM_append, run_bind_of_ok (ih (by omega)), List.mapM_cons,
      List.mapM_nil]
    simp only [bind_assoc, pure_bind]
    rw [run_bind_of_ok (byteAt_advance (by omega) j), take_succ_drop (by omega)]
    rfl

/-- A read of a fixed width: the check, the bytes, and the advance. -/
theorem follows_word {w n : ℕ} {c : Cursor (BitVec w)}
    (short : ∀ i : U64, b.data.length < i.toNat + n → i.toNat ≤ b.data.length →
      c.run i = .error (.thrown .truncatedPayload) i)
    (enough : ∀ i : U64, i.toNat + n ≤ b.data.length →
      c.run i = .ok (field w n i.toNat b.data) (i + BitVec.ofNat 64 n)) :
    Follows b c (word w n (.wire .truncatedPayload)) := by
  intro i inside
  by_cases h : b.data.length < i.toNat + n
  · have taken : (take n (Exn.wire .truncatedPayload)).run (b.data.drop i.toNat) =
        .error (.wire .truncatedPayload) (b.data.drop i.toNat) := by
      rw [take_run, if_pos (by rw [List.length_drop]; omega)]
    rw [short i h inside, word, run_bind_of_error taken]
    exact .thrown _ inside
  · have taken : (take n (Exn.wire .truncatedPayload)).run (b.data.drop i.toNat) =
        .ok ((b.data.drop i.toNat).take n) (b.data.drop (i.toNat + n)) := by
      rw [take_run, if_neg (by rw [List.length_drop]; omega), List.drop_drop]
    have sum := toNat_advance (b := b) (i := i) (k := n) (by omega)
    rw [enough i (by omega), word, run_bind_of_ok taken, ← sum]
    exact .ok _ (by omega)

theorem need_short {n : ℕ} (few : n ≤ 8) {i : U64} (short : b.data.length < i.toNat + n)
    (inside : i.toNat ≤ b.data.length) :
    (need b (BitVec.ofNat 64 n)).run i = .error (.thrown .truncatedPayload) i := by
  rw [run_need few inside, if_pos short]

theorem need_enough {n : ℕ} (few : n ≤ 8) {i : U64} (enough : i.toNat + n ≤ b.data.length) :
    (need b (BitVec.ofNat 64 n)).run i = .ok () i := by
  rw [run_need few (by omega), if_neg (by omega)]

theorem follows_assemble {w n : ℕ} (few : n ≤ 8) :
    Follows b (assemble b w n) (word w n (.wire .truncatedPayload)) := by
  apply follows_word
  · intro i short inside
    rw [assemble, run_bind_of_error (need_short few short inside)]
  · intro i enough
    rw [assemble, run_bind_of_ok (need_enough few enough)]
    rw [run_bind_of_ok (EStateM.run_get i), run_bind_of_ok (run_assemble_loop enough i)]
    rfl

theorem follows_u8 : Follows b (u8 b) WireReader.u8 := by
  apply follows_word
  · intro i short inside
    rw [u8, run_bind_of_error (need_short (n := 1) (by decide) short inside)]
  · intro i enough
    have read := byteAt_of_lt (b := b) (j := i) (by omega) i
    rw [u8, run_bind_of_ok (need_enough (n := 1) (by decide) enough),
      run_bind_of_ok (EStateM.run_get i), run_bind_of_ok read, field, take_succ_drop (n := 0) (by omega)]
    simp [ofBytes]

theorem follows_u16 : Follows b (u16 b) WireReader.u16 := by
  apply follows_word
  · intro i short inside
    rw [u16, run_bind_of_error (need_short (n := 2) (by decide) short inside)]
  · intro i enough
    have low := byteAt_of_lt (b := b) (j := i) (by omega) i
    have high := byteAt_advance (b := b) (i := i) (n := 1) (by omega) i
    have joined : field 16 2 i.toNat b.data =
        (b.data[i.toNat].setWidth 32 ||| (b.data[i.toNat + 1].setWidth 32 <<< 8)).setWidth 16 := by
      rw [field, take_succ_drop (n := 1) (by omega), take_succ_drop (n := 0) (by omega)]
      apply BitVec.eq_of_getLsbD_eq
      intro k hk
      simp only [ofBytes, List.take_zero, List.nil_append, List.cons_append, Nat.add_zero]
      simp [hk]
    rw [u16, run_bind_of_ok (need_enough (n := 2) (by decide) enough),
      run_bind_of_ok (EStateM.run_get i), run_bind_of_ok low, run_bind_of_ok high, joined]
    rfl

theorem follows_u32 : Follows b (u32 b) WireReader.u32 := follows_assemble (by decide)

theorem follows_u64 : Follows b (u64 b) WireReader.u64 := follows_assemble (by decide)

/-- The length that was read is compared with what is left of the buffer. -/
theorem follows_counted (e : WireError) :
    Follows b (counted b e) (WireReader.u32 >>= fun l => take l.toNat (.wire e)) := by
  apply follows_u32.bind
  intro l i inside
  have := b.fits
  have left : (remaining b i < l.setWidth 64) ↔ b.data.length < i.toNat + l.toNat := by
    have := l.isLt
    have below : i ≤ size b := by rwa [BitVec.le_def, toNat_size]
    rw [BitVec.lt_def, remaining, BitVec.toNat_sub_of_le below, toNat_size,
      BitVec.toNat_setWidth, Nat.mod_eq_of_lt (by omega)]
    omega
  change Tracks b ((throwIf (decide (remaining b i < l.setWidth 64)) (.thrown e) >>= _ :
    Cursor ByteString).run i) _
  by_cases short : b.data.length < i.toNat + l.toNat
  · rw [decide_eq_true (left.mpr short), run_bind_of_error (run_throwIf_true _ _), take_run,
      if_pos (by rw [List.length_drop]; omega)]
    exact .thrown e inside
  · have sum : (i + l.setWidth 64).toNat = i.toNat + l.toNat := by
      have sum := toNat_advance (b := b) (i := i) (k := l.toNat) (by omega)
      rwa [BitVec.ofNat_toNat] at sum
    have inside' : (i + l.setWidth 64).toNat ≤ b.data.length := by omega
    rw [decide_eq_false (left.not.mpr short), run_bind_of_ok (run_throwIf_false _ _),
      run_bind_of_ok (run_copy_loop (by omega) i), take_run,
      if_neg (by rw [List.length_drop]; omega), List.drop_drop, ← sum]
    exact .ok _ inside'

end Follows

/-- The reads of the interface. -/
inductive Kind
  | u8 | u16 | u32 | u64 | str | bytes
  deriving DecidableEq, Repr

inductive Value
  | u8 (v : U8)
  | u16 (v : U16)
  | u32 (v : U32)
  | u64 (v : U64)
  | str (s : ByteString)
  | bytes (v : ByteString)
  deriving DecidableEq, Repr

namespace Value

def kind : Value → Kind
  | u8 _ => .u8
  | u16 _ => .u16
  | u32 _ => .u32
  | u64 _ => .u64
  | str _ => .str
  | bytes _ => .bytes

def write : Value → ByteString
  | u8 v => WireWriter.u8 v
  | u16 v => WireWriter.u16 v
  | u32 v => WireWriter.u32 v
  | u64 v => WireWriter.u64 v
  | str s => WireWriter.str s
  | bytes v => WireWriter.bytes v

/-- A string or blob has fewer than 2³² bytes. -/
def Short : Value → Prop
  | str s => s.length < 2 ^ 32
  | bytes v => v.length < 2 ^ 32
  | _ => True

end Value

/-- The writer appends to its buffer. -/
def writeAll (values : List Value) : ByteString := values.foldl (fun out v => out ++ v.write) []

def read : Kind → Cursor Value
  | .u8 => return .u8 (← u8 b)
  | .u16 => return .u16 (← u16 b)
  | .u32 => return .u32 (← u32 b)
  | .u64 => return .u64 (← u64 b)
  | .str => return .str (← str b)
  | .bytes => return .bytes (← bytes b)

def readAll (kinds : List Kind) : Cursor (List Value) := kinds.mapM (read b)

/-- Where a reader stands after some reads, of which any may have thrown. -/
def position (reads : List Kind) : U64 := reads.foldl (fun i k => stateAfter (read b k) i) 0

/-- Fewer bytes are left than the read takes, counting those its length announces. -/
def TooFew (left : ByteString) : Kind → Prop
  | .u8 => left.length < 1
  | .u16 => left.length < 2
  | .u32 => left.length < 4
  | .u64 => left.length < 8
  | .str | .bytes => left.length < 4 ∨ left.length < 4 + (field 32 4 0 left).toNat

/-- The same reads on a list. -/
def readValue : Kind → Reader Exn Value
  | .u8 => return .u8 (← WireReader.u8)
  | .u16 => return .u16 (← WireReader.u16)
  | .u32 => return .u32 (← WireReader.u32)
  | .u64 => return .u64 (← WireReader.u64)
  | .str => return .str (← WireReader.str)
  | .bytes => return .bytes (← WireReader.bytes)

section Runs
variable {b}

theorem follows_read (k : Kind) : Follows b (read b k) (readValue k) := by
  cases k with
  | u8 => exact follows_u8.bind fun _ => follows_pure _
  | u16 => exact follows_u16.bind fun _ => follows_pure _
  | u32 => exact follows_u32.bind fun _ => follows_pure _
  | u64 => exact follows_u64.bind fun _ => follows_pure _
  | str => exact (follows_counted _).bind fun _ => follows_pure _
  | bytes => exact (follows_counted _).bind fun _ => follows_pure _

theorem reads_value {v : Value} (short : v.Short) : Reads (readValue v.kind) v.write v := by
  cases v with
  | u8 v => exact (WireReader.reads_u8 v).pure_bind
  | u16 v => exact (WireReader.reads_u16 v).pure_bind
  | u32 v => exact (WireReader.reads_u32 v).pure_bind
  | u64 v => exact (WireReader.reads_u64 v).pure_bind
  | str s => exact (WireReader.reads_str short).pure_bind
  | bytes v => exact (WireReader.reads_bytes short).pure_bind

theorem writeAll_eq_flatMap (values : List Value) : writeAll values = values.flatMap Value.write :=
  List.flatMap_eq_foldl.symm

theorem follows_mapM (kinds : List Kind) : Follows b (readAll b kinds) (kinds.mapM readValue) := by
  rw [readAll]
  induction kinds with
  | nil => exact follows_pure []
  | cons k kinds ih =>
    rw [List.mapM_cons, List.mapM_cons]
    exact (follows_read k).bind fun _ => ih.bind fun _ => follows_pure _

theorem reads_values {values : List Value} (short : ∀ v ∈ values, v.Short) :
    Reads ((values.map Value.kind).mapM readValue) (values.flatMap Value.write) values := by
  induction values with
  | nil => exact reads_pure []
  | cons v values ih =>
    have first := reads_value (short v List.mem_cons_self)
    have others := ih fun u hu => short u (List.mem_cons_of_mem v hu)
    rw [List.map_cons, List.mapM_cons]
    exact first.bind others.pure_bind

/-- The list runs out exactly at the end of the buffer. -/
theorem atEnd_of_drop {j : U64} (inside : j.toNat ≤ b.data.length) (none : b.data.drop j.toNat = []) :
    atEnd b j = true := by
  have short := List.drop_eq_nil_iff.mp none
  rw [atEnd, beq_iff_eq]
  apply BitVec.eq_of_toNat_eq
  rw [toNat_size]
  omega

theorem readAll_written {values : List Value} (short : ∀ v ∈ values, v.Short)
    (written : b.data = writeAll values) :
    ∃ j, (readAll b (values.map Value.kind)).run 0 = .ok values j ∧ atEnd b j = true := by
  have tracked := follows_mapM (b := b) (values.map Value.kind) 0 (Nat.zero_le _)
  have read := reads_values short []
  rw [List.append_nil, ← writeAll_eq_flatMap, ← written] at read
  rw [show (0 : U64).toNat = 0 from rfl, List.drop_zero, read] at tracked
  generalize outcome : (readAll b (values.map Value.kind)).run 0 = res at tracked
  generalize rest : ([] : ByteString) = left at tracked
  cases tracked with
  | ok a inside => exact ⟨_, rfl, atEnd_of_drop inside rest.symm⟩

theorem Follows.stateAfter_le {α : Type} {c : Cursor α} {r : Reader Exn α} (h : Follows b c r)
    {i : U64} (inside : i.toNat ≤ b.data.length) : (stateAfter c i).toNat ≤ b.data.length := by
  have tracked := h i inside
  generalize outcome : c.run i = res at tracked
  generalize r.run (b.data.drop i.toNat) = res' at tracked
  cases tracked with
  | ok a inside' => rwa [stateAfter_of_ok outcome]
  | thrown e inside' => rwa [stateAfter_of_error outcome]

/-- The run: a read leaves the position inside the buffer whether it returns or throws. -/
theorem position_le (reads : List Kind) : (position b reads).toNat ≤ b.data.length := by
  have run : ∀ i : U64, i.toNat ≤ b.data.length →
      (reads.foldl (fun i k => stateAfter (read b k) i) i).toNat ≤ b.data.length := by
    induction reads with
    | nil => exact fun i inside => inside
    | cons k reads ih =>
      intro i inside
      exact ih _ ((follows_read k).stateAfter_le inside)
  exact run 0 (Nat.zero_le _)

/-- The reader raises on these bytes. -/
def Raises {α : Type} (r : Reader Exn α) (left : ByteString) : Prop :=
  ∃ e rest, r.run left = .error e rest

theorem raises_bind_pure {α β : Type} {r : Reader Exn α} {f : α → β} {left : ByteString} :
    Raises (r >>= fun a => pure (f a)) left ↔ Raises r left := by
  cases h : r.run left with
  | ok a rest => simp [Raises, h]
  | error e rest => simp [Raises, h]

theorem raises_take {n : ℕ} {e : Exn} {left : ByteString} :
    Raises (take n e) left ↔ left.length < n := by
  by_cases short : left.length < n
  · simp [Raises, take_run, short]
  · simp [Raises, take_run, short]

theorem raises_counted {e : Exn} {left : ByteString} :
    Raises (WireReader.u32 >>= fun l => take l.toNat e) left ↔
      left.length < 4 ∨ left.length < 4 + (field 32 4 0 left).toNat := by
  by_cases short : left.length < 4
  · obtain ⟨e', rest, h⟩ : Raises WireReader.u32 left := raises_bind_pure.mpr (raises_take.mpr short)
    simp [Raises, run_bind_of_error h, short]
  · have read : WireReader.u32.run left = .ok (field 32 4 0 left) (left.drop 4) := by
      have taken : (take 4 (Exn.wire .truncatedPayload)).run left = .ok (left.take 4) (left.drop 4) := by
        rw [take_run, if_neg short]
      rw [WireReader.u32, word, run_bind_of_ok taken, field, List.drop_zero]
      rfl
    have next : Raises (WireReader.u32 >>= fun l => take l.toNat e) left ↔
        Raises (take (field 32 4 0 left).toNat e) (left.drop 4) := by
      rw [Raises, run_bind_of_ok read, Raises]
    rw [next, raises_take, List.length_drop]
    omega

theorem raises_readValue (k : Kind) (left : ByteString) : Raises (readValue k) left ↔ TooFew left k := by
  cases k with
  | u8 => exact raises_bind_pure.trans (raises_bind_pure.trans raises_take)
  | u16 => exact raises_bind_pure.trans (raises_bind_pure.trans raises_take)
  | u32 => exact raises_bind_pure.trans (raises_bind_pure.trans raises_take)
  | u64 => exact raises_bind_pure.trans (raises_bind_pure.trans raises_take)
  | str => exact raises_bind_pure.trans raises_counted
  | bytes => exact raises_bind_pure.trans raises_counted

/-- At a position inside the buffer a read is either served or refused. -/
theorem read_outcome (k : Kind) {i : U64} (inside : i.toNat ≤ b.data.length) :
    (∀ j, (read b k).run i ≠ .error .outside j) ∧
      ((∃ e j, (read b k).run i = .error (.thrown e) j) ↔ TooFew (b.data.drop i.toNat) k) := by
  have tracked := follows_read (b := b) k i inside
  rw [← raises_readValue, Raises]
  generalize (read b k).run i = res at tracked
  generalize (readValue k).run (b.data.drop i.toNat) = res' at tracked
  cases tracked with
  | ok a inside' => simp
  | thrown e inside' => simp

/-- What was written is read back to the end; and after any reads of any buffer the
position is inside it, no read goes outside, and a read throws exactly when too few bytes
are left. -/
theorem readAll_writeAll :
    (∀ (values : List Value) (b : WireSpan), (∀ v ∈ values, v.Short) → b.data = writeAll values →
      ∃ j, (readAll b (values.map Value.kind)).run 0 = .ok values j ∧ atEnd b j = true) ∧
    (∀ (b : WireSpan) (reads : List Kind) (k : Kind),
      (position b reads).toNat ≤ b.data.length ∧
      (∀ j, (read b k).run (position b reads) ≠ .error .outside j) ∧
      ((∃ e j, (read b k).run (position b reads) = .error (.thrown e) j) ↔
        TooFew (b.data.drop (position b reads).toNat) k)) := by
  constructor
  · intro values b short written
    exact readAll_written short written
  · intro b reads k
    have inside := position_le (b := b) reads
    exact ⟨inside, read_outcome k inside⟩

theorem readAll_writeAll_mixed :
    ∃ j, (readAll ⟨writeAll [.u16 0xABCD, .str [0x68, 0x69], .u64 7], by decide⟩ [.u16, .str, .u64]).run 0 =
      .ok [.u16 0xABCD, .str [0x68, 0x69], .u64 7] j ∧
        atEnd ⟨writeAll [.u16 0xABCD, .str [0x68, 0x69], .u64 7], by decide⟩ j = true :=
  readAll_writeAll.1 [.u16 0xABCD, .str [0x68, 0x69], .u64 7] ⟨_, by decide⟩
    (by simp [Value.Short]) rfl

end Runs

end WireCursor

end NumaFabric
