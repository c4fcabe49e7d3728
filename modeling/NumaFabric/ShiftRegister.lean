import NumaFabric.ByteCodec

/-! A reflected feedback register over bytes. Its shift is linear, and injective when the
feedback sets the top bit, so inputs that differ in at most one register's width never
leave it in the same state; and a byte at a time is the same as a bit at a time. -/
namespace NumaFabric.ShiftRegister
open ByteCodec

variable {w : ℕ} (p : BitVec w)

def shift (c : BitVec w) : BitVec w := if c.getLsbD 0 then p ^^^ (c >>> 1) else c >>> 1

theorem shift_xor (a b : BitVec w) : shift p (a ^^^ b) = shift p a ^^^ shift p b := by
  simp only [shift, BitVec.getLsbD_xor, BitVec.ushiftRight_xor_distrib]
  cases a.getLsbD 0 <;> cases b.getLsbD 0
  · simp
  · simp [← BitVec.xor_assoc, BitVec.xor_comm p]
  · simp [BitVec.xor_assoc]
  · have cancel : p ^^^ (a >>> 1) ^^^ (p ^^^ (b >>> 1)) = (p ^^^ p) ^^^ ((a >>> 1) ^^^ (b >>> 1)) := by
      ac_rfl
    simp [cancel]

theorem iterate_shift_xor (n : ℕ) (a b : BitVec w) :
    (shift p)^[n] (a ^^^ b) = (shift p)^[n] a ^^^ (shift p)^[n] b := by
  induction n generalizing a b with
  | zero => rfl
  | succ n ih => simp only [Function.iterate_succ_apply, shift_xor, ih]

theorem eq_zero_of_shift {p : BitVec w} (top : p.getLsbD (w - 1) = true) {c : BitVec w}
    (h : shift p c = 0#w) : c = 0#w := by
  have pos : 0 < w := by
    by_contra hw
    rw [BitVec.getLsbD_of_ge p (w - 1) (by omega)] at top
    cases top
  unfold shift at h
  split_ifs at h with low
  · -- the feedback bit would have to come out of the shift, which clears the top bit
    have bit := congrArg (fun x => x.getLsbD (w - 1)) h
    simp only [BitVec.getLsbD_xor, top, BitVec.getLsbD_ushiftRight, BitVec.getLsbD_zero] at bit
    rw [BitVec.getLsbD_of_ge c (1 + (w - 1)) (by omega)] at bit
    cases bit
  · apply BitVec.eq_of_getLsbD_eq
    intro i hi
    cases i with
    | zero => simpa using low
    | succ i =>
      have bit := congrArg (fun x => x.getLsbD i) h
      simpa [Nat.add_comm] using bit

theorem shift_injective {p : BitVec w} (top : p.getLsbD (w - 1) = true) :
    Function.Injective (shift p) := by
  intro a b h
  have same : shift p (a ^^^ b) = 0#w := by rw [shift_xor, h, BitVec.xor_self]
  exact BitVec.xor_eq_zero_iff.mp (eq_zero_of_shift top same)

/-- Zero bits come out of the register unchanged. -/
theorem iterate_shift_of_low {n : ℕ} {c : BitVec w} (low : ∀ i < n, c.getLsbD i = false) :
    (shift p)^[n] c = c >>> n := by
  induction n with
  | zero => simp
  | succ n ih =>
    have bit : (c >>> n).getLsbD 0 = false := by simpa using low n (Nat.lt_succ_self n)
    rw [Function.iterate_succ_apply', ih fun i hi => low i (Nat.lt_succ_of_lt hi), shift, bit,
      BitVec.shiftRight_add]
    rfl

/-- One byte enters at the low end, and eight bits leave. -/
def absorb (c : BitVec w) (b : BitVec 8) : BitVec w := (shift p)^[8] (c ^^^ b.setWidth w)

theorem getLsbD_low (i : ℕ) : (0xFF#w).getLsbD i = (decide (i < w) && decide (i < 8)) := by
  rw [BitVec.getLsbD_ofNat, show (0xFF : ℕ) = 2 ^ 8 - 1 from rfl, Nat.testBit_two_pow_sub_one]

/-- The eight bits that leave can be looked up. -/
theorem absorb_eq_table (c : BitVec w) (b : BitVec 8) :
    absorb p c b = (shift p)^[8] ((c ^^^ b.setWidth w) &&& 0xFF#w) ^^^ (c >>> 8) := by
  have split : c ^^^ b.setWidth w =
      ((c ^^^ b.setWidth w) &&& 0xFF#w) ^^^ ((c >>> 8) <<< 8) := by
    apply BitVec.eq_of_getLsbD_eq
    intro i hi
    simp only [BitVec.getLsbD_xor, BitVec.getLsbD_and, getLsbD_low, BitVec.getLsbD_setWidth,
      BitVec.getLsbD_shiftLeft, BitVec.getLsbD_ushiftRight, hi]
    by_cases low : i < 8
    · simp [low]
    · simp [low, show 8 + (i - 8) = i by omega, BitVec.getLsbD_of_ge b i (by omega)]
  have high : (shift p)^[8] ((c >>> 8) <<< 8) = c >>> 8 := by
    rw [iterate_shift_of_low p fun i hi => by simp [hi]]
    apply BitVec.eq_of_getLsbD_eq
    intro i hi
    by_cases inside : 8 + i < w
    · simp [inside]
    · simp [inside, BitVec.getLsbD_of_ge c (8 + i) (by omega)]
  rw [absorb, split, iterate_shift_xor, high, ← split]

/-- One input bit meets the bit that leaves, and their sum drives the feedback. -/
def clock (c : BitVec w) (bit : Bool) : BitVec w :=
  if c.getLsbD 0 ^^ bit then p ^^^ (c >>> 1) else c >>> 1

theorem clock_xor (c v : BitVec w) (n : ℕ) :
    clock p (c ^^^ (v >>> n)) (v.getLsbD n) = shift p c ^^^ (v >>> (n + 1)) := by
  have feedback : ((c ^^^ (v >>> n)).getLsbD 0 ^^ v.getLsbD n) = c.getLsbD 0 := by
    simp [BitVec.getLsbD_xor]
  simp only [clock, shift, feedback, BitVec.ushiftRight_xor_distrib, ← BitVec.shiftRight_add]
  cases c.getLsbD 0
  · simp
  · simp [BitVec.xor_assoc]

/-- The low bits of a word one by one, or the word at once and then as many shifts. -/
theorem foldl_clock (c v : BitVec w) (n : ℕ) :
    ((List.range n).map v.getLsbD).foldl (clock p) c = (shift p)^[n] (c ^^^ v) ^^^ (v >>> n) := by
  induction n with
  | zero => simp
  | succ n ih =>
    rw [List.range_succ, List.map_append, List.foldl_append, ih, List.map_singleton,
      List.foldl_cons, List.foldl_nil, clock_xor, Function.iterate_succ_apply']

/-- The bits of a byte, least significant first. -/
def bits (b : BitVec 8) : List Bool := (List.range 8).map b.getLsbD

theorem foldl_clock_bits (wide : 8 ≤ w) (c : BitVec w) (b : BitVec 8) :
    (bits b).foldl (clock p) c = absorb p c b := by
  have same : bits b = (List.range 8).map (b.setWidth w).getLsbD := by
    apply List.map_congr_left
    intro i hi
    have := List.mem_range.mp hi
    simp [show i < w by omega]
  have out : b.setWidth w >>> 8 = 0#w := by
    apply BitVec.eq_of_getLsbD_eq
    intro i hi
    simp
  rw [same, foldl_clock, out, BitVec.xor_zero, absorb]

theorem absorb_injective {p : BitVec w} (top : p.getLsbD (w - 1) = true) (b : BitVec 8) :
    Function.Injective fun c => absorb p c b := by
  intro c d h
  exact (BitVec.xor_left_inj _).mp ((shift_injective top).iterate 8 h)

theorem foldl_absorb_injective {p : BitVec w} (top : p.getLsbD (w - 1) = true)
    (l : List (BitVec 8)) : Function.Injective fun c => l.foldl (absorb p) c := by
  induction l with
  | nil => exact Function.injective_id
  | cons b l ih =>
    intro c d h
    exact absorb_injective top b (ih h)

theorem ofBytes_cons (b : BitVec 8) (l : List (BitVec 8)) :
    (ofBytes (b :: l) : BitVec w) = b.setWidth w ^^^ (ofBytes l <<< 8) := by
  apply BitVec.eq_of_getLsbD_eq
  intro i hi
  by_cases low : i < 8
  · simp [ofBytes, low]
  · simp [ofBytes, low, BitVec.getLsbD_of_ge b i (by omega)]

/-- Bytes that fit the register enter it as one word. -/
theorem foldl_absorb (c : BitVec w) (l : List (BitVec 8)) (fits : 8 * l.length ≤ w) :
    l.foldl (absorb p) c = (shift p)^[8 * l.length] (c ^^^ ofBytes l) := by
  induction l generalizing c with
  | nil => simp [ofBytes]
  | cons b l ih =>
    rw [List.length_cons] at fits
    have back : (shift p)^[8] (ofBytes l <<< 8) = ofBytes l := by
      rw [iterate_shift_of_low p fun i hi => by simp [hi]]
      apply BitVec.eq_of_getLsbD_eq
      intro i hi
      simp only [BitVec.getLsbD_ushiftRight, BitVec.getLsbD_shiftLeft]
      by_cases inside : 8 + i < w
      · simp [inside]
      · simp [inside, getLsbD_ofBytes_of_ge l (by omega : 8 * l.length ≤ i)]
    calc (b :: l).foldl (absorb p) c
        = (shift p)^[8 * l.length] (absorb p c b ^^^ ofBytes l) := ih _ (by omega)
      _ = (shift p)^[8 * l.length] ((shift p)^[8] (c ^^^ b.setWidth w ^^^ ofBytes l <<< 8)) := by
        rw [iterate_shift_xor p 8, back, absorb]
      _ = (shift p)^[8 * (b :: l).length] (c ^^^ ofBytes (b :: l)) := by
        rw [← Function.iterate_add_apply, ofBytes_cons, BitVec.xor_assoc, List.length_cons,
          Nat.mul_succ]

/-- A change no wider than the register shows in the state it ends in. -/
theorem foldl_absorb_ne {p : BitVec w} (top : p.getLsbD (w - 1) = true) (c : BitVec w)
    (before after : List (BitVec 8)) {u v : List (BitVec 8)} (same : u.length = v.length)
    (fits : 8 * u.length ≤ w) (differ : u ≠ v) :
    (before ++ u ++ after).foldl (absorb p) c ≠ (before ++ v ++ after).foldl (absorb p) c := by
  intro h
  simp only [List.foldl_append] at h
  have inner := foldl_absorb_injective top after h
  rw [foldl_absorb p _ u fits, foldl_absorb p _ v (same ▸ fits), same] at inner
  have words := (BitVec.xor_right_inj _).mp ((shift_injective top).iterate _ inner)
  apply differ
  rw [← toBytes_ofBytes (w := w) u fits, words, same, toBytes_ofBytes v (same ▸ fits)]

end NumaFabric.ShiftRegister
