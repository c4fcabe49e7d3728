import NumaFabric.CoreErrors
import NumaFabric.PromotedArithmetic

/-! The operators of integral quantities, evaluated as the language evaluates them: the
checks and the operations in the promoted type of the representation, the results
converted back. Sums, differences and products are exact or throw at every width; a
quotient is wrong where the conversion of the divisor changes it. -/
namespace NumaFabric
open PromotedArithmetic

inductive QuantityFault
  | thrown (e : Exn)
  /-- A division by zero or an overflow of `int`: the behaviour is undefined. -/
  | undefined
  deriving DecidableEq, Repr

namespace Quantity
variable {d e : Dimension} {w : ℕ}

/-- The value of an operand. -/
def rep (q : Quantity d w) : ℤ := q.value.toNat

/-- `std::numeric_limits<Rep>::max()`. -/
def repMax (w : ℕ) : ℤ := 2 ^ w - 1

def invalid {α : Type} : Except QuantityFault α := .error (.thrown .invalidQuantity)

def evaluated (x : Option ℤ) : Except QuantityFault ℤ := x.elim (.error .undefined) .ok

def validate (q : Quantity d w) : Except QuantityFault Unit := if q.rep < 0 then invalid else .ok ()

/-- The constructor from `Rep`, and the one from `int` that a promoted result selects. -/
def make (x : ℤ) : Except QuantityFault (Quantity d w) := do
  let q : Quantity d w := ⟨toUnsigned w x⟩
  validate q
  return q

/-- `operator+`. -/
def plus (a o : Quantity d w) : Except QuantityFault (Quantity d w) := do
  let room ← evaluated ((promote w).sub (repMax w) o.rep)
  if a.rep > room then invalid
  else make (← evaluated ((promote w).add a.rep o.rep))

/-- `operator-`. -/
def minus (a o : Quantity d w) : Except QuantityFault (Quantity d w) := do
  if o.rep > a.rep then invalid
  else make (← evaluated ((promote w).sub a.rep o.rep))

/-- `operator*`, which compiles for representations of 64 bits only. -/
def times (a : Quantity d 64) (f : U64) : Except QuantityFault (Quantity d 64) := do
  let refused ←
    if f = 0 then pure false
    else do
      let bound ← evaluated ((promote 64).div (repMax 64) f.toNat)
      pure (decide (a.rep > bound))
  if refused then invalid
  else make (← evaluated ((promote 64).mul a.rep f.toNat))

/-- `operator/`: the divisor is tested at 64 bits and then converted to `Rep`. -/
def quotient (a : Quantity d w) (n : U64) : Except QuantityFault (Quantity d w) := do
  if n = 0 then invalid
  else make (← evaluated ((promote w).div a.rep (toUnsigned w n.toNat).toNat))

/-- The exact result where the representation holds it, the exception elsewhere. -/
def Exact (r : Except QuantityFault (Quantity d w)) (x : ℤ) : Prop :=
  (0 ≤ x ∧ x < 2 ^ w → ∃ q, r = .ok q ∧ q.rep = x) ∧ (¬(0 ≤ x ∧ x < 2 ^ w) → r = invalid)

theorem rep_nonneg (q : Quantity d w) : 0 ≤ q.rep := Int.natCast_nonneg _

theorem rep_lt (q : Quantity d w) : q.rep < 2 ^ w := by
  rw [rep]
  exact_mod_cast q.value.isLt

theorem make_of_fits {x : ℤ} (nonneg : 0 ≤ x) (fits : x < 2 ^ w) :
    ∃ q : Quantity d w, make x = .ok q ∧ q.rep = x := by
  refine ⟨⟨toUnsigned w x⟩, ?_, toNat_toUnsigned_of_lt nonneg fits⟩
  have valid : validate (⟨toUnsigned w x⟩ : Quantity d w) = .ok () :=
    if_neg (not_lt.mpr (rep_nonneg _))
  rw [make, valid]
  rfl

/-- An operation whose result the representation holds is exact. -/
theorem make_round {x : ℤ} (nonneg : 0 ≤ x) (fits : x < 2 ^ w) :
    ∃ q : Quantity d w, (evaluated ((promote w).round x) >>= make) = .ok q ∧ q.rep = x := by
  rw [round_promote nonneg fits]
  exact make_of_fits nonneg fits

theorem exact_of_check {r : Except QuantityFault (Quantity d w)} {x : ℤ}
    (eq : r = if 0 ≤ x ∧ x < 2 ^ w then evaluated ((promote w).round x) >>= make else invalid) :
    Exact r x := by
  subst eq
  constructor
  · rintro ⟨nonneg, fits⟩
    rw [if_pos ⟨nonneg, fits⟩]
    exact make_round nonneg fits
  · intro unfit
    rw [if_neg unfit]

theorem plus_exact (a b : Quantity d w) : Exact (plus a b) (a.rep + b.rep) := by
  apply exact_of_check
  have ha := a.rep_nonneg
  have hb := b.rep_nonneg
  have below := b.rep_lt
  have room : (promote w).sub (repMax w) b.rep = some (repMax w - b.rep) :=
    round_promote (by rw [repMax]; omega) (by rw [repMax]; omega)
  rw [plus, room]
  change (if a.rep > repMax w - b.rep then invalid else _) = _
  by_cases fits : a.rep + b.rep < 2 ^ w
  · rw [if_neg (by rw [repMax]; omega), if_pos ⟨by omega, fits⟩]
    rfl
  · rw [if_pos (by rw [repMax]; omega), if_neg (by omega)]

theorem minus_exact (a b : Quantity d w) : Exact (minus a b) (a.rep - b.rep) := by
  apply exact_of_check
  have hb := b.rep_nonneg
  have below := a.rep_lt
  rw [minus]
  by_cases fits : b.rep ≤ a.rep
  · rw [if_neg (by omega), if_pos ⟨by omega, by omega⟩]
    rfl
  · rw [if_pos (by omega), if_neg (by omega)]

theorem toNat_ne_zero {n : U64} (nonzero : n ≠ 0) : n.toNat ≠ 0 := by
  intro zero
  exact nonzero (BitVec.toNat_inj.mp zero)

theorem times_exact (a : Quantity d 64) (f : U64) : Exact (times a f) (a.rep * f.toNat) := by
  apply exact_of_check
  have ha := a.rep_nonneg
  have nonneg : 0 ≤ a.rep * f.toNat := mul_nonneg ha (Int.natCast_nonneg _)
  rw [times]
  by_cases zero : f = 0
  · rw [if_pos zero, if_pos (by simp [zero])]
    rfl
  · have nonzero := toNat_ne_zero zero
    have bound : (promote 64).div (repMax 64) f.toNat = some (((2 ^ 64 - 1) / f.toNat : ℕ) : ℤ) :=
      div_promote (by decide) nonzero
    have refused : a.rep > (((2 ^ 64 - 1) / f.toNat : ℕ) : ℤ) ↔ ¬a.rep * f.toNat < 2 ^ 64 := by
      rw [rep]
      norm_cast
      rw [Nat.div_lt_iff_lt_mul (Nat.pos_of_ne_zero nonzero)]
      omega
    rw [if_neg zero, bound]
    change (if decide (a.rep > _) then invalid else _) = _
    simp only [decide_eq_true_eq, refused]
    by_cases fits : a.rep * f.toNat < 2 ^ 64
    · rw [if_neg (not_not.mpr fits), if_pos ⟨nonneg, fits⟩]
      rfl
    · rw [if_pos fits, if_neg (fun within => fits within.2)]

theorem add_refused_iff (a b : Quantity d w) :
    BitVec.allOnes w - b.value < a.value ↔ 2 ^ w ≤ a.value.toNat + b.value.toNat := by
  have below : b.value ≤ BitVec.allOnes w := by
    rw [BitVec.le_def, BitVec.toNat_allOnes]
    have := b.value.isLt
    omega
  rw [BitVec.lt_def, BitVec.toNat_sub_of_le below, BitVec.toNat_allOnes]
  have := b.value.isLt
  omega

theorem add_eq_ok {a b c : Quantity d w} (h : a.add b = .ok c) :
    c.value.toNat = a.value.toNat + b.value.toNat := by
  unfold Quantity.add at h
  split_ifs at h with refused
  rw [add_refused_iff, Nat.not_le] at refused
  cases h
  exact BitVec.toNat_add_of_lt refused

theorem add_isOk {a b : Quantity d w}
    (fits : a.value.toNat + b.value.toNat < 2 ^ w) : ∃ c, a.add b = .ok c := by
  unfold Quantity.add
  rw [if_neg]
  · exact ⟨_, rfl⟩
  · rw [add_refused_iff]
    omega

/-- The checked addition is the operator. -/
theorem plus_eq_add (a b : Quantity d w) : plus a b = (a.add b).mapError .thrown := by
  obtain ⟨returns, throws⟩ := plus_exact a b
  have ha := a.rep_nonneg
  have hb := b.rep_nonneg
  by_cases fits : a.value.toNat + b.value.toNat < 2 ^ w
  · obtain ⟨c, sum⟩ := add_isOk fits
    obtain ⟨q, returned, value⟩ := returns ⟨by omega, by rw [rep, rep]; exact_mod_cast fits⟩
    have same : q = c := by
      have equal := add_eq_ok sum
      rw [rep, rep, rep] at value
      cases q
      cases c
      exact congrArg Quantity.mk (BitVec.toNat_inj.mp (by simp at value equal; omega))
    rw [returned, sum, same]
    rfl
  · have unfit : ¬a.rep + b.rep < 2 ^ w := by
      rw [rep, rep]
      exact_mod_cast fits
    have refused := (add_refused_iff a b).mpr (Nat.not_lt.mp fits)
    rw [throws fun within => unfit within.2, add, if_pos refused]
    rfl

/-- The exception for the divisor zero only, the floor of the quotient elsewhere. -/
def Floors (r : Except QuantityFault (Quantity d w)) (a n : ℕ) : Prop :=
  (n = 0 → r = invalid) ∧ (n ≠ 0 → ∃ q, r = .ok q ∧ q.value.toNat = a / n)

/-- The divisor that the operator divides by. -/
theorem quotient_of_kept (a : Quantity d w) {n : U64} (kept : n.toNat % 2 ^ w ≠ 0) :
    ∃ q, quotient a n = .ok q ∧ q.value.toNat = a.value.toNat / (n.toNat % 2 ^ w) := by
  have nonzero : n ≠ 0 := by
    rintro rfl
    exact kept (Nat.zero_mod _)
  have fits : a.value.toNat / (n.toNat % 2 ^ w) < 2 ^ w :=
    (Nat.div_le_self _ _).trans_lt a.value.isLt
  obtain ⟨q, made, value⟩ := make_of_fits (d := d) (w := w) (Int.natCast_nonneg _)
    (show ((a.value.toNat / (n.toNat % 2 ^ w) : ℕ) : ℤ) < 2 ^ w by exact_mod_cast fits)
  refine ⟨q, ?_, Int.natCast_inj.mp value⟩
  rw [quotient, if_neg nonzero, toNat_toUnsigned, rep, div_promote a.value.isLt kept]
  exact made

theorem quotient_of_lost (a : Quantity d w) {n : U64} (nonzero : n ≠ 0)
    (lost : n.toNat % 2 ^ w = 0) : quotient a n = .error .undefined := by
  rw [quotient, if_neg nonzero, toNat_toUnsigned, lost, Nat.cast_zero, div_by_zero]
  rfl

/-- A quotient is the floor exactly when the conversion keeps the divisor, or makes it
larger than the dividend. -/
theorem quotient_floors_iff (a : Quantity d w) (n : U64) :
    Floors (quotient a n) a.value.toNat n.toNat ↔
      n.toNat < 2 ^ w ∨ a.value.toNat < n.toNat % 2 ^ w := by
  by_cases zero : n = 0
  · subst zero
    have small : (0 : U64).toNat < 2 ^ w := Nat.two_pow_pos w
    exact iff_of_true ⟨fun _ => rfl, fun nonzero => absurd rfl nonzero⟩ (.inl small)
  have nonzero := toNat_ne_zero zero
  by_cases lost : n.toNat % 2 ^ w = 0
  · have wide : ¬n.toNat < 2 ^ w := by
      intro small
      rw [Nat.mod_eq_of_lt small] at lost
      exact nonzero lost
    refine iff_of_false ?_ (by omega)
    rintro ⟨-, floor⟩
    obtain ⟨q, returned, -⟩ := floor nonzero
    rw [quotient_of_lost a zero lost] at returned
    cases returned
  · obtain ⟨q, returned, value⟩ := quotient_of_kept a lost
    have floors : Floors (quotient a n) a.value.toNat n.toNat ↔
        a.value.toNat / (n.toNat % 2 ^ w) = a.value.toNat / n.toNat := by
      rw [← value]
      constructor
      · rintro ⟨-, floor⟩
        obtain ⟨q', returned', value'⟩ := floor nonzero
        rw [returned] at returned'
        cases returned'
        exact value'
      · intro same
        exact ⟨fun none => absurd none nonzero, fun _ => ⟨q, returned, same⟩⟩
    rw [floors]
    by_cases small : n.toNat < 2 ^ w
    · exact iff_of_true (by rw [Nat.mod_eq_of_lt small]) (.inl small)
    · have none : a.value.toNat / n.toNat = 0 :=
        Nat.div_eq_of_lt (a.value.isLt.trans_le (Nat.not_lt.mp small))
      rw [none, Nat.div_eq_zero_iff, or_iff_right lost, or_iff_right small]

/-- Sums and differences at every width, and products at 64 bits, are exact or throw;
quotients do what they should exactly where the conversion of the divisor does no harm. -/
theorem operators_exact_iff (a b : Quantity d w) (c : Quantity e 64) (f n : U64) :
    (Exact (plus a b) (a.rep + b.rep) ∧ Exact (minus a b) (a.rep - b.rep) ∧
      Exact (times c f) (c.rep * f.toNat)) ∧
    (Floors (quotient a n) a.value.toNat n.toNat ↔
      n.toNat < 2 ^ w ∨ a.value.toNat < n.toNat % 2 ^ w) :=
  ⟨⟨plus_exact a b, minus_exact a b, times_exact c f⟩, quotient_floors_iff a n⟩

/-- A group index over 65536 is divided by zero, a processor index over 2^32 + 1 by one. -/
theorem quotient_narrowed :
    ¬Floors (quotient (⟨7⟩ : ProcessorGroupIndex) 65536) 7 65536 ∧
      quotient (⟨7⟩ : ProcessorGroupIndex) 65536 = .error .undefined ∧
      ¬Floors (quotient (⟨5⟩ : LogicalProcessorIndex) 4294967297) 5 4294967297 ∧
      quotient (⟨5⟩ : LogicalProcessorIndex) 4294967297 = .ok ⟨5⟩ := by
  have group : quotient (⟨7⟩ : ProcessorGroupIndex) 65536 = .error .undefined := by decide
  have index : quotient (⟨5⟩ : LogicalProcessorIndex) 4294967297 = .ok ⟨5⟩ := by decide
  refine ⟨?_, group, ?_, index⟩
  · rintro ⟨-, floor⟩
    obtain ⟨q, returned, -⟩ := floor (by decide)
    rw [group] at returned
    cases returned
  · rintro ⟨-, floor⟩
    obtain ⟨q, returned, value⟩ := floor (by decide)
    rw [index] at returned
    cases returned
    exact absurd value (by decide)

end Quantity

end NumaFabric
