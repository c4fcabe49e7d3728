import Mathlib

/-! Integer arithmetic of unsigned types as the language has it. An operand of a type
narrower than `int` is promoted to `int`, where a result out of range is undefined; at
the other types results are taken modulo a power of two. -/
namespace NumaFabric.PromotedArithmetic

/-- The type an arithmetic expression is evaluated in. -/
inductive Arithmetic
  | int
  | unsigned (w : ℕ)
  deriving DecidableEq, Repr

/-- The type of an operation on two operands of the unsigned type of `w` bits. -/
def promote (w : ℕ) : Arithmetic := if w < 32 then .int else .unsigned w

namespace Arithmetic

/-- What an operation yields whose exact result is given; `none` is undefined behaviour. -/
def round (t : Arithmetic) (x : ℤ) : Option ℤ :=
  match t with
  | .int => if -2 ^ 31 ≤ x ∧ x < 2 ^ 31 then some x else none
  | .unsigned w => some (x % 2 ^ w)

def add (t : Arithmetic) (x y : ℤ) : Option ℤ := t.round (x + y)

def sub (t : Arithmetic) (x y : ℤ) : Option ℤ := t.round (x - y)

def mul (t : Arithmetic) (x y : ℤ) : Option ℤ := t.round (x * y)

/-- Division truncates; division by zero is undefined. -/
def div (t : Arithmetic) (x y : ℤ) : Option ℤ := if y = 0 then none else t.round (x.tdiv y)

end Arithmetic

/-- The conversion to the unsigned type of `w` bits. -/
def toUnsigned (w : ℕ) (x : ℤ) : BitVec w := BitVec.ofInt w x

variable {w : ℕ} {x y : ℤ}

/-- The promoted type holds every value of the operands' own. -/
theorem round_promote (nonneg : 0 ≤ x) (fits : x < 2 ^ w) : (promote w).round x = some x := by
  rw [promote]
  split_ifs with narrow
  · have wide : (2 : ℤ) ^ w ≤ 2 ^ 31 := pow_le_pow_right₀ (by decide) (by omega)
    rw [Arithmetic.round, if_pos ⟨by omega, by omega⟩]
  · rw [Arithmetic.round, Int.emod_eq_of_lt nonneg fits]

theorem div_promote {a b : ℕ} (fits : a < 2 ^ w) (nonzero : b ≠ 0) :
    (promote w).div a b = some ((a / b : ℕ) : ℤ) := by
  have small : a / b < 2 ^ w := (Nat.div_le_self a b).trans_lt fits
  rw [Arithmetic.div, if_neg (by exact_mod_cast nonzero), ← Int.ofNat_tdiv]
  exact round_promote (Int.natCast_nonneg _) (by exact_mod_cast small)

theorem div_by_zero (t : Arithmetic) (x : ℤ) : t.div x 0 = none := if_pos rfl

theorem toNat_toUnsigned (w : ℕ) (n : ℕ) : (toUnsigned w n).toNat = n % 2 ^ w := by
  rw [toUnsigned, BitVec.ofInt_natCast, BitVec.toNat_ofNat]

theorem toNat_toUnsigned_of_lt (nonneg : 0 ≤ x) (fits : x < 2 ^ w) : ((toUnsigned w x).toNat : ℤ) = x := by
  lift x to ℕ using nonneg
  rw [toNat_toUnsigned, Nat.mod_eq_of_lt (by exact_mod_cast fits)]

end NumaFabric.PromotedArithmetic
