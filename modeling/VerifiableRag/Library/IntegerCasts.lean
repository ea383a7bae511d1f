import Mathlib.Algebra.Order.Ring.Int
import VerifiableRag.Library.Transaction

/-!
Signed words of a contract: the negation that checks for overflow, and what the casts between
signed and unsigned types of two widths leave of a value. A type of `w` bits holds the magnitude
of each of its signed values, the most negative one too.
-/
namespace IntegerCasts
open Transaction

section Negation
variable {m : Type → Type} {ε : Type} [Monad m] [MonadExcept (Revert ε) m] {w : Nat}

/-- Checked negation: the most negative word has none. -/
def checkedNeg (x : BitVec w) : m (BitVec w) :=
  if x.negOverflow then throw (.panic 0x11) else pure (-x)

theorem checkedNeg_fits {x : BitVec w} (fits : ¬ x.negOverflow) :
    (checkedNeg x : m (BitVec w)) = pure (-x) := if_neg fits

end Negation

section Casts
variable {w v : Nat} {x : BitVec w}

theorem toNat_nonneg (nonneg : 0 ≤ x.toInt) : x.toNat = x.toInt.natAbs := by
  have small := x.isLt
  have read := BitVec.toInt_eq_toNat_cond x
  split at read
  · rw [read, Int.natAbs_natCast]
  · omega

/-- A wider type has room for the negation of every word. -/
theorem widened_fits (wider : w < v) (x : BitVec w) : ¬ (x.signExtend v).negOverflow := by
  have low : -2 ^ w ≤ 2 * x.toInt := BitVec.le_two_mul_toInt
  have room : (2 : Int) ^ w < 2 ^ v := pow_lt_pow_right₀ (by decide) wider
  have half : (2 : Int) * 2 ^ (v - 1) = 2 ^ v := mul_pow_sub_one (by omega) 2
  rw [BitVec.negOverflow, beq_iff_eq, BitVec.toInt_signExtend_of_le wider.le]
  omega

/-- Widen, negate, cast back: the magnitude of a negative word. -/
theorem toNat_magnitude (wider : w < v) (negative : x.toInt < 0) :
    ((-x.signExtend v).setWidth w).toNat = x.toInt.natAbs := by
  have low : -2 ^ w ≤ 2 * x.toInt := BitVec.le_two_mul_toInt
  have negated : (-x.signExtend v).toInt = -x.toInt := by
    rw [BitVec.toInt_neg_of_not_negOverflow (widened_fits wider x),
      BitVec.toInt_signExtend_of_le wider.le]
  have magnitude : (-x.signExtend v).toNat = x.toInt.natAbs := by
    rw [toNat_nonneg (by omega), negated, Int.natAbs_neg]
  have fits : x.toInt.natAbs < 2 ^ w := by
    have cast : ((2 ^ w : Nat) : Int) = 2 ^ w := Nat.cast_pow 2 w
    omega
  rw [BitVec.toNat_setWidth, magnitude, Nat.mod_eq_of_lt fits]

end Casts

end IntegerCasts
