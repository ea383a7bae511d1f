import Mathlib.Data.Rat.Floor
import Mathlib.Tactic.Positivity
import Mathlib.Tactic.FieldSimp

/-!
IEEE 754 binary64 as `f64` computes with it. A finite value is the rational it
denotes, so the sign of zero is not kept; every operation rounds to nearest, ties
to even.
-/
namespace Float64

/-- A 53-bit integer times a power of two in the exponent range. -/
def Representable (q : ℚ) : Prop :=
  ∃ m e : ℤ, m.natAbs < 2 ^ 53 ∧ -1074 ≤ e ∧ e ≤ 971 ∧ q = m * (2 : ℚ) ^ e

inductive F64 where
  | nan
  | infinite (negative : Bool)
  | finite (value : ℚ) (representable : Representable value)
  deriving DecidableEq

def roundEven (q : ℚ) : ℤ :=
  let low := q.floor
  if q - low < 1 / 2 then low
  else if 1 / 2 < q - low then low + 1
  else low + low % 2

def log2 (q : ℚ) : ℤ :=
  let k : ℤ := q.num.natAbs.log2 - q.den.log2
  if (2 : ℚ) ^ k ≤ |q| then k else k - 1

/-- The exponent of the last place at a magnitude; small ones are subnormal. -/
def quantum (q : ℚ) : ℤ := max (log2 q - 52) (-1074)

def ofRat (q : ℚ) : F64 :=
  let e := quantum q
  let m := roundEven (q / 2 ^ e)
  if fits : m.natAbs < 2 ^ 53 ∧ e ≤ 971 then
    .finite (m * 2 ^ e) ⟨m, e, fits.1, le_max_right _ _, fits.2, rfl⟩
  else if carry : m.natAbs = 2 ^ 53 ∧ e ≤ 970 then
    -- rounding up reached the next power of two
    .finite (m * 2 ^ e) (by
      obtain ⟨size, bound⟩ := carry
      refine ⟨m / 2, e + 1, by omega, by simp only [e, quantum]; omega, by omega, ?_⟩
      have even : (m : ℚ) = (m / 2 : ℤ) * 2 := by
        have : m = m / 2 * 2 := by omega
        exact_mod_cast this
      rw [even, zpow_add_one₀ (by norm_num)]
      ring)
  else .infinite (decide (q < 0))

namespace F64

def isFinite : F64 → Bool
  | finite _ _ => true
  | _ => false

def mul : F64 → F64 → F64
  | nan, _ | _, nan => nan
  | finite p _, finite q _ => ofRat (p * q)
  | infinite s, infinite t => infinite (xor s t)
  | infinite s, finite q _ | finite q _, infinite s =>
    if q = 0 then nan else infinite (xor s (decide (q < 0)))

def neg : F64 → F64
  | nan => nan
  | infinite s => infinite (!s)
  | finite p _ => ofRat (-p)

def add : F64 → F64 → F64
  | nan, _ | _, nan => nan
  | finite p _, finite q _ => ofRat (p + q)
  | infinite s, infinite t => if s = t then infinite s else nan
  | infinite s, finite _ _ | finite _ _, infinite s => infinite s

def sub (x y : F64) : F64 := add x (neg y)

def lt : F64 → F64 → Bool
  | nan, _ | _, nan => false
  | finite p _, finite q _ => decide (p < q)
  | infinite s, infinite t => s && !t
  | infinite s, finite _ _ => s
  | finite _ _, infinite t => !t

def le : F64 → F64 → Bool
  | nan, _ | _, nan => false
  | finite p _, finite q _ => decide (p ≤ q)
  | infinite s, infinite t => s || !t
  | infinite s, finite _ _ => s
  | finite _ _, infinite t => !t

theorem nan_unordered (x : F64) : lt x nan = false ∧ lt nan x = false ∧ le x nan = false ∧
    le nan x = false := by
  cases x <;> exact ⟨rfl, rfl, rfl, rfl⟩

/-- Without a NaN the order is total. -/
theorem lt_eq_not_le {x y : F64} (left : x ≠ nan) (right : y ≠ nan) : x.lt y = !y.le x := by
  cases x with
  | nan => exact absurd rfl left
  | infinite s =>
    cases y with
    | nan => exact absurd rfl right
    | infinite t => cases s <;> cases t <;> rfl
    | finite q _ => cases s <;> rfl
  | finite p _ =>
    cases y with
    | nan => exact absurd rfl right
    | infinite t => cases t <;> rfl
    | finite q _ =>
      rw [lt, le, ← decide_not, decide_eq_decide]
      exact not_le.symm

def roundHalfAway (q : ℚ) : ℤ :=
  if 0 ≤ q then (q + 1 / 2).floor else -(-q + 1 / 2).floor

/-- `x.round() as u64`: halves away from zero, then a saturating cast. -/
def roundToU64 : F64 → BitVec 64
  | nan => 0
  | infinite negative => if negative then 0 else BitVec.ofNat 64 (2 ^ 64 - 1)
  | finite q _ => BitVec.ofNat 64 (min (roundHalfAway q).toNat (2 ^ 64 - 1))

end F64

end Float64
