import Mathlib.Algebra.Field.ZMod
import Mathlib.Algebra.Module.Torsion.Field
import Mathlib.Tactic.FieldSimp
import Mathlib.Tactic.Ring

/-!
ECDSA with recovery over a group of prime order. The points are known by their affine
coordinates; a recovery id says which point of the signature's `r` was the nonce point.
-/
namespace Ecdsa

/-- A group of points with affine coordinates and decompression. -/
structure Curve (n : ℕ) (Point : Type) [AddCommGroup Point] [Module (ZMod n) Point] where
  generator : Point
  generator_ne : generator ≠ 0
  fieldSize : ℕ
  fieldSize_le : fieldSize ≤ 2 * n
  x : Point → ℕ
  y : Point → ℕ
  x_lt : ∀ q, q ≠ 0 → x q < fieldSize
  y_lt : ∀ q, q ≠ 0 → y q < fieldSize
  decompress : ℕ → Bool → Option Point
  decompress_iff : ∀ a odd q,
    decompress a odd = some q ↔ q ≠ 0 ∧ x q = a ∧ (y q).testBit 0 = odd
  x_neg : ∀ q, q ≠ 0 → x (-q) = x q
  y_neg : ∀ q, q ≠ 0 → (y (-q)).testBit 0 = !(y q).testBit 0

structure Signature (n : ℕ) where
  r : ZMod n
  s : ZMod n
  yOdd : Bool
  xReduced : Bool
  deriving DecidableEq

/-- The signature when only the parity of the recovery id is kept. -/
def Signature.unreduced {n : ℕ} (sig : Signature n) : Signature n := { sig with xReduced := false }

def High {n : ℕ} (s : ZMod n) : Prop := n / 2 < s.val

instance {n : ℕ} (s : ZMod n) : Decidable (High s) := inferInstanceAs (Decidable (_ < _))

/-- The low form of `s` alone, next to the recovery id of the form it had. -/
def Signature.lowered {n : ℕ} (sig : Signature n) : Signature n :=
  { sig with s := if High sig.s then -sig.s else sig.s }

theorem not_high_neg {n : ℕ} [NeZero n] {s : ZMod n} (high : High s) : ¬ High (-s) := by
  have nonzero : NeZero s := ⟨by
    rintro rfl
    simp [High] at high⟩
  have bound := ZMod.val_lt s
  rw [High] at high ⊢
  rw [ZMod.val_neg_of_ne_zero]
  omega

namespace Curve
variable {n : ℕ} {Point : Type} [AddCommGroup Point] [Module (ZMod n) Point] (c : Curve n Point)

def yOdd (q : Point) : Bool := (c.y q).testBit 0

/-- The signature with nonce `k` of the key `d` on the hash `z`. -/
def signWith (k d z : ZMod n) : Signature n where
  r := c.x (k • c.generator)
  s := k⁻¹ * (z + c.x (k • c.generator) * d)
  yOdd := c.yOdd (k • c.generator)
  xReduced := n ≤ c.x (k • c.generator)

/-- Its low form: `-s` goes with the opposite nonce point. -/
def sign (k d z : ZMod n) : Signature n :=
  let sig := c.signWith k d z
  if High sig.s then { sig with s := -sig.s, yOdd := !sig.yOdd } else sig

structure Suitable (k d z : ZMod n) : Prop where
  nonce : k ≠ 0
  r : (c.signWith k d z).r ≠ 0
  s : (c.signWith k d z).s ≠ 0

/-- The check of a low signature against the key `q`. -/
def Verifies (q : Point) (z r s : ZMod n) : Prop :=
  ¬ High s ∧ (s⁻¹ * z) • c.generator + (s⁻¹ * r) • q ≠ 0 ∧
    (c.x ((s⁻¹ * z) • c.generator + (s⁻¹ * r) • q) : ZMod n) = r

instance [DecidableEq Point] (q : Point) (z r s : ZMod n) : Decidable (c.Verifies q z r s) :=
  inferInstanceAs (Decidable (_ ∧ _ ∧ _))

def keyOf (p : Point) (z r s : ZMod n) : Point := -(r⁻¹ * z) • c.generator + (r⁻¹ * s) • p

/-- The key of a signature, if the recovery id names a nonce point and the key checks. -/
def recover [DecidableEq Point] (z : ZMod n) (sig : Signature n) : Option Point :=
  match c.decompress (sig.r.val + if sig.xReduced then n else 0) sig.yOdd with
  | none => none
  | some p =>
    let q := c.keyOf p z sig.r sig.s
    if q ≠ 0 ∧ c.Verifies q z sig.r sig.s then some q else none

theorem recover_some [DecidableEq Point] {z : ZMod n} {sig : Signature n} {q : Point}
    (recovered : c.recover z sig = some q) :
    ∃ p, c.decompress (sig.r.val + if sig.xReduced then n else 0) sig.yOdd = some p ∧
      c.keyOf p z sig.r sig.s = q := by
  unfold recover at recovered
  split at recovered
  next => cases recovered
  next p found =>
    dsimp only at recovered
    split at recovered
    next => exact ⟨p, found, Option.some.inj recovered⟩
    next => cases recovered

section Prime
variable [Fact n.Prime]

theorem smul_generator_ne {k : ZMod n} (nonzero : k ≠ 0) : k • c.generator ≠ 0 :=
  smul_ne_zero nonzero c.generator_ne

theorem sign_eq {k d z : ZMod n} (nonce : k ≠ 0) :
    ∃ k', (k' = k ∨ k' = -k) ∧ c.sign k d z = c.signWith k' d z ∧ ¬ High (c.signWith k' d z).s := by
  have point := c.smul_generator_ne nonce
  by_cases high : High (c.signWith k d z).s
  · have opposite : c.sign k d z = c.signWith (-k) d z := by
      rw [sign, if_pos high]
      simp only [signWith, neg_smul, c.x_neg _ point, yOdd, c.y_neg _ point, inv_neg, neg_mul]
    refine ⟨-k, Or.inr rfl, opposite, ?_⟩
    rw [← opposite, sign, if_pos high]
    exact not_high_neg high
  · exact ⟨k, Or.inl rfl, if_neg high, high⟩

variable {c}

theorem suitable_neg {k d z : ZMod n} (suitable : c.Suitable k d z) : c.Suitable (-k) d z := by
  have same_x := c.x_neg _ (c.smul_generator_ne suitable.nonce)
  constructor
  · exact neg_ne_zero.mpr suitable.nonce
  · have r := suitable.r
    simpa only [signWith, neg_smul, same_x] using r
  · have s := suitable.s
    simpa only [signWith, neg_smul, same_x, inv_neg, neg_mul, ne_eq, neg_eq_zero] using s

theorem keyOf_signWith {k d z : ZMod n} (suitable : c.Suitable k d z) :
    c.keyOf (k • c.generator) z (c.signWith k d z).r (c.signWith k d z).s = d • c.generator := by
  obtain ⟨nonce, r, _⟩ := suitable
  rw [keyOf, smul_smul, ← add_smul]
  congr 1
  simp only [signWith] at r ⊢
  field_simp
  ring

/-- A key recovered from a nonce point checks: it puts the nonce point back. -/
theorem verifies_keyOf {p : Point} {z s : ZMod n} (r : (c.x p : ZMod n) ≠ 0) (s_ne : s ≠ 0)
    (low : ¬ High s) (nonzero : p ≠ 0) : c.Verifies (c.keyOf p z (c.x p) s) z (c.x p) s := by
  have back : (s⁻¹ * z) • c.generator + (s⁻¹ * (c.x p : ZMod n)) • c.keyOf p z (c.x p) s = p := by
    have generator_part : s⁻¹ * z + s⁻¹ * (c.x p : ZMod n) * -((c.x p : ZMod n)⁻¹ * z) = 0 := by
      field_simp
      ring
    have point_part : s⁻¹ * (c.x p : ZMod n) * ((c.x p : ZMod n)⁻¹ * s) = 1 := by field_simp
    rw [keyOf, smul_add, smul_smul, smul_smul, ← add_assoc, ← add_smul, generator_part,
      point_part, zero_smul, one_smul, zero_add]
  rw [Verifies, back]
  exact ⟨low, nonzero, rfl⟩

theorem x_restored {p : Point} (nonzero : p ≠ 0) :
    (c.x p : ZMod n).val + (if n ≤ c.x p then n else 0) = c.x p := by
  have bound := c.x_lt p nonzero
  have size := c.fieldSize_le
  rw [ZMod.val_natCast]
  split
  next reduced =>
    rw [Nat.mod_eq_sub_mod reduced, Nat.mod_eq_of_lt (by omega)]
    omega
  next => exact Nat.mod_eq_of_lt (by omega)

/-- The opposite `s` gives the key back from the opposite of the nonce point only. -/
theorem point_of_keyOf_neg {p : Point} {k d z : ZMod n} (suitable : c.Suitable k d z)
    (same : c.keyOf p z (c.signWith k d z).r (-(c.signWith k d z).s) = d • c.generator) :
    p = -(k • c.generator) := by
  have factor : (c.signWith k d z).r⁻¹ * (c.signWith k d z).s ≠ 0 :=
    mul_ne_zero (inv_ne_zero suitable.r) suitable.s
  have points := add_left_cancel (same.trans (keyOf_signWith suitable).symm)
  rw [mul_neg, neg_smul, ← smul_neg] at points
  exact neg_eq_iff_eq_neg.mp (smul_right_injective Point factor points)

variable [DecidableEq Point]

theorem recover_signWith {k d z : ZMod n} (suitable : c.Suitable k d z) (key : d ≠ 0)
    (low : ¬ High (c.signWith k d z).s) :
    c.recover z (c.signWith k d z) = some (d • c.generator) := by
  have point := c.smul_generator_ne suitable.nonce
  have found : c.decompress ((c.signWith k d z).r.val +
      if (c.signWith k d z).xReduced then n else 0) (c.signWith k d z).yOdd =
        some (k • c.generator) := by
    apply (c.decompress_iff _ _ _).mpr
    refine ⟨point, ?_, rfl⟩
    simpa [signWith] using (x_restored point).symm
  have verifies := verifies_keyOf (z := z) suitable.r suitable.s low point
  change c.Verifies (c.keyOf _ z (c.signWith k d z).r _) z (c.signWith k d z).r _ at verifies
  rw [keyOf_signWith suitable] at verifies
  rw [recover, found]
  simp only [keyOf_signWith suitable]
  exact if_pos ⟨c.smul_generator_ne key, verifies⟩

/-- Without the reduction bit, the key comes back only from a small nonce point. -/
theorem small_of_recover {k d z : ZMod n} (suitable : c.Suitable k d z)
    (recovered : c.recover z (c.signWith k d z).unreduced = some (d • c.generator)) :
    c.x (k • c.generator) < n := by
  obtain ⟨p, found, key⟩ := c.recover_some recovered
  have same : c.keyOf p z (c.signWith k d z).r (c.signWith k d z).s =
      c.keyOf (k • c.generator) z (c.signWith k d z).r (c.signWith k d z).s :=
    key.trans (keyOf_signWith suitable).symm
  have factor : (c.signWith k d z).r⁻¹ * (c.signWith k d z).s ≠ 0 :=
    mul_ne_zero (inv_ne_zero suitable.r) suitable.s
  have points := smul_right_injective Point factor (add_left_cancel same)
  obtain ⟨_, x, _⟩ := (c.decompress_iff _ _ _).mp found
  rw [← points, x]
  exact ZMod.val_lt (c.signWith k d z).r

/-- Recovery undoes signing. -/
theorem recover_sign {k d z : ZMod n} (suitable : c.Suitable k d z) (key : d ≠ 0) :
    c.recover z (c.sign k d z) = some (d • c.generator) := by
  obtain ⟨k', nonce, same, low⟩ := c.sign_eq (d := d) (z := z) suitable.nonce
  rw [same]
  rcases nonce with rfl | rfl
  · exact recover_signWith suitable key low
  · exact recover_signWith (suitable_neg suitable) key low

theorem recover_unreduced_iff {k d z : ZMod n} (suitable : c.Suitable k d z) (key : d ≠ 0) :
    c.recover z (c.sign k d z).unreduced = some (d • c.generator) ↔ c.x (k • c.generator) < n := by
  have same_x := c.x_neg _ (c.smul_generator_ne suitable.nonce)
  have reduced : (c.sign k d z).xReduced = decide (n ≤ c.x (k • c.generator)) := by
    rw [sign]
    split <;> rfl
  constructor
  · intro recovered
    obtain ⟨k', nonce, same, _⟩ := c.sign_eq (d := d) (z := z) suitable.nonce
    rw [same] at recovered
    rcases nonce with rfl | rfl
    · exact small_of_recover suitable recovered
    · have small := small_of_recover (suitable_neg suitable) recovered
      rwa [neg_smul, same_x] at small
  · intro small
    have unchanged : (c.sign k d z).unreduced = c.sign k d z := by
      rw [decide_eq_false (by omega)] at reduced
      rw [Signature.unreduced, ← reduced]
    rw [unchanged, recover_sign suitable key]

/-- A recovery id that was not changed with a high `s` names the wrong one of two points. -/
theorem not_recover_lowered {k d z : ZMod n} (suitable : c.Suitable k d z)
    (high : High (c.signWith k d z).s) (reduced : Bool) :
    c.recover z { (c.signWith k d z).lowered with xReduced := reduced } ≠ some (d • c.generator) := by
  intro recovered
  obtain ⟨p, found, same⟩ := c.recover_some recovered
  have lowered : (c.signWith k d z).lowered.s = -(c.signWith k d z).s := if_pos high
  have opposite : p = -(k • c.generator) := by
    apply point_of_keyOf_neg suitable
    rw [← lowered]
    exact same
  obtain ⟨_, _, parity⟩ := (c.decompress_iff _ _ _).mp found
  rw [opposite, c.y_neg _ (c.smul_generator_ne suitable.nonce)] at parity
  exact Bool.not_ne_self _ parity

theorem recover_lowered_iff {k d z : ZMod n} (suitable : c.Suitable k d z) (key : d ≠ 0) :
    c.recover z (c.signWith k d z).lowered = some (d • c.generator) ↔
      ¬ High (c.signWith k d z).s := by
  constructor
  · intro recovered high
    exact not_recover_lowered suitable high _ recovered
  · intro low
    rw [Signature.lowered, if_neg low]
    exact recover_signWith suitable key low

theorem recover_lowered_unreduced_iff {k d z : ZMod n} (suitable : c.Suitable k d z) (key : d ≠ 0) :
    c.recover z (c.signWith k d z).lowered.unreduced = some (d • c.generator) ↔
      ¬ High (c.signWith k d z).s ∧ c.x (k • c.generator) < n := by
  constructor
  · intro recovered
    by_cases high : High (c.signWith k d z).s
    · exact absurd recovered (not_recover_lowered suitable high false)
    · rw [Signature.lowered, if_neg high] at recovered
      exact ⟨high, small_of_recover suitable recovered⟩
  · intro h
    obtain ⟨low, small⟩ := h
    have unreduced : (c.signWith k d z).unreduced = c.signWith k d z := by
      have reduced : (c.signWith k d z).xReduced = false := decide_eq_false (by omega)
      rw [Signature.unreduced, ← reduced]
    rw [Signature.lowered, if_neg low, unreduced]
    exact recover_signWith suitable key low

end Prime

end Curve

end Ecdsa
