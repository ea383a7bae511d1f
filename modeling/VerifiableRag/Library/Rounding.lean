import Mathlib.Algebra.Order.Field.Power
import VerifiableRag.Library.Float64

/-!
Bounds on binary64 rounding: representable values round to themselves, powers of two
are thresholds that rounding does not cross, and the error of a bounded value is at most
a fixed power of two.
-/
namespace Float64

theorem roundEven_near (q : ℚ) : |(roundEven q : ℚ) - q| ≤ 1 / 2 := by
  have low : (q.floor : ℚ) ≤ q := Int.floor_le q
  have high : q < q.floor + 1 := Int.lt_floor_add_one q
  have even : ((q.floor % 2 : ℤ) : ℚ) = 0 ∨ ((q.floor % 2 : ℤ) : ℚ) = 1 := by
    rcases Int.emod_two_eq_zero_or_one q.floor with zero | one
    · exact Or.inl (by rw [zero, Int.cast_zero])
    · exact Or.inr (by rw [one, Int.cast_one])
  rw [abs_le]
  unfold roundEven
  dsimp only
  split
  · constructor <;> linarith
  · split
    · push_cast
      constructor <;> linarith
    · push_cast
      rcases even with zero | one <;> constructor <;> linarith

theorem le_roundEven {n : ℤ} {q : ℚ} (below : (n : ℚ) ≤ q) : n ≤ roundEven q := by
  have near := abs_le.mp (roundEven_near q)
  by_contra less
  have : (roundEven q : ℚ) + 1 ≤ n := by exact_mod_cast not_le.mp less
  linarith

theorem roundEven_le {n : ℤ} {q : ℚ} (above : q ≤ n) : roundEven q ≤ n := by
  have near := abs_le.mp (roundEven_near q)
  by_contra more
  have : (n : ℚ) + 1 ≤ roundEven q := by exact_mod_cast not_le.mp more
  linarith

theorem roundEven_int (n : ℤ) : roundEven (n : ℚ) = n :=
  le_antisymm (roundEven_le le_rfl) (le_roundEven le_rfl)

theorem two_zpow_pos (k : ℤ) : (0 : ℚ) < 2 ^ k := zpow_pos two_pos k

theorem two_zpow_le {j k : ℤ} : (2 : ℚ) ^ j ≤ 2 ^ k ↔ j ≤ k := zpow_le_zpow_iff_right₀ one_lt_two

theorem two_zpow_lt {j k : ℤ} : (2 : ℚ) ^ j < 2 ^ k ↔ j < k := zpow_lt_zpow_iff_right₀ one_lt_two

theorem two_zpow_div (j k : ℤ) : (2 : ℚ) ^ j / 2 ^ k = 2 ^ (j - k) := (zpow_sub₀ two_ne_zero j k).symm

theorem two_zpow_cast {k : ℤ} (nonneg : 0 ≤ k) : ((2 ^ k.toNat : ℤ) : ℚ) = (2 : ℚ) ^ k := by
  push_cast
  rw [← zpow_natCast, Int.toNat_of_nonneg nonneg]

theorem log2_spec {q : ℚ} (nonzero : q ≠ 0) : (2 : ℚ) ^ log2 q ≤ |q| ∧ |q| < 2 ^ (log2 q + 1) := by
  have num_ne : q.num.natAbs ≠ 0 := Int.natAbs_ne_zero.mpr (Rat.num_ne_zero.mpr nonzero)
  have size : |q| = (q.num.natAbs : ℚ) / q.den := by
    rw [Rat.abs_def, Rat.divInt_eq_div]
    simp
  have den_pos : (0 : ℚ) < q.den := by exact_mod_cast q.den_pos
  have num_low : (2 : ℚ) ^ (q.num.natAbs.log2 : ℤ) ≤ q.num.natAbs := by
    rw [zpow_natCast]
    exact_mod_cast Nat.log2_self_le num_ne
  have num_high : (q.num.natAbs : ℚ) < 2 ^ ((q.num.natAbs.log2 : ℤ) + 1) := by
    rw [zpow_add₀ two_ne_zero, zpow_natCast, zpow_one, ← pow_succ]
    exact_mod_cast Nat.lt_log2_self
  have den_low : (2 : ℚ) ^ (q.den.log2 : ℤ) ≤ q.den := by
    rw [zpow_natCast]
    exact_mod_cast Nat.log2_self_le q.den_ne_zero
  have den_high : (q.den : ℚ) < 2 ^ ((q.den.log2 : ℤ) + 1) := by
    rw [zpow_add₀ two_ne_zero, zpow_natCast, zpow_one, ← pow_succ]
    exact_mod_cast Nat.lt_log2_self
  unfold log2
  dsimp only
  split
  next reached =>
    refine ⟨reached, ?_⟩
    rw [size, div_lt_iff₀ den_pos]
    calc (q.num.natAbs : ℚ) < 2 ^ ((q.num.natAbs.log2 : ℤ) + 1) := num_high
      _ = 2 ^ ((q.num.natAbs.log2 : ℤ) - q.den.log2 + 1) * 2 ^ (q.den.log2 : ℤ) := by
        rw [← zpow_add₀ two_ne_zero]
        ring_nf
      _ ≤ _ := mul_le_mul_of_nonneg_left den_low (two_zpow_pos _).le
  next missed =>
    rw [sub_add_cancel]
    refine ⟨?_, not_le.mp missed⟩
    rw [size, le_div_iff₀ den_pos]
    calc (2 : ℚ) ^ ((q.num.natAbs.log2 : ℤ) - q.den.log2 - 1) * q.den
        ≤ 2 ^ ((q.num.natAbs.log2 : ℤ) - q.den.log2 - 1) * 2 ^ ((q.den.log2 : ℤ) + 1) :=
          mul_le_mul_of_nonneg_left den_high.le (two_zpow_pos _).le
      _ = 2 ^ (q.num.natAbs.log2 : ℤ) := by
        rw [← zpow_add₀ two_ne_zero]
        ring_nf
      _ ≤ q.num.natAbs := num_low

theorem le_log2 {q : ℚ} {k : ℤ} (below : (2 : ℚ) ^ k ≤ |q|) : k ≤ log2 q := by
  have nonzero : q ≠ 0 := abs_pos.mp ((two_zpow_pos k).trans_le below)
  have := two_zpow_lt.mp (below.trans_lt (log2_spec nonzero).2)
  omega

theorem log2_lt {q : ℚ} {k : ℤ} (nonzero : q ≠ 0) (above : |q| < 2 ^ k) : log2 q < k :=
  two_zpow_lt.mp ((log2_spec nonzero).1.trans_lt above)

theorem quantum_zero : quantum 0 = -53 := by decide +kernel

/-- The significand of a value stays below `2 ^ 53` before it is rounded. -/
theorem scaled_lt (q : ℚ) : |q / 2 ^ quantum q| < 2 ^ 53 := by
  rcases eq_or_ne q 0 with rfl | nonzero
  · simp
  rw [abs_div, abs_of_pos (two_zpow_pos _), div_lt_iff₀ (two_zpow_pos _)]
  refine (log2_spec nonzero).2.trans_le ?_
  have unit : log2 q - 52 ≤ quantum q := le_max_left _ _
  calc (2 : ℚ) ^ (log2 q + 1) ≤ 2 ^ (53 + quantum q) := two_zpow_le.mpr (by omega)
    _ = 2 ^ 53 * 2 ^ quantum q := by
      rw [zpow_add₀ two_ne_zero]
      norm_num

theorem significand_le (q : ℚ) : (roundEven (q / 2 ^ quantum q)).natAbs ≤ 2 ^ 53 := by
  have bound := abs_lt.mp (scaled_lt q)
  have high : roundEven (q / 2 ^ quantum q) ≤ 2 ^ 53 := roundEven_le (by push_cast; exact bound.2.le)
  have low : -2 ^ 53 ≤ roundEven (q / 2 ^ quantum q) := le_roundEven (by push_cast; exact bound.1.le)
  omega

/-- The rational that a finite value denotes. -/
def F64.value? : F64 → Option ℚ
  | .finite v _ => some v
  | _ => none

theorem finite_of_value {x : F64} {v : ℚ} (value : x.value? = some v) :
    ∃ rep, x = .finite v rep := by
  cases x with
  | nan => cases value
  | infinite negative => cases value
  | finite w rep =>
    cases value
    exact ⟨rep, rfl⟩

/-- A rounding either is the nearest multiple of the last place, or overflows. -/
theorem ofRat_cases (q : ℚ) :
    (∃ v h, ofRat q = .finite v h ∧ v = roundEven (q / 2 ^ quantum q) * 2 ^ quantum q) ∨
      (970 < quantum q ∧ ¬ ((roundEven (q / 2 ^ quantum q)).natAbs < 2 ^ 53 ∧ quantum q ≤ 971) ∧
        ofRat q = .infinite (decide (q < 0))) := by
  have shape : (ofRat q).value? = some ((roundEven (q / 2 ^ quantum q) : ℚ) * 2 ^ quantum q) ∨
      (970 < quantum q ∧ ¬ ((roundEven (q / 2 ^ quantum q)).natAbs < 2 ^ 53 ∧ quantum q ≤ 971) ∧
        ofRat q = .infinite (decide (q < 0))) := by
    unfold ofRat
    dsimp only
    split
    · exact Or.inl rfl
    next unfit =>
      split
      · exact Or.inl rfl
      next full =>
        have := significand_le q
        exact Or.inr ⟨by omega, unfit, rfl⟩
  refine shape.imp_left ?_
  intro value
  obtain ⟨h, round⟩ := finite_of_value value
  exact ⟨_, h, round, rfl⟩

theorem ofRat_zero : ∃ h, ofRat 0 = .finite 0 h := finite_of_value (by decide +kernel)

/-- A value bounded from below, infinity included. -/
def F64.AtLeast (c : ℚ) : F64 → Prop
  | .nan => False
  | .infinite negative => negative = false
  | .finite v _ => c ≤ v

def F64.AtMost (c : ℚ) : F64 → Prop
  | .nan => False
  | .infinite negative => negative = true
  | .finite v _ => v ≤ c

theorem F64.AtLeast.not_atMost {x : F64} {c d : ℚ} (least : x.AtLeast c) (apart : d < c) :
    ¬ x.AtMost d := by
  cases x with
  | nan => exact least.elim
  | infinite negative =>
    intro most
    exact Bool.false_ne_true (Eq.trans (Eq.symm least) most)
  | finite v rep => exact not_le.mpr (apart.trans_le least)

section Thresholds
variable {q : ℚ} {k : ℤ}

theorem le_scaled {n : ℤ} {v : ℚ} (below : n ≤ roundEven (q / 2 ^ quantum q))
    (value : v = roundEven (q / 2 ^ quantum q) * 2 ^ quantum q) : n * 2 ^ quantum q ≤ v := by
  rw [value]
  exact mul_le_mul_of_nonneg_right (by exact_mod_cast below) (two_zpow_pos _).le

theorem scaled_le {n : ℤ} {v : ℚ} (above : roundEven (q / 2 ^ quantum q) ≤ n)
    (value : v = roundEven (q / 2 ^ quantum q) * 2 ^ quantum q) : v ≤ n * 2 ^ quantum q := by
  rw [value]
  exact mul_le_mul_of_nonneg_right (by exact_mod_cast above) (two_zpow_pos _).le

theorem ofRat_atMost_zero (nonpos : q ≤ 0) : (ofRat q).AtMost 0 := by
  rcases ofRat_cases q with ⟨v, h, round, value⟩ | ⟨large, _, round⟩
  · rw [round]
    have above : roundEven (q / 2 ^ quantum q) ≤ 0 :=
      roundEven_le (by simpa using div_nonpos_of_nonpos_of_nonneg nonpos (two_zpow_pos _).le)
    have bound := scaled_le above value
    rwa [Int.cast_zero, zero_mul] at bound
  · rw [round]
    refine decide_eq_true (lt_of_le_of_ne nonpos ?_)
    rintro rfl
    rw [quantum_zero] at large
    omega

theorem ofRat_atLeast_pow (small : -1074 ≤ k) (below : (2 : ℚ) ^ k ≤ q) :
    (ofRat q).AtLeast (2 ^ k) := by
  have positive : 0 < q := (two_zpow_pos k).trans_le below
  have reached : k ≤ log2 q := le_log2 (by rwa [abs_of_pos positive])
  rcases ofRat_cases q with ⟨v, h, round, value⟩ | ⟨large, _, round⟩
  · rw [round]
    rcases le_total (quantum q) k with fine | coarse
    · have scaled : ((2 ^ (k - quantum q).toNat : ℤ) : ℚ) ≤ q / 2 ^ quantum q := by
        rw [two_zpow_cast (by omega), ← two_zpow_div]
        exact div_le_div_of_nonneg_right below (two_zpow_pos _).le
      have bound := le_scaled (le_roundEven scaled) value
      rwa [two_zpow_cast (by omega), ← two_zpow_div, div_mul_cancel₀ _ (two_zpow_pos _).ne'] at bound
    · -- the last place of a value is never above its leading one
      have leading : quantum q ≤ log2 q := by
        rw [quantum]
        exact max_le (by omega) (small.trans reached)
      have size := (log2_spec positive.ne').1
      rw [abs_of_pos positive] at size
      have whole : ((1 : ℤ) : ℚ) ≤ q / 2 ^ quantum q := by
        rw [Int.cast_one, le_div_iff₀ (two_zpow_pos _), one_mul]
        exact (two_zpow_le.mpr leading).trans size
      have bound := le_scaled (le_roundEven whole) value
      rw [Int.cast_one, one_mul] at bound
      exact (two_zpow_le.mpr coarse).trans bound
  · rw [round]
    exact decide_eq_false (not_lt.mpr positive.le)

theorem ofRat_atMost_pow (small : -1074 ≤ k) (above : q ≤ 2 ^ k) (size : k ≤ 1022) :
    (ofRat q).AtMost (2 ^ k) := by
  rcases le_or_gt q 0 with nonpos | positive
  · have zero := ofRat_atMost_zero nonpos
    revert zero
    cases ofRat q with
    | nan => exact id
    | infinite s => exact id
    | finite v h => exact fun zero => le_trans zero (two_zpow_pos k).le
  have leading : log2 q ≤ k := by
    have := log2_lt positive.ne' (k := k + 1) (by
      rw [abs_of_pos positive]
      exact above.trans_lt (two_zpow_lt.mpr (by omega)))
    omega
  have unit : quantum q ≤ k := max_le (by omega) small
  rcases ofRat_cases q with ⟨v, h, round, value⟩ | ⟨large, _, round⟩
  · rw [round]
    have scaled : q / 2 ^ quantum q ≤ ((2 ^ (k - quantum q).toNat : ℤ) : ℚ) := by
      rw [two_zpow_cast (by omega), ← two_zpow_div]
      exact div_le_div_of_nonneg_right above (two_zpow_pos _).le
    have bound := scaled_le (roundEven_le scaled) value
    rwa [two_zpow_cast (by omega), ← two_zpow_div, div_mul_cancel₀ _ (two_zpow_pos _).ne'] at bound
  · rw [quantum] at large
    omega

/-- The rounding error of a value below `2 ^ k` is at most half its last place. -/
theorem ofRat_near (bound : |q| < 2 ^ k) (small : -1021 ≤ k) (size : k ≤ 1023) :
    ∃ v h, ofRat q = .finite v h ∧ |v - q| ≤ 2 ^ (k - 54) := by
  rcases eq_or_ne q 0 with rfl | nonzero
  · obtain ⟨h, zero⟩ := ofRat_zero
    exact ⟨0, h, zero, by simpa using (two_zpow_pos (k - 54)).le⟩
  have unit : quantum q ≤ k - 53 := by
    have := log2_lt nonzero bound
    exact max_le (by omega) (by omega)
  rcases ofRat_cases q with ⟨v, h, round, value⟩ | ⟨large, _⟩
  · refine ⟨v, h, round, ?_⟩
    have near := roundEven_near (q / 2 ^ quantum q)
    have scale : v - q = (roundEven (q / 2 ^ quantum q) - q / 2 ^ quantum q) * 2 ^ quantum q := by
      rw [value, sub_mul, div_mul_cancel₀ _ (two_zpow_pos _).ne']
    rw [scale, abs_mul, abs_of_pos (two_zpow_pos _)]
    calc _ ≤ 1 / 2 * (2 : ℚ) ^ quantum q := mul_le_mul_of_nonneg_right near (two_zpow_pos _).le
      _ ≤ 1 / 2 * 2 ^ (k - 53) := by
        exact mul_le_mul_of_nonneg_left (two_zpow_le.mpr unit) (by norm_num)
      _ = 2 ^ (k - 54) := by
        rw [show k - 53 = k - 54 + 1 by ring, zpow_add_one₀ two_ne_zero]
        ring
  · omega

end Thresholds

section Exact

/-- A representable value is a multiple of its own last place. -/
theorem representable_multiple {q : ℚ} (rep : Representable q) :
    ∃ n : ℤ, q / 2 ^ quantum q = n := by
  obtain ⟨m, e, size, low, _, value⟩ := rep
  rcases eq_or_ne q 0 with rfl | nonzero
  · exact ⟨0, by simp⟩
  rcases le_or_gt (quantum q) e with fine | coarse
  · refine ⟨m * 2 ^ (e - quantum q).toNat, ?_⟩
    rw [Int.cast_mul, two_zpow_cast (by omega), ← two_zpow_div, value, mul_div_assoc]
  · exfalso
    have leading : 53 + e ≤ log2 q := by
      rw [quantum] at coarse
      omega
    have less : |q| < 2 ^ (53 + e) := by
      rw [value, abs_mul, abs_of_pos (two_zpow_pos _), zpow_add₀ two_ne_zero]
      refine mul_lt_mul_of_pos_right ?_ (two_zpow_pos _)
      rw [← Int.cast_abs, Int.abs_eq_natAbs]
      exact_mod_cast size
    have := log2_lt nonzero less
    omega

theorem representable_lt {q : ℚ} (rep : Representable q) : |q| < 2 ^ (1024 : ℤ) := by
  obtain ⟨m, e, size, _, high, value⟩ := rep
  rw [value, abs_mul, abs_of_pos (two_zpow_pos _), ← Int.cast_abs, Int.abs_eq_natAbs]
  calc ((m.natAbs : ℤ) : ℚ) * 2 ^ e < 2 ^ (53 : ℤ) * 2 ^ e := by
        refine mul_lt_mul_of_pos_right ?_ (two_zpow_pos _)
        exact_mod_cast size
    _ = 2 ^ (53 + e) := (zpow_add₀ two_ne_zero _ _).symm
    _ ≤ 2 ^ (1024 : ℤ) := two_zpow_le.mpr (by omega)

theorem ofRat_representable {q : ℚ} (rep : Representable q) : ofRat q = .finite q rep := by
  rcases eq_or_ne q 0 with rfl | nonzero
  · exact ofRat_zero.choose_spec
  obtain ⟨n, same⟩ := representable_multiple rep
  have leading := log2_lt nonzero (representable_lt rep)
  have integer : roundEven (q / 2 ^ quantum q) = n := by rw [same, roundEven_int]
  rcases ofRat_cases q with ⟨v, h, round, value⟩ | ⟨_, unfit, _⟩
  · rw [integer, ← same, div_mul_cancel₀ _ (two_zpow_pos _).ne'] at value
    subst value
    exact round
  · exfalso
    have bound := scaled_lt q
    rw [same, ← Int.cast_abs, Int.abs_eq_natAbs] at bound
    refine unfit ⟨?_, max_le (by omega) (by omega)⟩
    rw [integer]
    exact_mod_cast bound

/-- The difference of finite values is rounded once. -/
theorem sub_finite {p q : ℚ} (hp : Representable p) (hq : Representable q) :
    (F64.finite p hp).sub (.finite q hq) = ofRat (p - q) := by
  have negated : Representable (-q) := by
    obtain ⟨m, e, size, low, high, value⟩ := hq
    exact ⟨-m, e, by simpa using size, low, high, by rw [value]; push_cast; ring⟩
  rw [F64.sub, F64.neg, ofRat_representable negated, F64.add, sub_eq_add_neg]

end Exact

end Float64
