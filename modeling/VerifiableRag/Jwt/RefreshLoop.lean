import Mathlib.Algebra.Order.Archimedean.Basic
import VerifiableRag.Jwt.CacheRuns

/-!
The timing of `run_refresh_loop` when every fetch succeeds at once and sleeps last as
requested. A token that names a lifetime of at least four seconds is renewed before it
expires; one without `iat`, or issued no earlier than it expires, never is.
-/
namespace Jwt
open Bytes Json Float64 Results

/-- An iteration about to start: the exact time, in microseconds, and the cache. -/
structure Wakeup where
  time : ℚ
  cache : AttestationStateCache

/-- `datetime.now(timezone.utc)`. -/
def reading (time : ℚ) : Instant := time.floor

/-- The microseconds that a sleep of so many seconds takes. -/
def slept (seconds : F64) : ℚ := seconds.value?.getD 0 * 1000000

namespace Wakeup
variable (py : Interpreter)

def due (w : Wakeup) : Bool := w.cache.due (reading w.time)

/-- The next wake-up, where a fetch takes no time. -/
def next (w : Wakeup) (first second : Reply) : Wakeup :=
  let (cache, wait) := w.cache.iterate py (reading w.time) (reading w.time) first second
  ⟨w.time + slept wait, cache⟩

def nth (start : Wakeup) (replies : ℕ → Reply × Reply) : ℕ → Wakeup
  | 0 => start
  | n + 1 => (nth start replies n).next py (replies n).1 (replies n).2

/-- The expiry of the held primary token. -/
def expiry (w : Wakeup) : Option Instant := w.cache.state.bind (·.1.expiresAt)

/-- The wake-up after this one if it fetches nothing. -/
def idle (w : Wakeup) : Wakeup := ⟨w.time + slept (w.cache.wait (reading w.time)), w.cache⟩

end Wakeup

/-- A wake-up from which the loop, sleeping on, renews before the held token expires. -/
inductive RenewsInTime (expires : Instant) : Wakeup → Prop where
  | now {w : Wakeup} (early : w.time < expires) (due : w.due = true) : RenewsInTime expires w
  | later {w : Wakeup} (early : w.time < expires) (idle : w.due = false)
      (rest : RenewsInTime expires w.idle) : RenewsInTime expires w

section Durations

theorem ofRat_one : ∃ h, ofRat 1 = .finite 1 h := finite_of_value (by decide +kernel)

theorem ofRat_sixty : ∃ h, stateMaxInterval = .finite 60 h := finite_of_value (by decide +kernel)

theorem ofRat_quarter : ∃ h, refreshMarginFraction = .finite (1 / 4) h :=
  finite_of_value (by decide +kernel)

/-- A sleep is between one second and a minute, and above one second only as asked. -/
theorem clamp_spec (x : F64) : ∃ v h, pyMax (ofRat 1) (pyMin x stateMaxInterval) = .finite v h ∧
    1 ≤ v ∧ v ≤ 60 ∧ (v = 1 ∨ x.AtLeast v) := by
  obtain ⟨h1, one⟩ := ofRat_one
  obtain ⟨h60, sixty⟩ := ofRat_sixty
  have low : ∃ v h, F64.finite 1 h1 = .finite v h ∧ 1 ≤ v ∧ v ≤ 60 ∧ (v = 1 ∨ x.AtLeast v) :=
    ⟨1, h1, rfl, le_refl 1, by norm_num, Or.inl rfl⟩
  rw [one, sixty]
  cases x with
  | nan => simpa [pyMin, pyMax, F64.lt] using low
  | infinite negative =>
    cases negative with
    | true => simpa [pyMin, pyMax, F64.lt] using low
    | false =>
      refine ⟨60, h60, ?_, by norm_num, le_refl 60, Or.inr rfl⟩
      simp [pyMin, pyMax, F64.lt]
  | finite v h =>
    by_cases long : 60 < v
    · refine ⟨60, h60, ?_, by norm_num, le_refl 60, Or.inr long.le⟩
      simp [pyMin, pyMax, F64.lt, long]
    · by_cases short : 1 < v
      · refine ⟨v, h, ?_, short.le, not_lt.mp long, Or.inr (le_refl v)⟩
        simp [pyMin, pyMax, F64.lt, long, short]
      · simpa [pyMin, pyMax, F64.lt, long, short] using low

theorem positive_part {x : F64} (positive : (pyMax (ofRat 0) x).le (ofRat 0) = false) :
    pyMax (ofRat 0) x = x ∧ ¬ x.AtMost 0 := by
  obtain ⟨h, zero⟩ := ofRat_zero
  rw [zero] at positive ⊢
  unfold pyMax at positive ⊢
  split at positive
  next above =>
    rw [if_pos above]
    refine ⟨rfl, ?_⟩
    rw [← le_zero_iff, zero, positive]
    exact Bool.false_ne_true
  next => simp [F64.le] at positive

/-- What is left of a token within the minute is measured to better than a nanosecond. -/
theorem totalSeconds_near {micros : ℤ} (positive : 0 < micros) (short : micros < 61000000) :
    ∃ r h, totalSeconds micros = .finite r h ∧ |r - micros / 1000000| ≤ 2 ^ (-48 : ℤ) := by
  refine ofRat_near (k := 6) ?_ (by norm_num) (by norm_num)
  have low : (0 : ℚ) < micros := by exact_mod_cast positive
  have high : (micros : ℚ) < 61000000 := by exact_mod_cast short
  rw [abs_of_pos (by positivity), div_lt_iff₀ (by norm_num)]
  norm_num
  linarith

theorem zero_lt_iff {x : F64} : (ofRat 0).lt x = true ↔ ∃ c > 0, x.AtLeast c := by
  obtain ⟨h, zero⟩ := ofRat_zero
  rw [zero]
  cases x with
  | nan => simp [F64.lt, F64.AtLeast]
  | infinite negative =>
    simp only [F64.lt, F64.AtLeast, Bool.not_eq_eq_eq_not, Bool.not_true]
    constructor
    · intro positive
      exact ⟨1, one_pos, positive⟩
    · intro h
      obtain ⟨_, _, positive⟩ := h
      exact positive
  | finite v rep =>
    simp only [F64.lt, F64.AtLeast, decide_eq_true_eq]
    constructor
    · intro positive
      exact ⟨v, positive, le_refl v⟩
    · intro h
      obtain ⟨_, positive, le⟩ := h
      exact positive.trans_le le

theorem pyMax_positive {x : F64} {c : ℚ} (positive : 0 < c) (least : x.AtLeast c) :
    (pyMax (ofRat 0) x).le (ofRat 0) = false := by
  rw [pyMax, if_pos (zero_lt_iff.mpr ⟨c, positive, least⟩), ← Bool.not_eq_true, le_zero_iff]
  exact least.not_atMost positive

theorem four_seconds {lifetime : ℤ} (long : 4000000 ≤ lifetime) :
    (totalSeconds lifetime).AtLeast (2 ^ (2 : ℤ)) := by
  refine ofRat_atLeast_pow (by norm_num) ?_
  have : (4000000 : ℚ) ≤ lifetime := by exact_mod_cast long
  rw [le_div_iff₀ (by norm_num)]
  norm_num
  linarith

theorem margin_atLeast_one {lifetime : ℤ} (long : 4000000 ≤ lifetime) :
    (refreshMarginFraction.mul (totalSeconds lifetime)).AtLeast 1 := by
  obtain ⟨hq, quarter⟩ := ofRat_quarter
  have far := four_seconds long
  rw [quarter]
  revert far
  cases totalSeconds lifetime with
  | nan => exact id
  | infinite negative =>
    intro far
    obtain rfl : negative = false := far
    simp [F64.mul, F64.AtLeast]
  | finite l h =>
    intro far
    have bound : (2 : ℚ) ^ (2 : ℤ) ≤ l := far
    have scaled := ofRat_atLeast_pow (k := 0) (q := 1 / 4 * l) (by norm_num) (by
      norm_num at bound ⊢
      linarith)
    simpa [F64.mul] using scaled

end Durations

section Sleeping
variable {w : Wakeup} {state : AttestationWithIntel} {expires : Instant}

theorem lt_reading (time : ℚ) : time < reading time + 1 := Int.lt_floor_add_one time

theorem reading_lt {time : ℚ} {t : Instant} : reading time < t ↔ time < t :=
  (Int.floor_lt : ⌊time⌋ < t ↔ time < t)

/-- A cache right after a fetch that succeeded. -/
structure Holds (cache : AttestationStateCache) (state : AttestationWithIntel)
    (expires : Instant) : Prop where
  held : cache.state = some state
  dies : state.1.expiresAt = some expires
  healthy : cache.consecutiveFailures = 0

theorem refresh_after (holds : Holds w.cache state expires) (early : w.time < expires) :
    w.cache.secondsUntilRefresh (reading w.time) = pyMax (ofRat 0)
      ((totalSeconds (expires - reading w.time)).sub (refreshMarginFraction.mul
        (AttestationStateCache.marginBase state.1 (totalSeconds (expires - reading w.time))))) := by
  have left : ¬ expires - reading w.time ≤ 0 :=
    not_le.mpr (sub_pos.mpr (reading_lt.mpr early))
  simp only [AttestationStateCache.secondsUntilRefresh, AttestationStateCache.secondsUntilExpiry,
    holds.held, holds.dies, Option.bind_eq_bind, Option.bind_some, Option.pure_def]
  rw [if_neg (by rw [totalSeconds_le_zero]; exact left)]

theorem slept_spec (holds : Holds w.cache state expires) :
    ∃ v, slept (w.cache.wait (reading w.time)) = v * 1000000 ∧ 1 ≤ v ∧ v ≤ 60 ∧
      (v = 1 ∨ (w.cache.secondsUntilRefresh (reading w.time)).AtLeast v) := by
  obtain ⟨v, h, clamped, low, high, asked⟩ :=
    clamp_spec (w.cache.secondsUntilRefresh (reading w.time))
  refine ⟨v, ?_, low, high, asked⟩
  simp only [AttestationStateCache.wait, holds.held, holds.healthy, Option.isNone_some,
    Bool.false_eq_true, lt_self_iff_false, or_self, if_false, clamped, slept, F64.value?,
    Option.getD_some]

theorem idle_later (holds : Holds w.cache state expires) : w.time + 1000000 ≤ w.idle.time := by
  obtain ⟨v, sleep, low, _⟩ := slept_spec holds
  simp only [Wakeup.idle, sleep]
  linarith

/-- Where the lifetime is at least four seconds, a sleep that a wake-up before the margin
asks for ends before the token expires. -/
theorem idle_before_expiry (holds : Holds w.cache state expires) {issued : Instant}
    (dated : state.1.issuedAt = some issued) (long : 4000000 ≤ expires - issued)
    (early : w.time < expires) (undue : w.due = false) : w.idle.time < expires := by
  have tick := lt_reading w.time
  have left : (0 : ℤ) < expires - reading w.time := sub_pos.mpr (reading_lt.mpr early)
  obtain ⟨v, sleep, low, high, asked⟩ := slept_spec holds
  have goal : w.time + v * 1000000 < expires → w.idle.time < expires := by
    intro before
    simpa only [Wakeup.idle, sleep] using before
  apply goal
  generalize duration : expires - reading w.time = d at *
  have whole : (expires : ℚ) = d + reading w.time := by
    rw [← duration]
    push_cast
    ring
  by_cases far : 61000000 ≤ d
  · have : (61000000 : ℚ) ≤ d := by exact_mod_cast far
    linarith
  have positive := margin_atLeast_one long
  have base : AttestationStateCache.marginBase state.1 (totalSeconds d) =
      totalSeconds (expires - issued) := by
    have lived : (ofRat 0).lt (totalSeconds (expires - issued)) = true :=
      zero_lt_iff.mpr ⟨_, two_zpow_pos 2, four_seconds long⟩
    simp only [AttestationStateCache.marginBase, dated, holds.dies, lived, if_true]
  rw [Wakeup.due, AttestationStateCache.due] at undue
  rw [refresh_after holds early, duration, base] at undue asked
  obtain ⟨exact_value, above⟩ := positive_part undue
  rw [exact_value] at asked
  obtain ⟨r, hr, remaining, near⟩ := totalSeconds_near left (not_le.mp far)
  rw [remaining] at above asked
  revert positive asked above
  cases refreshMarginFraction.mul (totalSeconds (expires - issued)) with
  | nan => exact fun positive => positive.elim
  | infinite negative =>
    intro positive asked above
    obtain rfl : negative = false := positive
    exact absurd rfl above
  | finite m hm =>
    intro positive asked above
    have margin : 1 ≤ m := positive
    rw [sub_finite] at above asked
    have gap : m < r := by
      by_contra le
      exact above (ofRat_atMost_zero (by linarith))
    have tiny : (2 : ℚ) ^ (-48 : ℤ) < 1 / 10000000 := by norm_num
    have close := abs_le.mp near
    rcases asked with rfl | asked
    · -- one second of sleep needs more than one second left
      have more : 1000000 < d := by
        by_contra few
        have most : (d : ℚ) ≤ 1000000 := by exact_mod_cast not_lt.mp few
        have bound := ofRat_atMost_pow (k := 0) (q := (d : ℚ) / 1000000) (by norm_num)
          (by rw [div_le_iff₀ (by norm_num)]; norm_num; linarith) (by norm_num)
        rw [totalSeconds] at remaining
        rw [remaining] at bound
        have : r ≤ 2 ^ (0 : ℤ) := bound
        norm_num at this
        linarith
      have : (1000000 : ℚ) + 1 ≤ d := by exact_mod_cast more
      linarith
    · have bounded : |r - m| < 2 ^ (6 : ℤ) := by
        have : (d : ℚ) < 61000000 := by exact_mod_cast not_le.mp far
        rw [abs_of_pos (by linarith)]
        norm_num
        linarith
      obtain ⟨x, hx, difference, error⟩ := ofRat_near bounded (by norm_num) (by norm_num)
      rw [difference] at asked
      have request : v ≤ x := asked
      have := abs_le.mp error
      norm_num at this tiny close
      linarith

/-- A token of which `_seconds_until_refresh` knows a positive lifetime. -/
def Lived (token : AttestationToken) (expires : Instant) : Prop :=
  ∃ issued, token.issuedAt = some issued ∧ issued < expires

theorem base_unlived (holds : Holds w.cache state expires) (unlived : ¬ Lived state.1 expires)
    (remaining : F64) : AttestationStateCache.marginBase state.1 remaining = remaining := by
  unfold AttestationStateCache.marginBase
  rw [holds.dies]
  cases dated : state.1.issuedAt with
  | none => rfl
  | some issued =>
    have nonpositive : (totalSeconds (expires - issued)).AtMost 0 := by
      rw [← le_zero_iff, totalSeconds_le_zero]
      exact sub_nonpos.mpr (not_lt.mp fun before => unlived ⟨issued, dated, before⟩)
    have not_lived : ¬ (ofRat 0).lt (totalSeconds (expires - issued)) = true := by
      rw [zero_lt_iff]
      rintro ⟨c, positive, least⟩
      exact least.not_atMost positive nonpositive
    exact if_neg not_lived

/-- Without a positive lifetime the margin is a quarter of what is left, so no renewal is
ever due before the token expires. -/
theorem undue_unlived (holds : Holds w.cache state expires) (unlived : ¬ Lived state.1 expires)
    (early : w.time < expires) (near : expires - reading w.time < 2 ^ 70) : w.due = false := by
  have left : (0 : ℤ) < expires - reading w.time := sub_pos.mpr (reading_lt.mpr early)
  rw [Wakeup.due, AttestationStateCache.due, refresh_after holds early,
    base_unlived holds unlived]
  generalize expires - reading w.time = d at *
  have low : (1 : ℚ) ≤ d := by exact_mod_cast left
  have high : (d : ℚ) < 2 ^ 70 := by exact_mod_cast near
  obtain ⟨r, hr, remaining, _⟩ := ofRat_near (q := (d : ℚ) / 1000000) (k := 70) (by
    rw [abs_of_pos (by positivity), div_lt_iff₀ (by norm_num)]
    refine high.trans_le ?_
    norm_num) (by norm_num) (by norm_num)
  have least := ofRat_atLeast_pow (k := -20) (q := (d : ℚ) / 1000000) (by norm_num) (by
    rw [le_div_iff₀ (by norm_num)]
    norm_num
    linarith)
  rw [remaining] at least
  have bound : (2 : ℚ) ^ (-20 : ℤ) ≤ r := least
  have positive : 0 < r := (two_zpow_pos _).trans_le bound
  obtain ⟨hq, quarter⟩ := ofRat_quarter
  have leading := log2_spec positive.ne'
  rw [abs_of_pos positive] at leading
  have start : -20 ≤ log2 r := le_log2 (by rwa [abs_of_pos positive])
  have top := log2_lt positive.ne' (representable_lt hr)
  have half : (2 : ℚ) ^ log2 r = 2 * 2 ^ (log2 r - 1) := by
    rw [← zpow_one_add₀ two_ne_zero]
    ring_nf
  have double : (2 : ℚ) ^ (log2 r + 1) = 4 * 2 ^ (log2 r - 1) := by
    rw [zpow_add_one₀ two_ne_zero, half]
    ring
  have margin := ofRat_atMost_pow (k := log2 r - 1) (q := 1 / 4 * r) (by omega) (by linarith)
    (by omega)
  rw [totalSeconds, remaining, quarter, F64.mul]
  -- the rounded quarter stays below half of what is left
  revert margin
  cases ofRat (1 / 4 * r) with
  | nan => exact fun none_such => none_such.elim
  | infinite negative =>
    intro down
    obtain rfl : negative = true := down
    exact pyMax_positive one_pos rfl
  | finite m hm =>
    intro down
    have quarter_bound : m ≤ 2 ^ (log2 r - 1) := down
    rw [sub_finite]
    have gap := ofRat_atLeast_pow (k := log2 r - 1) (q := r - m) (by omega) (by linarith)
    exact pyMax_positive (two_zpow_pos _) gap

theorem RenewsInTime.early (renews : RenewsInTime expires w) : w.time < expires := by
  cases renews with
  | now early _ => exact early
  | later early _ _ => exact early

theorem renews_lived (holds : Holds w.cache state expires) {issued : Instant}
    (dated : state.1.issuedAt = some issued) (long : 4000000 ≤ expires - issued)
    (early : w.time < expires) : RenewsInTime expires w := by
  obtain ⟨steps, budget⟩ := exists_nat_ge ((expires - w.time) / 1000000)
  rw [div_le_iff₀ (by norm_num)] at budget
  -- every sleep uses up a second of the budget and leaves the token alive
  induction steps generalizing w with
  | zero =>
    rw [Nat.cast_zero, zero_mul] at budget
    linarith
  | succ steps ih =>
    cases undue : w.due with
    | true => exact .now early undue
    | false =>
      have next := idle_before_expiry holds dated long early undue
      have later := idle_later holds
      refine .later early undue (ih holds next ?_)
      push_cast at budget
      linarith

theorem lived_of_renews (renews : RenewsInTime expires w) (holds : Holds w.cache state expires)
    (near : expires - reading w.time < 2 ^ 70) : Lived state.1 expires := by
  induction renews with
  | now early due =>
    by_contra unlived
    rw [undue_unlived holds unlived early near] at due
    cases due
  | later early _ _ ih =>
    refine ih holds ?_
    have later := idle_later holds
    have monotone : reading _ ≤ reading _ := Int.floor_mono ((le_add_of_nonneg_right
      (by norm_num)).trans later)
    exact lt_of_le_of_lt (sub_le_sub_left monotone _) near

end Sleeping

section Runs
variable {py : Interpreter} {w : Wakeup} {first second : Reply}

/-- The wake-up with a freshly fetched state. -/
def Wakeup.renewed (w : Wakeup) (state : AttestationWithIntel) : Wakeup :=
  ⟨w.time, { w.cache with state := some state, lastError := none, consecutiveFailures := 0 }⟩

theorem holds_renewed {state : AttestationWithIntel} {expires : Instant}
    (dies : state.1.expiresAt = some expires) : Holds (w.renewed state).cache state expires :=
  ⟨rfl, dies, rfl⟩

theorem next_idle (undue : w.due = false) : w.next py first second = w.idle := by
  have same : w.cache.due (reading w.time) = false := undue
  simp only [Wakeup.next, AttestationStateCache.iterate, same, Bool.false_eq_true, if_false]
  rfl

theorem next_fetch {state : AttestationWithIntel} (due : w.due = true)
    (ok : w.cache.engine.fetchTokenWithFallback py first second = .ok state) :
    w.next py first second = (w.renewed state).idle := by
  have same : w.cache.due (reading w.time) = true := due
  simp only [Wakeup.next, AttestationStateCache.iterate, same, if_true, guardedRefresh_ok ok]
  rfl

/-- A token renewed in time: it names a positive lifetime, of four seconds at least, or else
the sleeps after its fetch happen to meet its margin. -/
def Timely (w : Wakeup) (state : AttestationWithIntel) : Prop :=
  ∃ issued expires, state.1.issuedAt = some issued ∧ state.1.expiresAt = some expires ∧
    issued < expires ∧
    (4000000 ≤ expires - issued ∨ RenewsInTime expires (w.renewed state).idle)

theorem timely_renews {state : AttestationWithIntel} {expires : Instant}
    (timely : Timely w state) (dies : state.1.expiresAt = some expires)
    (left : reading w.time + 4000000 ≤ expires) :
    RenewsInTime expires (w.renewed state).idle := by
  obtain ⟨issued, expires', dated, dies', _, lived⟩ := timely
  obtain rfl : expires' = expires := Option.some.inj (dies'.symm.trans dies)
  rcases lived with long | renews
  · have holds := holds_renewed (w := w) dies
    have tick := lt_reading w.time
    have whole : (reading w.time : ℚ) + 4000000 ≤ expires' := by exact_mod_cast left
    have start : (w.renewed state).time < expires' := by
      simp only [Wakeup.renewed]
      linarith
    refine renews_lived holds dated long ?_
    cases due : (w.renewed state).due with
    | false => exact idle_before_expiry holds dated long start due
    | true =>
      -- renewal is already due again, and the loop sleeps one second
      obtain ⟨v, sleep, low, _, asked⟩ := slept_spec holds
      have zero := le_zero_iff.mp due
      have second : v = 1 := asked.resolve_right fun more =>
        more.not_atMost (one_pos.trans_le low) zero
      rw [second, one_mul] at sleep
      simp only [Wakeup.idle, sleep]
      simp only [Wakeup.renewed]
      linarith
  · exact renews

section Healthy
variable (py : Interpreter) (start : Wakeup) (replies : ℕ → Reply × Reply)

/-- The fetch of the `n`-th wake-up returns a state. -/
def FetchedAt (n : ℕ) (state : AttestationWithIntel) : Prop :=
  (start.nth py replies n).due = true ∧
    (start.nth py replies n).cache.engine.fetchTokenWithFallback py (replies n).1 (replies n).2 =
      .ok state

/-- Every fetch of the first `count` wake-ups succeeds, with four seconds left to live. -/
def Healthy (count : ℕ) : Prop :=
  ∀ n < count, (start.nth py replies n).due = true → ∃ state expires,
    FetchedAt py start replies n state ∧ state.1.expiresAt = some expires ∧
      reading (start.nth py replies n).time + 4000000 ≤ expires

/-- No wake-up finds the held primary token expired, so each renewal comes strictly before
the expiry, and from the first wake-up on a snapshot succeeds at any time. -/
def Gapless (count : ℕ) : Prop :=
  (∀ n ≤ count, 0 < n → ∀ expires ∈ (start.nth py replies n).expiry,
    (start.nth py replies n).time < expires) ∧
  ∀ n < count, ∀ t, (start.nth py replies n).time ≤ t → t ≤ (start.nth py replies (n + 1)).time →
    ∃ state, (start.nth py replies (n + 1)).cache.snapshot (reading t) = .ok state

end Healthy

section Run
variable {py : Interpreter} {start : Wakeup} {replies : ℕ → Reply × Reply} {count : ℕ}

theorem nth_fetch {n : ℕ} {state : AttestationWithIntel}
    (fetched : FetchedAt py start replies n state) :
    start.nth py replies (n + 1) = ((start.nth py replies n).renewed state).idle :=
  next_fetch fetched.1 fetched.2

theorem nth_idle {n : ℕ} (undue : (start.nth py replies n).due = false) :
    start.nth py replies (n + 1) = (start.nth py replies n).idle := next_idle undue

/-- What holds at every wake-up after the first: a healthy state, in time for its renewal. -/
def OnTime (w : Wakeup) : Prop :=
  ∃ state expires, Holds w.cache state expires ∧ RenewsInTime expires w

theorem onTime_next (healthy : Healthy py start replies count)
    (timely : ∀ n < count, ∀ state, FetchedAt py start replies n state →
      Timely (start.nth py replies n) state) {n : ℕ} (inside : n < count)
    (due_or : (start.nth py replies n).due = true ∨ OnTime (start.nth py replies n)) :
    OnTime (start.nth py replies (n + 1)) := by
  cases due : (start.nth py replies n).due with
  | true =>
    obtain ⟨state, expires, fetched, dies, left⟩ := healthy n inside due
    rw [nth_fetch fetched]
    exact ⟨state, expires, holds_renewed dies, timely_renews (timely n inside state fetched) dies left⟩
  | false =>
    rw [nth_idle due]
    obtain ⟨state, expires, holds, renews⟩ := due_or.resolve_left (by simp [due])
    cases renews with
    | now _ now => rw [due] at now; cases now
    | later _ _ rest => exact ⟨state, expires, holds, rest⟩

theorem due_empty {w : Wakeup} (cold : w.cache.state = none) : w.due = true := by
  obtain ⟨h, zero⟩ := ofRat_zero
  rw [Wakeup.due, AttestationStateCache.due, AttestationStateCache.secondsUntilRefresh, cold, zero]
  exact decide_eq_true (le_refl 0)

theorem onTime_run (cold : start.cache.state = none) (healthy : Healthy py start replies count)
    (timely : ∀ n < count, ∀ state, FetchedAt py start replies n state →
      Timely (start.nth py replies n) state) :
    ∀ n < count, OnTime (start.nth py replies (n + 1)) := by
  intro n inside
  induction n with
  | zero => exact onTime_next healthy timely inside (Or.inl (due_empty cold))
  | succ n ih => exact onTime_next healthy timely inside (Or.inr (ih (by omega)))

theorem gapless_of_timely (cold : start.cache.state = none)
    (healthy : Healthy py start replies count)
    (timely : ∀ n < count, ∀ state, FetchedAt py start replies n state →
      Timely (start.nth py replies n) state) : Gapless py start replies count := by
  have onTime := onTime_run cold healthy timely
  constructor
  · intro n bound positive expires held
    obtain ⟨k, rfl⟩ := Nat.exists_eq_succ_of_ne_zero positive.ne'
    obtain ⟨state, dies, holds, renews⟩ := onTime k (by omega)
    rw [Wakeup.expiry, holds.held, Option.bind_some, holds.dies, Option.mem_some_iff] at held
    exact held ▸ renews.early
  · intro n bound t _ before
    obtain ⟨state, dies, holds, renews⟩ := onTime n bound
    refine ⟨state, snapshot_ok_iff.mpr ⟨holds.held, ?_⟩⟩
    intro expires held
    rw [holds.dies, Option.mem_some_iff] at held
    rw [← held, reading_lt]
    exact before.trans_lt renews.early

/-- The sleeps of a run up to its next renewal are those of the schedule. -/
theorem renews_of_next {state : AttestationWithIntel} {expires : Instant} (k : ℕ) {n : ℕ}
    (holds : Holds (start.nth py replies n).cache state expires)
    (undue : ∀ j, n ≤ j → j < n + k → (start.nth py replies j).due = false)
    (due : (start.nth py replies (n + k)).due = true)
    (early : (start.nth py replies (n + k)).time < expires) :
    RenewsInTime expires (start.nth py replies n) := by
  induction k generalizing n with
  | zero => exact .now early due
  | succ k ih =>
    have idle := undue n le_rfl (by omega)
    have same := nth_idle idle
    have next : Holds (start.nth py replies (n + 1)).cache state expires := by
      rw [same]
      exact holds
    rw [← Nat.add_assoc, Nat.add_right_comm] at due early
    have rest := ih next (fun j low high => undue j (by omega) (by omega)) due early
    have later := idle_later holds
    rw [same] at rest
    exact .later (lt_of_le_of_lt (by linarith) rest.early) idle rest

theorem nth_time_ge (cold : start.cache.state = none) (healthy : Healthy py start replies count)
    {n : ℕ} (inside : n ≤ count) : start.time ≤ (start.nth py replies n).time ∧
      (0 < n → ∃ state expires, Holds (start.nth py replies n).cache state expires) := by
  induction n with
  | zero => exact ⟨le_rfl, fun positive => absurd positive (lt_irrefl 0)⟩
  | succ n ih =>
    obtain ⟨before, held⟩ := ih (by omega)
    cases due : (start.nth py replies n).due with
    | true =>
      obtain ⟨state, expires, fetched, dies, _⟩ := healthy n inside due
      have holds := holds_renewed (w := start.nth py replies n) dies
      rw [nth_fetch fetched]
      have later := idle_later holds
      simp only [Wakeup.renewed] at later
      refine ⟨by simp only [Wakeup.renewed]; linarith, fun _ => ⟨state, expires, holds⟩⟩
    | false =>
      have positive : 0 < n := by
        by_contra zero
        obtain rfl : n = 0 := by omega
        rw [Wakeup.nth, due_empty cold] at due
        cases due
      obtain ⟨state, expires, holds⟩ := held positive
      rw [nth_idle due]
      have later := idle_later holds
      exact ⟨by linarith, fun _ => ⟨state, expires, holds⟩⟩

theorem years_apart {s t now : ℤ} (hs : inYears s = true) (ht : inYears t = true) (le : s ≤ now) :
    t - now < 2 ^ 70 := by
  simp only [inYears, decide_eq_true_eq] at hs ht
  have first : (-62135596800 : ℤ) ≤ s / 1000000 := hs.1
  have last : t / 1000000 ≤ (253402300799 : ℤ) := ht.2
  omega

/-- In a healthy run of the loop there is no gap if every fetched token is renewed in time,
and after a token that is not, the next renewal comes no earlier than its expiry. -/
theorem renewal_gaps (engine : AttestationEngine) (time : ℚ)
    (dated : inYears (reading time) = true)
    (healthy : Healthy py ⟨time, .init engine⟩ replies count) :
    ((∀ n < count, ∀ state, FetchedAt py ⟨time, .init engine⟩ replies n state →
        Timely (Wakeup.nth py ⟨time, .init engine⟩ replies n) state) →
      Gapless py ⟨time, .init engine⟩ replies count) ∧
    ∀ n < count, ∀ state, FetchedAt py ⟨time, .init engine⟩ replies n state →
      ¬ Timely (Wakeup.nth py ⟨time, .init engine⟩ replies n) state →
      ∀ k, n < k → k ≤ count → (Wakeup.nth py ⟨time, .init engine⟩ replies k).due = true →
      (∀ j, n < j → j < k → (Wakeup.nth py ⟨time, .init engine⟩ replies j).due = false) →
      ∀ expires ∈ state.1.expiresAt,
        expires ≤ (Wakeup.nth py ⟨time, .init engine⟩ replies k).time := by
  refine ⟨gapless_of_timely rfl healthy, ?_⟩
  intro n inside state fetched untimely k after bound due undue expires dies
  by_contra early
  have dies : state.1.expiresAt = some expires := dies
  obtain ⟨gap, rfl⟩ := Nat.exists_eq_add_of_lt after
  rw [Nat.add_right_comm] at due undue early
  have next := nth_fetch fetched
  have holds : Holds (Wakeup.nth py ⟨time, .init engine⟩ replies (n + 1)).cache state expires := by
    rw [next]
    exact holds_renewed dies
  have renews := renews_of_next gap holds (fun j low high => undue j low high) due (not_le.mp early)
  have near : expires - reading (Wakeup.nth py ⟨time, .init engine⟩ replies (n + 1)).time <
      2 ^ 70 := by
    obtain ⟨raw, parsed⟩ := fallback_primary fetched.2
    have upper := parseToken_expires parsed dies
    have lower : reading time ≤ reading (Wakeup.nth py ⟨time, .init engine⟩ replies (n + 1)).time :=
      Int.floor_mono (nth_time_ge rfl healthy (by omega)).1
    exact years_apart dated upper lower
  obtain ⟨issued, stamped, before⟩ := lived_of_renews renews holds near
  rw [next] at renews
  exact untimely ⟨issued, expires, stamped, dies, before, Or.inr renews⟩

end Run

end Runs

section Sample

/-- A loop that starts at second 1786060800, against an endpoint with a single token. -/
def sampleStart : Wakeup := ⟨1786060800000000, .init sampleEngine⟩

def sampleReplies (segment : Text) : ℕ → Reply × Reply :=
  fun _ => (tokenReply 1786060800 segment, tokenReply 1786060800 segment)

/-- A token of forty seconds; only its `iat` and `exp` vary. -/
def shortSegment (times : String) : Text := utf8 <|
  "eyJpc3MiOiJodHRwczovL2NvbmZpZGVudGlhbGNvbXB1dGluZy5nb29nbGVhcGlzLmNvbSIsImF1ZCI6ImZsYXJlLXZl" ++
  "cmlmaWFibGUtcmFnIiwiaWF0IjoxNzg2MDYw" ++ times ++
  "AsInN3bmFtZSI6IkNPTkZJREVOVElBTF9TUEFDRSIsInN1Ym1vZHMiOnsiY29udGFpbmVyIjp7ImltYWdlX2RpZ2VzdC" ++
  "I6InNoYTI1NjphYmFiYWJhYmFiYWJhYmFiYWJhYmFiYWJhYmFiYWJhYmFiYWJhYmFiYWJhYmFiYWJhYmFiYWJhYmFiYW" ++
  "JhYmFiIn19LCJlYXRfbm9uY2UiOiIwMDExMjIzMzQ0NTU2Njc3ODg5OWFhYmJjY2RkZWVmZiJ9"

/-- The first wake-up gets a token from second 1786060790 on, a later one a token from second
1786060820 on. -/
def sampleRenewal (n : ℕ) : Reply × Reply :=
  if n = 0 then
    (tokenReply 1786060800 (shortSegment "NzkwLCJleHAiOjE3ODYwNjA4Mz"),
      tokenReply 1786060800 (shortSegment "NzkwLCJleHAiOjE3ODYwNjA4Mz"))
  else
    (tokenReply 1786060820 (shortSegment "ODIwLCJleHAiOjE3ODYwNjA4Nj"),
      tokenReply 1786060820 (shortSegment "ODIwLCJleHAiOjE3ODYwNjA4Nj"))

theorem renewal_gaps_renewed :
    (sampleStart.nth replayPython sampleRenewal 2).expiry = some 1786060860000000 ∧
      Gapless replayPython sampleStart sampleRenewal 2 := by
  have fetches : ∀ n ∈ [0, 1], (sampleStart.nth replayPython sampleRenewal n).due = true ∧
      ((sampleStart.nth replayPython sampleRenewal n).cache.engine.fetchTokenWithFallback replayPython
        (sampleRenewal n).1 (sampleRenewal n).2).toOption.map
          (fun state => (state.1.issuedAt, state.1.expiresAt)) =
        some (some (1786060790000000 + 30000000 * (n : ℤ)),
          some (1786060830000000 + 30000000 * (n : ℤ))) ∧
      reading (sampleStart.nth replayPython sampleRenewal n).time + 4000000 ≤
        1786060830000000 + 30000000 * (n : ℤ) := by
    decide +kernel
  have fetched : ∀ n < 2, ∃ state, FetchedAt replayPython sampleStart sampleRenewal n state ∧
      state.1.issuedAt = some (1786060790000000 + 30000000 * (n : ℤ)) ∧
      state.1.expiresAt = some (1786060830000000 + 30000000 * (n : ℤ)) := by
    intro n inside
    obtain ⟨due, shown, _⟩ := fetches n (by simp; omega)
    obtain ⟨state, ok, times⟩ := Option.map_eq_some_iff.mp shown
    obtain ⟨dated, dies⟩ := Prod.mk.inj times
    exact ⟨state, ⟨due, toOption_some.mp ok⟩, dated, dies⟩
  refine ⟨by decide +kernel, ?_⟩
  refine (renewal_gaps sampleEngine 1786060800000000 (by decide +kernel) ?_).1 ?_
  · intro n inside _
    obtain ⟨state, again, _, dies⟩ := fetched n inside
    exact ⟨state, _, again, dies, (fetches n (by simp; omega)).2.2⟩
  · intro n inside other ok
    obtain ⟨state, again, dated, dies⟩ := fetched n inside
    obtain rfl : state = other := Except.ok.inj (again.2.symm.trans ok.2)
    have lifetime : (1786060830000000 + 30000000 * (n : ℤ)) - (1786060790000000 + 30000000 * n) =
        40000000 := by ring
    refine ⟨_, _, dated, dies, sub_pos.mp ?_, Or.inl ?_⟩ <;> rw [lifetime] <;> norm_num

/-- A token without `iat`, good until second 1786060810. -/
def undatedSegment : Text := utf8 <|
  "eyJpc3MiOiJodHRwczovL2NvbmZpZGVudGlhbGNvbXB1dGluZy5nb29nbGVhcGlzLmNvbSIsImF1ZCI6ImZsYXJlLXZlcm" ++
  "lmaWFibGUtcmFnIiwiZXhwIjoxNzg2MDYwODEwLCJzd25hbWUiOiJDT05GSURFTlRJQUxfU1BBQ0UiLCJzdWJtb2RzIjp7" ++
  "ImNvbnRhaW5lciI6eyJpbWFnZV9kaWdlc3QiOiJzaGEyNTY6YWJhYmFiYWJhYmFiYWJhYmFiYWJhYmFiYWJhYmFiYWJhYm" ++
  "FiYWJhYmFiYWJhYmFiYWJhYmFiYWJhYmFiYWJhYiJ9fSwiZWF0X25vbmNlIjoiMDAxMTIyMzM0NDU1NjY3Nzg4OTlhYWJi" ++
  "Y2NkZGVlZmYifQ"

theorem undated_token_lapses :
    Healthy replayPython sampleStart (sampleReplies undatedSegment) 3 ∧
      ¬ Gapless replayPython sampleStart (sampleReplies undatedSegment) 3 := by
  have shown : (sampleEngine.fetchTokenWithFallback replayPython
      (tokenReply 1786060800 undatedSegment) (tokenReply 1786060800 undatedSegment)).toOption.map
        (fun state => state.1.expiresAt) = some (some 1786060810000000) := by decide +kernel
  obtain ⟨state, ok, dies⟩ := Option.map_eq_some_iff.mp shown
  have undue : ∀ n ∈ [1, 2], (sampleStart.nth replayPython (sampleReplies undatedSegment) n).due =
      false := by decide +kernel
  constructor
  · intro n inside due
    have first : n = 0 := by
      by_contra later
      rw [undue n (by simp; omega)] at due
      cases due
    subst n
    exact ⟨state, _, ⟨due, toOption_some.mp ok⟩, dies, by decide +kernel⟩
  · intro gapless
    have held : (sampleStart.nth replayPython (sampleReplies undatedSegment) 3).expiry =
        some 1786060810000000 := by decide +kernel
    have late : (sampleStart.nth replayPython (sampleReplies undatedSegment) 3).time =
        1786060810375000 := by decide +kernel
    have early := gapless.1 3 le_rfl (by norm_num) _ held
    rw [late] at early
    norm_num at early

end Sample

end Jwt
