import Mathlib.Data.Rat.Lemmas
import Mathlib.Order.Bounds.Basic
import Mathlib.Tactic.Linarith
import Mathlib.Tactic.Positivity
import Mathlib.Tactic.Ring

/-!
The token bucket before the gRPC services (`rate_limit.rs`), in exact arithmetic and on a clock
that never goes back.
-/
namespace Middleware

def DEFAULT_RATE_PER_SEC : Nat := 100

structure Bucket where
  capacity : Nat
  ratePerSec : Nat
  tokens : ℚ
  lastRefill : ℚ

/-- `SharedTokenBucket::new` at an instant. -/
def SharedTokenBucket.new (ratePerSec burst : Nat) (now : ℚ) : Bucket :=
  ⟨burst, ratePerSec, burst, now⟩

namespace Bucket

/-- `duration_since` saturates at zero. -/
def refill (b : Bucket) (now : ℚ) : Bucket :=
  let elapsed := max 0 (now - b.lastRefill)
  { b with
    tokens := min (b.tokens + elapsed * b.ratePerSec) b.capacity
    lastRefill := now }

def tryAcquire (b : Bucket) (now : ℚ) : Bool × Bucket :=
  let b := b.refill now
  if 1 ≤ b.tokens then (true, { b with tokens := b.tokens - 1 }) else (false, b)

end Bucket

inductive Code where
  | resourceExhausted
  deriving DecidableEq

structure Status where
  code : Code
  message : String
  deriving DecidableEq

/-- `rate_limit_interceptor`; its message names the default rate whatever the bucket's is. -/
def rateLimitInterceptor {ρ : Type} (req : ρ) (b : Bucket) (now : ℚ) : Except Status ρ × Bucket :=
  match b.tryAcquire now with
  | (true, b) => (.ok req, b)
  | (false, b) =>
    (.error ⟨.resourceExhausted, "rate limit exceeded (" ++ toString DEFAULT_RATE_PER_SEC ++
      " req/s)"⟩, b)

/-- A call on one of the clones. They all lock the one bucket, and `now` is read under the lock. -/
structure Acquire where
  clone : Nat
  now : ℚ

namespace Bucket

/-- The bucket after a run of calls. -/
def after (b : Bucket) (calls : List Acquire) : Bucket :=
  calls.foldl (fun b call => (b.tryAcquire call.now).2) b

/-- The instants of the calls that a run grants. -/
def grants : Bucket → List Acquire → List ℚ
  | _, [] => []
  | b, call :: calls =>
    if (b.tryAcquire call.now).1 then call.now :: grants (b.tryAcquire call.now).2 calls
    else grants (b.tryAcquire call.now).2 calls

end Bucket

def within (first last : ℚ) (granted : List ℚ) : Nat :=
  granted.countP fun t => first ≤ t ∧ t ≤ last

def since (first : ℚ) (granted : List ℚ) : Nat := granted.countP fun t => first ≤ t

/-- What a bucket that was full at `first` has accrued by `now`, less what was granted since. -/
def balance (rate burst : Nat) (granted : List ℚ) (now first : ℚ) : ℚ :=
  burst + rate * (now - first) - since first granted

/-- The bucket in terms of what it has granted. -/
structure Metered (rate burst : Nat) (granted : List ℚ) (b : Bucket) : Prop where
  sized : b.capacity = burst
  paced : b.ratePerSec = rate
  past : ∀ t ∈ granted, t ≤ b.lastRefill
  nonneg : 0 ≤ b.tokens
  /-- the least balance over the instants so far -/
  least : IsLeast {x | ∃ first ≤ b.lastRefill,
    x = balance rate burst granted b.lastRefill first} b.tokens
  windows : ∀ first last, first ≤ last →
    (within first last granted : ℚ) ≤ burst + rate * (last - first)

namespace Metered
variable {rate burst : Nat} {granted : List ℚ} {b : Bucket} {now : ℚ}

theorem since_later (metered : Metered rate burst granted b) {first : ℚ}
    (later : b.lastRefill < first) : since first granted = 0 := by
  apply List.countP_eq_zero.mpr
  intro t member reached
  have before := metered.past t member
  have after : first ≤ t := by simpa using reached
  linarith

theorem tokens_le (metered : Metered rate burst granted b) {first : ℚ}
    (before : first ≤ b.lastRefill) :
    b.tokens ≤ balance rate burst granted b.lastRefill first :=
  metered.least.2 ⟨first, before, rfl⟩

theorem capped (metered : Metered rate burst granted b) : b.tokens ≤ burst := by
  have now := metered.tokens_le (le_refl b.lastRefill)
  have count : (0 : ℚ) ≤ since b.lastRefill granted := Nat.cast_nonneg _
  rw [balance, sub_self, mul_zero] at now
  linarith

theorem new (start : ℚ) : Metered rate burst [] (SharedTokenBucket.new rate burst start) := by
  constructor
  · rfl
  · rfl
  · intro t member
    cases member
  · exact Nat.cast_nonneg burst
  · constructor
    · refine ⟨start, le_refl start, ?_⟩
      simp [balance, since, SharedTokenBucket.new]
    · rintro x ⟨first, before, rfl⟩
      have accrued : (0 : ℚ) ≤ rate * (start - first) := mul_nonneg (by positivity) (sub_nonneg.mpr before)
      simp only [balance, since, SharedTokenBucket.new, List.countP_nil, Nat.cast_zero, sub_zero]
      linarith
  · intro first last ordered
    have accrued : (0 : ℚ) ≤ rate * (last - first) := mul_nonneg (by positivity) (sub_nonneg.mpr ordered)
    simp only [within, List.countP_nil, Nat.cast_zero]
    positivity

theorem refill_tokens (metered : Metered rate burst granted b) (later : b.lastRefill ≤ now) :
    (b.refill now).tokens = min (b.tokens + (now - b.lastRefill) * rate) burst := by
  have elapsed : max 0 (now - b.lastRefill) = now - b.lastRefill :=
    max_eq_right (sub_nonneg.mpr later)
  rw [Bucket.refill, elapsed, metered.paced, metered.sized]

/-- The refill keeps the account; the cap is the balance of the present instant. -/
theorem refill (metered : Metered rate burst granted b) (later : b.lastRefill ≤ now) :
    Metered rate burst granted (b.refill now) := by
  have tokens := metered.refill_tokens later
  have accrued : (0 : ℚ) ≤ (now - b.lastRefill) * rate :=
    mul_nonneg (sub_nonneg.mpr later) (by positivity)
  have shifted : ∀ first, balance rate burst granted now first =
      balance rate burst granted b.lastRefill first + (now - b.lastRefill) * rate := by
    intro first
    simp only [balance]
    ring
  constructor
  · exact metered.sized
  · exact metered.paced
  · intro t member
    exact (metered.past t member).trans later
  · rw [tokens]
    exact le_min (add_nonneg metered.nonneg accrued) (Nat.cast_nonneg burst)
  · rw [tokens]
    constructor
    · rcases later.eq_or_lt with same | advanced
      · -- no time has passed, and the tokens were within the cap
        obtain ⟨first, before, least⟩ := metered.least.1
        refine ⟨first, before.trans later, ?_⟩
        change _ = balance rate burst granted now first
        rw [← same, sub_self, zero_mul, add_zero, min_eq_left metered.capped]
        exact least
      · rcases le_total (b.tokens + (now - b.lastRefill) * rate) burst with below | above
        · obtain ⟨first, before, least⟩ := metered.least.1
          refine ⟨first, before.trans later, ?_⟩
          change _ = balance rate burst granted now first
          rw [min_eq_left below, shifted, ← least]
        · refine ⟨now, le_refl now, ?_⟩
          change _ = balance rate burst granted now now
          rw [min_eq_right above, balance, metered.since_later advanced]
          simp
    · rintro x ⟨first, before, rfl⟩
      change _ ≤ balance rate burst granted now first
      rcases le_or_gt first b.lastRefill with old | new
      · have bound := metered.tokens_le old
        rw [shifted]
        exact (min_le_left _ _).trans (by linarith)
      · have waited : (0 : ℚ) ≤ rate * (now - first) :=
          mul_nonneg (by positivity) (sub_nonneg.mpr before)
        rw [balance, metered.since_later new]
        apply (min_le_right _ _).trans
        push_cast
        linarith
  · exact metered.windows

/-- A grant costs every balance one token. -/
theorem grant (metered : Metered rate burst granted b) (enough : 1 ≤ b.tokens) :
    Metered rate burst (granted ++ [b.lastRefill]) { b with tokens := b.tokens - 1 } := by
  have counted : ∀ first ≤ b.lastRefill,
      balance rate burst (granted ++ [b.lastRefill]) b.lastRefill first =
        balance rate burst granted b.lastRefill first - 1 := by
    intro first before
    simp only [balance, since, List.countP_append, List.countP_singleton, before, decide_true,
      if_true]
    push_cast
    ring
  have least : IsLeast {x | ∃ first ≤ b.lastRefill,
      x = balance rate burst (granted ++ [b.lastRefill]) b.lastRefill first} (b.tokens - 1) := by
    constructor
    · obtain ⟨first, before, same⟩ := metered.least.1
      exact ⟨first, before, by rw [counted first before, ← same]⟩
    · rintro x ⟨first, before, rfl⟩
      have bound := metered.tokens_le before
      rw [counted first before]
      linarith
  constructor
  · exact metered.sized
  · exact metered.paced
  · intro t member
    rcases List.mem_append.mp member with old | new
    · exact metered.past t old
    · exact (List.mem_singleton.mp new).le
  · exact sub_nonneg.mpr enough
  · exact least
  · intro first last ordered
    by_cases inside : first ≤ b.lastRefill ∧ b.lastRefill ≤ last
    · -- the window reaches the present, so its grants are all those since it began
      have all : within first last (granted ++ [b.lastRefill]) =
          since first (granted ++ [b.lastRefill]) := by
        apply List.countP_congr
        intro t member
        have before : t ≤ b.lastRefill := by
          rcases List.mem_append.mp member with old | new
          · exact metered.past t old
          · exact (List.mem_singleton.mp new).le
        simp [before.trans inside.2]
      have bound : b.tokens - 1 ≤
          balance rate burst (granted ++ [b.lastRefill]) b.lastRefill first :=
        least.2 ⟨first, inside.1, rfl⟩
      have width : (rate : ℚ) * (b.lastRefill - first) ≤ rate * (last - first) :=
        mul_le_mul_of_nonneg_left (by linarith [inside.2]) (by positivity)
      rw [balance] at bound
      rw [all]
      linarith
    · have unchanged : within first last (granted ++ [b.lastRefill]) = within first last granted := by
        simp [within, List.countP_append, inside]
      rw [unchanged]
      exact metered.windows first last ordered

theorem tryAcquire (metered : Metered rate burst granted b) (later : b.lastRefill ≤ now) :
    Metered rate burst (if (b.tryAcquire now).1 then granted ++ [now] else granted)
      (b.tryAcquire now).2 := by
  have refilled := metered.refill later
  unfold Bucket.tryAcquire
  dsimp only
  split
  · rename_i enough
    exact refilled.grant enough
  · exact refilled

end Metered

namespace Bucket
variable {rate burst : Nat} {granted : List ℚ} {b : Bucket} {calls : List Acquire}

theorem tryAcquire_lastRefill (b : Bucket) (now : ℚ) : (b.tryAcquire now).2.lastRefill = now := by
  unfold tryAcquire
  dsimp only
  split <;> rfl

/-- The account of a whole run, whose instants never decrease. -/
theorem metered_after (metered : Metered rate burst granted b)
    (ordered : (b.lastRefill :: calls.map Acquire.now).Pairwise (· ≤ ·)) :
    Metered rate burst (granted ++ b.grants calls) (b.after calls) := by
  induction calls generalizing b granted with
  | nil => simpa [grants, after] using metered
  | cons call calls ih =>
    rw [List.map_cons, List.pairwise_cons] at ordered
    have next := metered.tryAcquire (ordered.1 call.now (by simp))
    have later := ordered.2
    rw [← tryAcquire_lastRefill b call.now] at later
    have rest := ih next later
    rw [grants]
    split <;> simp_all [after]

theorem after_lastRefill {now : ℚ} (begun : b.lastRefill ≤ now)
    (earlier : ∀ call ∈ calls, call.now ≤ now) : (b.after calls).lastRefill ≤ now := by
  induction calls generalizing b with
  | nil => exact begun
  | cons call calls ih =>
    rw [List.forall_mem_cons] at earlier
    apply ih _ earlier.2
    rw [tryAcquire_lastRefill]
    exact earlier.1

end Bucket

section Claim
variable {ρ : Type} {rate burst : Nat} {start : ℚ} {calls : List Acquire}

def rateLimitExceeded : Status := ⟨.resourceExhausted, "rate limit exceeded (100 req/s)"⟩

theorem interceptor_refuses_iff {req : ρ} {b : Bucket} {now : ℚ} :
    (rateLimitInterceptor req b now).1 = .error rateLimitExceeded ↔
      (b.tryAcquire now).1 = false := by
  unfold rateLimitInterceptor
  split
  · rename_i acquired
    rw [acquired]
    exact iff_of_false (by intro same; cases same) (Bool.noConfusion ·)
  · rename_i refused
    rw [refused]
    have status : Status.mk .resourceExhausted
        ("rate limit exceeded (" ++ toString DEFAULT_RATE_PER_SEC ++ " req/s)") =
          rateLimitExceeded := by decide
    exact iff_of_true (congrArg Except.error status) rfl

theorem refused_iff {b : Bucket} {now : ℚ} :
    (b.tryAcquire now).1 = false ↔ (b.refill now).tokens < 1 := by
  unfold Bucket.tryAcquire
  dsimp only
  split
  · rename_i enough
    exact iff_of_false (Bool.noConfusion ·) (not_lt.mpr enough)
  · rename_i short
    exact iff_of_true rfl (not_le.mp short)

/-- After any run of calls at instants that never decrease. -/
theorem rate_limit_exact (ordered : (start :: calls.map Acquire.now).Pairwise (· ≤ ·)) :
    let bucket := SharedTokenBucket.new rate burst start
    let granted := bucket.grants calls
    let final := bucket.after calls
    0 ≤ final.tokens ∧ final.tokens ≤ burst ∧
      (∀ first last, first ≤ last →
        (within first last granted : ℚ) ≤ burst + rate * (last - first)) ∧
      ∀ now, start ≤ now → (∀ call ∈ calls, call.now ≤ now) → ∀ req : ρ,
        ((final.tryAcquire now).1 = false ↔
          min (final.tokens + (now - final.lastRefill) * rate) burst < 1) ∧
        ((rateLimitInterceptor req final now).1 = .error rateLimitExceeded ↔
          ∃ first ≤ now, burst + rate * (now - first) - since first granted < 1) := by
  intro bucket granted final
  have metered : Metered rate burst granted final :=
    Bucket.metered_after (Metered.new start) ordered
  refine ⟨metered.nonneg, metered.capped, metered.windows, ?_⟩
  intro now begun earlier req
  have forward : final.lastRefill ≤ now := Bucket.after_lastRefill begun earlier
  have refilled := metered.refill forward
  constructor
  · rw [refused_iff, metered.refill_tokens forward]
  · rw [interceptor_refuses_iff, refused_iff]
    constructor
    · intro short
      obtain ⟨first, before, least⟩ := refilled.least.1
      rw [least] at short
      exact ⟨first, before, short⟩
    · intro h
      obtain ⟨first, before, short⟩ := h
      exact (refilled.tokens_le before).trans_lt short

theorem rate_limit_exact_burst :
    let bucket := SharedTokenBucket.new 1 2 0
    let granted := bucket.grants [⟨0, 0⟩, ⟨1, 0⟩, ⟨0, 0⟩, ⟨2, 1⟩]
    granted = [0, 0, 1] ∧ (within 0 1 granted : ℚ) ≤ 2 + 1 * (1 - 0) := by
  have ordered : ((0 : ℚ) :: [Acquire.mk 0 0, ⟨1, 0⟩, ⟨0, 0⟩, ⟨2, 1⟩].map Acquire.now).Pairwise
      (· ≤ ·) := by decide +kernel
  have exact := @rate_limit_exact Unit 1 2 0 _ ordered
  refine ⟨by decide +kernel, ?_⟩
  simpa using exact.2.2.1 0 1 (by norm_num)

end Claim

end Middleware
