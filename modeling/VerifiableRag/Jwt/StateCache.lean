import VerifiableRag.Jwt.Engine
import VerifiableRag.Library.Rounding

/-!
`AttestationStateCache` of `attestation.py` and the gate of `main.py` that reads it. A
clock reading is an instant; durations are the floats that Python computes with.
-/
namespace Jwt
open Bytes Json Float64 Results

/-- The `AttestationError`s among the exceptions of a fetch; no other is caught by `refresh`. -/
def FetchError.typed : FetchError → Bool
  | .unavailable _ => true
  | .token (.token _) | .token (.untrustedEnvironment _) => true
  | .intel (.token _) | .intel (.untrustedEnvironment _) => true
  | _ => false

/-- The primary token and, on TDX, the one of the Intel Trust Authority. -/
abbrev AttestationWithIntel := AttestationToken × Option IntelAttestationToken

/-- `max` and `min` of Python: the first of equal arguments. -/
def pyMax (a b : F64) : F64 := if a.lt b then b else a

def pyMin (a b : F64) : F64 := if b.lt a then b else a

/-- `timedelta.total_seconds()`: a true division of integers. -/
def totalSeconds (micros : ℤ) : F64 := ofRat (micros / 1000000)

def refreshMarginFraction : F64 := ofRat (1 / 4)

def statePollInterval : F64 := ofRat 15

def stateMaxInterval : F64 := ofRat 60

inductive LastError where
  | fetch (error : FetchError)
  /-- Any other exception of an iteration of the loop. -/
  | crash (exception : String)

structure AttestationStateCache where
  engine : AttestationEngine
  state : Option AttestationWithIntel
  lastError : Option LastError
  consecutiveFailures : Nat

/-- Why no current state can be shown: `AttestationServiceUnavailableError`. -/
inductive Unattested where
  | notInitialized
  | notEstablished
  | expired
  deriving DecidableEq

def Unattested.message : Unattested → String
  | notInitialized => "attestation cache not initialized (lifespan did not run)"
  | notEstablished => "attestation state not yet established (no valid vTPM token)"
  | expired => "attestation token expired; refresh in progress (fail closed)"

namespace AttestationStateCache

def init (engine : AttestationEngine) : AttestationStateCache := ⟨engine, none, none, 0⟩

variable (cache : AttestationStateCache) (py : Interpreter)

def secondsUntilExpiry (now : Instant) : Option F64 := do
  let state ← cache.state
  let expires ← state.1.expiresAt
  return totalSeconds (expires - now)

/-- What the margin is a fraction of: the lifetime, where positive. -/
def marginBase (token : AttestationToken) (remaining : F64) : F64 :=
  match token.issuedAt, token.expiresAt with
  | some issued, some expires =>
    if (ofRat 0).lt (totalSeconds (expires - issued)) then totalSeconds (expires - issued)
    else remaining
  | _, _ => remaining

def secondsUntilRefresh (now : Instant) : F64 :=
  match cache.state with
  | none => ofRat 0
  | some state =>
    match cache.secondsUntilExpiry now with
    | none => stateMaxInterval
    | some remaining =>
      if remaining.le (ofRat 0) then ofRat 0
      else pyMax (ofRat 0)
        (remaining.sub (refreshMarginFraction.mul (marginBase state.1 remaining)))

/-- A failure leaves the state alone; only a typed one is recorded. -/
def refresh (first second : Reply) :
    Except FetchError AttestationWithIntel × AttestationStateCache :=
  match cache.engine.fetchTokenWithFallback py first second with
  | .ok result =>
    (.ok result, { cache with state := some result, lastError := none, consecutiveFailures := 0 })
  | .error e =>
    if e.typed then
      (.error e, { cache with
        lastError := some (.fetch e), consecutiveFailures := cache.consecutiveFailures + 1 })
    else (.error e, cache)

def snapshot (now : Instant) : Except Unattested AttestationWithIntel :=
  match cache.state with
  | none => .error .notEstablished
  | some state =>
    match cache.secondsUntilExpiry now with
    | some remaining => if remaining.le (ofRat 0) then .error .expired else .ok state
    | none => .ok state

def crash (error : LastError) : AttestationStateCache :=
  { cache with lastError := some error, consecutiveFailures := cache.consecutiveFailures + 1 }

def guardedRefresh (first second : Reply) : AttestationStateCache :=
  match cache.refresh py first second with
  | (.ok _, next) => next
  | (.error e, next) => if e.typed then next else next.crash (.fetch e)

def due (now : Instant) : Bool := (cache.secondsUntilRefresh now).le (ofRat 0)

def wait (now : Instant) : F64 :=
  pyMax (ofRat 1)
    (if cache.state.isNone ∨ 0 < cache.consecutiveFailures then statePollInterval
    else pyMin (cache.secondsUntilRefresh now) stateMaxInterval)

/-- One iteration of `run_refresh_loop`, which reads the clock before and after the fetch. -/
def iterate (now later : Instant) (first second : Reply) : AttestationStateCache × F64 :=
  let next := if cache.due now then cache.guardedRefresh py first second else cache
  (next, next.wait later)

end AttestationStateCache

structure GateRequest where
  /-- The value of `ENCLAVE_REQUIRE_ATTESTATION`, where set. -/
  flag : Option Text
  method : Text
  path : Text

/-- Only ASCII letters have the letters of these words as lower case. -/
def attestationRequired (flag : Option Text) : Bool :=
  [utf8 "1", utf8 "true", utf8 "yes"].contains (PyStr.asciiLower (PyStr.strip (flag.getD (utf8 "0"))))

def gatedPath : Text := utf8 "/v1/query"

def gatedMethods : List Text := [utf8 "POST"]

structure Problem where
  status : Nat
  title : String
  detail : String
  retryAfter : String
  deriving DecidableEq

inductive Dispatch where
  | handler
  | blocked (problem : Problem)
  deriving DecidableEq

def attestationProblem (cause : Unattested) : Problem :=
  ⟨503, "attestation_required", cause.message, "10"⟩

/-- `AttestationGateMiddleware.dispatch`; the cache is `none` before the lifespan runs. -/
def dispatch (cache : Option AttestationStateCache) (now : Instant) (request : GateRequest) :
    Dispatch :=
  if !attestationRequired request.flag then .handler
  else if gatedMethods.contains request.method ∧ request.path = gatedPath then
    match cache with
    | none => .blocked (attestationProblem .notInitialized)
    | some cache =>
      match cache.snapshot now with
      | .error cause => .blocked (attestationProblem cause)
      | .ok _ => .handler
  else .handler

def Gated (request : GateRequest) : Prop :=
  attestationRequired request.flag = true ∧ gatedMethods.contains request.method = true ∧
    request.path = gatedPath

section Durations

theorem le_zero_iff {x : F64} : x.le (ofRat 0) = true ↔ x.AtMost 0 := by
  obtain ⟨h, zero⟩ := ofRat_zero
  rw [zero]
  cases x with
  | nan => simp [F64.le, F64.AtMost]
  | infinite s => simp [F64.le, F64.AtMost]
  | finite v rep => simp [F64.le, F64.AtMost]

/-- A microsecond is far above the least float, so no duration rounds to zero. -/
theorem totalSeconds_le_zero {micros : ℤ} :
    (totalSeconds micros).le (ofRat 0) = true ↔ micros ≤ 0 := by
  rw [le_zero_iff]
  constructor
  · intro small
    by_contra positive
    have whole : (1 : ℚ) ≤ micros := by exact_mod_cast not_le.mp positive
    have far : (totalSeconds micros).AtLeast (2 ^ (-20 : ℤ)) := by
      refine ofRat_atLeast_pow (by norm_num) ?_
      rw [le_div_iff₀ (by norm_num)]
      norm_num
      linarith
    exact far.not_atMost (two_zpow_pos (-20)) small
  · intro nonpos
    refine ofRat_atMost_zero (div_nonpos_of_nonpos_of_nonneg ?_ (by norm_num))
    exact_mod_cast nonpos

end Durations

section Reading
variable {cache : AttestationStateCache} {now : Instant}

/-- A snapshot shows the held state until its primary token expires. -/
theorem snapshot_ok_iff {state : AttestationWithIntel} : cache.snapshot now = .ok state ↔
    cache.state = some state ∧ ∀ expires ∈ state.1.expiresAt, now < expires := by
  unfold AttestationStateCache.snapshot AttestationStateCache.secondsUntilExpiry
  cases held : cache.state with
  | none => simp
  | some current =>
    cases expiry : current.1.expiresAt with
    | none =>
      simp only [Option.bind_eq_bind, Option.bind_some, expiry, Option.bind_none, Except.ok.injEq,
        Option.some.injEq]
      constructor
      · rintro rfl
        exact ⟨rfl, by simp [expiry]⟩
      · exact fun h => h.1
    | some expires =>
      simp only [Option.bind_eq_bind, Option.bind_some, expiry, Option.pure_def, Option.some.injEq]
      by_cases old : expires - now ≤ 0
      · rw [if_pos (totalSeconds_le_zero.mpr old)]
        refine iff_of_false nofun ?_
        rintro ⟨rfl, fresh⟩
        exact absurd (fresh expires expiry) (not_lt.mpr (sub_nonpos.mp old))
      · rw [if_neg (by rw [totalSeconds_le_zero]; exact old), Except.ok.injEq]
        constructor
        · rintro rfl
          refine ⟨rfl, ?_⟩
          intro e same
          rw [expiry, Option.mem_some_iff] at same
          exact same ▸ sub_pos.mp (not_le.mp old)
        · exact fun h => h.1

theorem dispatch_open {installed : Option AttestationStateCache} {request : GateRequest}
    (ungated : ¬ Gated request) : dispatch installed now request = .handler := by
  unfold dispatch
  split
  · rfl
  next required =>
    rw [if_neg]
    intro both
    exact ungated ⟨by simpa using required, both.1, both.2⟩

theorem dispatch_uninstalled {request : GateRequest} (gated : Gated request) :
    dispatch none now request = .blocked (attestationProblem .notInitialized) := by
  obtain ⟨required, method, path⟩ := gated
  unfold dispatch
  rw [required, Bool.not_true, if_neg Bool.false_ne_true, if_pos ⟨method, path⟩]

theorem dispatch_gated {request : GateRequest} (gated : Gated request) :
    dispatch (some cache) now request =
      match cache.snapshot now with
      | .error cause => .blocked (attestationProblem cause)
      | .ok _ => .handler := by
  obtain ⟨required, method, path⟩ := gated
  unfold dispatch
  rw [required, Bool.not_true, if_neg Bool.false_ne_true, if_pos ⟨method, path⟩]

end Reading

end Jwt
