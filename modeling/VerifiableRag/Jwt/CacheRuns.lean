import VerifiableRag.Jwt.StateCache
import VerifiableRag.Jwt.EngineRuns

/-!
The attestation cache and its gate under any interleaving of refreshes, iterations of
the loop, crashes and requests, each at a clock reading of its own.
-/
namespace Jwt
open Bytes Json Float64 Results

inductive CacheEvent where
  /-- A call of `refresh` that completes with these replies. -/
  | refresh (first second : Reply)
  | iteration (now later : Instant) (first second : Reply)
  /-- An iteration that ends in any other exception. -/
  | crash (exception : String)
  | request (now : Instant) (request : GateRequest)

namespace AttestationStateCache
variable (cache : AttestationStateCache) (py : Interpreter)

/-- The fetch that an event performs. -/
def fetched : CacheEvent → Option (Except FetchError AttestationWithIntel)
  | .refresh first second => some (cache.engine.fetchTokenWithFallback py first second)
  | .iteration now _ first second =>
    if cache.due now then some (cache.engine.fetchTokenWithFallback py first second) else none
  | .crash _ | .request _ _ => none

def step : CacheEvent → AttestationStateCache
  | .refresh first second => (cache.refresh py first second).2
  | .iteration now later first second => (cache.iterate py now later first second).1
  | .crash exception => cache.crash (.crash exception)
  | .request _ _ => cache

def run (events : List CacheEvent) : AttestationStateCache := events.foldl (step · py) cache

end AttestationStateCache

section Steps
variable {cache : AttestationStateCache} {py : Interpreter}

theorem refresh_engine (first second : Reply) :
    (cache.refresh py first second).2.engine = cache.engine := by
  unfold AttestationStateCache.refresh
  split
  · rfl
  · split <;> rfl

theorem refresh_ok {first second : Reply} {result : AttestationWithIntel}
    (ok : cache.engine.fetchTokenWithFallback py first second = .ok result) :
    cache.refresh py first second =
      (.ok result, { cache with state := some result, lastError := none, consecutiveFailures := 0 }) := by
  simp only [AttestationStateCache.refresh, ok]

theorem refresh_error {first second : Reply} {error : FetchError}
    (failed : cache.engine.fetchTokenWithFallback py first second = .error error) :
    (cache.refresh py first second).1 = .error error ∧
      (cache.refresh py first second).2.state = cache.state := by
  simp only [AttestationStateCache.refresh, failed]
  split <;> exact ⟨rfl, rfl⟩

theorem guardedRefresh_ok {first second : Reply} {result : AttestationWithIntel}
    (ok : cache.engine.fetchTokenWithFallback py first second = .ok result) :
    cache.guardedRefresh py first second =
      { cache with state := some result, lastError := none, consecutiveFailures := 0 } := by
  simp only [AttestationStateCache.guardedRefresh, refresh_ok ok]

theorem guardedRefresh_error {first second : Reply} {error : FetchError}
    (failed : cache.engine.fetchTokenWithFallback py first second = .error error) :
    (cache.guardedRefresh py first second).state = cache.state := by
  obtain ⟨raised, kept⟩ := refresh_error failed
  unfold AttestationStateCache.guardedRefresh
  split
  next _ same => rw [same] at raised; cases raised
  next same =>
    rw [same] at kept
    split
    · exact kept
    · exact kept

theorem guardedRefresh_engine (first second : Reply) :
    (cache.guardedRefresh py first second).engine = cache.engine := by
  have kept : (cache.refresh py first second).2.engine = cache.engine := refresh_engine first second
  unfold AttestationStateCache.guardedRefresh
  split
  next same => rwa [same] at kept
  next same =>
    rw [same] at kept
    split
    · exact kept
    · exact kept

theorem step_engine (event : CacheEvent) : (cache.step py event).engine = cache.engine := by
  cases event with
  | refresh first second => exact refresh_engine first second
  | iteration now later first second =>
    simp only [AttestationStateCache.step, AttestationStateCache.iterate]
    split
    · exact guardedRefresh_engine first second
    · rfl
  | crash exception => rfl
  | request now request => rfl

/-- Only a fetch that succeeds writes the state. -/
theorem step_state (event : CacheEvent) : (cache.step py event).state =
    match cache.fetched py event with
    | some (.ok result) => some result
    | _ => cache.state := by
  cases event with
  | refresh first second =>
    simp only [AttestationStateCache.step, AttestationStateCache.fetched]
    cases outcome : cache.engine.fetchTokenWithFallback py first second with
    | error e => exact (refresh_error outcome).2
    | ok result => rw [refresh_ok outcome]
  | iteration now later first second =>
    simp only [AttestationStateCache.step, AttestationStateCache.iterate,
      AttestationStateCache.fetched]
    split
    · cases outcome : cache.engine.fetchTokenWithFallback py first second with
      | error e => exact guardedRefresh_error outcome
      | ok result => rw [guardedRefresh_ok outcome]
    · rfl
  | crash exception => rfl
  | request now request => rfl

theorem run_append (events : List CacheEvent) (event : CacheEvent) :
    cache.run py (events ++ [event]) = (cache.run py events).step py event := by
  rw [AttestationStateCache.run, List.foldl_append]
  rfl

theorem run_engine (events : List CacheEvent) : (cache.run py events).engine = cache.engine := by
  induction events using List.reverseRecOn with
  | nil => rfl
  | append_singleton events event ih => rw [run_append, step_engine, ih]

/-- A fetch of the run that returns the state. -/
def Fetches (cache : AttestationStateCache) (py : Interpreter) (events : List CacheEvent)
    (state : AttestationWithIntel) : Prop :=
  ∃ before event after, events = before ++ event :: after ∧
    (cache.run py before).fetched py event = some (.ok state)

/-- The held state was there at the start or was fetched since. -/
theorem run_state (events : List CacheEvent) {state : AttestationWithIntel}
    (held : (cache.run py events).state = some state) :
    cache.state = some state ∨ Fetches cache py events state := by
  induction events using List.reverseRecOn with
  | nil => exact Or.inl held
  | append_singleton events event ih =>
    rw [run_append, step_state] at held
    split at held
    next result performed =>
      cases held
      exact Or.inr ⟨events, event, [], rfl, performed⟩
    next =>
      refine (ih held).imp_right ?_
      intro earlier
      obtain ⟨before, event', after, rfl, performed⟩ := earlier
      exact ⟨before, event', after ++ [event], by simp, performed⟩

theorem fetched_ok {event : CacheEvent} {result : AttestationWithIntel}
    (ok : cache.fetched py event = some (.ok result)) :
    ∃ first second, cache.engine.fetchTokenWithFallback py first second = .ok result := by
  cases event with
  | refresh first second => exact ⟨first, second, Option.some.inj ok⟩
  | iteration now later first second =>
    simp only [AttestationStateCache.fetched] at ok
    split at ok
    · exact ⟨first, second, Option.some.inj ok⟩
    · cases ok
  | crash exception => cases ok
  | request now request => cases ok

theorem fallback_primary {engine : AttestationEngine} {first second : Reply}
    {result : AttestationWithIntel}
    (ok : engine.fetchTokenWithFallback py first second = .ok result) :
    ∃ raw, parseToken { py with now := first.clock } raw (some engine.audience)
      (some engine.nonces) = .ok result.1 := by
  obtain ⟨primary, fetched, ok⟩ := except_bind_ok.mp ok
  obtain ⟨raw, _, parsed⟩ := except_bind_ok.mp fetched
  refine ⟨raw, ?_⟩
  have same : primary = result.1 := by
    split at ok
    · obtain ⟨intel, _, pair⟩ := except_bind_ok.mp ok
      exact congrArg Prod.fst (except_pure_ok.mp pair)
    · exact congrArg Prod.fst (except_pure_ok.mp ok)
  rw [← same]
  exact mapError_ok.mp parsed

end Steps

section Interleavings
variable (engine : AttestationEngine) (py : Interpreter)

/-- A state that a fetch of the run returned, with a primary token that `parse_token`
accepted at the clock of its reply. -/
def Established (events : List CacheEvent) (state : AttestationWithIntel) : Prop :=
  Fetches (.init engine) py events state ∧ ∃ raw clock,
    parseToken { py with now := clock } raw (some engine.audience) (some engine.nonces) =
      .ok state.1

/-- After any run a failed refresh keeps the held state; a gated query is handled exactly
when the cache holds a fetched state whose primary token is unexpired, and is answered
with 503 otherwise; nothing else is ever blocked. -/
theorem cache_and_gate_exact (events : List CacheEvent) :
    let cache := (AttestationStateCache.init engine).run py events
    (∀ event, (∀ result, cache.fetched py event ≠ some (.ok result)) →
      (cache.step py event).state = cache.state) ∧
    (∀ now request, Gated request →
      (dispatch (some cache) now request = .handler ↔ ∃ state, cache.state = some state ∧
        Established engine py events state ∧ ∀ expires ∈ state.1.expiresAt, now < expires) ∧
      (dispatch (some cache) now request = .handler ∨ ∃ problem,
        dispatch (some cache) now request = .blocked problem ∧ problem.status = 503 ∧
          problem.title = "attestation_required") ∧
      ∃ problem, dispatch none now request = .blocked problem ∧ problem.status = 503) ∧
    ∀ installed now request, ¬ Gated request → dispatch installed now request = .handler := by
  intro cache
  refine ⟨?_, ?_, fun installed now request => dispatch_open⟩
  · intro event failed
    rw [step_state]
    split
    next result ok => exact absurd ok (failed result)
    next => rfl
  · intro now request gated
    refine ⟨?_, ?_, _, dispatch_uninstalled gated, rfl⟩ <;> rw [dispatch_gated gated]
    · cases shown : cache.snapshot now with
      | error cause =>
        refine iff_of_false (by simp) ?_
        rintro ⟨state, held, _, fresh⟩
        rw [snapshot_ok_iff.mpr ⟨held, fresh⟩] at shown
        cases shown
      | ok state =>
        refine iff_of_true rfl ?_
        obtain ⟨held, fresh⟩ := snapshot_ok_iff.mp shown
        have fetches := (run_state events held).resolve_left (by simp [AttestationStateCache.init])
        obtain ⟨before, event, after, split, performed⟩ := fetches
        obtain ⟨first, second, ok⟩ := fetched_ok performed
        rw [run_engine] at ok
        obtain ⟨raw, parsed⟩ := fallback_primary ok
        exact ⟨state, held, ⟨⟨before, event, after, split, performed⟩, raw, first.clock, parsed⟩,
          fresh⟩
    · cases cache.snapshot now with
      | error cause => exact Or.inr ⟨attestationProblem cause, rfl, rfl, rfl⟩
      | ok state => exact Or.inl rfl

def gatedQuery : GateRequest := ⟨some (utf8 " True"), utf8 "POST", utf8 "/v1/query"⟩

/-- A refresh that gets the sample token, and one whose endpoint is down a minute later. -/
def goodRefresh : CacheEvent :=
  .refresh ⟨ofRat 1786060800, fun _ => .body echoedToken⟩ ⟨ofRat 1786060800, fun _ => .timedOut⟩

def downRefresh : CacheEvent :=
  .refresh ⟨ofRat 1786060860, fun _ => .timedOut⟩ ⟨ofRat 1786060860, fun _ => .timedOut⟩

theorem cache_and_gate_exact_refreshed :
    let cache := (AttestationStateCache.init sampleEngine).run replayPython [goodRefresh, downRefresh]
    (∃ state, cache.state = some state ∧
      Established sampleEngine replayPython [goodRefresh, downRefresh] state) ∧
    cache.state = ((AttestationStateCache.init sampleEngine).run replayPython [goodRefresh]).state ∧
    dispatch (some cache) 1786064389000000 gatedQuery = .handler ∧
    ∃ problem, dispatch (some cache) 1786064390000000 gatedQuery = .blocked problem ∧
      problem.status = 503 := by
  intro cache
  have gated : Gated gatedQuery := ⟨by decide +kernel, by decide +kernel, rfl⟩
  have down : (((AttestationStateCache.init sampleEngine).run replayPython [goodRefresh]).fetched
      replayPython downRefresh).map (fun outcome => outcome.toOption.isSome) = some false := by
    decide +kernel
  have handled : dispatch (some cache) 1786064389000000 gatedQuery = .handler := by decide +kernel
  have expired : dispatch (some cache) 1786064390000000 gatedQuery ≠ .handler := by decide +kernel
  obtain ⟨kept, _⟩ := cache_and_gate_exact sampleEngine replayPython [goodRefresh]
  obtain ⟨_, gate, _⟩ := cache_and_gate_exact sampleEngine replayPython [goodRefresh, downRefresh]
  obtain ⟨state, held, established, _⟩ := (gate 1786064389000000 gatedQuery gated).1.mp handled
  refine ⟨⟨state, held, established⟩, ?_, handled, ?_⟩
  · have last := congrArg AttestationStateCache.state
      (@run_append (.init sampleEngine) replayPython [goodRefresh] downRefresh)
    refine last.trans (kept downRefresh ?_)
    intro result same
    exact absurd ((congrArg (Option.map _) same).symm.trans down) nofun
  · rcases (gate 1786064390000000 gatedQuery gated).2.1 with open_gate | ⟨problem, blocked, status, _⟩
    · exact absurd open_gate expired
    · exact ⟨problem, blocked, status⟩

end Interleavings

section Evidence

/-- Both tokens of a state are unexpired. -/
def Unexpired (state : AttestationWithIntel) (now : Instant) : Prop :=
  (∀ expires ∈ state.1.expiresAt, now < expires) ∧
    ∀ token ∈ state.2, ∀ expires ∈ token.expiresAt, now < expires

/-- What a snapshot promises at every point of a run and at every time: unexpired evidence,
or an error that the gate turns into 503. -/
def EvidenceHeld (engine : AttestationEngine) (py : Interpreter) (events : List CacheEvent) : Prop :=
  ∀ before after, events = before ++ after → ∀ now,
    match ((AttestationStateCache.init engine).run py before).snapshot now with
    | .ok state => Unexpired state now
    | .error cause => ∀ request, Gated request →
      dispatch (some ((AttestationStateCache.init engine).run py before)) now request =
        .blocked (attestationProblem cause)

theorem EvidenceHeld.unexpired {engine : AttestationEngine} {py : Interpreter}
    {events before after : List CacheEvent} {now : Instant} {state : AttestationWithIntel}
    (held : EvidenceHeld engine py events) (split : events = before ++ after)
    (shown : ((AttestationStateCache.init engine).run py before).snapshot now = .ok state) :
    Unexpired state now := by
  have promise := held before after split now
  rwa [shown] at promise

/-- No fetched Intel token expires before the primary token that came with it. -/
def IntelOutlives (engine : AttestationEngine) (py : Interpreter) (events : List CacheEvent) : Prop :=
  ∀ state, Fetches (.init engine) py events state → ∀ token ∈ state.2, ∀ e ∈ token.expiresAt,
    ∃ p ∈ state.1.expiresAt, p ≤ e

/-- The snapshot never outlives its evidence exactly when no Intel token of the run expires
before its primary token: the expiry that is checked is the primary one alone. -/
theorem evidence_held_iff (engine : AttestationEngine) (py : Interpreter)
    (events : List CacheEvent) : EvidenceHeld engine py events ↔ IntelOutlives engine py events := by
  constructor
  · intro held state fetches token intel e expiry
    obtain ⟨before, event, after, rfl, performed⟩ := fetches
    have current : ((AttestationStateCache.init engine).run py (before ++ [event])).state =
        some state := by rw [run_append, step_state, performed]
    by_contra short
    have shown : ((AttestationStateCache.init engine).run py (before ++ [event])).snapshot e =
        .ok state := by
      refine snapshot_ok_iff.mpr ⟨current, ?_⟩
      intro p primary
      by_contra early
      exact short ⟨p, primary, not_lt.mp early⟩
    have unexpired := held.unexpired (List.append_cons before event after) shown
    exact lt_irrefl e (unexpired.2 token intel e expiry)
  · intro outlives before after same now
    cases shown : ((AttestationStateCache.init engine).run py before).snapshot now with
    | error cause =>
      intro request gated
      rw [dispatch_gated gated, shown]
    | ok state =>
      obtain ⟨held, fresh⟩ := snapshot_ok_iff.mp shown
      refine ⟨fresh, ?_⟩
      intro token intel e expiry
      have fetches := (run_state before held).resolve_left (by simp [AttestationStateCache.init])
      obtain ⟨first, event, rest, rfl, performed⟩ := fetches
      have whole : Fetches (.init engine) py events state :=
        ⟨first, event, rest ++ after, by simp [same], performed⟩
      obtain ⟨p, primary, le⟩ := outlives state whole token intel e expiry
      exact (fresh p primary).trans_le le

/-- A primary token of TDX hardware, good until second 1786064390. -/
def tdxSegment : Text := utf8 <|
  "eyJpc3MiOiJodHRwczovL2NvbmZpZGVudGlhbGNvbXB1dGluZy5nb29nbGVhcGlzLmNvbSIsImF1ZCI6ImZsYXJlLXZlcm" ++
  "lmaWFibGUtcmFnIiwiaWF0IjoxNzg2MDYwNzkwLCJleHAiOjE3ODYwNjQzOTAsInN3bmFtZSI6IkNPTkZJREVOVElBTF9T" ++
  "UEFDRSIsImh3bW9kZWwiOiJHQ1BfSU5URUxfVERYIiwic3VibW9kcyI6eyJjb250YWluZXIiOnsiaW1hZ2VfZGlnZXN0Ij" ++
  "oic2hhMjU2OmFiYWJhYmFiYWJhYmFiYWJhYmFiYWJhYmFiYWJhYmFiYWJhYmFiYWJhYmFiYWJhYmFiYWJhYmFiYWJhYmFi" ++
  "YWIifX0sImVhdF9ub25jZSI6IjAwMTEyMjMzNDQ1NTY2Nzc4ODk5YWFiYmNjZGRlZWZmIn0"

/-- An Intel token that expires at second 1786061090. -/
def itaSegment : Text := utf8 <|
  "eyJpc3MiOiJodHRwczovL3BvcnRhbC50cnVzdGF1dGhvcml0eS5pbnRlbC5jb20iLCJhdWQiOiJmbGFyZS12ZXJpZmlhYm" ++
  "xlLXJhZyIsImlhdCI6MTc4NjA2MDc5MCwiZXhwIjoxNzg2MDYxMDkwLCJzd25hbWUiOiJDT05GSURFTlRJQUxfU1BBQ0Ui" ++
  "LCJod21vZGVsIjoiR0NQX0lOVEVMX1REWCIsImF0dGVzdGVyX3RjYiI6WyJJTlRFTCJdLCJlYXRfbm9uY2UiOiIwMDExMj" ++
  "IzMzQ0NTU2Njc3ODg5OWFhYmJjY2RkZWVmZiJ9"

/-- An endpoint that answers with one token. -/
def tokenReply (second : Nat) (segment : Text) : Reply :=
  ⟨ofRat second, fun _ => .body (utf8 "eyJhbGciOiJSUzI1NiJ9." ++ segment ++ utf8 ".c2ln")⟩

def tdxRefresh : CacheEvent :=
  .refresh (tokenReply 1786060800 tdxSegment) (tokenReply 1786060800 itaSegment)

theorem expired_intel_token_shown : ¬ EvidenceHeld sampleEngine replayPython [tdxRefresh] := by
  intro held
  have shown : (((AttestationStateCache.init sampleEngine).run replayPython [tdxRefresh]).snapshot
      1786062000000000).toOption.map (fun state => state.2.map (·.expiresAt)) =
      some (some (some 1786061090000000)) := by decide +kernel
  obtain ⟨state, ok, intel⟩ := Option.map_eq_some_iff.mp shown
  obtain ⟨token, second, expiry⟩ := Option.map_eq_some_iff.mp intel
  have unexpired := held.unexpired (List.append_nil _).symm (toOption_some.mp ok)
  exact absurd (unexpired.2 token second _ expiry) (by decide +kernel)

end Evidence

end Jwt
