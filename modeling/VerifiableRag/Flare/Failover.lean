import VerifiableRag.Library.Runs
import Mathlib.Data.Rat.Lemmas
import Mathlib.Logic.Function.Basic
import Mathlib.Tactic.Linarith

/-!
The endpoints of a `FlareCoston2Client` behind their circuit breakers: any number of `_rpc` calls
at once, whose attempts end in any order. Between two awaits of a call other calls run here too.
-/
namespace Flare
open Runs

structure Endpoint where
  consecutiveFailures : Nat
  cooldownUntil : ℚ

/-- How an attempt ends: its result, a `_FAILOVER_TRIGGERS` exception, any other exception. -/
inductive Outcome where
  | success
  | transport
  | other
  deriving DecidableEq

/-- What became of an endpoint within one call. -/
inductive Fate where
  | quarantined
  | failed
  deriving DecidableEq

/-- The locals of `_rpc`; `past` says what became of the endpoints before `idx`. -/
structure Call where
  what : String
  idx : Nat
  failures : List String
  past : List (Nat × Fate)

inductive Rpc where
  | idle
  /-- at the head of the loop -/
  | looking (call : Call)
  /-- at `await factory(ep.w3)` -/
  | awaiting (call : Call)
  | returned (call : Call)
  /-- an exception that is no failover trigger, or a cancellation -/
  | raised (call : Call)
  /-- `RpcUnavailableError` -/
  | unavailable (message : String) (call : Call)

/-- `completed` lists how the attempts at an endpoint ended, the latest first; nothing reads it. -/
structure Pool where
  now : ℚ
  urls : List String
  endpoints : Nat → Endpoint
  activeIndex : Nat
  rpcs : Nat → Rpc
  completed : Nat → List Outcome

def failoverTripThreshold : Nat := 3

def failoverCooldown : ℚ := 30

namespace Pool
variable (s : Pool)

/-- `is_tripped` -/
def isTripped (i : Nat) : Bool := s.now < (s.endpoints i).cooldownUntil

theorem isTripped_iff {s : Pool} {i : Nat} : s.isTripped i ↔ s.now < (s.endpoints i).cooldownUntil :=
  decide_eq_true_iff

theorem isTripped_eq_false {s : Pool} {i : Nat} :
    s.isTripped i = false ↔ ¬ s.now < (s.endpoints i).cooldownUntil :=
  decide_eq_false_iff_not

def enter (task : Nat) (rpc : Rpc) : Pool := { s with rpcs := Function.update s.rpcs task rpc }

def complete (i : Nat) (ep : Endpoint) (outcome : Outcome) : Pool :=
  { s with
    endpoints := Function.update s.endpoints i ep
    completed := Function.update s.completed i (outcome :: s.completed i) }

end Pool

def unavailableMessage (call : Call) (size : Nat) : String :=
  call.what ++ " failed on all " ++ toString size ++ " Coston2 endpoints: " ++
    if call.failures = [] then "all endpoints quarantined" else String.intercalate "; " call.failures

/-- A new client at some instant of the monotonic clock. -/
def newPool (now : ℚ) (urls : List String) : Pool :=
  ⟨now, urls, fun _ => ⟨0, 0⟩, 0, fun _ => .idle, fun _ => []⟩

inductive RpcEvent where
  | start (task : Nat) (what : String)
  /-- the loop looks at its next endpoint, or ends -/
  | look (task : Nat)
  | succeed (task : Nat)
  /-- the text is `type(exc).__name__: exc` -/
  | fail (task : Nat) (text : String)
  | error (task : Nat)
  | wait (seconds : ℚ)

/-- The endpoint after one more transport failure. -/
def Endpoint.afterFailure (ep : Endpoint) (now : ℚ) : Endpoint :=
  { consecutiveFailures := ep.consecutiveFailures + 1
    cooldownUntil :=
      if failoverTripThreshold ≤ ep.consecutiveFailures + 1 then now + failoverCooldown
      else ep.cooldownUntil }

namespace Pool
variable (s : Pool)

/-- The turn of the loop at an endpoint. -/
def look (task : Nat) (call : Call) : Pool :=
  if call.idx < s.urls.length then
    if s.isTripped call.idx then
      s.enter task (.looking { call with
        idx := call.idx + 1
        past := call.past ++ [(call.idx, .quarantined)] })
    else s.enter task (.awaiting call)
  else s.enter task (.unavailable (unavailableMessage call s.urls.length) call)

def succeed (task : Nat) (call : Call) : Pool :=
  { (s.complete call.idx { s.endpoints call.idx with consecutiveFailures := 0 } .success).enter task
      (.returned call) with activeIndex := call.idx }

def fail (task : Nat) (text : String) (call : Call) : Pool :=
  (s.complete call.idx ((s.endpoints call.idx).afterFailure s.now) .transport).enter task
    (.looking { call with
      idx := call.idx + 1
      failures := call.failures ++ [s.urls.getD call.idx "" ++ ": " ++ text]
      past := call.past ++ [(call.idx, .failed)] })

def error (task : Nat) (call : Call) : Pool :=
  (s.complete call.idx (s.endpoints call.idx) .other).enter task (.raised call)

/-- `none` where the event cannot happen. -/
def step : RpcEvent → Option Pool
  | .start task what =>
    match s.rpcs task with
    | .idle => some (s.enter task (.looking ⟨what, 0, [], []⟩))
    | _ => none
  | .look task =>
    match s.rpcs task with
    | .looking call => some (s.look task call)
    | _ => none
  | .succeed task =>
    match s.rpcs task with
    | .awaiting call => some (s.succeed task call)
    | _ => none
  | .fail task text =>
    match s.rpcs task with
    | .awaiting call => some (s.fail task text call)
    | _ => none
  | .error task =>
    match s.rpcs task with
    | .awaiting call => some (s.error task call)
    | _ => none
  | .wait seconds => if 0 ≤ seconds then some { s with now := s.now + seconds } else none

end Pool

section Order

/-- The endpoints before the present one, each once and in the order of priority. -/
def Call.InOrder (call : Call) : Prop := call.past.map Prod.fst = List.range call.idx

/-- What a call has come to in a pool of so many endpoints. -/
def Rpc.InOrder (size : Nat) : Rpc → Prop
  | idle => True
  | looking call => call.InOrder ∧ call.idx ≤ size
  | awaiting call | returned call | raised call => call.InOrder ∧ call.idx < size
  | unavailable message call => call.InOrder ∧ call.idx = size ∧ message = unavailableMessage call size

def InOrder (s : Pool) : Prop := ∀ task, (s.rpcs task).InOrder s.urls.length

theorem Pool.enter_inOrder {s : Pool} {task : Nat} {rpc : Rpc} (inOrder : InOrder s)
    (here : rpc.InOrder s.urls.length) : InOrder (s.enter task rpc) := by
  intro other
  change (Function.update s.rpcs task rpc other).InOrder s.urls.length
  by_cases same : other = task
  · rw [same, Function.update_self]
    exact here
  · rw [Function.update_of_ne same]
    exact inOrder other

theorem Call.next_inOrder {call : Call} {fate : Fate} {failures : List String}
    (inOrder : call.InOrder) :
    Call.InOrder ⟨call.what, call.idx + 1, failures, call.past ++ [(call.idx, fate)]⟩ := by
  rw [Call.InOrder, List.map_append, inOrder, List.range_succ]
  rfl

/-- One event keeps the order of every call. -/
theorem step_inOrder {s s' : Pool} {e : RpcEvent} (inOrder : InOrder s) (taken : s.step e = some s') :
    InOrder s' := by
  cases e with
  | start task what =>
    simp only [Pool.step] at taken
    split at taken
    · cases taken
      exact Pool.enter_inOrder inOrder ⟨rfl, Nat.zero_le _⟩
    · cases taken
  | look task =>
    simp only [Pool.step] at taken
    split at taken
    · rename_i call here
      cases taken
      have now := inOrder task
      rw [here] at now
      obtain ⟨past, bound⟩ := now
      rw [Pool.look]
      split
      · rename_i inside
        split
        · exact Pool.enter_inOrder inOrder ⟨Call.next_inOrder past, inside⟩
        · exact Pool.enter_inOrder inOrder ⟨past, inside⟩
      · exact Pool.enter_inOrder inOrder ⟨past, by omega, rfl⟩
    · cases taken
  | succeed task =>
    simp only [Pool.step] at taken
    split at taken
    · rename_i call here
      cases taken
      have now := inOrder task
      rw [here] at now
      exact Pool.enter_inOrder inOrder now
    · cases taken
  | fail task text =>
    simp only [Pool.step] at taken
    split at taken
    · rename_i call here
      cases taken
      have now := inOrder task
      rw [here] at now
      exact Pool.enter_inOrder inOrder ⟨Call.next_inOrder now.1, now.2⟩
    · cases taken
  | error task =>
    simp only [Pool.step] at taken
    split at taken
    · rename_i call here
      cases taken
      have now := inOrder task
      rw [here] at now
      exact Pool.enter_inOrder inOrder now
    · cases taken
  | wait seconds =>
    simp only [Pool.step] at taken
    split at taken
    · cases taken
      exact inOrder
    · cases taken

end Order

section Breaker

/-- The transport failures since the last success. -/
def streak (completed : List Outcome) : Nat :=
  (completed.takeWhile (· ≠ .success)).count .transport

/-- The most recent attempts were all transport failures, as many as trip a breaker. -/
def FailedLast (k : Nat) (completed : List Outcome) : Prop :=
  completed.take k = List.replicate k .transport

/-- Behind a streak, only attempts that ended otherwise come in between. -/
theorem failedLast_iff {k : Nat} {completed : List Outcome} (long : k ≤ streak completed) :
    FailedLast k completed ↔ Outcome.other ∉ completed.take k := by
  induction completed generalizing k with
  | nil =>
    obtain rfl : k = 0 := by simpa [streak] using long
    simp [FailedLast]
  | cons outcome completed ih =>
    cases k with
    | zero => simp [FailedLast]
    | succ k =>
      cases outcome with
      | success => simp [streak] at long
      | transport =>
        have shorter : k ≤ streak completed := by
          simp only [streak, List.takeWhile_cons, ne_eq, reduceCtorEq, not_false_eq_true,
            decide_true, if_true, List.count_cons_self] at long
          exact Nat.le_of_succ_le_succ long
        have rest := ih shorter
        simp only [FailedLast] at rest ⊢
        rw [List.take_succ_cons, List.replicate_succ, List.cons.injEq, List.mem_cons]
        simp [rest]
      | other => simp [FailedLast, List.replicate_succ]

theorem streak_failure (completed : List Outcome) :
    streak (.transport :: completed) = streak completed + 1 := by
  simp [streak]

theorem streak_other (completed : List Outcome) : streak (.other :: completed) = streak completed := by
  simp [streak]

/-- The counter of an endpoint is its streak. -/
def Counted (s : Pool) : Prop :=
  ∀ i, (s.endpoints i).consecutiveFailures = streak (s.completed i)

/-- Only what has failed that often in a row is quarantined. -/
def Quarantine (s : Pool) : Prop :=
  ∀ i, s.isTripped i → FailedLast failoverTripThreshold (s.completed i)

structure Breakers (s : Pool) : Prop where
  counted : Counted s
  quarantine : Quarantine s

/-- A step that leaves the quarantine as it is meant, and that makes an endpoint eligible where
    it is a success. -/
structure Kept (s : Pool) (e : RpcEvent) (s' : Pool) : Prop where
  quarantine : Quarantine s'
  eligible : ∀ task call, e = .succeed task → s.rpcs task = .awaiting call →
    s'.isTripped call.idx = false

/-- An event at which the breakers do what they are meant to. -/
structure Calm (s : Pool) (e : RpcEvent) : Prop where
  succeed : ∀ task call, e = .succeed task → s.rpcs task = .awaiting call →
    s.isTripped call.idx = false
  error : ∀ task call, e = .error task → s.rpcs task = .awaiting call →
    s.isTripped call.idx = false
  fail : ∀ task text call, e = .fail task text → s.rpcs task = .awaiting call →
    failoverTripThreshold ≤ (s.endpoints call.idx).consecutiveFailures + 1 →
      Outcome.other ∉ (s.completed call.idx).take (failoverTripThreshold - 1)

section Completion
variable {s : Pool} {i : Nat} {ep : Endpoint} {outcome : Outcome} {task : Nat} {rpc : Rpc}
  {active : Nat}

/-- An attempt that ends touches its own endpoint only. -/
theorem quarantine_complete (quarantine : Quarantine s) :
    Quarantine { (s.complete i ep outcome).enter task rpc with activeIndex := active } ↔
      (s.now < ep.cooldownUntil →
        FailedLast failoverTripThreshold (outcome :: s.completed i)) := by
  have elsewhere (j : Nat) : Quarantine { (s.complete i ep outcome).enter task rpc with
      activeIndex := active } → s.now < (Function.update s.endpoints i ep j).cooldownUntil →
        FailedLast failoverTripThreshold (Function.update s.completed i (outcome :: s.completed i) j) :=
    fun after tripped => after j (Pool.isTripped_iff.mpr tripped)
  constructor
  · intro after
    have here := elsewhere i after
    rw [Function.update_self, Function.update_self] at here
    exact here
  · intro here j tripped
    have cooling : s.now < (Function.update s.endpoints i ep j).cooldownUntil :=
      Pool.isTripped_iff.mp tripped
    change FailedLast _ (Function.update s.completed i (outcome :: s.completed i) j)
    by_cases same : j = i
    · rw [same, Function.update_self] at cooling ⊢
      exact here cooling
    · rw [Function.update_of_ne same] at cooling ⊢
      exact quarantine j (Pool.isTripped_iff.mpr cooling)

theorem counted_complete (counted : Counted s)
    (here : ep.consecutiveFailures = streak (outcome :: s.completed i)) :
    Counted { (s.complete i ep outcome).enter task rpc with activeIndex := active } := by
  intro j
  change (Function.update s.endpoints i ep j).consecutiveFailures =
    streak (Function.update s.completed i (outcome :: s.completed i) j)
  by_cases same : j = i
  · rw [same, Function.update_self, Function.update_self]
    exact here
  · rw [Function.update_of_ne same, Function.update_of_ne same]
    exact counted j

end Completion

theorem Pool.look_endpoints (s : Pool) (task : Nat) (call : Call) :
    (s.look task call).now = s.now ∧ (s.look task call).endpoints = s.endpoints ∧
      (s.look task call).completed = s.completed := by
  rw [Pool.look]
  split
  · split
    · exact ⟨rfl, rfl, rfl⟩
    · exact ⟨rfl, rfl, rfl⟩
  · exact ⟨rfl, rfl, rfl⟩

theorem step_counted {s s' : Pool} {e : RpcEvent} (counted : Counted s)
    (taken : s.step e = some s') : Counted s' := by
  cases e with
  | start task what =>
    simp only [Pool.step] at taken
    split at taken
    · cases taken
      exact counted
    · cases taken
  | look task =>
    simp only [Pool.step] at taken
    split at taken
    · rename_i call here
      cases taken
      obtain ⟨_, endpoints, completed⟩ := s.look_endpoints task call
      intro i
      rw [endpoints, completed]
      exact counted i
    · cases taken
  | succeed task =>
    simp only [Pool.step] at taken
    split at taken
    · cases taken
      exact counted_complete counted rfl
    · cases taken
  | fail task text =>
    simp only [Pool.step] at taken
    split at taken
    · rename_i call here
      cases taken
      refine counted_complete counted ?_
      rw [streak_failure, ← counted]
      rfl
    · cases taken
  | error task =>
    simp only [Pool.step] at taken
    split at taken
    · rename_i call here
      cases taken
      refine counted_complete counted ?_
      rw [streak_other, ← counted]
    · cases taken
  | wait seconds =>
    simp only [Pool.step] at taken
    split at taken
    · cases taken
      exact counted
    · cases taken

section Ends
variable {s : Pool} {task : Nat} {text : String} {call : Call}

theorem not_failedLast {outcome : Outcome} {completed : List Outcome}
    (ended : outcome ≠ .transport) :
    ¬ FailedLast failoverTripThreshold (outcome :: completed) := by
  simp [FailedLast, failoverTripThreshold, List.replicate_succ, ended]

theorem succeed_quarantine (quarantine : Quarantine s) :
    Quarantine (s.succeed task call) ↔ s.isTripped call.idx = false := by
  rw [Pool.isTripped_eq_false]
  refine (quarantine_complete quarantine).trans ?_
  rw [imp_iff_not (not_failedLast (by decide))]

theorem error_quarantine (quarantine : Quarantine s) :
    Quarantine (s.error task call) ↔ s.isTripped call.idx = false := by
  rw [Pool.isTripped_eq_false]
  refine (quarantine_complete quarantine).trans ?_
  rw [imp_iff_not (not_failedLast (by decide))]

/-- A failure that trips the breaker is the last of enough in a row unless an attempt that
    ended otherwise is among them. -/
theorem fail_quarantine (counted : Counted s) (quarantine : Quarantine s) :
    Quarantine (s.fail task text call) ↔
      (failoverTripThreshold ≤ (s.endpoints call.idx).consecutiveFailures + 1 →
        Outcome.other ∉ (s.completed call.idx).take (failoverTripThreshold - 1)) := by
  refine (quarantine_complete quarantine).trans ?_
  have last : FailedLast failoverTripThreshold (.transport :: s.completed call.idx) ↔
      FailedLast (failoverTripThreshold - 1) (s.completed call.idx) := by
    simp [FailedLast, failoverTripThreshold, List.replicate_succ]
  rw [last, Endpoint.afterFailure]
  by_cases trips : failoverTripThreshold ≤ (s.endpoints call.idx).consecutiveFailures + 1
  · have cooling : s.now < s.now + failoverCooldown := by
      rw [failoverCooldown]
      linarith
    have long : failoverTripThreshold - 1 ≤ streak (s.completed call.idx) := by
      rw [← counted]
      omega
    simp only [trips, if_true, cooling, true_implies]
    exact failedLast_iff long
  · simp only [trips, if_false, false_implies, iff_true]
    intro cooling
    -- a quarantined endpoint has failed too often for that
    have row := quarantine call.idx (Pool.isTripped_iff.mpr cooling)
    rw [FailedLast] at row ⊢
    have shorter := congrArg (List.take (failoverTripThreshold - 1)) row
    rw [List.take_take, List.take_replicate] at shorter
    exact shorter

end Ends

/-- One event keeps the quarantine as it is meant just when it is calm. -/
theorem step_iff {s s' : Pool} {e : RpcEvent} (counted : Counted s) (quarantine : Quarantine s)
    (taken : s.step e = some s') : Kept s e s' ↔ Calm s e := by
  have kept_of (unseen : ∀ task, e ≠ .succeed task) : Kept s e s' ↔ Quarantine s' :=
    ⟨Kept.quarantine, fun after => ⟨after, fun task call same => absurd same (unseen task)⟩⟩
  have quiet (succeeds : ∀ task, e ≠ .succeed task) (errs : ∀ task, e ≠ .error task)
      (fails : ∀ task text, e ≠ .fail task text) : Calm s e :=
    ⟨fun task call same => absurd same (succeeds task), fun task call same => absurd same (errs task),
      fun task text call same => absurd same (fails task text)⟩
  cases e with
  | start task what =>
    simp only [Pool.step] at taken
    split at taken
    · cases taken
      rw [kept_of (by simp)]
      exact iff_of_true quarantine (quiet (by simp) (by simp) (by simp))
    · cases taken
  | look task =>
    simp only [Pool.step] at taken
    split at taken
    · rename_i call here
      cases taken
      obtain ⟨now, endpoints, completed⟩ := s.look_endpoints task call
      rw [kept_of (by simp)]
      refine iff_of_true ?_ (quiet (by simp) (by simp) (by simp))
      intro i tripped
      rw [Pool.isTripped_iff, now, endpoints, ← Pool.isTripped_iff] at tripped
      rw [completed]
      exact quarantine i tripped
    · cases taken
  | wait seconds =>
    simp only [Pool.step] at taken
    split at taken
    · rename_i forward
      cases taken
      rw [kept_of (by simp)]
      refine iff_of_true ?_ (quiet (by simp) (by simp) (by simp))
      intro i tripped
      have cooling : s.now + seconds < (s.endpoints i).cooldownUntil := Pool.isTripped_iff.mp tripped
      exact quarantine i (Pool.isTripped_iff.mpr (by linarith))
    · cases taken
  | succeed task =>
    simp only [Pool.step] at taken
    split at taken
    · rename_i call here
      cases taken
      constructor
      · intro kept
        refine ⟨?_, by simp, by simp⟩
        intro task' call' same here'
        cases same
        rw [here] at here'
        cases here'
        exact (succeed_quarantine quarantine).mp kept.quarantine
      · intro calm
        have eligible := calm.succeed task call rfl here
        refine ⟨(succeed_quarantine quarantine).mpr eligible, ?_⟩
        intro task' call' same here'
        cases same
        rw [here] at here'
        cases here'
        rw [Pool.isTripped_eq_false] at eligible ⊢
        change ¬ s.now < (Function.update s.endpoints call.idx _ call.idx).cooldownUntil
        rw [Function.update_self]
        exact eligible
    · cases taken
  | error task =>
    simp only [Pool.step] at taken
    split at taken
    · rename_i call here
      cases taken
      rw [kept_of (by simp), error_quarantine quarantine]
      constructor
      · intro eligible
        refine ⟨by simp, ?_, by simp⟩
        intro task' call' same here'
        cases same
        rw [here] at here'
        cases here'
        exact eligible
      · intro calm
        exact calm.error task call rfl here
    · cases taken
  | fail task text =>
    simp only [Pool.step] at taken
    split at taken
    · rename_i call here
      cases taken
      rw [kept_of (by simp), fail_quarantine counted quarantine]
      constructor
      · intro row
        refine ⟨by simp, by simp, ?_⟩
        intro task' text' call' same here'
        cases same
        rw [here] at here'
        cases here'
        exact row
      · intro calm
        exact calm.fail task text call rfl here
    · cases taken

end Breaker

/-- In every run the calls go through the endpoints in order; and in exactly the runs all of
    whose events are calm, only what failed last is ever quarantined and every success makes
    its endpoint eligible. -/
theorem circuit_breaker_iff (now : ℚ) (later : 0 ≤ now) (urls : List String)
    (events : List RpcEvent) :
    (∀ s, run Pool.step (newPool now urls) events = some s → InOrder s) ∧
      (Every Pool.step Kept (newPool now urls) events ↔
        Every Pool.step (fun s e _ => Calm s e) (newPool now urls) events) := by
  have ordered : InOrder (newPool now urls) := fun task => trivial
  have start : Breakers (newPool now urls) := by
    refine ⟨fun i => rfl, ?_⟩
    intro i tripped
    have early : now < 0 := Pool.isTripped_iff.mp tripped
    exact absurd later (not_le.mpr early)
  constructor
  · intro s ran
    exact run_invariant (fun _ _ _ => step_inOrder) ordered ran
  · refine every_congr ?_ ?_ start
    · intro s e s' known taken
      exact step_iff known.counted known.quarantine taken
    · intro s e s' known taken kept
      exact ⟨step_counted known.counted taken, kept.quarantine⟩

/-- Four calls at once on one endpoint: three fail, and then the fourth succeeds. -/
def lateSuccess : List RpcEvent :=
  [.start 0 "block_number", .start 1 "block_number", .start 2 "block_number", .start 3 "block_number",
    .look 0, .look 1, .look 2, .look 3, .fail 0 "TimeoutError: ", .fail 1 "TimeoutError: ",
    .fail 2 "TimeoutError: ", .succeed 3]

theorem circuit_breaker_iff_late :
    (∀ s, run Pool.step (newPool 0 ["https://rpc"]) lateSuccess = some s → InOrder s) ∧
      (Every Pool.step Kept (newPool 0 ["https://rpc"]) lateSuccess ↔
        Every Pool.step (fun s e _ => Calm s e) (newPool 0 ["https://rpc"]) lateSuccess) :=
  circuit_breaker_iff 0 (by decide) ["https://rpc"] lateSuccess

def Rpc.message : Rpc → Option String
  | unavailable message _ => some message
  | _ => none

/-- The endpoint that has just succeeded is quarantined, and the next call is refused. -/
theorem late_success_quarantined :
    (run Pool.step (newPool 0 ["https://rpc"])
        (lateSuccess ++ [.start 4 "chain_id", .look 4, .look 4])).map
      (fun s => (s.completed 0, s.isTripped 0, (s.rpcs 4).message)) =
    some ([.success, .transport, .transport, .transport], true,
      some "chain_id failed on all 1 Coston2 endpoints: all endpoints quarantined") := by
  decide +kernel

end Flare
