import VerifiableRag.Ftso.Node
import Mathlib.Data.List.DropRight
import Mathlib.Tactic.IntervalCases

/-!
The connector task of one exchange (`node.rs`): connect, subscribe, stream, back off, over any
sequence of attempts. Durations are in milliseconds; the loop returns only by its `?`s.
-/
namespace Ftso
open SerdeJson

def CONNECT_TIMEOUT : Nat := 15000

def RECONNECT_BASE_DELAY : Nat := 500

def maxBackoff : Nat := 30000

/-- How `ws.next()` ends a stream: with `None`, or with an error. -/
inductive Ending where
  | closed (after : Nat)
  | error (after : Nat) (e : String)

def Ending.after : Ending → Nat
  | closed after => after
  | error after _ => after

/-- What the network does in one attempt, and after how long. -/
inductive Attempt where
  | timedOut
  | refused (after : Nat) (e : String)
  | connected (after : Nat) (send : String → Except String Unit) (frames : List (Nat × Message))
    (ending : Ending)

/-- The URL of Binance selects the symbols already. -/
def subscribe : ExchangeId → Option String
  | .coinbase => some ("\x7b\"type\":\"subscribe\",\"product_ids\":[\"XRP-USD\",\"BTC-USD\"," ++
      "\"ETH-USD\"],\"channels\":[\"ticker\"]\x7d")
  | .kraken => some ("\x7b\"event\":\"subscribe\",\"pair\":[\"XRP/USD\",\"XBT/USD\",\"ETH/USD\"]," ++
      "\"subscription\":\x7b\"name\":\"ticker\"\x7d\x7d")
  | .binance => none
  | .gate => some ("\x7b\"time\":0,\"channel\":\"spot.tickers\",\"event\":\"subscribe\"," ++
      "\"payload\":[\"BTC_USDT\",\"ETH_USDT\",\"XRP_USDT\"]\x7d")
  | .bitfinex => some (
      "[\x7b\"event\":\"subscribe\",\"channel\":\"ticker\",\"symbol\":\"tBTCUSD\"\x7d," ++
      "\x7b\"event\":\"subscribe\",\"channel\":\"ticker\",\"symbol\":\"tETHUSD\"\x7d," ++
      "\x7b\"event\":\"subscribe\",\"channel\":\"ticker\",\"symbol\":\"tXRPUSD\"\x7d]")

/-- An error keeps what the task has written into the book so far. -/
abbrev Task := EStateM String ProviderNode

section Loop
variable (fromStr : String → Option Value) (exchange : ExchangeId)

def record (msg : Message) : Task Unit :=
  match parseTicker fromStr exchange msg with
  | some ticker => modify (·.step (.arrives ticker))
  | none => pure ()

def streamLoop : List (Nat × Message) → Ending → Task Unit
  | [], .closed after => do
    modify (·.step (.elapses after))
    throw "stream closed by peer"
  | [], .error after e => do
    modify (·.step (.elapses after))
    throw ("stream error: " ++ e)
  | (wait, msg) :: frames, ending => do
    modify (·.step (.elapses wait))
    record fromStr exchange msg
    streamLoop frames ending

def sendSubscribe (send : String → Except String Unit) : Except String Unit :=
  match subscribe exchange with
  | some msg =>
    match send msg with
    | .error e => .error ("subscribe send failed: " ++ e)
    | .ok () => .ok ()
  | none => .ok ()

def streamOnce : Attempt → Task Unit
  | .timedOut => do
    modify (·.step (.elapses CONNECT_TIMEOUT))
    throw "connect timeout after 15s"
  | .refused after e => do
    modify (·.step (.elapses after))
    throw e
  | .connected after send frames ending => do
    modify (·.step (.elapses after))
    match sendSubscribe exchange send with
    | .error e => throw e
    | .ok () => streamLoop fromStr exchange frames ending

/-- The task between two attempts; `slept` is its last delay. -/
structure Connector where
  backoff : Nat
  slept : Option Nat
  node : ProviderNode

def newConnector (node : ProviderNode) : Connector := ⟨RECONNECT_BASE_DELAY, none, node⟩

/-- The delay and the node after the match on `stream_once`. -/
def afterStream (backoff : Nat) : EStateM.Result String ProviderNode Unit → Nat × ProviderNode
  | .ok () node => (RECONNECT_BASE_DELAY, node)
  | .error _ node => (backoff, node.step (.fails exchange))

def cycle (s : Connector) (attempt : Attempt) : Connector :=
  let (backoff, node) := afterStream exchange s.backoff (streamOnce fromStr exchange attempt s.node)
  ⟨min (backoff * 2) maxBackoff, some backoff, node.step (.elapses backoff)⟩

def runExchangeLoop (node : ProviderNode) (attempts : List Attempt) : Connector :=
  attempts.foldl (cycle fromStr exchange) (newConnector node)

/-- The attempt got as far as the stream. -/
def Attempt.streamed : Attempt → Bool
  | .connected _ send _ _ => (sendSubscribe exchange send).isOk
  | _ => false

/-- The attempts that failed since the exchange last streamed; all of them, if it never did. -/
def failedSince (attempts : List Attempt) : Nat :=
  (attempts.rtakeWhile fun a => !a.streamed exchange).length

/-- What an attempt does to the node. -/
def frameEvents (frame : Nat × Message) : List Event :=
  .elapses frame.1 :: ((parseTicker fromStr exchange frame.2).map Event.arrives).toList

def Attempt.events : Attempt → List Event
  | .timedOut => [.elapses CONNECT_TIMEOUT]
  | .refused after _ => [.elapses after]
  | .connected after send frames ending =>
    .elapses after ::
      if (Attempt.connected after send frames ending).streamed exchange then
        frames.flatMap (frameEvents fromStr exchange) ++ [.elapses ending.after]
      else []

end Loop

section Schedule
variable {fromStr : String → Option Value} {exchange : ExchangeId}

theorem run_append (node : ProviderNode) (before after : List Event) :
    node.run (before ++ after) = (node.run before).run after := List.foldl_append

theorem record_run (msg : Message) (node : ProviderNode) :
    record fromStr exchange msg node =
      .ok () (node.run ((parseTicker fromStr exchange msg).map Event.arrives).toList) := by
  unfold record
  cases parseTicker fromStr exchange msg <;> rfl

theorem streamLoop_fails (frames : List (Nat × Message)) (ending : Ending) (node : ProviderNode) :
    ∃ e, streamLoop fromStr exchange frames ending node = .error e
      (node.run (frames.flatMap (frameEvents fromStr exchange) ++ [.elapses ending.after])) := by
  induction frames generalizing node with
  | nil => cases ending <;> exact ⟨_, rfl⟩
  | cons frame frames ih =>
    obtain ⟨wait, msg⟩ := frame
    obtain ⟨e, fails⟩ := ih ((node.step (.elapses wait)).run
      ((parseTicker fromStr exchange msg).map Event.arrives).toList)
    refine ⟨e, ?_⟩
    rw [List.flatMap_cons, List.append_assoc, run_append]
    rw [streamLoop]
    change EStateM.bind (record fromStr exchange msg) _ (node.step (.elapses wait)) = _
    rw [EStateM.bind, record_run]
    exact fails

/-- No attempt ends well: even a clean close is an error. -/
theorem streamOnce_fails (attempt : Attempt) (node : ProviderNode) :
    ∃ e, streamOnce fromStr exchange attempt node =
      .error e (node.run (attempt.events fromStr exchange)) := by
  cases attempt with
  | timedOut => exact ⟨_, rfl⟩
  | refused after e => exact ⟨e, rfl⟩
  | connected after send frames ending =>
    have streams := @streamLoop_fails fromStr exchange frames ending (node.step (.elapses after))
    cases sent : sendSubscribe exchange send with
    | ok _ =>
      simp only [streamOnce, Attempt.events, Attempt.streamed, sent]
      exact streams
    | error e =>
      simp only [streamOnce, Attempt.events, Attempt.streamed, sent]
      exact ⟨e, rfl⟩

theorem cycle_eq (s : Connector) (attempt : Attempt) :
    cycle fromStr exchange s attempt = ⟨min (s.backoff * 2) maxBackoff, some s.backoff,
      s.node.run (attempt.events fromStr exchange ++ [.fails exchange, .elapses s.backoff])⟩ := by
  obtain ⟨e, fails⟩ := @streamOnce_fails fromStr exchange attempt s.node
  rw [cycle, fails, run_append]
  rfl

/-- `min(0.5 s * 2^k, 30 s)` -/
def delay (k : Nat) : Nat := min (RECONNECT_BASE_DELAY * 2 ^ k) maxBackoff

theorem delay_succ (k : Nat) : delay (k + 1) = min (delay k * 2) maxBackoff := by
  unfold delay maxBackoff
  rw [Nat.pow_succ, ← Nat.mul_assoc]
  omega

theorem runExchangeLoop_snoc (node : ProviderNode) (attempts : List Attempt) (attempt : Attempt) :
    runExchangeLoop fromStr exchange node (attempts ++ [attempt]) =
      cycle fromStr exchange (runExchangeLoop fromStr exchange node attempts) attempt :=
  List.foldl_concat _ _ _ _

theorem run_backoff (node : ProviderNode) (attempts : List Attempt) :
    (runExchangeLoop fromStr exchange node attempts).backoff = delay attempts.length := by
  induction attempts using List.reverseRecOn with
  | nil => rfl
  | append_singleton attempts attempt ih =>
    rw [runExchangeLoop_snoc, cycle_eq, List.length_append, List.length_singleton, delay_succ]
    exact congrArg (fun backoff => min (backoff * 2) maxBackoff) ih

/-- The delay counts attempts, whatever came of them. -/
theorem run_slept (node : ProviderNode) (attempts : List Attempt) (last : Attempt) :
    (runExchangeLoop fromStr exchange node (attempts ++ [last])).slept =
      some (delay attempts.length) := by
  rw [runExchangeLoop_snoc, cycle_eq]
  exact congrArg some (run_backoff node attempts)

/-- Below the cap of 30 s the schedule tells any two counts apart. -/
theorem delay_eq_iff (m k : Nat) : delay m = delay k ↔ m = k ∨ (6 ≤ m ∧ 6 ≤ k) := by
  have capped (n : Nat) (long : 6 ≤ n) : delay n = maxBackoff := by
    apply Nat.min_eq_right
    calc maxBackoff ≤ RECONNECT_BASE_DELAY * 2 ^ 6 := by decide
      _ ≤ RECONNECT_BASE_DELAY * 2 ^ n :=
        Nat.mul_le_mul_left _ (Nat.pow_le_pow_right (by decide) long)
  have short (n : Nat) (few : n < 6) :
      delay n = RECONNECT_BASE_DELAY * 2 ^ n ∧ delay n < maxBackoff := by
    interval_cases n <;> decide
  constructor
  · intro same
    by_cases m_long : 6 ≤ m
    · by_cases k_long : 6 ≤ k
      · exact Or.inr ⟨m_long, k_long⟩
      · have below := (short k (by omega)).2
        have cap := capped m m_long
        omega
    · obtain ⟨m_delay, below⟩ := short m (by omega)
      by_cases k_long : 6 ≤ k
      · have cap := capped k k_long
        omega
      · obtain ⟨k_delay, _⟩ := short k (by omega)
        rw [m_delay, k_delay] at same
        have powers := Nat.eq_of_mul_eq_mul_left (by decide) same
        exact Or.inl (Nat.pow_right_injective (Nat.le_refl 2) powers)
  · rintro (rfl | ⟨m_long, k_long⟩)
    · rfl
    · rw [capped m m_long, capped k k_long]

theorem failedSince_eq_length_iff (first : Attempt) (rest : List Attempt) :
    failedSince exchange (first :: rest) = rest.length ↔
      first.streamed exchange = true ∧ ∀ a ∈ rest, a.streamed exchange = false := by
  unfold failedSince
  constructor
  · intro counted
    have failures : (first :: rest).rtakeWhile (fun a => !a.streamed exchange) = rest :=
      (List.suffix_of_suffix_length_le (List.rtakeWhile_suffix _ _) (List.suffix_cons first rest)
        (Nat.le_of_eq counted)).eq_of_length counted
    have later (a : Attempt) (member : a ∈ rest) : a.streamed exchange = false := by
      rw [← failures] at member
      simpa using List.mem_rtakeWhile_imp member
    refine ⟨?_, later⟩
    by_contra failed
    have all : (first :: rest).rtakeWhile (fun a => !a.streamed exchange) = first :: rest := by
      rw [List.rtakeWhile_eq_self_iff]
      simpa [Bool.eq_false_iff.mpr failed] using later
    rw [all] at counted
    exact Nat.succ_ne_self _ counted
  · rintro ⟨streamed, later⟩
    have failures : rest.reverse.takeWhile (fun a => !a.streamed exchange) = rest.reverse := by
      rw [List.takeWhile_eq_self_iff]
      simpa using later
    rw [List.rtakeWhile, List.reverse_cons, List.takeWhile_append, failures]
    simp [streamed]

/-- The delay before the next attempt is the scheduled one exactly when the exchange streamed in
    its first attempt only, or both counts have passed the cap; it doubles with every attempt. -/
theorem reconnection_delay_iff (node : ProviderNode) (first : Attempt) (rest : List Attempt) :
    ((runExchangeLoop fromStr exchange node (first :: rest)).slept =
        some (delay (failedSince exchange (first :: rest))) ↔
      (first.streamed exchange = true ∧ ∀ a ∈ rest, a.streamed exchange = false) ∨
        (6 ≤ failedSince exchange (first :: rest) ∧ 6 ≤ rest.length)) ∧
    (runExchangeLoop fromStr exchange node (first :: rest)).slept = some (delay rest.length) := by
  have slept : (runExchangeLoop fromStr exchange node (first :: rest)).slept =
      some (delay rest.length) := by
    obtain ⟨before, last, split⟩ :=
      (List.eq_nil_or_concat (first :: rest)).resolve_left (List.cons_ne_nil first rest)
    have counted := congrArg List.length split
    rw [List.length_cons, List.length_concat] at counted
    rw [split, List.concat_eq_append, run_slept, Nat.succ_injective counted]
  refine ⟨?_, slept⟩
  rw [slept, Option.some_inj, delay_eq_iff, eq_comm, failedSince_eq_length_iff, and_comm (a := 6 ≤ _)]

def sampleTicker : Value :=
  .object [("type", .string "ticker"), ("product_id", .string "BTC-USD"),
    ("price", .string "64000"), ("volume_24h", .string "1000")]

/-- Coinbase delivers a ticker and, a minute later, closes cleanly. -/
def goodSession : Attempt :=
  .connected 200 (fun _ => .ok ()) [(10, .text "ticker")] (.closed 60000)

/-- After the second of two good sessions the delay has doubled. -/
theorem good_sessions_back_off :
    let loop := runExchangeLoop (fun _ => some sampleTicker) .coinbase (ProviderNode.start 5000)
      [goodSession, goodSession]
    (loop.node.book.entries .btcUsd .coinbase).isSome ∧ loop.slept = some 1000 ∧
      loop.slept ≠ some (delay (failedSince .coinbase [goodSession, goodSession])) := by
  have slept : (runExchangeLoop (fun _ => some sampleTicker) .coinbase (ProviderNode.start 5000)
      [goodSession, goodSession]).slept = some 1000 := run_slept _ [goodSession] goodSession
  have since : failedSince .coinbase [goodSession, goodSession] = 0 := by decide
  refine ⟨by decide +kernel, slept, ?_⟩
  rw [slept, since]
  decide

end Schedule

end Ftso
