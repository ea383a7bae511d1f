import VerifiableRag.Ftso.Tickers

/-!
The price book of the provider node over any run of tickers, disconnections and
time (`node.rs`). Instants count from the start of the node.
-/
namespace Ftso

structure BookEntry where
  price : ℚ
  volume24h : ℚ
  received : Nat

/-- feed -> (exchange -> latest ticker) -/
structure PriceBook where
  entries : Feed → ExchangeId → Option BookEntry

/-- An order in which a hash map hands out its entries. -/
structure Iteration where
  order : List ExchangeId
  nodup : order.Nodup
  complete : ∀ exchange, exchange ∈ order

namespace PriceBook

def empty : PriceBook := ⟨fun _ _ => none⟩

def upsert (book : PriceBook) (now : Nat) (t : Ticker) : PriceBook :=
  ⟨fun feed exchange =>
    if t.feed = feed ∧ t.exchange = exchange then some ⟨t.price, t.volume24h, now⟩
    else book.entries feed exchange⟩

def observations (book : PriceBook) (iteration : Iteration) (feed : Feed) : List Observation :=
  iteration.order.filterMap fun exchange =>
    (book.entries feed exchange).map fun e => ⟨exchange.asStr, e.price, e.volume24h⟩

def lastUpdate (book : PriceBook) (iteration : Iteration) (feed : Feed) : Option Nat :=
  (iteration.order.filterMap fun exchange => (book.entries feed exchange).map (·.received)).max?

end PriceBook

structure ProviderNode where
  book : PriceBook
  stale : Bool
  staleAfter : Nat
  now : Nat
  reconnects : BitVec 64
  failures : BitVec 64

inductive Event where
  | arrives (t : Ticker)
  /-- The stream of an exchange fails; it is retried later. -/
  | fails (exchange : ExchangeId)
  | elapses (duration : Nat)
  | checks (iteration : Iteration)

namespace ProviderNode

def start (staleAfter : Nat) : ProviderNode := ⟨PriceBook.empty, false, staleAfter, 0, 0, 0⟩

/-- The test that `stale_feeds` and `check_staleness` make of a feed. -/
def feedIsStale (node : ProviderNode) (iteration : Iteration) (feed : Feed) : Bool :=
  match node.book.lastUpdate iteration feed with
  | some t => node.now - t > node.staleAfter
  | none => true

def checkStaleness (node : ProviderNode) (iteration : Iteration) : ProviderNode :=
  { node with stale := FEEDS.any (node.feedIsStale iteration) }

def step (node : ProviderNode) : Event → ProviderNode
  | .arrives t => { node with book := node.book.upsert node.now t }
  | .fails _ => { node with failures := node.failures + 1, reconnects := node.reconnects + 1 }
  | .elapses duration => { node with now := node.now + duration }
  | .checks iteration => node.checkStaleness iteration

def run (node : ProviderNode) (events : List Event) : ProviderNode := events.foldl step node

/-- The entry of one feed: the aggregated price and the number of exchanges. -/
def priced (obs : List Observation) : Option (ℚ × Nat) :=
  if obs.isEmpty then none else (volumeTrimmedMedian obs).map (·, obs.length)

def snapshot (node : ProviderNode) (iteration : Iteration) : List (Feed × ℚ × Nat) :=
  FEEDS.filterMap fun feed => (priced (node.book.observations iteration feed)).map (feed, ·)

def liveExchanges (node : ProviderNode) (iteration : Iteration) (feed : Feed) : Nat :=
  (node.book.observations iteration feed).length

end ProviderNode

/-! What the history of a node says about its venues. -/

def clock : List Event → Nat
  | [] => 0
  | .elapses duration :: rest => duration + clock rest
  | _ :: rest => clock rest

def arrivals (feed : Feed) (exchange : ExchangeId) : Nat → List Event → List (Ticker × Nat)
  | _, [] => []
  | now, .arrives t :: rest =>
    if t.feed = feed ∧ t.exchange = exchange then (t, now) :: arrivals feed exchange now rest
    else arrivals feed exchange now rest
  | now, .elapses duration :: rest => arrivals feed exchange (now + duration) rest
  | now, .fails _ :: rest => arrivals feed exchange now rest
  | now, .checks _ :: rest => arrivals feed exchange now rest

def lastTicker (feed : Feed) (exchange : ExchangeId) (events : List Event) :
    Option (Ticker × Nat) := (arrivals feed exchange 0 events).getLast?

/-- The last ticker of a venue, if it arrived within `staleAfter`. -/
def liveTicker (staleAfter : Nat) (feed : Feed) (exchange : ExchangeId) (events : List Event) :
    Option (Ticker × Nat) :=
  (lastTicker feed exchange events).filter fun last => clock events - last.2 ≤ staleAfter

/-- What a node that listens to live venues only would aggregate. -/
def liveObservations (staleAfter : Nat) (iteration : Iteration) (feed : Feed)
    (events : List Event) : List Observation :=
  iteration.order.filterMap fun exchange =>
    (liveTicker staleAfter feed exchange events).map fun last => last.1.observation

/-- The node's answers for a feed are those of its live venues. -/
structure UsesLiveVenues (node : ProviderNode) (events : List Event) (iteration : Iteration)
    (feed : Feed) : Prop where
  observations : node.book.observations iteration feed =
    liveObservations node.staleAfter iteration feed events
  counted : node.liveExchanges iteration feed =
    (liveObservations node.staleAfter iteration feed events).length
  aggregated : (node.snapshot iteration).lookup feed =
    ProviderNode.priced (liveObservations node.staleAfter iteration feed events)

theorem arrivals_venue {feed : Feed} {exchange : ExchangeId} {now : Nat} {events : List Event}
    {last : Ticker × Nat} (arrived : last ∈ arrivals feed exchange now events) :
    last.1.exchange = exchange := by
  induction events generalizing now with
  | nil => cases arrived
  | cons event rest ih =>
    cases event with
    | arrives t =>
      rw [arrivals] at arrived
      split at arrived
      next venue =>
        cases arrived with
        | head => exact venue.2
        | tail _ later => exact ih later
      · exact ih arrived
    | fails _ => exact ih arrived
    | elapses _ => exact ih arrived
    | checks _ => exact ih arrived

def BookEntry.ofArrival (last : Ticker × Nat) : BookEntry :=
  ⟨last.1.price, last.1.volume24h, last.2⟩

namespace ProviderNode

theorem run_staleAfter (node : ProviderNode) (events : List Event) :
    (node.run events).staleAfter = node.staleAfter := by
  induction events generalizing node with
  | nil => rfl
  | cons event rest ih =>
    rw [run, List.foldl_cons, ← run, ih]
    cases event <;> rfl

/-- The book holds the last arrival of every venue, and nothing ever leaves it. -/
theorem run_entries (node : ProviderNode) (events : List Event) (feed : Feed)
    (exchange : ExchangeId) :
    (node.run events).book.entries feed exchange =
      ((arrivals feed exchange node.now events).getLast?.map BookEntry.ofArrival).or
        (node.book.entries feed exchange) := by
  induction events generalizing node with
  | nil => rfl
  | cons event rest ih =>
    rw [run, List.foldl_cons, ← run, ih]
    cases event with
    | fails _ => rfl
    | elapses _ => rfl
    | checks _ => rfl
    | arrives t =>
      rw [arrivals]
      by_cases venue : t.feed = feed ∧ t.exchange = exchange
      · have written : (node.step (.arrives t)).book.entries feed exchange =
            some (BookEntry.ofArrival (t, node.now)) := if_pos venue
        rw [if_pos venue, List.getLast?_cons, written]
        cases later : (arrivals feed exchange node.now rest).getLast? with
        | none => simp [step, later]
        | some last => simp [step, later]
      · have kept : (node.step (.arrives t)).book.entries feed exchange =
            node.book.entries feed exchange := if_neg venue
        rw [if_neg venue, kept]
        rfl

theorem start_entries (staleAfter : Nat) (events : List Event) (feed : Feed)
    (exchange : ExchangeId) :
    ((start staleAfter).run events).book.entries feed exchange =
      (lastTicker feed exchange events).map BookEntry.ofArrival := by
  rw [run_entries]
  exact Option.or_none

theorem observations_run (staleAfter : Nat) (events : List Event) (iteration : Iteration)
    (feed : Feed) :
    ((start staleAfter).run events).book.observations iteration feed =
      iteration.order.filterMap fun exchange =>
        (lastTicker feed exchange events).map fun last => last.1.observation := by
  refine congrArg (fun f => List.filterMap f iteration.order) (funext fun exchange => ?_)
  rw [start_entries]
  cases last : lastTicker feed exchange events with
  | none => rfl
  | some last =>
    have venue := arrivals_venue (List.mem_of_getLast? last)
    simp [BookEntry.ofArrival, Ticker.observation, venue]

theorem lookup_filterMap {α β : Type} [DecidableEq α] (f : α → Option β) (keys : List α)
    (key : α) :
    (keys.filterMap fun k => (f k).map (k, ·)).lookup key = if key ∈ keys then f key else none := by
  induction keys with
  | nil => rfl
  | cons k rest ih =>
    by_cases same : key = k
    · subst same
      rw [if_pos List.mem_cons_self, List.filterMap_cons]
      cases held : f key with
      | none => simp [ih, held]
      | some b => simp
    · have elsewhere : key ∈ k :: rest ↔ key ∈ rest := by simp [same]
      simp only [elsewhere, ← ih]
      rw [List.filterMap_cons]
      cases f k with
      | none => rfl
      | some b =>
        have other : (key == k) = false := beq_false_of_ne same
        simp [List.lookup_cons, other]

theorem snapshot_lookup (node : ProviderNode) (iteration : Iteration) (feed : Feed) :
    (node.snapshot iteration).lookup feed =
      priced (node.book.observations iteration feed) := by
  refine (lookup_filterMap _ FEEDS feed).trans (if_pos ?_)
  cases feed <;> decide

end ProviderNode

theorem filterMap_restrict {α β : Type} {f g : α → Option β} {xs : List α}
    (restricts : ∀ x, g x = none ∨ g x = f x)
    (same : (xs.filterMap g).length = (xs.filterMap f).length) : ∀ x ∈ xs, g x = f x := by
  have fewer (xs : List α) : (xs.filterMap g).length ≤ (xs.filterMap f).length := by
    induction xs with
    | nil => exact Nat.le_refl _
    | cons x rest ih =>
      rw [List.filterMap_cons, List.filterMap_cons]
      rcases restricts x with absent | agrees
      · rw [absent]
        cases f x with
        | none => exact ih
        | some b => exact Nat.le_succ_of_le ih
      · rw [agrees]
        cases f x with
        | none => exact ih
        | some b => exact Nat.succ_le_succ ih
  induction xs with
  | nil => exact fun x member => absurd member List.not_mem_nil
  | cons x rest ih =>
    have rest_fewer := fewer rest
    rw [List.filterMap_cons, List.filterMap_cons] at same
    have agree : g x = f x := by
      rcases restricts x with absent | agrees
      · rw [absent] at same
        cases held : f x with
        | none => exact absent
        | some b =>
          rw [held] at same
          simp only [List.length_cons] at same
          omega
      · exact agrees
    rw [agree] at same
    have others : (rest.filterMap g).length = (rest.filterMap f).length := by
      cases held : f x with
      | none => simpa [held] using same
      | some b => simpa [held] using same
    intro y member
    cases member with
    | head => exact agree
    | tail _ later => exact ih others y later

/-- The answers for a feed are those of its live venues exactly as long as no venue that
delivered for it has since been silent for longer than `staleAfter`. -/
theorem live_venues_iff (staleAfter : Nat) (events : List Event) (iteration : Iteration)
    (feed : Feed) :
    UsesLiveVenues ((ProviderNode.start staleAfter).run events) events iteration feed ↔
      ∀ exchange last, lastTicker feed exchange events = some last →
        clock events - last.2 ≤ staleAfter := by
  have threshold : ((ProviderNode.start staleAfter).run events).staleAfter = staleAfter :=
    ProviderNode.run_staleAfter _ events
  have observed := ProviderNode.observations_run staleAfter events iteration feed
  constructor
  · intro uses exchange last delivered
    have counted := uses.counted
    rw [threshold, ProviderNode.liveExchanges, observed, liveObservations] at counted
    have agrees := filterMap_restrict (fun exchange => ?_) counted.symm exchange
      (iteration.complete exchange)
    · rw [liveTicker, delivered] at agrees
      by_contra silent
      simp [Option.filter, silent] at agrees
    · rw [liveTicker]
      cases lastTicker feed exchange events with
      | none => exact Or.inl rfl
      | some last =>
        by_cases live : clock events - last.2 ≤ staleAfter
        · exact Or.inr (by simp [Option.filter, live])
        · exact Or.inl (by simp [Option.filter, live])
  · intro fresh
    have live : ((ProviderNode.start staleAfter).run events).book.observations iteration feed =
        liveObservations ((ProviderNode.start staleAfter).run events).staleAfter iteration feed
          events := by
      rw [observed, threshold]
      refine congrArg (fun f => List.filterMap f iteration.order) (funext fun exchange => ?_)
      rw [liveTicker]
      cases delivered : lastTicker feed exchange events with
      | none => rfl
      | some last => simp [Option.filter, fresh exchange last delivered]
    exact {
      observations := live
      counted := congrArg List.length live
      aggregated := (ProviderNode.snapshot_lookup _ iteration feed).trans (by rw [live]) }

section Sample

def declaredOrder : Iteration where
  order := [.coinbase, .kraken, .binance, .gate, .bitfinex]
  nodup := by decide
  complete := by intro exchange; cases exchange <;> decide

/-- Coinbase delivers once and dies; Kraken goes on. -/
def silentCoinbase : List Event :=
  [.arrives ⟨.btcUsd, .coinbase, 50000, 1000000, by decide, by decide⟩, .fails .coinbase,
    .elapses 86400, .arrives ⟨.btcUsd, .kraken, 64000, 1000, by decide, by decide⟩]

/-- A day later the dead venue still sets the price and is counted as live, and no feed
update is stale. -/
theorem silent_venue_votes :
    let node := (ProviderNode.start 5).run silentCoinbase
    (node.snapshot declaredOrder).lookup .btcUsd = some (50000, 2) ∧
    liveObservations 5 declaredOrder .btcUsd silentCoinbase = [⟨"kraken", 64000, 1000⟩] ∧
    node.feedIsStale declaredOrder .btcUsd = false ∧
    ¬ UsesLiveVenues node silentCoinbase declaredOrder .btcUsd := by
  intro node
  have counted : node.liveExchanges declaredOrder .btcUsd = 2 := by decide
  have live : liveObservations 5 declaredOrder .btcUsd silentCoinbase = [⟨"kraken", 64000, 1000⟩] := by
    decide
  refine ⟨by decide +kernel, live, by decide, ?_⟩
  intro uses
  have disagree := uses.counted
  rw [counted, show node.staleAfter = 5 from rfl, live] at disagree
  cases disagree

end Sample

end Ftso
