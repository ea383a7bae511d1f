import VerifiableRag.Ftso.Tickers

/-!
What the venues report as volume, and what the aggregation weighs by. Coinbase,
Kraken and Bitfinex report traded base units, Binance and Gate quote units.
-/
namespace Ftso
open SerdeJson

def Decimal (field : Option Value) (q : ℚ) : Prop :=
  ∃ s, field = some (.string s) ∧ RustStr.parseF64 s = some (.finite q)

def Tagged (field : Option Value) (s : String) : Prop := field = some (.string s)

/-- The documented ticker fields of a venue, for a market whose last price is `price` and
whose traded base volume is `base`. -/
def Reports (feed : Feed) (price base : ℚ) (v : Value) : ExchangeId → Prop
  | .coinbase => Tagged (v.get "type") "ticker" ∧
      (∃ product, Tagged (v.get "product_id") product ∧
        coinbaseProducts.lookup product = some feed) ∧
      Decimal (v.get "price") price ∧ Decimal (v.get "volume_24h") base
  | .kraken => ∃ channel payload pair rest last lasts today volumes,
      v = .array (channel :: .object payload :: .string "ticker" :: .string pair :: rest) ∧
      krakenPairs.lookup pair = some feed ∧
      payload.lookup "c" = some (.array (last :: lasts)) ∧ Decimal (some last) price ∧
      payload.lookup "v" = some (.array (today :: volumes)) ∧ Decimal volumes.head? base
  | .binance => ∃ data, v.get "data" = some data ∧ Tagged (data.get "e") "24hrTicker" ∧
      (∃ symbol, Tagged (data.get "s") symbol ∧ binanceSymbols.lookup symbol = some feed) ∧
      Decimal (data.get "c") price ∧ Decimal (data.get "q") (price * base)
  | .gate => Tagged (v.get "channel") "spot.tickers" ∧ ∃ result,
      v.get "result" = some (.object result) ∧
      (∃ pair, Tagged (result.lookup "currency_pair") pair ∧ gatePairs.lookup pair = some feed) ∧
      Decimal (result.lookup "last") price ∧ Decimal (result.lookup "quote_volume") (price * base)
  | .bitfinex => ∃ channel payload pair, v = .array [channel, .array payload, .string pair] ∧
      bitfinexPairs.lookup pair = some feed ∧ 8 ≤ payload.length ∧
      payload[6]? = some (.number price) ∧ payload[7]? = some (.number base)

structure Report (fromStr : String → Option Value) where
  exchange : ExchangeId
  feed : Feed
  price : ℚ
  base : ℚ
  positive : 0 < price
  nonnegative : 0 ≤ base
  message : Message
  content : String
  value : Value
  shown : message.content = some content
  read : fromStr content = some value
  reports : Reports feed price base value exchange

/-- The volume that a venue's parser takes for the quote volume. -/
def readVolume (price base : ℚ) : ExchangeId → ℚ
  | .binance | .gate => price * base
  | .coinbase | .kraken | .bitfinex => base

def QuotesVolume (exchange : ExchangeId) : Prop := exchange = .binance ∨ exchange = .gate

theorem decimal_parsed {field : Option Value} {q : ℚ} (decimal : Decimal field q) :
    field.bind parsedStr = some (.finite q) := by
  obtain ⟨s, held, parsed⟩ := decimal
  rw [held]
  exact parsed

theorem tagged_str {field : Option Value} {s : String} (tagged : Tagged field s) :
    field.bind Value.asStr = some s := by
  rw [tagged]
  rfl

/-- Every parser reads the last price, and whatever volume its field holds. -/
theorem parseVenue_reports {exchange : ExchangeId} {feed : Feed} {price base : ℚ} {v : Value}
    (reports : Reports feed price base v exchange) :
    parseVenue exchange v =
      some ⟨feed, exchange, .finite price, .finite (readVolume price base exchange)⟩ := by
  cases exchange with
  | coinbase =>
    obtain ⟨tag, ⟨product, symbol, known⟩, last, volume⟩ := reports
    simp only [parseVenue, parseCoinbase, strField, tagged_str tag, tagged_str symbol, known,
      decimal_parsed last, decimal_parsed volume, guard, Option.bind_eq_bind, Option.bind_some,
      if_true, Option.pure_def, readVolume]
  | kraken =>
    obtain ⟨channel, payload, pair, rest, last, lasts, today, volumes, rfl, known, c, price,
      v, volume⟩ := reports
    have long : 4 ≤ (channel :: .object payload :: .string "ticker" :: .string pair :: rest).length := by
      simp
    have second : (today :: volumes)[1]? = volumes.head? := by
      cases volumes <;> rfl
    simp only [parseVenue, parseKraken, Value.asArray, Value.asStr, Value.asObject, guard, long,
      List.getElem?_cons_succ, List.getElem?_cons_zero, List.head?_cons, known, c, v, second,
      decimal_parsed price, decimal_parsed volume, Option.bind_eq_bind, Option.bind_some,
      if_true, Option.pure_def, readVolume]
  | binance =>
    obtain ⟨data, held, tag, ⟨symbol, named, known⟩, last, volume⟩ := reports
    simp only [parseVenue, parseBinance, strField, held, tagged_str tag, tagged_str named, known,
      decimal_parsed last, decimal_parsed volume, guard, Option.bind_eq_bind, Option.bind_some,
      if_true, Option.pure_def, readVolume]
  | gate =>
    obtain ⟨tag, result, held, ⟨pair, named, known⟩, last, volume⟩ := reports
    simp only [parseVenue, parseGate, strField, tagged_str tag, held, Value.asObject,
      tagged_str named, known, decimal_parsed last, decimal_parsed volume, guard,
      Option.bind_eq_bind, Option.bind_some, if_true, Option.pure_def, readVolume]
  | bitfinex =>
    obtain ⟨channel, payload, pair, rfl, known, long, last, volume⟩ := reports
    simp only [parseVenue, parseBitfinex, Value.asArray, Value.asStr, Value.asF64, guard, long,
      List.length_cons, List.length_nil, List.getElem?_cons_succ, List.getElem?_cons_zero, known,
      last, volume, Option.bind_eq_bind, Option.bind_some, if_true, Option.pure_def, readVolume]

namespace Report
variable {fromStr : String → Option Value}

def quote (r : Report fromStr) : Ticker :=
  ⟨r.feed, r.exchange, r.price, r.price * r.base, r.positive,
    mul_nonneg r.positive.le r.nonnegative⟩

def ticker (r : Report fromStr) : Option Ticker := parseTicker fromStr r.exchange r.message

def market (r : Report fromStr) : ℚ × ℚ := (r.price, r.base)

theorem readVolume_nonneg (r : Report fromStr) : 0 ≤ readVolume r.price r.base r.exchange := by
  have product := mul_nonneg r.positive.le r.nonnegative
  unfold readVolume
  split
  · exact product
  · exact product
  · exact r.nonnegative
  · exact r.nonnegative
  · exact r.nonnegative

theorem ticker_eq (r : Report fromStr) :
    r.ticker = some ⟨r.feed, r.exchange, r.price, readVolume r.price r.base r.exchange,
      r.positive, r.readVolume_nonneg⟩ := by
  have signs : 0 < r.price ∧ 0 ≤ readVolume r.price r.base r.exchange :=
    ⟨r.positive, r.readVolume_nonneg⟩
  rw [ticker, parseTicker, r.shown]
  simp only [Option.bind_eq_bind, Option.bind_some, r.read, parseVenue_reports r.reports,
    Reading.checked, signs, and_self, dif_pos]

theorem readVolume_eq_iff {price base : ℚ} (exchange : ExchangeId) :
    readVolume price base exchange = price * base ↔
      QuotesVolume exchange ∨ base = 0 ∨ price = 1 := by
  have base_units : base = price * base ↔ base = 0 ∨ price = 1 := by
    rw [eq_comm, mul_left_eq_self₀, or_comm]
  cases exchange <;> simp [readVolume, QuotesVolume, base_units]

theorem ticker_quote_iff (r : Report fromStr) :
    r.ticker = some r.quote ↔ QuotesVolume r.exchange ∨ r.base = 0 ∨ r.price = 1 := by
  rw [← readVolume_eq_iff, ticker_eq, Option.some.injEq]
  simp [quote]

def aggregate (reports : List (Report fromStr)) : Option ℚ :=
  volumeTrimmedMedian ((reports.filterMap ticker).map Ticker.observation)

theorem aggregate_quotes {reports : List (Report fromStr)}
    (quoted : ∀ r ∈ reports, QuotesVolume r.exchange ∨ r.base = 0 ∨ r.price = 1) :
    (reports.filterMap ticker).map (fun t => (t.price, t.volume24h)) =
      reports.map fun r => (r.market.1, r.market.1 * r.market.2) := by
  induction reports with
  | nil => rfl
  | cons r rest ih =>
    have first := r.ticker_quote_iff.mpr (quoted r List.mem_cons_self)
    have others := ih fun r member => quoted r (List.mem_cons_of_mem _ member)
    rw [List.filterMap_cons, first, List.map_cons, List.map_cons, others]
    rfl

theorem aggregate_congr {reports reports' : List (Report fromStr)}
    (quoted : ∀ r ∈ reports, QuotesVolume r.exchange ∨ r.base = 0 ∨ r.price = 1)
    (quoted' : ∀ r ∈ reports', QuotesVolume r.exchange ∨ r.base = 0 ∨ r.price = 1)
    (same : reports.map market = reports'.map market) :
    aggregate reports = aggregate reports' := by
  refine median_congr ?_
  have marks := congrArg (List.map fun m : ℚ × ℚ => (m.1, m.1 * m.2)) same
  rw [List.map_map, List.map_map] at marks
  rw [List.map_map, List.map_map]
  exact (aggregate_quotes quoted).trans (marks.trans (aggregate_quotes quoted').symm)

/-- A venue's volume is the quote volume exactly when it reports quote units, nothing was
traded, or the price is one; over such reports the aggregate sees market states only. -/
theorem volumes_commensurable_iff (fromStr : String → Option Value) :
    (∀ r : Report fromStr,
      r.ticker = some r.quote ↔ QuotesVolume r.exchange ∨ r.base = 0 ∨ r.price = 1) ∧
    ∀ reports reports' : List (Report fromStr),
      (∀ r ∈ reports ++ reports', QuotesVolume r.exchange ∨ r.base = 0 ∨ r.price = 1) →
      reports.map market = reports'.map market → aggregate reports = aggregate reports' := by
  refine ⟨ticker_quote_iff, ?_⟩
  intro reports reports' quoted same
  exact aggregate_congr (fun r member => quoted r (List.mem_append_left _ member))
    (fun r member => quoted r (List.mem_append_right _ member)) same

end Report

section Sample

def coinbaseValue (price volume : String) : Value :=
  .object [("type", .string "ticker"), ("product_id", .string "BTC-USD"),
    ("price", .string price), ("volume_24h", .string volume)]

def binanceValue (price volume : String) : Value :=
  .object [("stream", .string "btcusdt@ticker"), ("data", .object [("e", .string "24hrTicker"),
    ("s", .string "BTCUSDT"), ("c", .string price), ("q", .string volume)])]

def coinbaseText (price volume : String) : String :=
  "\x7b\"type\":\"ticker\",\"product_id\":\"BTC-USD\",\"price\":\"" ++ price ++
    "\",\"volume_24h\":\"" ++ volume ++ "\"\x7d"

def binanceText (price volume : String) : String :=
  "\x7b\"stream\":\"btcusdt@ticker\",\"data\":\x7b\"e\":\"24hrTicker\",\"s\":\"BTCUSDT\",\"c\":\"" ++
    price ++ "\",\"q\":\"" ++ volume ++ "\"\x7d\x7d"

/-- Two market states, 1000 traded at 100 and 10 at 101, as either venue reports them. -/
def sampleFromStr (text : String) : Option Value :=
  [(coinbaseText "100" "1000", coinbaseValue "100" "1000"),
    (coinbaseText "101" "10", coinbaseValue "101" "10"),
    (binanceText "100" "100000", binanceValue "100" "100000"),
    (binanceText "101" "1010", binanceValue "101" "1010")].lookup text

theorem thousand_nonnegative : (0 : ℚ) ≤ 1000 := by decide

def coinbaseDeep : Report sampleFromStr where
  exchange := .coinbase
  feed := .btcUsd
  price := 100
  base := 1000
  positive := by decide
  nonnegative := thousand_nonnegative
  message := .text (coinbaseText "100" "1000")
  content := coinbaseText "100" "1000"
  value := coinbaseValue "100" "1000"
  shown := rfl
  read := rfl
  reports := ⟨rfl, ⟨"BTC-USD", rfl, rfl⟩, ⟨"100", rfl, by decide⟩, ⟨"1000", rfl, by decide⟩⟩

def coinbaseThin : Report sampleFromStr where
  exchange := .coinbase
  feed := .btcUsd
  price := 101
  base := 10
  positive := by decide
  nonnegative := by decide
  message := .text (coinbaseText "101" "10")
  content := coinbaseText "101" "10"
  value := coinbaseValue "101" "10"
  shown := rfl
  read := rfl
  reports := ⟨rfl, ⟨"BTC-USD", rfl, rfl⟩, ⟨"101", rfl, by decide⟩, ⟨"10", rfl, by decide⟩⟩

def binanceDeep : Report sampleFromStr where
  exchange := .binance
  feed := .btcUsd
  price := 100
  base := 1000
  positive := by decide
  nonnegative := thousand_nonnegative
  message := .text (binanceText "100" "100000")
  content := binanceText "100" "100000"
  value := binanceValue "100" "100000"
  shown := rfl
  read := rfl
  reports := ⟨_, rfl, rfl, ⟨"BTCUSDT", rfl, rfl⟩, ⟨"100", rfl, by decide⟩, ⟨"100000", rfl, by decide +kernel⟩⟩

def binanceThin : Report sampleFromStr where
  exchange := .binance
  feed := .btcUsd
  price := 101
  base := 10
  positive := by decide
  nonnegative := by decide
  message := .text (binanceText "101" "1010")
  content := binanceText "101" "1010"
  value := binanceValue "101" "1010"
  shown := rfl
  read := rfl
  reports := ⟨_, rfl, rfl, ⟨"BTCUSDT", rfl, rfl⟩, ⟨"101", rfl, by decide⟩, ⟨"1010", rfl, by decide +kernel⟩⟩

/-- Coinbase's base volume weighs a hundredth of what it stands for, and the price moves with
the venue that reports the deep market. -/
theorem coinbase_volume_in_base_units :
    coinbaseDeep.ticker ≠ some coinbaseDeep.quote ∧
    [coinbaseDeep, binanceThin].map Report.market =
      [binanceDeep, coinbaseThin].map Report.market ∧
    Report.aggregate [coinbaseDeep, binanceThin] = some 101 ∧
    Report.aggregate [binanceDeep, coinbaseThin] = some 100 := by
  have measured (r : Report sampleFromStr) := r.ticker_eq
  refine ⟨?_, rfl, ?_, ?_⟩
  · intro same
    rw [measured] at same
    have volume := congrArg Ticker.volume24h (Option.some.inj same)
    exact absurd volume (by decide +kernel)
  · simp only [Report.aggregate, List.filterMap_cons, List.filterMap_nil, measured]
    decide +kernel
  · simp only [Report.aggregate, List.filterMap_cons, List.filterMap_nil, measured]
    decide +kernel

end Sample

end Ftso
