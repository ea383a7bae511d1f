import VerifiableRag.Ftso.Calculator
import VerifiableRag.Library.RustStr
import VerifiableRag.Library.SerdeJson

/-!
The ticker messages of the five venues (`node.rs`). `serde_json::from_str` is a
parameter; numbers are exact.
-/
namespace Ftso
open SerdeJson

inductive ExchangeId where
  | coinbase
  | kraken
  | binance
  | gate
  | bitfinex
  deriving DecidableEq

def ExchangeId.asStr : ExchangeId → String
  | coinbase => "coinbase"
  | kraken => "kraken"
  | binance => "binance"
  | gate => "gate"
  | bitfinex => "bitfinex"

inductive Feed where
  | xrpUsd
  | btcUsd
  | ethUsd
  deriving DecidableEq

def Feed.name : Feed → String
  | xrpUsd => "XRP/USD"
  | btcUsd => "BTC/USD"
  | ethUsd => "ETH/USD"

def FEEDS : List Feed := [.xrpUsd, .btcUsd, .ethUsd]

/-- What a venue parser reads, before the checks of `parse_ticker`. -/
structure Reading where
  feed : Feed
  exchange : ExchangeId
  price : RustStr.Float
  volume24h : RustStr.Float

structure Ticker where
  feed : Feed
  exchange : ExchangeId
  price : ℚ
  volume24h : ℚ
  positive : 0 < price
  nonnegative : 0 ≤ volume24h

def Ticker.observation (t : Ticker) : Observation := ⟨t.exchange.asStr, t.price, t.volume24h⟩

/-! The symbols of each venue; any other is no ticker. -/

def coinbaseProducts : List (String × Feed) :=
  [("BTC-USD", .btcUsd), ("ETH-USD", .ethUsd), ("XRP-USD", .xrpUsd)]

/-- Bitcoin is XBT on the wire. -/
def krakenPairs : List (String × Feed) :=
  [("XBT/USD", .btcUsd), ("BTC/USD", .btcUsd), ("ETH/USD", .ethUsd), ("XRP/USD", .xrpUsd)]

def binanceSymbols : List (String × Feed) :=
  [("BTCUSDT", .btcUsd), ("ETHUSDT", .ethUsd), ("XRPUSDT", .xrpUsd)]

def gatePairs : List (String × Feed) :=
  [("BTC_USDT", .btcUsd), ("ETH_USDT", .ethUsd), ("XRP_USDT", .xrpUsd)]

def bitfinexPairs : List (String × Feed) :=
  [("tBTCUSD", .btcUsd), ("tETHUSD", .ethUsd), ("tXRPUSD", .xrpUsd)]

/-- `as_str()?.parse().ok()?` -/
def parsedStr (v : Value) : Option RustStr.Float := v.asStr.bind RustStr.parseF64

/-- `get(name)?.as_str()?` -/
def strField (v : Value) (name : String) : Option String := (v.get name).bind Value.asStr

def parseCoinbase (v : Value) : Option Reading := do
  let kind ← strField v "type"
  guard (kind = "ticker")
  let product ← strField v "product_id"
  let feed ← coinbaseProducts.lookup product
  let price ← (v.get "price").bind parsedStr
  let volume24h ← (v.get "volume_24h").bind parsedStr
  return ⟨feed, .coinbase, price, volume24h⟩

def parseKraken (v : Value) : Option Reading := do
  let arr ← v.asArray
  guard (4 ≤ arr.length)
  let channel ← arr[2]?.bind Value.asStr
  guard (channel = "ticker")
  let pairRaw ← arr[3]?.bind Value.asStr
  let feed ← krakenPairs.lookup pairRaw
  let payload ← arr[1]?.bind Value.asObject
  let c ← (payload.lookup "c").bind Value.asArray
  let last ← c.head?.bind parsedStr
  let volumes ← (payload.lookup "v").bind Value.asArray
  let vol24h ← volumes[1]?.bind parsedStr
  return ⟨feed, .kraken, last, vol24h⟩

def parseBinance (v : Value) : Option Reading := do
  let data ← v.get "data"
  let event ← strField data "e"
  guard (event = "24hrTicker")
  let symbol ← strField data "s"
  let feed ← binanceSymbols.lookup symbol
  let price ← (data.get "c").bind parsedStr
  let volume24h ← (data.get "q").bind parsedStr
  return ⟨feed, .binance, price, volume24h⟩

def parseGate (v : Value) : Option Reading := do
  let channel ← strField v "channel"
  guard (channel = "spot.tickers")
  let result ← (v.get "result").bind Value.asObject
  let pair ← (result.lookup "currency_pair").bind Value.asStr
  let feed ← gatePairs.lookup pair
  let price ← (result.lookup "last").bind parsedStr
  let volume24h ← (result.lookup "quote_volume").bind parsedStr
  return ⟨feed, .gate, price, volume24h⟩

def parseBitfinex (v : Value) : Option Reading := do
  let arr ← v.asArray
  guard (arr.length = 3)
  let pairRaw ← arr[2]?.bind Value.asStr
  let feed ← bitfinexPairs.lookup pairRaw
  let payload ← arr[1]?.bind Value.asArray
  guard (8 ≤ payload.length)
  -- index 6 is the last price, index 7 the 24h volume
  let price ← payload[6]?.bind Value.asF64
  let volume24h ← payload[7]?.bind Value.asF64
  return ⟨feed, .bitfinex, .finite price, .finite volume24h⟩

def parseVenue (exchange : ExchangeId) (v : Value) : Option Reading :=
  match exchange with
  | .coinbase => parseCoinbase v
  | .kraken => parseKraken v
  | .binance => parseBinance v
  | .gate => parseGate v
  | .bitfinex => parseBitfinex v

inductive Message where
  | text (t : String)
  | binary (b : List UInt8)
  | control

def Message.content : Message → Option String
  | text t => some t
  | binary b => some (RustStr.fromUtf8Lossy b)
  | control => none

/-- Only finite values, a positive price and a nonnegative volume pass. -/
def Reading.checked (reading : Reading) : Option Ticker :=
  match reading.price, reading.volume24h with
  | .finite price, .finite volume =>
    if signs : 0 < price ∧ 0 ≤ volume then
      some ⟨reading.feed, reading.exchange, price, volume, signs.1, signs.2⟩
    else none
  | _, _ => none

def parseTicker (fromStr : String → Option Value) (exchange : ExchangeId) (msg : Message) :
    Option Ticker := do
  let value ← fromStr (← msg.content)
  (← parseVenue exchange value).checked

end Ftso
