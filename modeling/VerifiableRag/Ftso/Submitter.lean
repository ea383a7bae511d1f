import VerifiableRag.Library.Bytes
import VerifiableRag.Library.Float64

/-!
The price submissions of the FTSO provider (`submitter.rs`): five-decimal prices,
their commit hashes and the calldata of both transactions.
-/
namespace Ftso
open Bytes Float64

def priceDecimals : Nat := 5
def priceScale : F64 := ofRat 100000

/-- The `Err` strings of this module. -/
inductive SubmitError where
  | notPositive (usd : F64)
  | overflow (usd : F64)
  | noFeeds
  deriving DecidableEq

/-- The text of an error; `display` is how Rust prints an `f64`. -/
def SubmitError.message (display : F64 → String) : SubmitError → String
  | notPositive usd => s!"price must be finite and positive, got {display usd}"
  | overflow usd => s!"price {display usd} overflows u64 at {priceDecimals} decimals"
  | noFeeds => "at least one feed is required"

def formatPrice (usd : F64) : Except SubmitError (BitVec 64) :=
  if !usd.isFinite || usd.le (ofRat 0) then .error (.notPositive usd)
  else
    let scaled := usd.mul priceScale
    if (ofRat (2 ^ 64 - 1)).lt scaled then .error (.overflow usd)
    else .ok scaled.roundToU64

/-- The buffer that `commit_hash` feeds to Keccak-256. -/
def commitPreimage (price : BitVec 64) (random : Block 32) (voter : Block 20) : List UInt8 :=
  encode 8 price.toNat ++ random.toList ++ List.replicate 12 0 ++ voter.toList

def pushU256 (out : List UInt8) (value : BitVec 64) : List UInt8 :=
  out ++ List.replicate 24 0 ++ encode 8 value.toNat

structure PriceSubmission where
  epochId : BitVec 64
  ftsoIndices : List (BitVec 64)
  prices : List (BitVec 64)
  random : Block 32
  hashes : List (Block 32)
  deriving DecidableEq

section Hashing
variable (keccak256 : List UInt8 → Block 32)

def commitHash (price : BitVec 64) (random : Block 32) (voter : Block 20) : Block 32 :=
  keccak256 (commitPreimage price random voter)

def selector (signature : String) : List UInt8 :=
  (keccak256 (utf8 signature)).toList.take 4

def submitHashCalldata (epochId : BitVec 64) (hash : Block 32) : List UInt8 :=
  pushU256 (selector keccak256 "submitHash(uint256,bytes32)") epochId ++ hash.toList

def revealPricesCalldata (epochId : BitVec 64) (ftsoIndices prices : List (BitVec 64))
    (random : Block 32) : List UInt8 :=
  let indicesOffset := 4 * 32
  let pricesOffset := indicesOffset + 32 + ftsoIndices.length * 32
  let head := pushU256 (selector keccak256 "revealPrices(uint256,uint256[],uint256[],uint256)")
    epochId
  let head := pushU256 head (BitVec.ofNat 64 indicesOffset)
  let head := pushU256 head (BitVec.ofNat 64 pricesOffset) ++ random.toList
  let indices := ftsoIndices.foldl pushU256 (pushU256 head (BitVec.ofNat 64 ftsoIndices.length))
  prices.foldl pushU256 (pushU256 indices (BitVec.ofNat 64 prices.length))

namespace PriceSubmission

/-- The loop body of `new`. -/
def pushFeed (voter : Block 20) (sub : PriceSubmission) (feed : BitVec 64 × F64) :
    Except SubmitError PriceSubmission := do
  let price ← formatPrice feed.2
  let hash := commitHash keccak256 price sub.random voter
  return { sub with
    ftsoIndices := sub.ftsoIndices ++ [feed.1]
    prices := sub.prices ++ [price]
    hashes := sub.hashes ++ [hash] }

def new (epochId : BitVec 64) (feeds : List (BitVec 64 × F64)) (random : Block 32)
    (voter : Block 20) : Except SubmitError PriceSubmission :=
  if feeds.isEmpty then .error .noFeeds
  else feeds.foldlM (pushFeed keccak256 voter) ⟨epochId, [], [], random, []⟩

def submitTxs (sub : PriceSubmission) : List (List UInt8) :=
  sub.hashes.map (submitHashCalldata keccak256 sub.epochId)

def revealTx (sub : PriceSubmission) : List UInt8 :=
  revealPricesCalldata keccak256 sub.epochId sub.ftsoIndices sub.prices sub.random

end PriceSubmission

end Hashing

end Ftso
