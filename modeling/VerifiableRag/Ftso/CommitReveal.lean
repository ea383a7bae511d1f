import VerifiableRag.Ftso.Submitter
import VerifiableRag.Library.Abi

/-!
What a provider commits to against what a reveal discloses. The committed buffer
carries the price in eight bytes, the ABI encoding of the triple in a full word.
-/
namespace Ftso
open Bytes Float64

/-- `abi.encode(uint256 price, uint256 random, address voter)` -/
def priceEncoding (price : BitVec 64) (random : Block 32) (voter : Block 20) : List UInt8 :=
  Abi.abiEncode [.static [BitVec.ofNat 256 price.toNat], .static [Word.ofBytes random.toList],
    .static [Word.ofBytes voter.toList]]

def Collision (hash : List UInt8 → Block 32) (x y : List UInt8) : Prop := x ≠ y ∧ hash x = hash y

theorem commitPreimage_length (price : BitVec 64) (random : Block 32) (voter : Block 20) :
    (commitPreimage price random voter).length = 72 := by
  simp [commitPreimage]

theorem priceEncoding_length (price : BitVec 64) (random : Block 32) (voter : Block 20) :
    (priceEncoding price random voter).length = 96 := by
  simp [priceEncoding, Abi.abiEncode_length, Abi.Arg.headSize, Abi.Arg.tail]

theorem commitPreimage_ne (price : BitVec 64) (random : Block 32) (voter : Block 20) :
    commitPreimage price random voter ≠ priceEncoding price random voter := by
  intro same
  have sizes := congrArg List.length same
  rw [commitPreimage_length, priceEncoding_length] at sizes
  omega

theorem pushU256_eq (out : List UInt8) (value : BitVec 64) :
    pushU256 out value = out ++ Abi.uint value.toNat := by
  have high : encode 24 (value.toNat / 256 ^ 8) = List.replicate 24 0 := by
    have := value.isLt
    rw [Nat.div_eq_of_lt (by omega)]
    decide
  rw [pushU256, Abi.uint, encode_append 24 8, high, List.append_assoc]

theorem foldl_pushU256 (values : List (BitVec 64)) (out : List UInt8) :
    values.foldl pushU256 out = out ++ values.flatMap fun v => Abi.uint v.toNat := by
  induction values generalizing out with
  | nil => simp
  | cons v values ih => simp [ih, pushU256_eq]

theorem values_length (values : List (BitVec 64)) :
    (values.flatMap fun v => Abi.uint v.toNat).length = 32 * values.length := by
  simp [List.length_flatMap, Abi.uint_length, Nat.mul_comm]

theorem selector_length (keccak256 : List UInt8 → Block 32) (signature : String) :
    (selector keccak256 signature).length = 4 := by
  rw [selector, List.length_take, List.Vector.toList_length]
  rfl

theorem hasAt_words {values : List (BitVec 64)} {i : Nat} {v : BitVec 64}
    (found : values[i]? = some v) :
    HasAt (values.flatMap fun v => Abi.uint v.toNat) (32 * i) (Abi.uint v.toNat) := by
  induction values generalizing i with
  | nil => simp at found
  | cons w values ih =>
    cases i with
    | zero =>
      cases found
      exact hasAt_here _ _
    | succ i =>
      have tail := hasAt_skip (encode_length 32 w.toNat) (ih (by simpa using found))
      rwa [Nat.add_comm, ← Nat.mul_succ] at tail

namespace PriceSubmission
variable {keccak256 : List UInt8 → Block 32}

/-- What `new` builds up: aligned indices, prices and commit hashes. -/
structure Aligned (keccak256 : List UInt8 → Block 32) (random : Block 32) (voter : Block 20)
    (done : List (BitVec 64 × F64)) (sub : PriceSubmission) : Prop where
  kept : sub.random = random
  indices : sub.ftsoIndices = done.map Prod.fst
  size : sub.prices.length = done.length
  hashes : sub.hashes = sub.prices.map fun price => commitHash keccak256 price random voter

theorem pushFeed_aligned {random : Block 32} {voter : Block 20} {done : List (BitVec 64 × F64)}
    {feed : BitVec 64 × F64} {sub sub' : PriceSubmission}
    (aligned : Aligned keccak256 random voter done sub)
    (pushed : pushFeed keccak256 voter sub feed = .ok sub') :
    Aligned keccak256 random voter (done ++ [feed]) sub' := by
  unfold pushFeed at pushed
  cases formatted : formatPrice feed.2 with
  | error e => simp [formatted, bind, Except.bind] at pushed
  | ok price =>
    simp only [formatted, bind, Except.bind, pure, Except.pure, Except.ok.injEq] at pushed
    subst pushed
    constructor
    · exact aligned.kept
    · simp [aligned.indices]
    · simp [aligned.size]
    · simp [aligned.hashes, aligned.kept]

theorem foldlM_aligned {random : Block 32} {voter : Block 20} (feeds : List (BitVec 64 × F64))
    {done : List (BitVec 64 × F64)} {sub sub' : PriceSubmission}
    (aligned : Aligned keccak256 random voter done sub)
    (built : feeds.foldlM (pushFeed keccak256 voter) sub = .ok sub') :
    Aligned keccak256 random voter (done ++ feeds) sub' := by
  induction feeds generalizing done sub with
  | nil =>
    cases built
    simpa using aligned
  | cons feed feeds ih =>
    rw [List.foldlM_cons] at built
    cases pushed : pushFeed keccak256 voter sub feed with
    | error e => simp [pushed, bind, Except.bind] at built
    | ok next =>
      simp only [pushed, bind, Except.bind] at built
      simpa using ih (pushFeed_aligned aligned pushed) built

theorem new_aligned {epochId : BitVec 64} {feeds : List (BitVec 64 × F64)} {random : Block 32}
    {voter : Block 20} {sub : PriceSubmission}
    (built : new keccak256 epochId feeds random voter = .ok sub) :
    Aligned keccak256 random voter feeds sub := by
  unfold new at built
  split at built
  · cases built
  · have start : Aligned keccak256 random voter [] ⟨epochId, [], [], random, []⟩ :=
      ⟨rfl, rfl, rfl, rfl⟩
    exact foldlM_aligned feeds start built

theorem submitHashCalldata_hash (epochId : BitVec 64) (hash : Block 32) :
    HasAt (submitHashCalldata keccak256 epochId hash) 36 hash.toList := by
  refine ⟨[], ?_⟩
  have size : (pushU256 (selector keccak256 "submitHash(uint256,bytes32)") epochId).length = 36 := by
    simp [pushU256, selector]
  rw [submitHashCalldata, List.drop_left' size, List.append_nil]

theorem revealTx_shows (sub : PriceSubmission) :
    HasAt (sub.revealTx keccak256) 100 sub.random.toList ∧
    ∀ i price, sub.prices[i]? = some price →
      HasAt (sub.revealTx keccak256) (196 + 32 * (sub.ftsoIndices.length + i))
        (Abi.uint price.toNat) := by
  have width := Abi.uint_length
  have sel := selector_length keccak256
  simp only [revealTx, revealPricesCalldata, pushU256_eq, foldl_pushU256, List.append_assoc]
  constructor
  · exact hasAt_skip (sel _) (hasAt_skip (width _) (hasAt_skip (width _) (hasAt_skip (width _)
      (hasAt_here _ _))))
  · intro i price found
    have offset : 196 + 32 * (sub.ftsoIndices.length + i) = 4 + (32 + (32 + (32 + (32 + (32 +
        (32 * sub.ftsoIndices.length + (32 + 32 * i))))))) := by omega
    rw [offset]
    exact hasAt_skip (sel _) <| hasAt_skip (width _) <| hasAt_skip (width _) <|
      hasAt_skip (width _) <| hasAt_skip sub.random.toList_length <| hasAt_skip (width _) <|
      hasAt_skip (values_length _) <| hasAt_skip (width _) (hasAt_words found)

/-- Commit and reveal never agree: the committed buffer is not the encoding of the
    triple, and the hash recomputed from a reveal is the committed one only where
    Keccak-256 collides on these two buffers. -/
theorem commit_reveal_disagree (keccak256 : List UInt8 → Block 32) :
    (∀ price random voter, (commitPreimage price random voter).length = 72 ∧
      (priceEncoding price random voter).length = 96 ∧
      commitPreimage price random voter ≠ priceEncoding price random voter) ∧
    (∀ epochId feeds random voter sub, new keccak256 epochId feeds random voter = .ok sub →
      sub.prices.length = feeds.length ∧ HasAt (sub.revealTx keccak256) 100 random.toList ∧
      ∀ i price, sub.prices[i]? = some price →
        HasAt (sub.revealTx keccak256) (196 + 32 * (feeds.length + i)) (Abi.uint price.toNat) ∧
        ∃ hash commit, sub.hashes[i]? = some hash ∧
          (sub.submitTxs keccak256)[i]? = some commit ∧ HasAt commit 36 hash.toList ∧
          (keccak256 (priceEncoding price random voter) = hash ↔
            Collision keccak256 (priceEncoding price random voter)
              (commitPreimage price random voter))) := by
  refine ⟨?_, ?_⟩
  · intro price random voter
    exact ⟨commitPreimage_length .., priceEncoding_length ..,
      commitPreimage_ne price random voter⟩
  · intro epochId feeds random voter sub built
    have aligned := new_aligned built
    obtain ⟨seed, prices⟩ := revealTx_shows sub
    have count : sub.ftsoIndices.length = feeds.length := by simp [aligned.indices]
    rw [aligned.kept] at seed
    rw [count] at prices
    refine ⟨aligned.size, seed, ?_⟩
    intro i price found
    refine ⟨prices i price found, commitHash keccak256 price random voter,
      submitHashCalldata keccak256 sub.epochId _, ?_, ?_, submitHashCalldata_hash sub.epochId _, ?_⟩
    · simp [aligned.hashes, found]
    · simp [submitTxs, aligned.hashes, found]
    · exact ⟨fun same => ⟨(commitPreimage_ne price random voter).symm, same⟩, fun collision => collision.2⟩

section TestVector

def testRandom : Block 32 := List.Vector.replicate 32 7
def testVoter : Block 20 := List.Vector.replicate 20 0xAA

def testKeccak (bytes : List UInt8) : Block 32 :=
  let digest : Nat :=
    if bytes = commitPreimage 58432 testRandom testVoter then
      0xa8b3cfd7db8a4076649eb6fb1c879a917d2860d047ad507870b9c41fb8731e6f
    else if bytes = priceEncoding 58432 testRandom testVoter then
      0x6a73c34e1c2cde5e0fa1dbeee33f4135efe15bda6dccaba19bb2dd897094f664
    else 0
  ⟨encode 32 digest, encode_length 32 digest⟩

def testFeeds : List (BitVec 64 × F64) := [(0, ofRat (584321 / 1000000))]

def testSubmission : PriceSubmission :=
  ⟨1, [0], [58432], testRandom, [testKeccak (commitPreimage 58432 testRandom testVoter)]⟩

theorem testSubmission_built :
    new testKeccak 1 testFeeds testRandom testVoter = .ok testSubmission := by decide +kernel

theorem commit_reveal_disagree_fails :
    commitPreimage 58432 testRandom testVoter ≠ priceEncoding 58432 testRandom testVoter ∧
    new testKeccak 1 testFeeds testRandom testVoter = .ok testSubmission ∧
    testSubmission.hashes[0]? ≠ some (testKeccak (priceEncoding 58432 testRandom testVoter)) := by
  refine ⟨by decide +kernel, testSubmission_built, by decide +kernel⟩

theorem commit_reveal_disagree_test :
    ∃ hash commit, testSubmission.hashes[0]? = some hash ∧
      (testSubmission.submitTxs testKeccak)[0]? = some commit ∧ HasAt commit 36 hash.toList := by
  obtain ⟨_, _, feeds⟩ := (commit_reveal_disagree testKeccak).2 1 testFeeds testRandom testVoter
    testSubmission testSubmission_built
  obtain ⟨_, hash, commit, at_hash, at_commit, shows, _⟩ := feeds 0 58432 rfl
  exact ⟨hash, commit, at_hash, at_commit, shows⟩

end TestVector

end PriceSubmission

end Ftso
