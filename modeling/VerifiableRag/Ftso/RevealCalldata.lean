import VerifiableRag.Ftso.CommitReveal
import VerifiableRag.Library.AbiDecoding

/-!
The calldata of a reveal read by the standard ABI rules. Both offsets are computed by hand from
the length of the first array; they are right for every pair of lengths.
-/
namespace Ftso
open Bytes Abi

/-- `isize::MAX`: no `Vec` grows past it, so no calldata that is returned is longer. -/
def isizeMax : Nat := 2 ^ 63 - 1

def uint256 (value : BitVec 64) : Word := value.setWidth 256

/-- The parameter types in the signature of `revealPrices`. -/
def revealKinds : List Kind := [.static 1, .array, .array, .static 1]

def revealArgs (epochId : BitVec 64) (ftsoIndices prices : List (BitVec 64))
    (random : Block 32) : List Arg :=
  [.static [uint256 epochId], .array (ftsoIndices.map uint256), .array (prices.map uint256),
    .static [Word.ofBytes random.toList]]

section Layout
variable {keccak256 : List UInt8 → Block 32} {epochId : BitVec 64}
variable {ftsoIndices prices : List (BitVec 64)} {random : Block 32}

theorem uint256_bytes (value : BitVec 64) : (uint256 value).bytes = uint value.toNat := by
  have small := value.isLt
  rw [uint256, Word.bytes, BitVec.toNat_setWidth, Nat.mod_eq_of_lt (by omega), uint]

theorem uint256_words (values : List (BitVec 64)) :
    (values.map uint256).flatMap Word.bytes = values.flatMap fun v => uint v.toNat := by
  induction values with
  | nil => rfl
  | cons v values ih => rw [List.map_cons, List.flatMap_cons, List.flatMap_cons, ih, uint256_bytes]

theorem revealPricesCalldata_length :
    (revealPricesCalldata keccak256 epochId ftsoIndices prices random).length =
      4 + (128 + (32 + 32 * ftsoIndices.length) + (32 + 32 * prices.length)) := by
  simp only [revealPricesCalldata, foldl_pushU256, pushU256_eq, List.length_append, selector_length,
    uint_length, values_length, List.Vector.toList_length]
  omega

theorem array_tail_length (values : List (BitVec 64)) :
    (Arg.array (values.map uint256)).tail.length = 32 + 32 * values.length := by
  rw [Arg.tail, List.length_append, uint_length, words_length, List.length_map]

theorem revealArgs_encoding : abiEncode (revealArgs epochId ftsoIndices prices random) =
    uint epochId.toNat ++ (uint 128 ++ (uint (128 + (32 + 32 * ftsoIndices.length)) ++
      (random.toList ++ ((Arg.array (ftsoIndices.map uint256)).tail ++
        (Arg.array (prices.map uint256)).tail)))) := by
  have seed : Word.bytes (Word.ofBytes random.toList) = random.toList :=
    Word.bytes_ofBytes random.toList_length
  simp only [abiEncode, revealArgs, heads, Arg.head, List.map_cons, List.map_nil, List.sum_cons,
    List.sum_nil, Arg.headSize, Arg.static_tail, array_tail_length, List.flatMap_cons,
    List.flatMap_nil, List.append_nil, List.nil_append, List.append_assoc, uint256_bytes, seed,
    List.length_cons, List.length_nil]
  rfl

/-- What the two arrays show stands behind the four head words. -/
theorem hasAt_tails {start : Nat} {part : List UInt8}
    (held : HasAt ((Arg.array (ftsoIndices.map uint256)).tail ++
      (Arg.array (prices.map uint256)).tail) start part) :
    HasAt (abiEncode (revealArgs epochId ftsoIndices prices random)) (128 + start) part := by
  have skipped := hasAt_skip (uint_length epochId.toNat) (hasAt_skip (uint_length 128)
    (hasAt_skip (uint_length (128 + (32 + 32 * ftsoIndices.length)))
      (hasAt_skip random.toList_length held)))
  rw [revealArgs_encoding, show 128 + start = 32 + (32 + (32 + (32 + start))) by omega]
  exact skipped

theorem array_counted (values : List (BitVec 64)) (rest : List UInt8) :
    HasAt ((Arg.array (values.map uint256)).tail ++ rest) 0 (uint values.length) := by
  have counted := hasAt_left (hasAt_here (Arg.array (values.map uint256)).tail rest)
  rw [List.length_map] at counted
  exact counted

/-- While the calldata fits a `Vec`, no offset or length is cut to 64 bits. -/
theorem revealPricesCalldata_eq
    (fits : (revealPricesCalldata keccak256 epochId ftsoIndices prices random).length ≤ isizeMax) :
    revealPricesCalldata keccak256 epochId ftsoIndices prices random =
      selector keccak256 "revealPrices(uint256,uint256[],uint256[],uint256)" ++
        abiEncode (revealArgs epochId ftsoIndices prices random) := by
  rw [revealPricesCalldata_length, isizeMax] at fits
  have whole : ∀ n, n < 2 ^ 64 → (BitVec.ofNat 64 n).toNat = n := by
    intro n small
    rw [BitVec.toNat_ofNat, Nat.mod_eq_of_lt small]
  have offset : 4 * 32 + 32 + ftsoIndices.length * 32 = 128 + (32 + 32 * ftsoIndices.length) := by
    omega
  have indices := whole ftsoIndices.length (by omega)
  have feeds := whole prices.length (by omega)
  have first := whole (4 * 32) (by decide)
  have second := whole (128 + (32 + 32 * ftsoIndices.length)) (by omega)
  simp only [revealPricesCalldata, foldl_pushU256, pushU256_eq, offset, indices, feeds, first,
    second, revealArgs_encoding, Arg.tail, uint256_words, List.length_map, List.append_assoc]

end Layout

/-- A reveal is standard ABI: behind the selector stand the four arguments at their types, both
    offsets point at the length of their array, and the arrays fill the calldata to its end. -/
theorem reveal_prices_decodes (keccak256 : List UInt8 → Block 32) (epochId : BitVec 64)
    (ftsoIndices prices : List (BitVec 64)) (random : Block 32)
    (fits : (revealPricesCalldata keccak256 epochId ftsoIndices prices random).length ≤ isizeMax) :
    ∃ data, revealPricesCalldata keccak256 epochId ftsoIndices prices random =
        selector keccak256 "revealPrices(uint256,uint256[],uint256[],uint256)" ++ data ∧
      data = abiEncode (revealArgs epochId ftsoIndices prices random) ∧
      decodeArgs revealKinds data = some (revealArgs epochId ftsoIndices prices random) ∧
      ∃ indicesAt pricesAt, readWord data 32 = some indicesAt ∧ readWord data 64 = some pricesAt ∧
        readWord data indicesAt = some ftsoIndices.length ∧
        readWord data pricesAt = some prices.length ∧
        indicesAt = 128 ∧ indicesAt + (32 + 32 * ftsoIndices.length) = pricesAt ∧
        pricesAt + (32 + 32 * prices.length) = data.length := by
  have whole := revealPricesCalldata_eq fits
  have total := congrArg List.length whole
  rw [revealPricesCalldata_length, List.length_append, selector_length] at total
  rw [revealPricesCalldata_length, isizeMax] at fits
  have size : (abiEncode (revealArgs epochId ftsoIndices prices random)).length < 2 ^ 256 := by
    omega
  refine ⟨_, whole, rfl, ?decoded, 128, 128 + (32 + 32 * ftsoIndices.length), ?indicesAt,
    ?pricesAt, ?indices, ?prices, rfl, rfl, by omega⟩
  case decoded =>
    have decoded := decodeArgs_abiEncode (revealArgs epochId ftsoIndices prices random) size
    exact decoded
  case indicesAt =>
    apply readWord_uint _ (by decide)
    rw [revealArgs_encoding]
    exact hasAt_skip (uint_length epochId.toNat) (hasAt_here _ _)
  case pricesAt =>
    apply readWord_uint _ (by omega)
    rw [revealArgs_encoding]
    exact hasAt_skip (uint_length epochId.toNat) (hasAt_skip (uint_length 128) (hasAt_here _ _))
  case indices =>
    apply readWord_uint _ (by omega)
    exact hasAt_tails (array_counted ftsoIndices _)
  case prices =>
    apply readWord_uint _ (by omega)
    have counted := array_counted prices []
    rw [List.append_nil] at counted
    have behind := hasAt_skip (array_tail_length ftsoIndices) counted
    exact hasAt_tails behind

section Sample

def sampleKeccak (bytes : List UInt8) : Block 32 :=
  let digest : Nat :=
    if bytes = utf8 "revealPrices(uint256,uint256[],uint256[],uint256)" then
      0xe2db5a52da349dfcb7be57bb56b7ef046e5cf21ba3d4d0629b538f5ef81721ed
    else 0
  ⟨encode 32 digest, encode_length 32 digest⟩

/-- Two indices and no price. -/
theorem reveal_prices_decodes_uneven :
    (revealPricesCalldata sampleKeccak 9 [1, 2] [] (List.Vector.replicate 32 0x11)).length
      ≤ isizeMax ∧
    decodeArgs revealKinds
        ((revealPricesCalldata sampleKeccak 9 [1, 2] [] (List.Vector.replicate 32 0x11)).drop 4) =
      some (revealArgs 9 [1, 2] [] (List.Vector.replicate 32 0x11)) := by
  have fits : (revealPricesCalldata sampleKeccak 9 [1, 2] []
      (List.Vector.replicate 32 0x11)).length ≤ isizeMax := by
    rw [revealPricesCalldata_length]
    decide
  refine ⟨fits, ?_⟩
  obtain ⟨data, whole, _, decoded, _⟩ := reveal_prices_decodes sampleKeccak 9 [1, 2] []
    (List.Vector.replicate 32 0x11) fits
  rw [whole, List.drop_left' (selector_length _ _)]
  exact decoded

end Sample

end Ftso
