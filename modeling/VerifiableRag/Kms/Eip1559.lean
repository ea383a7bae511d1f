import VerifiableRag.Kms.MpcSigner
import VerifiableRag.Library.Rlp

/-!
The two EIP-1559 encoders of the signer, and how the standard reads a raw
transaction.
-/
namespace Kms
open Bytes Rlp

/-- A `Vec<u8>`: no allocation exceeds `isize::MAX` bytes. -/
abbrev Buffer := { bytes : List UInt8 // bytes.length < 2 ^ 63 }

/-- The destination `to` is always twenty bytes here. -/
structure Eip1559Tx where
  chainId : UInt64
  nonce : UInt64
  maxPriorityFeePerGas : BitVec 128
  maxFeePerGas : BitVec 128
  gasLimit : UInt64
  recipient : Block 20
  value : Block 32
  data : Buffer

/-- Machine integers are appended minimally, slices as byte strings. -/
def eip1559SigningPayload (tx : Eip1559Tx) : List UInt8 :=
  0x02 :: (Item.list [uint tx.chainId.toNat, uint tx.nonce.toNat,
    uint tx.maxPriorityFeePerGas.toNat, uint tx.maxFeePerGas.toNat, uint tx.gasLimit.toNat,
    .bytes tx.recipient.toList, .bytes tx.value.toList, .bytes tx.data.val,
    -- empty access list
    .list []]).encode

def eip1559SigningHash (keccak256 : List UInt8 → Word) (tx : Eip1559Tx) : Word :=
  keccak256 (eip1559SigningPayload tx)

def rawSignedTx (tx : Eip1559Tx) (sig : SignatureParts) : List UInt8 :=
  0x02 :: (Item.list [uint tx.chainId.toNat, uint tx.nonce.toNat,
    uint tx.maxPriorityFeePerGas.toNat, uint tx.maxFeePerGas.toNat, uint tx.gasLimit.toNat,
    .bytes tx.recipient.toList, .bytes tx.value.toList, .bytes tx.data.val, .list [],
    uint sig.yParity.toNat, .bytes sig.r.toList, .bytes sig.s.toList]).encode

/-! The standard's own view of a transaction. -/
namespace Standard

structure Fields where
  chainId : Nat
  nonce : Nat
  maxPriorityFeePerGas : Nat
  maxFeePerGas : Nat
  gasLimit : Nat
  recipient : List UInt8
  value : Nat
  data : List UInt8
  accessList : List (List UInt8 × List (List UInt8))

structure SignatureFields where
  yParity : Nat
  r : Nat
  s : Nat

/-- An integer of at most `width` bytes, without leading zero bytes. -/
def scalar (width : Nat) : Item → Option Nat
  | .bytes data =>
    if data.head? ≠ some 0 ∧ data.length ≤ width then some (decode data) else none
  | .list _ => none

def string (Fits : Nat → Bool) : Item → Option (List UInt8)
  | .bytes data => if Fits data.length then some data else none
  | .list _ => none

def storageKeys : Item → Option (List (List UInt8))
  | .list keys => keys.mapM (string (· == 32))
  | .bytes _ => none

def accessEntry : Item → Option (List UInt8 × List (List UInt8))
  | .list [address, keys] => do return (← string (· == 20) address, ← storageKeys keys)
  | _ => none

def accessEntries : Item → Option (List (List UInt8 × List (List UInt8)))
  | .list entries => entries.mapM accessEntry
  | .bytes _ => none

def readFields : List Item → Option (Fields × List Item)
  | chainId :: nonce :: tip :: fee :: gas :: recipient :: value :: data :: accessList :: rest => do
    let chainId ← scalar 32 chainId
    let nonce ← scalar 8 nonce
    let tip ← scalar 32 tip
    let fee ← scalar 32 fee
    let gas ← scalar 8 gas
    let recipient ← string (fun size => size == 0 || size == 20) recipient
    let value ← scalar 32 value
    let data ← string (fun _ => true) data
    let accessList ← accessEntries accessList
    return (⟨chainId, nonce, tip, fee, gas, recipient, value, data, accessList⟩, rest)
  | _ => none

def readSignature : List Item → Option SignatureFields
  | [yParity, r, s] => do
    return ⟨← scalar 1 yParity, ← scalar 32 r, ← scalar 32 s⟩
  | _ => none

def decodeRaw : List UInt8 → Option (Fields × SignatureFields)
  | 0x02 :: body =>
    match parse body with
    | some (.list items) => do
      let (fields, rest) ← readFields items
      return (fields, ← readSignature rest)
    | _ => none
  | _ => none

/-- `0x02` and canonical RLP whose items at the places `scalars` are integers. -/
def Canonical (scalars : List Nat) (raw : List UInt8) : Prop :=
  ∃ items, raw = 0x02 :: (Item.list items).encode ∧
    ∀ i ∈ scalars, ∃ data, items[i]? = some (.bytes data) ∧ data.head? ≠ some 0

end Standard
open Standard

def Eip1559Tx.fields (tx : Eip1559Tx) : Fields where
  chainId := tx.chainId.toNat
  nonce := tx.nonce.toNat
  maxPriorityFeePerGas := tx.maxPriorityFeePerGas.toNat
  maxFeePerGas := tx.maxFeePerGas.toNat
  gasLimit := tx.gasLimit.toNat
  recipient := tx.recipient.toList
  value := decode tx.value.toList
  data := tx.data.val
  accessList := []

def SignatureParts.fields (sig : SignatureParts) : SignatureFields :=
  ⟨sig.yParity.toNat, decode sig.r.toList, decode sig.s.toList⟩

/-- What a node and the signer expect of the two encodings of one transaction. -/
structure WellEncoded (tx : Eip1559Tx) (sig : SignatureParts) : Prop where
  payload : Canonical [0, 1, 2, 3, 4, 6] (eip1559SigningPayload tx)
  raw : Canonical [0, 1, 2, 3, 4, 6, 9, 10, 11] (rawSignedTx tx sig)
  decodes : decodeRaw (rawSignedTx tx sig) = some (tx.fields, sig.fields)
  signed : ∃ items signature, items.length = 9 ∧
    eip1559SigningPayload tx = 0x02 :: (Item.list items).encode ∧
    rawSignedTx tx sig = 0x02 :: (Item.list (items ++ signature)).encode

/-- The nine items both encoders begin with. -/
def Eip1559Tx.items (tx : Eip1559Tx) : List Item :=
  [uint tx.chainId.toNat, uint tx.nonce.toNat, uint tx.maxPriorityFeePerGas.toNat,
    uint tx.maxFeePerGas.toNat, uint tx.gasLimit.toNat, .bytes tx.recipient.toList,
    .bytes tx.value.toList, .bytes tx.data.val, .list []]

def SignatureParts.items (sig : SignatureParts) : List Item :=
  [uint sig.yParity.toNat, .bytes sig.r.toList, .bytes sig.s.toList]

theorem payload_items (tx : Eip1559Tx) :
    eip1559SigningPayload tx = 0x02 :: (Item.list tx.items).encode := rfl

theorem raw_items (tx : Eip1559Tx) (sig : SignatureParts) :
    rawSignedTx tx sig = 0x02 :: (Item.list (tx.items ++ sig.items)).encode := rfl

theorem block_encode_length_le {n : Nat} (b : Block n) (small : n ≤ 32) :
    (Item.bytes b.toList).encode.length ≤ 41 := by
  have width := b.toList_length
  have tagged : (Item.bytes b.toList).encode.length ≤ b.toList.length + 9 :=
    bytes_encode_length_le (by rw [width]; exact Nat.lt_of_le_of_lt small (by decide))
  omega

theorem items_size (tx : Eip1559Tx) : (encodeAll tx.items).length < 2 ^ 63 + 400 := by
  have chainId := uint_encode_length_le (k := 8) tx.chainId.toNat_lt (by omega)
  have nonce := uint_encode_length_le (k := 8) tx.nonce.toNat_lt (by omega)
  have tip := uint_encode_length_le (k := 16) tx.maxPriorityFeePerGas.isLt (by omega)
  have fee := uint_encode_length_le (k := 16) tx.maxFeePerGas.isLt (by omega)
  have gas := uint_encode_length_le (k := 8) tx.gasLimit.toNat_lt (by omega)
  have recipient := block_encode_length_le tx.recipient (by omega)
  have value := block_encode_length_le tx.value (by omega)
  have bound := tx.data.property
  have data : (Item.bytes tx.data.val).encode.length ≤ tx.data.val.length + 9 :=
    bytes_encode_length_le (by omega)
  have accessList : (Item.list []).encode.length = 1 := rfl
  simp only [Eip1559Tx.items, encodeAll, List.length_append, List.length_nil]
  omega

theorem signature_size (sig : SignatureParts) : (encodeAll sig.items).length < 200 := by
  have yParity := uint_encode_length_le (k := 1) sig.yParity.toNat_lt (by omega)
  have r := block_encode_length_le sig.r (by omega)
  have s := block_encode_length_le sig.s (by omega)
  simp only [SignatureParts.items, encodeAll, List.length_append, List.length_nil]
  omega

theorem list_encode_size {items : List Item} (small : (encodeAll items).length < 2 ^ 63 + 600) :
    (Item.list items).encode.length < 256 ^ 8 := by
  have tagged : (lengthPrefix 0xc0 (encodeAll items).length).length ≤ 9 :=
    lengthPrefix_length_le (by omega)
  rw [Item.encode, List.length_append]
  omega

theorem payload_size (tx : Eip1559Tx) : (Item.list tx.items).encode.length < 256 ^ 8 := by
  have := items_size tx
  exact list_encode_size (by omega)

theorem raw_size (tx : Eip1559Tx) (sig : SignatureParts) :
    (Item.list (tx.items ++ sig.items)).encode.length < 256 ^ 8 := by
  have fields := items_size tx
  have signature := signature_size sig
  refine list_encode_size ?_
  rw [encodeAll_append, List.length_append]
  omega

theorem head?_block {n : Nat} (b : Block (n + 1)) : b.toList.head? = some b.head := by
  obtain ⟨bytes, size⟩ := b
  cases bytes with
  | nil => cases size
  | cons x xs => rfl

namespace Standard

theorem scalar_uint {width n : Nat} (bound : n < 256 ^ width) : scalar width (uint n) = some n := by
  rw [uint, scalar, if_pos ⟨minimal_head n, minimal_length_le bound⟩, decode_minimal]

theorem scalar_block {b : Block 32} (full : b.head ≠ 0) :
    scalar 32 (.bytes b.toList) = some (decode b.toList) := by
  refine if_pos ⟨?_, b.toList_length.le⟩
  rw [head?_block]
  exact fun zero => full (Option.some.inj zero)

theorem string_block {n : Nat} (Fits : Nat → Bool) (b : Block n) (fits : Fits n = true) :
    string Fits (.bytes b.toList) = some b.toList := by
  rw [string, b.toList_length, if_pos fits]

theorem canonical_iff {scalars : List Nat} {items : List Item}
    (size : (Item.list items).encode.length < 256 ^ 8) :
    Canonical scalars (0x02 :: (Item.list items).encode) ↔
      ∀ i ∈ scalars, ∃ data, items[i]? = some (.bytes data) ∧ data.head? ≠ some 0 := by
  constructor
  · rintro ⟨written, same, minimal⟩
    have read := encode_injective size (List.cons.inj same).2
    injection read with read
    rw [read]
    exact minimal
  · intro minimal
    exact ⟨items, rfl, minimal⟩

theorem readFields_items {tx : Eip1559Tx} (full : tx.value.head ≠ 0) (rest : List Item) :
    readFields (tx.items ++ rest) = some (tx.fields, rest) := by
  have chainId : scalar 32 (uint tx.chainId.toNat) = some _ :=
    scalar_uint (tx.chainId.toNat_lt.trans (by decide))
  have nonce : scalar 8 (uint tx.nonce.toNat) = some _ := scalar_uint tx.nonce.toNat_lt
  have tip : scalar 32 (uint tx.maxPriorityFeePerGas.toNat) = some _ :=
    scalar_uint (tx.maxPriorityFeePerGas.isLt.trans (by decide))
  have fee : scalar 32 (uint tx.maxFeePerGas.toNat) = some _ :=
    scalar_uint (tx.maxFeePerGas.isLt.trans (by decide))
  have gas : scalar 8 (uint tx.gasLimit.toNat) = some _ := scalar_uint tx.gasLimit.toNat_lt
  have recipient := string_block (fun size => size == 0 || size == 20) tx.recipient rfl
  rw [Eip1559Tx.items]
  simp only [List.cons_append, List.nil_append, readFields, chainId, nonce, tip, fee, gas,
    recipient, scalar_block full, Option.bind_eq_bind, Option.bind_some]
  rfl

theorem readSignature_items {sig : SignatureParts} (r : sig.r.head ≠ 0) (s : sig.s.head ≠ 0) :
    readSignature sig.items = some sig.fields := by
  have yParity : scalar 1 (uint sig.yParity.toNat) = some _ := scalar_uint sig.yParity.toNat_lt
  simp only [SignatureParts.items, readSignature, yParity, scalar_block r, scalar_block s,
    Option.bind_eq_bind, Option.bind_some]
  rfl

end Standard

theorem payload_canonical_iff (tx : Eip1559Tx) :
    Canonical [0, 1, 2, 3, 4, 6] (eip1559SigningPayload tx) ↔ tx.value.head ≠ 0 := by
  rw [payload_items, canonical_iff (payload_size tx)]
  simp [Eip1559Tx.items, uint, minimal_head, head?_block]

theorem raw_canonical_iff (tx : Eip1559Tx) (sig : SignatureParts) :
    Canonical [0, 1, 2, 3, 4, 6, 9, 10, 11] (rawSignedTx tx sig) ↔
      tx.value.head ≠ 0 ∧ sig.r.head ≠ 0 ∧ sig.s.head ≠ 0 := by
  rw [raw_items, canonical_iff (raw_size tx sig)]
  simp [Eip1559Tx.items, SignatureParts.items, uint, minimal_head, head?_block]

theorem decodeRaw_rawSignedTx {tx : Eip1559Tx} {sig : SignatureParts} (value : tx.value.head ≠ 0)
    (r : sig.r.head ≠ 0) (s : sig.s.head ≠ 0) :
    decodeRaw (rawSignedTx tx sig) = some (tx.fields, sig.fields) := by
  rw [raw_items, decodeRaw, parse_encode _ (raw_size tx sig)]
  simp only [readFields_items value, readSignature_items r s, Option.bind_eq_bind,
    Option.bind_some]
  rfl

/-- The encodings are canonical, and read back, exactly when no 32-byte integer has a
leading zero byte. -/
theorem encoding_canonical_iff (tx : Eip1559Tx) (sig : SignatureParts) :
    WellEncoded tx sig ↔ tx.value.head ≠ 0 ∧ sig.r.head ≠ 0 ∧ sig.s.head ≠ 0 := by
  constructor
  · intro encoded
    exact (raw_canonical_iff tx sig).mp encoded.raw
  · intro full
    obtain ⟨value, r, s⟩ := full
    exact {
      payload := (payload_canonical_iff tx).mpr value
      raw := (raw_canonical_iff tx sig).mpr ⟨value, r, s⟩
      decodes := decodeRaw_rawSignedTx value r s
      signed := ⟨tx.items, sig.items, rfl, rfl, rfl⟩ }

def oneWei : Eip1559Tx where
  chainId := 114
  nonce := 0
  maxPriorityFeePerGas := 0
  maxFeePerGas := 25000000000
  gasLimit := 21000
  recipient := List.Vector.replicate 20 0x11
  value := ⟨encode 32 1, encode_length 32 1⟩
  data := ⟨[], by decide⟩

theorem encoding_not_canonical :
    ¬ WellEncoded oneWei ⟨List.Vector.replicate 32 1, List.Vector.replicate 32 1, 0⟩ := by
  intro encoded
  have full := (raw_canonical_iff _ _).mp encoded.raw
  exact full.1 rfl

end Kms
