import VerifiableRag.Kms.TwoParty

/-!
The raw transactions of the wallet as a node reads them: the fields, and the key of the sender,
recovered over the fields encoded again.
-/
namespace Kms
open Bytes Rlp Ecdsa Standard

namespace Standard

def accessItem (entry : List UInt8 × List (List UInt8)) : Item :=
  .list [.bytes entry.1, .list (entry.2.map .bytes)]

/-- What the sender of these fields has signed. -/
def Fields.payload (fields : Fields) : List UInt8 :=
  0x02 :: (Item.list [uint fields.chainId, uint fields.nonce, uint fields.maxPriorityFeePerGas,
    uint fields.maxFeePerGas, uint fields.gasLimit, .bytes fields.recipient, uint fields.value,
    .bytes fields.data, .list (fields.accessList.map accessItem)]).encode

/-- Both parts in range, and `s` in the low half. -/
def SignatureFields.scalars (sig : SignatureFields) : Option (Signature order) :=
  if sig.yParity ≤ 1 ∧ (0 < sig.r ∧ sig.r < order) ∧ 0 < sig.s ∧ sig.s ≤ order / 2 then
    some ⟨sig.r, sig.s, sig.yParity = 1, false⟩
  else none

end Standard

section Integers

/-- A 32-byte integer whose first byte counts. -/
def Full (b : Block 32) : Prop := 256 ^ 31 ≤ decode b.toList

theorem full_iff {b : Block 32} : Full b ↔ b.head ≠ 0 := by
  obtain ⟨bytes, size⟩ := b
  cases bytes with
  | nil => cases size
  | cons first rest =>
    have length : rest.length = 31 := Nat.succ.inj size
    have below := decode_lt rest
    rw [length] at below
    have value : decode (first :: rest) = first.toNat * 256 ^ 31 + decode rest := by
      rw [← List.singleton_append, decode_append, length]
      simp [decode]
    have given : first ≠ 0 ↔ 0 < first.toNat := by
      rw [Nat.pos_iff_ne_zero, ne_eq, ne_eq, ← UInt8.toNat_inj]
      rfl
    change 256 ^ 31 ≤ decode (first :: rest) ↔ first ≠ 0
    rw [value, given]
    omega

theorem uint_full {b : Block 32} (full : Full b) : uint (decode b.toList) = .bytes b.toList := by
  rw [uint, minimal_decode]
  rw [head?_block]
  exact fun zero => full_iff.mp full (Option.some.inj zero)

theorem scalar_iff {b : Block 32} {n : Nat} :
    scalar 32 (.bytes b.toList) = some n ↔ Full b ∧ decode b.toList = n := by
  by_cases full : Full b
  · rw [scalar_block (full_iff.mp full), Option.some.injEq, and_iff_right full]
  · have zero : b.head = 0 := by
      by_contra head
      exact full (full_iff.mpr head)
    refine iff_of_false ?_ (fun both => full both.1)
    rw [scalar, head?_block, zero, if_neg (by simp)]
    exact Option.some_ne_none n ∘ Eq.symm

end Integers

section Reading
variable {tx : Eip1559Tx} {sig : SignatureParts} {fields : Fields} {parts : SignatureFields}

theorem readFields_value {rest : List Item}
    (read : readFields (tx.items ++ rest) = some (fields, rest)) :
    Full tx.value := by
  simp only [Eip1559Tx.items, List.cons_append, List.nil_append, readFields, Option.bind_eq_bind,
    Option.bind_eq_some_iff] at read
  obtain ⟨_, _, _, _, _, _, _, _, _, _, _, _, _, value, _⟩ := read
  exact (scalar_iff.mp value).1

theorem readSignature_parts (read : readSignature sig.items = some parts) :
    Full sig.r ∧ Full sig.s := by
  simp only [SignatureParts.items, readSignature, Option.bind_eq_bind,
    Option.bind_eq_some_iff] at read
  obtain ⟨_, _, _, r, _, s, _⟩ := read
  exact ⟨(scalar_iff.mp r).1, (scalar_iff.mp s).1⟩

/-- A raw transaction is read exactly when its three 32-byte integers are full, and then as signed. -/
theorem decodeRaw_iff : decodeRaw (rawSignedTx tx sig) = some (fields, parts) ↔
    (Full tx.value ∧ Full sig.r ∧ Full sig.s) ∧ fields = tx.fields ∧ parts = sig.fields := by
  constructor
  · intro read
    have whole := read
    rw [raw_items, decodeRaw, parse_encode _ (raw_size tx sig)] at read
    simp only [Option.bind_eq_bind, Option.bind_eq_some_iff] at read
    obtain ⟨⟨fields', rest⟩, first, parts', second, _⟩ := read
    have items : rest = sig.items := by
      simp only [Eip1559Tx.items, List.cons_append, List.nil_append, readFields, Option.bind_eq_bind,
        Option.bind_eq_some_iff] at first
      obtain ⟨_, _, _, _, _, _, _, _, _, _, _, _, _, _, _, _, _, _, same⟩ := first
      exact (Prod.mk.inj (Option.some.inj same)).2.symm
    rw [items] at first second
    have value := readFields_value first
    obtain ⟨r, s⟩ := readSignature_parts second
    rw [decodeRaw_rawSignedTx (full_iff.mp value) (full_iff.mp r) (full_iff.mp s)] at whole
    cases whole
    exact ⟨⟨value, r, s⟩, rfl, rfl⟩
  · rintro ⟨⟨value, r, s⟩, rfl, rfl⟩
    exact decodeRaw_rawSignedTx (full_iff.mp value) (full_iff.mp r) (full_iff.mp s)

theorem payload_fields (value : Full tx.value) : tx.fields.payload = eip1559SigningPayload tx := by
  rw [Fields.payload, payload_items, Eip1559Tx.items, Eip1559Tx.fields]
  simp only [uint_full value, List.map_nil]

end Reading

namespace Secp256k1
variable {Point : Type} [AddCommGroup Point] [Module Scalar Point] [DecidableEq Point]
  (curve : Secp256k1 Point) (keccak256 : List UInt8 → Word)

/-- A transaction and the key of its sender. -/
def readTransaction (raw : List UInt8) : Option (Fields × Point) := do
  let (fields, sig) ← decodeRaw raw
  let scalars ← sig.scalars
  let key ← curve.recover (keccak256 fields.payload).toNat scalars
  return (fields, key)

variable {curve keccak256}

theorem scalars_parts {sig : Signature order} (r : sig.r ≠ 0) (s : sig.s ≠ 0)
    (low : normalizeS sig.s = none) : (parts sig).fields.scalars = some sig.unreduced := by
  have r_pos := Nat.pos_of_ne_zero ((ZMod.val_ne_zero sig.r).mpr r)
  have s_pos := Nat.pos_of_ne_zero ((ZMod.val_ne_zero sig.s).mpr s)
  have half : sig.s.val ≤ order / 2 := by
    by_contra high
    rw [normalizeS, if_pos (Nat.lt_of_not_le high)] at low
    cases low
  have fields : (parts sig).fields = ⟨if sig.yOdd then 1 else 0, sig.r.val, sig.s.val⟩ := by
    rw [SignatureParts.fields, parts, decode_scalarBytes, decode_scalarBytes]
    cases sig.yOdd <;> rfl
  rw [fields, SignatureFields.scalars]
  have parity : (if sig.yOdd then 1 else 0) ≤ 1 := by
    cases sig.yOdd <;> decide
  have odd : decide ((if sig.yOdd then 1 else 0) = 1) = sig.yOdd := by
    cases sig.yOdd <;> rfl
  rw [if_pos ⟨parity, ⟨r_pos, ZMod.val_lt sig.r⟩, s_pos, half⟩, odd, ZMod.natCast_val,
    ZMod.natCast_val, ZMod.cast_id, ZMod.cast_id]
  rfl

/-- What a node makes of a transaction that a key has signed. -/
theorem readTransaction_signed {d : Scalar} (key : d ≠ 0) {tx : Eip1559Tx} {fields : Fields}
    {q : Point} :
    curve.readTransaction keccak256
        (rawSignedTx tx (parts (curve.signature d (eip1559SigningHash keccak256 tx)))) = some (fields, q) ↔
      (Full tx.value ∧ Full (parts (curve.signature d (eip1559SigningHash keccak256 tx))).r ∧
          Full (parts (curve.signature d (eip1559SigningHash keccak256 tx))).s) ∧
        fields = tx.fields ∧
        curve.recover (eip1559SigningHash keccak256 tx).toNat
          (curve.signature d (eip1559SigningHash keccak256 tx)).unreduced = some q := by
  obtain ⟨r, s⟩ := curve.signature_nonzero key (eip1559SigningHash keccak256 tx)
  have low := curve.signature_low key (eip1559SigningHash keccak256 tx)
  generalize curve.signature d (eip1559SigningHash keccak256 tx) = sig at r s low ⊢
  simp only [readTransaction, Option.bind_eq_bind, Option.bind_eq_some_iff, Prod.exists]
  constructor
  · rintro ⟨fields', sig', decoded, scalars, ranged, q', recovered, same⟩
    obtain ⟨full, rfl, rfl⟩ := decodeRaw_iff.mp decoded
    rw [scalars_parts r s low] at ranged
    cases ranged
    rw [payload_fields full.1] at recovered
    cases same
    exact ⟨full, rfl, recovered⟩
  · rintro ⟨full, rfl, recovered⟩
    refine ⟨_, _, decodeRaw_iff.mpr ⟨full, rfl, rfl⟩, _, scalars_parts r s low, q, ?_, rfl⟩
    rw [payload_fields full.1]
    exact recovered

/-- A node takes a signed transaction for one of the signing key exactly when its integers are full
    and the nonce point needed no reduction. -/
theorem readTransaction_key {d : Scalar} (key : d ≠ 0) {tx : Eip1559Tx} :
    curve.readTransaction keccak256
        (rawSignedTx tx (parts (curve.signature d (eip1559SigningHash keccak256 tx)))) =
          some (tx.fields, d • curve.generator) ↔
      (Full tx.value ∧ Full (parts (curve.signature d (eip1559SigningHash keccak256 tx))).r ∧
          Full (parts (curve.signature d (eip1559SigningHash keccak256 tx))).s) ∧
        curve.SmallNonce d (eip1559SigningHash keccak256 tx) := by
  rw [readTransaction_signed key, and_iff_right rfl]
  have small :=
    Curve.recover_unreduced_iff (curve.suitable d (eip1559SigningHash keccak256 tx) key) key
  exact and_congr_right fun _ => small

end Secp256k1

end Kms
