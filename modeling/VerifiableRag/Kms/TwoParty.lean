import Mathlib.Tactic.LinearCombination
import VerifiableRag.Kms.Eip1559
import VerifiableRag.Kms.GroupOrder
import VerifiableRag.Library.Ecdsa

/-!
Signing with two shares (`mpc_signer.rs`): the signature is that of the whole key, for
which the composed public key and address stand. The curve and the nonce are parameters.
-/
namespace Kms
open Bytes Ownable Ecdsa

/-- secp256k1, and the nonce its signer derives from the key and the digest. -/
structure Secp256k1 (Point : Type) [AddCommGroup Point] [Module Scalar Point] extends
    Curve order Point where
  fits : fieldSize ≤ 256 ^ 32
  nonce : Scalar → Word → Scalar
  /-- The signer does not fail on a key: no part of the signature is zero. -/
  suitable : ∀ d (digest : Word), d ≠ 0 → toCurve.Suitable (nonce d digest) d digest.toNat

def splitKey (random secret : Scalar) : KeyShare × KeyShare :=
  (.fromScalar random, .fromScalar (secret - random))

theorem splitKey_sum (random secret : Scalar) :
    (splitKey random secret).1.toScalar + (splitKey random secret).2.toScalar = secret := by
  simp only [splitKey, toScalar_fromScalar]
  ring

/-- `Signature::from_slice`: two scalars, neither of them zero. -/
def signatureFromSlice (r s : Block 32) : Option (Scalar × Scalar) :=
  if (0 < decode r.toList ∧ decode r.toList < order) ∧ 0 < decode s.toList ∧
      decode s.toList < order then
    some (decode r.toList, decode s.toList)
  else none

theorem signatureFromSlice_scalarBytes {r s : Scalar} (r_ne : r ≠ 0) (s_ne : s ≠ 0) :
    signatureFromSlice (scalarBytes r) (scalarBytes s) = some (r, s) := by
  have r_pos := Nat.pos_of_ne_zero ((ZMod.val_ne_zero r).mpr r_ne)
  have s_pos := Nat.pos_of_ne_zero ((ZMod.val_ne_zero s).mpr s_ne)
  rw [signatureFromSlice, decode_scalarBytes, decode_scalarBytes,
    if_pos ⟨⟨r_pos, ZMod.val_lt r⟩, s_pos, ZMod.val_lt s⟩, ZMod.natCast_val, ZMod.natCast_val,
    ZMod.cast_id, ZMod.cast_id]

namespace Secp256k1
variable {Point : Type} [AddCommGroup Point] [Module Scalar Point] (curve : Secp256k1 Point)

def signature (d : Scalar) (digest : Word) : Signature order :=
  curve.sign (curve.nonce d digest) d digest.toNat

def k256 : K256 Point where
  generator := curve.generator
  coordinates q := ⟨encode 32 (curve.x q) ++ encode 32 (curve.y q), by simp⟩
  signDigestRecoverable d digest :=
    let sig := curve.signature d digest
    ((sig.r, sig.s), ⟨sig.yOdd, sig.xReduced⟩)

def compressed (q : Point) : Block 33 :=
  ⟨(if curve.yOdd q then 3 else 2) :: encode 32 (curve.x q), by simp⟩

/-- `from_sec1_bytes` on 33 bytes. -/
def fromSec1 (bytes : Block 33) : Option Point :=
  if bytes.head = 2 then curve.decompress (decode bytes.tail.toList) false
  else if bytes.head = 3 then curve.decompress (decode bytes.tail.toList) true
  else none

theorem fromSec1_compressed {q : Point} (nonzero : q ≠ 0) :
    curve.fromSec1 (curve.compressed q) = some q := by
  have bound := curve.x_lt q nonzero
  have fits := curve.fits
  have x : decode (curve.compressed q).tail.toList = curve.x q := by
    change decode (encode 32 (curve.x q)) = curve.x q
    rw [decode_encode, Nat.mod_eq_of_lt (by omega)]
  have head : (curve.compressed q).head = if curve.yOdd q then 3 else 2 := rfl
  rw [fromSec1, x, head]
  cases odd : curve.yOdd q with
  | false => exact (curve.decompress_iff _ _ _).mpr ⟨nonzero, rfl, odd⟩
  | true => exact (curve.decompress_iff _ _ _).mpr ⟨nonzero, rfl, odd⟩

/-- The parts of a signature, as `sign_with_payload` lays them out. -/
def parts (sig : Signature order) : SignatureParts :=
  ⟨scalarBytes sig.r, scalarBytes sig.s, if sig.yOdd then 1 else 0⟩

/-- The nonce point whose x coordinate gave `r` unreduced. -/
def SmallNonce (d : Scalar) (digest : Word) : Prop :=
  curve.x (curve.nonce d digest • curve.generator) < order

theorem signature_low {d : Scalar} (key : d ≠ 0) (digest : Word) :
    normalizeS (curve.signature d digest).s = none := by
  obtain ⟨_, _, same, low⟩ := curve.sign_eq (d := d) (z := digest.toNat) (curve.suitable d digest key).nonce
  rw [signature, same]
  exact if_neg low

theorem signature_nonzero {d : Scalar} (key : d ≠ 0) (digest : Word) :
    (curve.signature d digest).r ≠ 0 ∧ (curve.signature d digest).s ≠ 0 := by
  have suitable := curve.suitable d digest key
  obtain ⟨k', nonce, same, _⟩ := curve.sign_eq (d := d) (z := digest.toNat) suitable.nonce
  rw [signature, same]
  rcases nonce with rfl | rfl
  · exact ⟨suitable.r, suitable.s⟩
  · have opposite := Curve.suitable_neg suitable
    exact ⟨opposite.r, opposite.s⟩

theorem signDigest_signature {d : Scalar} (key : d ≠ 0) (digest : Word) :
    signDigest curve.k256 d digest = some (parts (curve.signature d digest)) := by
  simp only [signDigest, if_neg key, k256, fromByte_toByte, Option.getD_some,
    curve.signature_low key digest, Option.getD_none, parts]

theorem publicKeyOf_some {d : Scalar} (key : d ≠ 0) :
    publicKeyOf curve.k256 d = some (d • curve.generator) := if_neg key

theorem composed_point {s1 s2 : KeyShare} (whole : s1.toScalar + s2.toScalar ≠ 0) :
    s1.toScalar • curve.generator + s2.toScalar • curve.generator ≠ 0 := by
  rw [← add_smul]
  exact curve.smul_generator_ne whole

variable [DecidableEq Point]

def composedPublicKey (s1 s2 : KeyShare) : Option (Block 33) := do
  let p1 ← publicKeyOf curve.k256 s1.toScalar
  let p2 ← publicKeyOf curve.k256 s2.toScalar
  if p1 + p2 = 0 then none else some (curve.compressed (p1 + p2))

section Keccak
variable (keccak256 : List UInt8 → Word)

def signEip1559 (s1 s2 : KeyShare) (tx : Eip1559Tx) : Option SignatureParts :=
  signWithPayload curve.k256 keccak256 (s1.toScalar + s2.toScalar) (eip1559SigningPayload tx)

/-- The recovery inside `verify_signature`, as `ecrecover` does it. -/
def recoverKey (payload : List UInt8) (sig : SignatureParts) : Option Point := do
  let recid ← RecoveryId.fromByte sig.yParity
  let (r, s) ← signatureFromSlice sig.r sig.s
  curve.recover (keccak256 payload).toNat ⟨r, s, recid.isYOdd, recid.isXReduced⟩

def verifySignature (composedPk : Block 33) (payload : List UInt8) (sig : SignatureParts) : Bool :=
  match curve.fromSec1 composedPk, curve.recoverKey keccak256 payload sig with
  | some expected, some recovered => recovered = expected
  | _, _ => false

end Keccak

theorem recoverKey_parts (keccak256 : List UInt8 → Word) (payload : List UInt8)
    {sig : Signature order} (r : sig.r ≠ 0) (s : sig.s ≠ 0) :
    curve.recoverKey keccak256 payload (parts sig) =
      curve.recover (keccak256 payload).toNat sig.unreduced := by
  have id : RecoveryId.fromByte (parts sig).yParity = some ⟨sig.yOdd, false⟩ := by
    cases odd : sig.yOdd <;> simp only [parts, odd] <;> decide
  simp only [recoverKey, id, Option.bind_eq_bind, Option.bind_some]
  simp only [parts, signatureFromSlice_scalarBytes r s, Option.bind_some]
  rfl

theorem composedPublicKey_some {s1 s2 : KeyShare} (first : s1.toScalar ≠ 0)
    (second : s2.toScalar ≠ 0) (whole : s1.toScalar + s2.toScalar ≠ 0) :
    curve.composedPublicKey s1 s2 =
      some (curve.compressed ((s1.toScalar + s2.toScalar) • curve.generator)) := by
  simp only [composedPublicKey, curve.publicKeyOf_some first, curve.publicKeyOf_some second,
    Option.bind_eq_bind, Option.bind_some, if_neg (curve.composed_point whole), add_smul]

theorem composedAddress_some (keccak256 : List UInt8 → Word) {s1 s2 : KeyShare}
    (first : s1.toScalar ≠ 0) (second : s2.toScalar ≠ 0)
    (whole : s1.toScalar + s2.toScalar ≠ 0) :
    composedAddress curve.k256 keccak256 s1 s2 =
      some (addressOf curve.k256 keccak256 ((s1.toScalar + s2.toScalar) • curve.generator)) := by
  simp only [composedAddress, curve.publicKeyOf_some first, curve.publicKeyOf_some second,
    Option.bind_eq_bind, Option.bind_some, if_neg (curve.composed_point whole), add_smul]

theorem verifySignature_iff {keccak256 : List UInt8 → Word} {q : Point} (nonzero : q ≠ 0)
    {payload : List UInt8} {sig : SignatureParts} :
    curve.verifySignature keccak256 (curve.compressed q) payload sig = true ↔
      curve.recoverKey keccak256 payload sig = some q := by
  rw [verifySignature, curve.fromSec1_compressed nonzero]
  cases curve.recoverKey keccak256 payload sig with
  | none => simp
  | some recovered => simp

/-- What signing with two shares gives, next to the whole key. -/
structure SignsAsWhole (curve : Secp256k1 Point) (keccak256 : List UInt8 → Word)
    (s1 s2 : KeyShare) (tx : Eip1559Tx) (digest : Word) (whole : SignatureParts) : Prop where
  signed : curve.signEip1559 keccak256 s1 s2 tx = some whole
  publicKey : curve.composedPublicKey s1 s2 =
    (publicKeyOf curve.k256 (s1.toScalar + s2.toScalar)).map curve.compressed
  address : composedAddress curve.k256 keccak256 s1 s2 =
    (publicKeyOf curve.k256 (s1.toScalar + s2.toScalar)).map (addressOf curve.k256 keccak256)
  verifies : ∀ pk, curve.composedPublicKey s1 s2 = some pk →
    (curve.verifySignature keccak256 pk (eip1559SigningPayload tx) whole = true ↔
      curve.SmallNonce (s1.toScalar + s2.toScalar) digest)
  recovers : curve.recoverKey keccak256 (eip1559SigningPayload tx) whole =
      publicKeyOf curve.k256 (s1.toScalar + s2.toScalar) ↔
    curve.SmallNonce (s1.toScalar + s2.toScalar) digest
  recovers_address : curve.SmallNonce (s1.toScalar + s2.toScalar) digest →
    (curve.recoverKey keccak256 (eip1559SigningPayload tx) whole).map
      (addressOf curve.k256 keccak256) = composedAddress curve.k256 keccak256 s1 s2

end Secp256k1

open Secp256k1 in
/-- Two shares sign as the whole key does; the signature is accepted exactly when the
nonce point needs no reduction, which `SignatureParts` has no room to report. -/
theorem two_party_signing {Point : Type} [AddCommGroup Point] [Module Scalar Point]
    [DecidableEq Point] (curve : Secp256k1 Point) (keccak256 : List UInt8 → Word) :
    (∀ random secret, (splitKey random secret).1.toScalar + (splitKey random secret).2.toScalar =
      secret) ∧
    ∀ (s1 s2 : KeyShare) (tx : Eip1559Tx), s1.toScalar ≠ 0 → s2.toScalar ≠ 0 →
      s1.toScalar + s2.toScalar ≠ 0 →
      SignsAsWhole curve keccak256 s1 s2 tx (eip1559SigningHash keccak256 tx)
        (parts (curve.signature (s1.toScalar + s2.toScalar) (eip1559SigningHash keccak256 tx))) := by
  refine ⟨splitKey_sum, ?_⟩
  intro s1 s2 tx first second whole
  have publicKey := curve.composedPublicKey_some first second whole
  have address := curve.composedAddress_some keccak256 first second whole
  obtain ⟨r, s⟩ := curve.signature_nonzero whole (eip1559SigningHash keccak256 tx)
  have recovered := curve.recoverKey_parts keccak256 (eip1559SigningPayload tx) r s
  have small := Curve.recover_unreduced_iff
    (curve.suitable _ (eip1559SigningHash keccak256 tx) whole) whole
  refine ⟨curve.signDigest_signature whole _, ?_, ?_, ?_, ?_, ?_⟩
  · rw [publicKey, curve.publicKeyOf_some whole]
    rfl
  · rw [address, curve.publicKeyOf_some whole]
    rfl
  · intro pk composed
    obtain rfl := Option.some.inj (publicKey.symm.trans composed)
    rw [curve.verifySignature_iff (curve.smul_generator_ne whole), recovered]
    exact small
  · rw [curve.publicKeyOf_some whole, recovered]
    exact small
  · intro small_nonce
    rw [address, recovered]
    exact congrArg (Option.map _) (small.mpr small_nonce)

section Sample

/-- Scalars as points, known by the smaller of a scalar and its opposite. The x coordinate
of ±5 is beyond the order. -/
def half (q : Scalar) : Nat := min q.val (order - q.val)

def shifted (m : Nat) : Nat := if m = 5 then order + 5 else m

def unshifted (a : Nat) : Nat := if a = order + 5 then 5 else if a = 5 then 0 else a

def withParity (m : Nat) (odd : Bool) : Scalar := if m.testBit 0 = odd then m else -(m : Scalar)

def sampleDecompress (a : Nat) (odd : Bool) : Option Scalar :=
  if 0 < unshifted a ∧ unshifted a ≤ order / 2 then some (withParity (unshifted a) odd) else none

theorem val_neg {q : Scalar} (nonzero : q ≠ 0) : (-q).val = order - q.val := by
  have : NeZero q := ⟨nonzero⟩
  exact ZMod.val_neg_of_ne_zero q

theorem val_pos {q : Scalar} (nonzero : q ≠ 0) : 0 < q.val :=
  Nat.pos_of_ne_zero ((ZMod.val_ne_zero q).mpr nonzero)

theorem half_neg {q : Scalar} (nonzero : q ≠ 0) : half (-q) = half q := by
  have bound := ZMod.val_lt q
  rw [half, half, val_neg nonzero]
  omega

theorem half_range {q : Scalar} (nonzero : q ≠ 0) : 0 < half q ∧ half q ≤ order / 2 := by
  have bound := ZMod.val_lt q
  have positive := val_pos nonzero
  rw [half]
  omega

theorem order_odd : order % 2 = 1 := by decide

theorem withParity_val {m : Nat} (positive : 0 < m) (small : m ≤ order / 2) (odd : Bool) :
    (withParity m odd).val = if m.testBit 0 = odd then m else order - m := by
  have bound : m < order := by
    have := order_odd
    omega
  have value : (m : Scalar).val = m := ZMod.val_natCast_of_lt bound
  have nonzero : (m : Scalar) ≠ 0 := by
    intro zero
    rw [zero, ZMod.val_zero] at value
    omega
  rw [withParity]
  split
  · exact value
  · rw [val_neg nonzero, value]

theorem withParity_eq_iff {m : Nat} (positive : 0 < m) (small : m ≤ order / 2) (odd : Bool)
    (q : Scalar) : withParity m odd = q ↔ half q = m ∧ q.val.testBit 0 = odd := by
  have value := withParity_val positive small odd
  have bound := ZMod.val_lt q
  have n_odd := order_odd
  constructor
  · intro same
    rw [same] at value
    rw [half]
    cases odd <;> simp only [Nat.testBit_zero, decide_eq_true_eq, decide_eq_false_iff_not] at value ⊢ <;>
      split at value <;> omega
  · intro named
    obtain ⟨halved, parity⟩ := named
    apply ZMod.val_injective
    rw [value]
    rw [half] at halved
    cases odd <;> simp only [Nat.testBit_zero, decide_eq_true_eq, decide_eq_false_iff_not] at parity ⊢ <;>
      split <;> omega

theorem unshifted_iff {a m : Nat} (positive : 0 < m) (small : m ≤ order / 2) :
    unshifted a = m ↔ shifted m = a := by
  have n_odd := order_odd
  rw [unshifted, shifted]
  split_ifs <;> omega

theorem sampleDecompress_iff (a : Nat) (odd : Bool) (q : Scalar) :
    sampleDecompress a odd = some q ↔
      q ≠ 0 ∧ shifted (half q) = a ∧ q.val.testBit 0 = odd := by
  rw [sampleDecompress, Option.ite_none_right_eq_some]
  constructor
  · intro found
    obtain ⟨⟨positive, small⟩, found⟩ := found
    obtain ⟨halved, parity⟩ := (withParity_eq_iff positive small odd q).mp (Option.some.inj found)
    refine ⟨?_, ?_, parity⟩
    · rintro rfl
      rw [half, ZMod.val_zero] at halved
      omega
    · rw [halved]
      exact (unshifted_iff positive small).mp rfl
  · intro point
    obtain ⟨nonzero, x, parity⟩ := point
    obtain ⟨positive, small⟩ := half_range nonzero
    have back := (unshifted_iff positive small).mpr x
    rw [back]
    exact ⟨⟨positive, small⟩,
      congrArg some ((withParity_eq_iff positive small odd q).mpr ⟨rfl, parity⟩)⟩

def sampleGroup : Curve order Scalar where
  generator := 1
  generator_ne := one_ne_zero
  fieldSize := order + 6
  fieldSize_le := by decide
  x q := shifted (half q)
  y q := q.val
  x_lt := by
    intro q nonzero
    have range := half_range nonzero
    rw [shifted]
    split <;> omega
  y_lt := by
    intro q _
    have bound := ZMod.val_lt q
    omega
  decompress := sampleDecompress
  decompress_iff := sampleDecompress_iff
  x_neg := by
    intro q nonzero
    rw [half_neg nonzero]
  y_neg := by
    intro q nonzero
    have bound := ZMod.val_lt q
    have n_odd := order_odd
    rw [val_neg nonzero, Nat.testBit_zero, Nat.testBit_zero, ← decide_not, decide_eq_decide]
    omega

/-- Even digests get the nonce 5, odd ones the nonce 1, unless that leaves a zero part. -/
def sampleNonce (d : Scalar) (digest : Word) : Scalar :=
  if (digest.toNat : Scalar) + d = 0 ∨
      (digest.toNat : Scalar) + 5 * d ≠ 0 ∧ digest.toNat % 2 = 0 then 5
  else 1

theorem suitable_nonce {k d z : Scalar} (nonce : k ≠ 0)
    (x : (sampleGroup.x (k • sampleGroup.generator) : Scalar) = k) (part : z + k * d ≠ 0) :
    sampleGroup.Suitable k d z := by
  refine ⟨nonce, ?_, ?_⟩
  · simp only [Curve.signWith, x]
    exact nonce
  · simp only [Curve.signWith, x]
    exact mul_ne_zero (inv_ne_zero nonce) part

theorem sampleNonce_suitable (d : Scalar) (digest : Word) (key : d ≠ 0) :
    sampleGroup.Suitable (sampleNonce d digest) d digest.toNat := by
  rw [sampleNonce]
  split
  next five =>
    apply suitable_nonce
    · decide
    · decide +kernel
    · rcases five with zero | nonzero
      · intro both
        have multiple : 4 * d = 0 := by linear_combination both - zero
        exact mul_ne_zero (by decide) key multiple
      · exact nonzero.1
  next one =>
    apply suitable_nonce
    · exact one_ne_zero
    · decide +kernel
    · intro zero
      rw [one_mul] at zero
      exact one (Or.inl zero)

def sampleCurve : Secp256k1 Scalar where
  toCurve := sampleGroup
  fits := by decide
  nonce := sampleNonce
  suitable := sampleNonce_suitable

def oneWeiKeccak (bytes : List UInt8) : Word :=
  if bytes = eip1559SigningPayload oneWei then
    0x7ecb85663a9388bae9974189dfe5abd6a0676f3564a75892bb4701e886beaa33
  else if bytes = eip1559SigningPayload { oneWei with nonce := 1 } then
    0x34ef26457b9fa4675b101aa2ecde8ae3632bd0298e231f520089c0f35d8e3cf0
  else 0

theorem sample_shares : (KeyShare.fromScalar 1).toScalar ≠ 0 ∧ (KeyShare.fromScalar 2).toScalar ≠ 0 ∧
    (KeyShare.fromScalar 1).toScalar + (KeyShare.fromScalar 2).toScalar ≠ 0 := by
  simp only [toScalar_fromScalar]
  decide

theorem two_party_signing_sample : ∃ sig pk,
    sampleCurve.signEip1559 oneWeiKeccak (.fromScalar 1) (.fromScalar 2) oneWei = some sig ∧
    sampleCurve.composedPublicKey (.fromScalar 1) (.fromScalar 2) = some pk ∧
    sampleCurve.verifySignature oneWeiKeccak pk (eip1559SigningPayload oneWei) sig = true := by
  obtain ⟨first, second, whole⟩ := sample_shares
  have signs := (two_party_signing sampleCurve oneWeiKeccak).2 _ _ oneWei first second whole
  have composed := sampleCurve.composedPublicKey_some first second whole
  refine ⟨_, _, signs.signed, composed, (signs.verifies _ composed).mpr ?_⟩
  rw [Secp256k1.SmallNonce]
  decide +kernel

/-- The second transfer has the nonce 5. -/
theorem reduced_nonce_rejected : ∃ sig pk,
    sampleCurve.signEip1559 oneWeiKeccak (.fromScalar 1) (.fromScalar 2)
      { oneWei with nonce := 1 } = some sig ∧
    sampleCurve.composedPublicKey (.fromScalar 1) (.fromScalar 2) = some pk ∧
    sampleCurve.verifySignature oneWeiKeccak pk (eip1559SigningPayload { oneWei with nonce := 1 })
      sig = false := by
  obtain ⟨first, second, whole⟩ := sample_shares
  have composed := sampleCurve.composedPublicKey_some first second whole
  refine ⟨_, _, sampleCurve.signDigest_signature whole _, composed, ?_⟩
  apply Bool.eq_false_iff.mpr
  intro verified
  obtain ⟨r, s⟩ := sampleCurve.signature_nonzero whole
    (oneWeiKeccak (eip1559SigningPayload { oneWei with nonce := 1 }))
  rw [sampleCurve.verifySignature_iff (sampleCurve.smul_generator_ne whole),
    sampleCurve.recoverKey_parts _ _ r s] at verified
  have small := (Curve.recover_unreduced_iff (sampleCurve.suitable _ _ whole) whole).mp verified
  revert small
  decide +kernel

end Sample

end Kms
