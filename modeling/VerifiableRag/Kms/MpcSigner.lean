import Mathlib.Data.ZMod.Basic
import VerifiableRag.Library.Bytes
import VerifiableRag.Library.Ownable

/-!
The two-share signer of the enclave (`mpc_signer.rs`). The k256 curve, its signer
and Keccak-256 are parameters; `none` is a panic of `expect`.
-/
namespace Kms
open Bytes Ownable

/-- The group order of secp256k1. -/
def order : Nat := 0xFFFFFFFFFFFFFFFFFFFFFFFFFFFFFFFEBAAEDCE6AF48A03BBFD25E8CD0364141

abbrev Scalar := ZMod order

instance : NeZero order := ⟨by decide⟩

theorem scalar_bound (s : Scalar) : s.val < 256 ^ 32 :=
  (ZMod.val_lt s).trans (by decide)

def scalarBytes (s : Scalar) : Block 32 := ⟨encode 32 s.val, encode_length 32 s.val⟩

/-- A share holds the bytes of a valid scalar: `from_scalar` is its only maker. -/
structure KeyShare where
  bytes : Block 32
  valid : decode bytes.toList < order

theorem decode_scalarBytes (s : Scalar) : decode (scalarBytes s).toList = s.val := by
  change decode (encode 32 s.val) = s.val
  rw [decode_encode, Nat.mod_eq_of_lt (scalar_bound s)]

def KeyShare.fromScalar (s : Scalar) : KeyShare :=
  ⟨scalarBytes s, by rw [decode_scalarBytes]; exact ZMod.val_lt s⟩

def KeyShare.toScalar (share : KeyShare) : Scalar := decode share.bytes.toList

theorem toScalar_fromScalar (s : Scalar) : (KeyShare.fromScalar s).toScalar = s := by
  rw [KeyShare.toScalar, KeyShare.fromScalar, decode_scalarBytes, ZMod.natCast_val, ZMod.cast_id]

structure SignatureParts where
  r : Block 32
  s : Block 32
  yParity : UInt8
  deriving DecidableEq

def SignatureParts.toEcrecoverBytes (sig : SignatureParts) : Block 65 :=
  ⟨sig.r.toList ++ sig.s.toList ++ [sig.yParity], by simp⟩

structure RecoveryId where
  isYOdd : Bool
  isXReduced : Bool
  deriving DecidableEq

def RecoveryId.toByte (id : RecoveryId) : UInt8 :=
  (if id.isXReduced then 2 else 0) + if id.isYOdd then 1 else 0

def RecoveryId.fromByte (b : UInt8) : Option RecoveryId :=
  if b < 4 then some ⟨b % 2 = 1, b ≥ 2⟩ else none

theorem fromByte_toByte (id : RecoveryId) : RecoveryId.fromByte id.toByte = some id := by
  obtain ⟨odd, reduced⟩ := id
  cases odd <;> cases reduced <;> decide

/-- What k256 provides: the curve, and recoverable signatures over a digest. -/
structure K256 (Point : Type) where
  generator : Point
  /-- `X || Y` of the uncompressed encoding. -/
  coordinates : Point → Block 64
  signDigestRecoverable : Scalar → Word → (Scalar × Scalar) × RecoveryId

/-- `Signature::normalize_s`: the low form of a high `s`. -/
def normalizeS (s : Scalar) : Option Scalar := if order / 2 < s.val then some (-s) else none

section Signing
variable {Point : Type} (k256 : K256 Point)

/-- `sign_with_payload` after the payload is hashed. -/
def signDigest (scalar : Scalar) (digest : Word) : Option SignatureParts :=
  if scalar = 0 then none
  else
    let ((r, s), recoveryId) := k256.signDigestRecoverable scalar digest
    let s := (normalizeS s).getD s
    let recoveryId := (RecoveryId.fromByte recoveryId.toByte).getD recoveryId
    some ⟨scalarBytes r, scalarBytes s, if recoveryId.isYOdd then 1 else 0⟩

def signWithPayload (keccak256 : List UInt8 → Word) (scalar : Scalar) (payload : List UInt8) :
    Option SignatureParts := signDigest k256 scalar (keccak256 payload)

theorem signDigest_parity {scalar : Scalar} {digest : Word} {sig : SignatureParts}
    (signed : signDigest k256 scalar digest = some sig) : sig.yParity = 0 ∨ sig.yParity = 1 := by
  unfold signDigest at signed
  split at signed
  · cases signed
  · cases signed
    dsimp only
    split
    · exact Or.inr rfl
    · exact Or.inl rfl

variable [AddCommGroup Point] [Module Scalar Point] [DecidableEq Point]

def publicKeyOf (scalar : Scalar) : Option Point :=
  if scalar = 0 then none else some (scalar • k256.generator)

/-- The Ethereum address of a public key: the low 20 bytes of its hash. -/
def addressOf (keccak256 : List UInt8 → Word) (q : Point) : Address :=
  (keccak256 (k256.coordinates q).toList).setWidth 160

def composedAddress (keccak256 : List UInt8 → Word) (s1 s2 : KeyShare) : Option Address := do
  let p1 ← publicKeyOf k256 s1.toScalar
  let p2 ← publicKeyOf k256 s2.toScalar
  -- `PublicKey::try_from` refuses the point at infinity
  if p1 + p2 = 0 then none else some (addressOf k256 keccak256 (p1 + p2))

/-- The composed address is that of the key nobody holds. -/
theorem composedAddress_eq {keccak256 : List UInt8 → Word} {s1 s2 : KeyShare} {a : Address}
    (composed : composedAddress k256 keccak256 s1 s2 = some a) :
    a = addressOf k256 keccak256 ((s1.toScalar + s2.toScalar) • k256.generator) := by
  simp only [composedAddress, publicKeyOf, Option.bind_eq_bind, Option.bind_eq_some_iff,
    Option.ite_none_left_eq_some, Option.some.injEq] at composed
  obtain ⟨p1, ⟨_, rfl⟩, p2, ⟨_, rfl⟩, _, rfl⟩ := composed
  rw [add_smul]

end Signing

end Kms
