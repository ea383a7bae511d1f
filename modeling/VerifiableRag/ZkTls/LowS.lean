import VerifiableRag.Kms.TwoParty
import VerifiableRag.ZkTls.ProofGenerator

/-!
The two places that bring `s` to its low form, `sign_with_payload` and `generate_proof`, after a
signer that may emit either form: both hand on the recovery id as it was.
-/
namespace ZkTls
open Bytes Ecdsa Kms

theorem generateProof_signed {Filter Point : Type} {jq : Jq Filter} {k256 : K256 Point}
    {keccak256 : List UInt8 → Word} {sha256 : List UInt8 → Block 32} {req : Request} {p : ZkTlsProof}
    (generated : generateProof jq k256 keccak256 sha256 req = some (.ok p)) :
    (p.r, p.s, p.v) = signPayload k256 keccak256 req.signer p.payload := by
  unfold generateProof at generated
  split at generated
  · cases generated
  next selected run =>
    split at generated
    · cases generated
    next timestamp clock =>
      obtain ⟨leak, _, built⟩ := Option.map_eq_some_iff.mp generated
      cases leak with
      | true => cases built
      | false =>
        cases built
        rfl

section LowS
variable {Point : Type} [AddCommGroup Point] [Module Scalar Point] (c : Curve Kms.order Point)

/-- The signer emits the signature of a nonce, with whichever `s` comes out. -/
structure Emits (k256 : K256 Point) (d : Scalar) (digest : Word) (k : Scalar) : Prop where
  suitable : c.Suitable k d digest.toNat
  output : k256.signDigestRecoverable d digest =
    (((c.signWith k d digest.toNat).r, (c.signWith k d digest.toNat).s),
      ⟨(c.signWith k d digest.toNat).yOdd, (c.signWith k d digest.toNat).xReduced⟩)

/-- `ecrecover` of what is emitted; the bits of `v` are those of a recovery id. -/
def recoverEmitted [DecidableEq Point] (digest : Word) (r s : Block 32) (v : UInt8) :
    Option Point := do
  let recid ← RecoveryId.fromByte v
  let (r, s) ← signatureFromSlice r s
  c.recover digest.toNat ⟨r, s, recid.isYOdd, recid.isXReduced⟩

/-- `s` is in the low half. -/
def LowHalf (s : Block 32) : Prop := decode s.toList ≤ Kms.order / 2

theorem lowered_s_ne {sig : Signature Kms.order} (nonzero : sig.s ≠ 0) : sig.lowered.s ≠ 0 := by
  unfold Signature.lowered
  dsimp only
  split
  · exact neg_ne_zero.mpr nonzero
  · exact nonzero

theorem normalizeS_lowered (sig : Signature Kms.order) :
    (normalizeS sig.s).getD sig.s = sig.lowered.s := by
  unfold normalizeS Signature.lowered
  by_cases high : Kms.order / 2 < sig.s.val
  · rw [if_pos high]
    exact (if_pos high).symm
  · rw [if_neg high]
    exact (if_neg high).symm

theorem lowHalf_lowered (sig : Signature Kms.order) : LowHalf (scalarBytes sig.lowered.s) := by
  rw [LowHalf, decode_scalarBytes]
  unfold Signature.lowered
  dsimp only
  split
  · rename_i high
    exact not_lt.mp (not_high_neg high)
  · rename_i low
    exact not_lt.mp low

theorem recoverEmitted_scalarBytes [DecidableEq Point] (digest : Word) {sig : Signature Kms.order}
    (r : sig.r ≠ 0) (s : sig.s ≠ 0) {v : UInt8} (id : RecoveryId.fromByte v =
      some ⟨sig.yOdd, sig.xReduced⟩) :
    recoverEmitted c digest (scalarBytes sig.r) (scalarBytes sig.s) v =
      c.recover digest.toNat sig := by
  rw [recoverEmitted, id]
  simp only [Option.bind_eq_bind, Option.bind_some, signatureFromSlice_scalarBytes r s]

variable {c} {k256 : K256 Point} {keccak256 : List UInt8 → Word} {d k : Scalar}

theorem signWithPayload_emitted {payload : List UInt8} (key : d ≠ 0)
    (emits : Emits c k256 d (keccak256 payload) k) :
    let sig := c.signWith k d (keccak256 payload).toNat
    signWithPayload k256 keccak256 d payload =
      some ⟨scalarBytes sig.r, scalarBytes sig.lowered.s, if sig.yOdd then 1 else 0⟩ := by
  intro sig
  rw [signWithPayload, signDigest, if_neg key, emits.output]
  simp only [fromByte_toByte, Option.getD_some, normalizeS_lowered]
  rfl

theorem signPayload_emitted {payload : List UInt8} (emits : Emits c k256 d (keccak256 payload) k) :
    let sig := c.signWith k d (keccak256 payload).toNat
    signPayload k256 keccak256 d payload =
      (scalarBytes sig.r, scalarBytes sig.lowered.s, RecoveryId.toByte ⟨sig.yOdd, sig.xReduced⟩) := by
  intro sig
  rw [signPayload, emits.output]
  simp only [normalizeS_lowered]
  rfl

variable [DecidableEq Point]

theorem parity_id (odd : Bool) : RecoveryId.fromByte (if odd then 1 else 0) = some ⟨odd, false⟩ := by
  cases odd <;> decide

/-- What `sign_with_payload` emits recovers as the lowered signature with its reduction bit off. -/
theorem recover_signWithPayload {payload : List UInt8} (key : d ≠ 0)
    (emits : Emits c k256 d (keccak256 payload) k) :
    ∃ sig, signWithPayload k256 keccak256 d payload = some sig ∧ LowHalf sig.s ∧
      recoverEmitted c (keccak256 payload) sig.r sig.s sig.yParity =
        c.recover (keccak256 payload).toNat
          (c.signWith k d (keccak256 payload).toNat).lowered.unreduced := by
  have suitable := emits.suitable
  have r : (c.signWith k d (keccak256 payload).toNat).lowered.unreduced.r ≠ 0 := suitable.r
  have emitted := recoverEmitted_scalarBytes c (keccak256 payload) r (lowered_s_ne suitable.s)
    (parity_id _)
  exact ⟨_, signWithPayload_emitted key emits, lowHalf_lowered _, emitted⟩

theorem not_recover_of_high {payload : List UInt8} (key : d ≠ 0)
    (emits : Emits c k256 d (keccak256 payload) k)
    (high : High (c.signWith k d (keccak256 payload).toNat).s) :
    ∃ sig, signWithPayload k256 keccak256 d payload = some sig ∧
      recoverEmitted c (keccak256 payload) sig.r sig.s sig.yParity ≠ some (d • c.generator) := by
  obtain ⟨sig, signed, _, recovered⟩ := recover_signWithPayload key emits
  refine ⟨sig, signed, ?_⟩
  rw [recovered]
  exact Curve.not_recover_lowered emits.suitable high false

/-- Both emit a low `s`; the key comes back exactly when the signer's own `s` was low, and from
    `sign_with_payload`, which keeps the parity alone, when the nonce point needs no reduction. -/
theorem low_s_recovers_iff (key : d ≠ 0) :
    (∀ payload, Emits c k256 d (keccak256 payload) k →
      ∃ sig, signWithPayload k256 keccak256 d payload = some sig ∧ LowHalf sig.s ∧
        (recoverEmitted c (keccak256 payload) sig.r sig.s sig.yParity = some (d • c.generator) ↔
          ¬ High (c.signWith k d (keccak256 payload).toNat).s ∧ c.x (k • c.generator) < Kms.order)) ∧
    ∀ (Filter : Type) (jq : Jq Filter) (sha256 : List UInt8 → Block 32) (req : Request)
      (p : ZkTlsProof), req.signer = d →
      generateProof jq k256 keccak256 sha256 req = some (.ok p) →
      Emits c k256 d (keccak256 p.payload) k →
        LowHalf p.s ∧
        (recoverEmitted c (keccak256 p.payload) p.r p.s p.v = some (d • c.generator) ↔
          ¬ High (c.signWith k d (keccak256 p.payload).toNat).s) := by
  constructor
  · intro payload emits
    obtain ⟨sig, signed, low, recovered⟩ := recover_signWithPayload key emits
    refine ⟨sig, signed, low, ?_⟩
    rw [recovered]
    exact Curve.recover_lowered_unreduced_iff emits.suitable key
  · intro Filter jq sha256 req p signer generated emits
    have suitable := emits.suitable
    have signed := generateProof_signed generated
    rw [signer, signPayload_emitted emits, Prod.mk.injEq, Prod.mk.injEq] at signed
    obtain ⟨r_eq, s_eq, v_eq⟩ := signed
    have r : (c.signWith k d (keccak256 p.payload).toNat).lowered.r ≠ 0 := suitable.r
    have emitted := recoverEmitted_scalarBytes c (keccak256 p.payload) r (lowered_s_ne suitable.s)
      (fromByte_toByte _)
    rw [s_eq]
    refine ⟨lowHalf_lowered _, ?_⟩
    rw [← Curve.recover_lowered_iff suitable key, ← emitted, r_eq, v_eq]
    rfl

end LowS

section Sample

/-- A signer that leaves `s` as it comes out; its nonce is always 1. -/
def rawSigner : K256 Scalar where
  generator := sampleGroup.generator
  coordinates _ := List.Vector.replicate 64 0
  signDigestRecoverable d digest :=
    let sig := sampleGroup.signWith 1 d digest.toNat
    ((sig.r, sig.s), ⟨sig.yOdd, sig.xReduced⟩)

theorem rawSigner_emits {d : Scalar} {digest : Word} (part : (digest.toNat : Scalar) + d ≠ 0) :
    Emits sampleGroup rawSigner d digest 1 := by
  constructor
  · apply suitable_nonce one_ne_zero
    · decide +kernel
    · rw [one_mul]
      exact part
  · rfl

def lowDigest : Word := 0

def highDigest : Word := 0xFFFFFFFFFFFFFFFFFFFFFFFFFFFFFFFEBAAEDCE6AF48A03BBFD25E8CD036413F

theorem low_s_recovers_iff_sample : ∃ sig,
    signWithPayload rawSigner (fun _ => lowDigest) 1 [] = some sig ∧
      recoverEmitted sampleGroup lowDigest sig.r sig.s sig.yParity =
        some ((1 : Scalar) • sampleGroup.generator) := by
  have emits : Emits sampleGroup rawSigner 1 lowDigest 1 := rawSigner_emits (by decide +kernel)
  have key : (1 : Scalar) ≠ 0 := one_ne_zero
  obtain ⟨sig, signed, _, recovers⟩ :=
    (@low_s_recovers_iff Scalar _ _ sampleGroup rawSigner (fun _ => lowDigest) 1 1 _ key).1 [] emits
  refine ⟨sig, signed, recovers.mpr ⟨?_, ?_⟩⟩
  · simp only [Curve.signWith, inv_one, one_mul]
    decide +kernel
  · decide +kernel

/-- `s = -1` becomes 1, and the recovery id still names the point of the first. -/
theorem high_s_recovers_stranger : ∃ sig,
    signWithPayload rawSigner (fun _ => highDigest) 1 [] = some sig ∧
      recoverEmitted sampleGroup highDigest sig.r sig.s sig.yParity ≠
        some ((1 : Scalar) • sampleGroup.generator) := by
  have emits : Emits sampleGroup rawSigner 1 highDigest 1 := rawSigner_emits (by decide +kernel)
  have high : High (sampleGroup.signWith 1 1 (highDigest.toNat : Scalar)).s := by
    simp only [Curve.signWith, inv_one, one_mul]
    decide +kernel
  exact not_recover_of_high one_ne_zero emits high

end Sample

end ZkTls
