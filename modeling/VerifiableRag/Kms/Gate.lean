import VerifiableRag.Contracts.Contract
import VerifiableRag.Kms.MpcSigner

/-!
The enclave's signatures at the KMS gate of the contract. The packed form ends with
the bare y-parity, where the `ecrecover` precompile wants 27 or 28.
-/
namespace Kms
open Bytes Transaction Ownable Results VerifiableRag

variable {Proof Point : Type} [AddCommGroup Point] [Module Scalar Point] [DecidableEq Point]

/-- The `ecrecover` precompile answers for `v` = 27 and 28 only. -/
def Precompile (prim : Primitives Proof) : Prop :=
  ∀ digest v r s, v ≠ 27 → v ≠ 28 → prim.ecrecover digest v r s = 0

/-- The gate on a digest and a packed signature `r || s || v`. -/
def gatePacked (prim : Primitives Proof) (state : State) (digest : Word) (packed : Block 65) :
    View Error Address :=
  requireKmsSignature prim state digest (packed.get 64) (Word.ofBytes (packed.toList.take 32))
    (Word.ofBytes ((packed.toList.drop 32).take 32))

def executePacked (prim : Primitives Proof) (now digest : Word) (packed : Block 65) :
    Call State Error Address :=
  executeKmsSignedAction prim now digest (packed.get 64) (Word.ofBytes (packed.toList.take 32))
    (Word.ofBytes ((packed.toList.drop 32).take 32))

theorem packed_v (sig : SignatureParts) : sig.toEcrecoverBytes.get 64 = sig.yParity := by
  have last : sig.toEcrecoverBytes.toList[64]? = some sig.yParity := by
    change (sig.r.toList ++ sig.s.toList ++ [sig.yParity])[64]? = _
    rw [List.getElem?_append_right (by simp)]
    simp
  rw [List.Vector.get_eq_get_toList]
  exact Option.some.inj ((List.getElem?_eq_getElem _).symm.trans last)

section Gate
variable {prim : Primitives Proof} {state : State} {digest r s : Word} {v : UInt8}

theorem gate_zero (none : prim.ecrecover digest v r s = 0) :
    requireKmsSignature prim state digest v r s = .error (.error .zeroSigner) := by
  rw [requireKmsSignature, none]
  rfl

theorem gate_unregistered (unregistered : state.kmsSigners (prim.ecrecover digest v r s) = false) :
    ∃ e, requireKmsSignature prim state digest v r s = .error e := by
  cases run : requireKmsSignature prim state digest v r s with
  | error e => exact ⟨e, rfl⟩
  | ok signer =>
    simp only [requireKmsSignature, except_bind_ok, view_revertIf_ok, except_pure_ok,
      unregistered] at run
    simp at run

theorem gate_registered (recovered : prim.ecrecover digest v r s ≠ 0)
    (registered : state.kmsSigners (prim.ecrecover digest v r s) = true) :
    requireKmsSignature prim state digest v r s = .ok (prim.ecrecover digest v r s) := by
  have known : ¬ state.kmsSigners (prim.ecrecover digest v r s) = false := by simp [registered]
  simp only [requireKmsSignature, except_bind_ok, view_revertIf_ok, except_pure_ok, exists_const]
  exact ⟨recovered, known, trivial⟩

theorem execute_refused {now : Word} {e : Revert Error} (given : digest ≠ 0)
    (refused : requireKmsSignature prim state digest v r s = .error e) :
    (executeKmsSignedAction prim now digest v r s).run state = .error e := by
  rw [executeKmsSignedAction, revertIf_bind_pass given, get_bind]
  exact lift_bind_error refused

end Gate

/-- No signature of the enclave passes the gate: for every pair of shares, every
    digest and every signature it emits, both entry points revert `ZeroSigner`. A
    signature of an unregistered address is refused as well. -/
theorem kms_gate_refuses {prim : Primitives Proof} (precompile : Precompile prim)
    (k256 : K256 Point) (state : State) :
    (∀ (s1 s2 : KeyShare) (registered : Address) (digest : Word) (sig : SignatureParts),
      s1.toScalar ≠ 0 → s2.toScalar ≠ 0 → s1.toScalar + s2.toScalar ≠ 0 →
      composedAddress k256 prim.keccak256 s1 s2 = some registered →
      state.kmsSigners registered = true → digest ≠ 0 →
      signDigest k256 (s1.toScalar + s2.toScalar) digest = some sig →
      gatePacked prim state digest sig.toEcrecoverBytes = .error (.error .zeroSigner) ∧
      ∀ now, (executePacked prim now digest sig.toEcrecoverBytes).run state =
        .error (.error .zeroSigner)) ∧
    (∀ digest v r s, state.kmsSigners (prim.ecrecover digest v r s) = false →
      ∃ e, requireKmsSignature prim state digest v r s = .error e) := by
  refine ⟨?_, fun digest v r s => gate_unregistered⟩
  intro s1 s2 registered digest sig _ _ _ _ _ given signed
  have refused : gatePacked prim state digest sig.toEcrecoverBytes =
      .error (.error .zeroSigner) := by
    rw [gatePacked, packed_v]
    apply gate_zero
    rcases signDigest_parity k256 signed with even | odd
    · exact precompile _ _ _ _ (by rw [even]; decide) (by rw [even]; decide)
    · exact precompile _ _ _ _ (by rw [odd]; decide) (by rw [odd]; decide)
  exact ⟨refused, fun now => execute_refused given refused⟩

section Sample

/-- A signature by the key 3 = 1 + 2 and what hashing and recovery give on it. The
    curve is represented by discrete logarithms. -/
def sampleDigest : Word := 0x04a15ad0dc729815ae1af745ee221d0a7ef107b4e68e6ee087f7f673aa874ec5

def sampleR : Scalar := 0x4b98bfa885352db1fa44d740bb337cdbe9eff58f71de81b84db3e7781e01c779
def sampleS : Scalar := 0x224ef020d864507c109eaf9d1886c023548f2233f7025774b39e90398cfb4a67

def samplePoint : Nat :=
  0xf9308a019258c31049344f85f89d5229b531c845836f99b08601f113bce036f9 * 2 ^ 256 +
    0x388f7b0f632de8140fe337e62a37f3566500a99934c2231b6cb9fd7584b8e672

def sampleK256 : K256 Scalar where
  generator := 1
  coordinates q := ⟨encode 64 (if q = 3 then samplePoint else 0), encode_length _ _⟩
  signDigestRecoverable d digest :=
    if d = 3 ∧ digest = sampleDigest then ((sampleR, sampleS), ⟨true, false⟩)
    else ((1, 1), ⟨false, false⟩)

def samplePrimitives : Primitives Unit where
  keccak256 bytes :=
    if bytes = encode 64 samplePoint then
      0x75bf18e34f9add02a2fe5a146813eb9362372eef6200f3b1dbc3f819671cba69
    else 0
  ecrecover digest v r s :=
    if digest = sampleDigest ∧ v = 28 ∧ r = Word.ofBytes (scalarBytes sampleR).toList ∧
      s = Word.ofBytes (scalarBytes sampleS).toList then
      0x6813eb9362372eef6200f3b1dbc3f819671cba69
    else 0
  decodeProof _ := none
  votingRound _ := 0

def sampleState : State where
  owner := 1
  contractRegistry := 2
  approvedImageDigest := 3
  priceFeedId := 0
  zkTlsRelayer := 0
  latestProofHash := 0
  latestVerifiedWeb2Hash := 0
  lastSettlementPrice := 0
  lastSettlementValuation := 0
  submittedProofs _ := false
  verifiedQueries _ := ⟨false, 0, 0⟩
  kmsSigners a := a == 0x6813eb9362372eef6200f3b1dbc3f819671cba69
  log := []

def sampleSignature : SignatureParts := ⟨scalarBytes sampleR, scalarBytes sampleS, 1⟩

def sampleShares : KeyShare × KeyShare := (.fromScalar 1, .fromScalar 2)

theorem sample_composed : composedAddress sampleK256 samplePrimitives.keccak256 sampleShares.1
    sampleShares.2 = some 0x6813eb9362372eef6200f3b1dbc3f819671cba69 := by decide +kernel

theorem sample_signed :
    signDigest sampleK256 (sampleShares.1.toScalar + sampleShares.2.toScalar) sampleDigest =
      some sampleSignature := by decide +kernel

theorem sample_precompile : Precompile samplePrimitives := by
  intro digest v r s _ other
  exact if_neg fun matched => other matched.2.1

theorem kms_gate_refuses_sample :
    gatePacked samplePrimitives sampleState sampleDigest sampleSignature.toEcrecoverBytes =
      .error (.error .zeroSigner) :=
  ((kms_gate_refuses sample_precompile sampleK256 sampleState).1 sampleShares.1 sampleShares.2 _
    sampleDigest sampleSignature (by decide +kernel) (by decide +kernel) (by decide +kernel)
    sample_composed (by decide) (by decide) sample_signed).1

theorem kms_gate_refuses_fails :
    composedAddress sampleK256 samplePrimitives.keccak256 sampleShares.1 sampleShares.2 =
      some 0x6813eb9362372eef6200f3b1dbc3f819671cba69 ∧
    sampleState.kmsSigners 0x6813eb9362372eef6200f3b1dbc3f819671cba69 = true ∧
    signDigest sampleK256 (sampleShares.1.toScalar + sampleShares.2.toScalar) sampleDigest =
      some sampleSignature ∧
    gatePacked samplePrimitives sampleState sampleDigest sampleSignature.toEcrecoverBytes ≠
      .ok 0x6813eb9362372eef6200f3b1dbc3f819671cba69 := by
  refine ⟨sample_composed, by decide, sample_signed, ?_⟩
  rw [gatePacked, packed_v, gate_zero (sample_precompile _ _ _ _ (by decide) (by decide))]
  nofun

end Sample

/-- Standard recoverable signatures: low `s`, and recovery of the signer's address
    where `v` is 27 plus the parity of the nonce point. -/
structure Standard (prim : Primitives Proof) (k256 : K256 Point) : Prop where
  low : ∀ d digest, normalizeS (k256.signDigestRecoverable d digest).1.2 = none
  recovers : ∀ d digest, d ≠ 0 →
    prim.ecrecover digest (if (k256.signDigestRecoverable d digest).2.isYOdd then 28 else 27)
      (Word.ofBytes (scalarBytes (k256.signDigestRecoverable d digest).1.1).toList)
      (Word.ofBytes (scalarBytes (k256.signDigestRecoverable d digest).1.2).toList) =
      addressOf k256 prim.keccak256 (d • k256.generator)

/-- Only the offset of `v` is wrong: with 27 added, the address of the shares is recovered. -/
theorem shifted_recovers {prim : Primitives Proof} {k256 : K256 Point}
    (standard : Standard prim k256) {s1 s2 : KeyShare} {wallet : Address} {digest : Word}
    {sig : SignatureParts} (composed : composedAddress k256 prim.keccak256 s1 s2 = some wallet)
    (signed : signDigest k256 (s1.toScalar + s2.toScalar) digest = some sig) :
    prim.ecrecover digest (27 + sig.yParity) (Word.ofBytes sig.r.toList)
      (Word.ofBytes sig.s.toList) = wallet := by
  have address := composedAddress_eq k256 composed
  unfold signDigest at signed
  split at signed
  · cases signed
  rename_i nonzero_key
  have recovered := standard.recovers _ digest nonzero_key
  have low := standard.low (s1.toScalar + s2.toScalar) digest
  rw [← address] at recovered
  generalize k256.signDigestRecoverable (s1.toScalar + s2.toScalar) digest = result
    at signed recovered low
  obtain ⟨⟨r, s⟩, id⟩ := result
  simp only [low, fromByte_toByte, Option.getD_none, Option.getD_some, Option.some.injEq] at signed
  subst signed
  have shifted : (27 + if id.isYOdd then 1 else 0 : UInt8) = if id.isYOdd then 28 else 27 := by
    split <;> rfl
  rw [shifted, recovered]

/-- With 27 added to `v` the gate returns the composed address of the shares. -/
theorem kms_gate_accepts_shifted {prim : Primitives Proof} {k256 : K256 Point}
    (standard : Standard prim k256) {state : State} {s1 s2 : KeyShare} {registered : Address}
    {digest : Word} {sig : SignatureParts}
    (composed : composedAddress k256 prim.keccak256 s1 s2 = some registered)
    (nonzero : registered ≠ 0) (known : state.kmsSigners registered = true)
    (signed : signDigest k256 (s1.toScalar + s2.toScalar) digest = some sig) :
    requireKmsSignature prim state digest (27 + sig.yParity) (Word.ofBytes sig.r.toList)
      (Word.ofBytes sig.s.toList) = .ok registered := by
  have recovered := shifted_recovers standard composed signed
  rw [gate_registered (recovered ▸ nonzero) (recovered ▸ known), recovered]

end Kms
