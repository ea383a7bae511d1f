import VerifiableRag.ZkTls.LowS
import VerifiableRag.ZkTls.RelayerRuns

/-!
Which proofs of the enclave the relayer takes: a proof that `generate_proof` made is accepted in
a run at any time within its window, from anyone, until it has been accepted once.
-/
namespace ZkTls
open Bytes Transaction Ownable Ecdsa Kms

theorem generateProof_version {Filter Point : Type} {jq : Jq Filter} {k256 : K256 Point}
    {keccak256 : List UInt8 → Word} {sha256 : List UInt8 → Block 32} {req : Request} {p : ZkTlsProof}
    (generated : generateProof jq k256 keccak256 sha256 req = some (.ok p)) :
    p.version = 1 := by
  unfold generateProof at generated
  split at generated
  · cases generated
  · split at generated
    · cases generated
    · obtain ⟨leak, _, built⟩ := Option.map_eq_some_iff.mp generated
      cases leak with
      | true => cases built
      | false =>
        cases built
        rfl

namespace ZkTlsRelayer
variable {Filter Point : Type} [AddCommGroup Point] [Module Scalar Point]
  {jq : Jq Filter} {curve : Secp256k1 Point} {crypto : Crypto} {sha256 : List UInt8 → Block 32}

theorem signature_reduced (d : Scalar) (digest : Word) :
    (curve.signature d digest).xReduced = true ↔ ¬ curve.SmallNonce d digest := by
  rw [Secp256k1.SmallNonce, not_lt, Secp256k1.signature, Curve.sign]
  split <;> simp [Curve.signWith]

theorem signPayload_signature {d : Scalar} (key : d ≠ 0) (payload : List UInt8) :
    let sig := curve.signature d (crypto.keccak256 payload)
    signPayload curve.k256 crypto.keccak256 d payload =
      (scalarBytes sig.r, scalarBytes sig.s, RecoveryId.toByte ⟨sig.yOdd, sig.xReduced⟩) := by
  intro sig
  have low := curve.signature_low key (crypto.keccak256 payload)
  simp only [signPayload, Secp256k1.k256, low, Option.getD_none, sig]

theorem lowHalf_signature {d : Scalar} (key : d ≠ 0) (digest : Word) :
    LowHalf (scalarBytes (curve.signature d digest).s) := by
  have low := curve.signature_low key digest
  rw [LowHalf, decode_scalarBytes]
  unfold normalizeS at low
  split at low
  · cases low
  · rename_i small
    exact not_lt.mp small

variable [DecidableEq Point]

/-- The `ecrecover` precompile: `v` is 27 or 28, and a recovered key is given by its address. -/
structure Ecrecover (crypto : Crypto) (curve : Secp256k1 Point) : Prop where
  other : ∀ digest v r s, v ≠ 27 → v ≠ 28 → crypto.ecrecover digest v r s = 0
  recovers : ∀ digest (r s : Block 32) (odd : Bool), LowHalf s →
    crypto.ecrecover digest (if odd then 28 else 27) (Word.ofBytes r.toList) (Word.ofBytes s.toList) =
      ((recoverEmitted curve.toCurve digest r s (if odd then 1 else 0)).map
        (addressOf curve.k256 crypto.keccak256)).getD 0

/-- The address of the enclave's identity key. -/
def identity (curve : Secp256k1 Point) (crypto : Crypto) (d : Scalar) : Address :=
  addressOf curve.k256 crypto.keccak256 (d • curve.generator)

/-- The relayer recovers the enclave from a proof of the enclave, unless the nonce point of the
    signature had to be reduced: then it recovers nothing. -/
theorem recovered_signer (precompile : Ecrecover crypto curve) {d : Scalar} (key : d ≠ 0)
    {p : ZkTlsProof} {f : ProofFields} (agrees : Agrees p f)
    (signed : (p.r, p.s, p.v) = signPayload curve.k256 crypto.keccak256 d p.payload) :
    (curve.SmallNonce d (crypto.keccak256 p.payload) → f.signer crypto = identity curve crypto d) ∧
      (¬ curve.SmallNonce d (crypto.keccak256 p.payload) → f.signer crypto = 0) := by
  rw [signPayload_signature key, Prod.mk.injEq, Prod.mk.injEq] at signed
  obtain ⟨r_eq, s_eq, v_eq⟩ := signed
  have r_word : f.r = Word.ofBytes p.r.toList := by rw [← agrees.r, Word.ofBytes_bytes]
  have s_word : f.s = Word.ofBytes p.s.toList := by rw [← agrees.s, Word.ofBytes_bytes]
  have digest : f.digest crypto = crypto.keccak256 p.payload := by
    rw [ProofFields.digest, packed_of_agrees agrees]
  obtain ⟨r, s⟩ := curve.signature_nonzero key (crypto.keccak256 p.payload)
  constructor
  · intro small
    have reduced : (curve.signature d (crypto.keccak256 p.payload)).xReduced = false := by
      rw [Bool.eq_false_iff, ne_eq, signature_reduced]
      exact not_not.mpr small
    have v : UInt8.ofNat (27 + f.v.toNat) =
        if (curve.signature d (crypto.keccak256 p.payload)).yOdd then 28 else 27 := by
      rw [agrees.v, v_eq, reduced]
      cases (curve.signature d (crypto.keccak256 p.payload)).yOdd <;> decide
    have back := Curve.recover_sign (curve.suitable d (crypto.keccak256 p.payload) key) key
    have emitted := recoverEmitted_scalarBytes curve.toCurve (crypto.keccak256 p.payload) r s
      (v := if (curve.signature d (crypto.keccak256 p.payload)).yOdd then 1 else 0)
      (by rw [reduced]; exact parity_id _)
    rw [ProofFields.signer, digest, v, r_word, s_word, s_eq, r_eq,
      precompile.recovers _ _ _ _ (lowHalf_signature key _), emitted, Secp256k1.signature, back]
    rfl
  · intro large
    have reduced := (signature_reduced d (crypto.keccak256 p.payload)).mpr large
    rw [ProofFields.signer, agrees.v, v_eq, reduced]
    apply precompile.other
    · cases (curve.signature d (crypto.keccak256 p.payload)).yOdd <;> decide
    · cases (curve.signature d (crypto.keccak256 p.payload)).yOdd <;> decide

/-- What must hold when a relay with these arguments meets a store for the proof to be taken. -/
structure Relayable (crypto : Crypto) (curve : Secp256k1 Point) (d : Scalar) (p : ZkTlsProof)
    (s : State) (now urlHash dataHash : Word) : Prop where
  url : urlHash = Word.ofBytes p.urlHash.toList
  data : dataHash = Word.ofBytes p.dataHash.toList
  not_ahead : p.timestamp.toNat ≤ now.toNat + 300
  not_behind : now.toNat ≤ p.timestamp.toNat + 300
  room : now.toNat + 300 < 2 ^ 256 ∧ p.timestamp.toNat + 300 < 2 ^ 64
  small : curve.SmallNonce d (crypto.keccak256 p.payload)
  identified : identity curve crypto d ≠ 0
  registered : s.zkTlsSigners (identity curve crypto d) = true

theorem accepted_iff (precompile : Ecrecover crypto curve) {req : Request} {p : ZkTlsProof}
    (key : req.signer ≠ 0)
    (generated : generateProof jq curve.k256 crypto.keccak256 sha256 req = some (.ok p))
    {s : State} {now urlHash dataHash : Word} {proof : CalldataBytes}
    (wire : proof.bytes = p.toBytes) :
    (∃ f, Accepted crypto s now proof urlHash dataHash f) ↔
      Relayable crypto curve req.signer p s now urlHash dataHash ∧
        s.usedProofs (crypto.keccak256 p.payload) = false := by
  obtain ⟨f, decoded, agrees⟩ := decodeProof_agrees (generateProof_version generated) wire
  have digest : f.digest crypto = crypto.keccak256 p.payload := by
    rw [ProofFields.digest, packed_of_agrees agrees]
  have url : f.urlHash = Word.ofBytes p.urlHash.toList := by
    rw [← agrees.urlHash, Word.ofBytes_bytes]
  have data : f.dataHash = Word.ofBytes p.dataHash.toList := by
    rw [← agrees.dataHash, Word.ofBytes_bytes]
  obtain ⟨recovered, lost⟩ := recovered_signer precompile key agrees (generateProof_signed generated)
  have v_bound : 27 + f.v.toNat < 2 ^ 8 := by
    have signed := generateProof_signed generated
    rw [signPayload_signature key, Prod.mk.injEq, Prod.mk.injEq] at signed
    rw [agrees.v, signed.2.2]
    cases (curve.signature req.signer (crypto.keccak256 p.payload)).yOdd <;>
      cases (curve.signature req.signer (crypto.keccak256 p.payload)).xReduced <;> decide
  constructor
  · intro h
    obtain ⟨f', accepted⟩ := h
    obtain rfl : f = f' := Except.ok.inj (decoded.symm.trans accepted.decoded)
    have small : curve.SmallNonce req.signer (crypto.keccak256 p.payload) := by
      by_contra large
      exact accepted.recovered (lost large)
    have signer := recovered small
    refine ⟨⟨?_, ?_, ?_, ?_, ?_, small, ?_, ?_⟩, ?_⟩
    · rw [← accepted.url, url]
    · rw [← accepted.data, data]
    · rw [← agrees.ts]
      exact accepted.not_ahead
    · rw [← agrees.ts]
      exact accepted.not_behind
    · rw [← agrees.ts]
      exact ⟨accepted.no_overflow.1, accepted.no_overflow.2.1⟩
    · rw [← signer]
      exact accepted.recovered
    · rw [← signer]
      exact accepted.registered
    · rw [← digest]
      exact accepted.fresh
  · intro h
    obtain ⟨relayable, fresh⟩ := h
    have signer := recovered relayable.small
    refine ⟨f, decoded, ?_, ?_, ?_, ?_, ?_, ?_, ?_, ?_⟩
    · rw [url, relayable.url]
    · rw [data, relayable.data]
    · rw [agrees.ts]
      exact relayable.not_ahead
    · rw [agrees.ts]
      exact relayable.not_behind
    · rw [agrees.ts]
      exact ⟨relayable.room.1, relayable.room.2, v_bound⟩
    · rw [digest]
      exact fresh
    · rw [signer]
      exact relayable.identified
    · rw [signer]
      exact relayable.registered

/-- A digest is used in a run exactly when a relay of it was accepted. -/
theorem used_iff {owner : Address} {s₀ : State} (deployed : deploy owner = .ok s₀) (txs : List Tx)
    (digest : Word) : ((machine crypto).run s₀ txs).usedProofs digest = true ↔
      ∃ e ∈ (machine crypto).trace s₀ txs, Accepts crypto digest e := by
  constructor
  · intro used
    have unused : ¬ s₀.usedProofs digest = true := by
      unfold deploy at deployed
      split at deployed
      · cases deployed
      · cases deployed
        exact Bool.false_ne_true
    obtain ⟨e, member, before, b, s', ok, now_used⟩ :=
      Machine.run_cause (fun s : State => s.usedProofs digest = true) unused used
    have run : (exec crypto e.input).run e.before = .ok (b, s') :=
      (Machine.trace_outcome member).symm.trans ok
    rcases exec_cases run with ⟨_, same⟩ | ⟨proof, urlHash, dataHash, f, call, accepted, rfl⟩
    · rw [same] at now_used
      exact absurd now_used before
    · have here : digest = f.digest crypto := by
        by_contra other
        exact before (by simpa [State.relayed, Function.update_of_ne other] using now_used)
      exact ⟨e, member, proof, urlHash, dataHash, f, _, call, accepted.decoded, here.symm, ok⟩
  · intro h
    obtain ⟨e, member, accepts⟩ := h
    have kept : ∀ txs s, e ∈ (machine crypto).trace s txs →
        ((machine crypto).run s txs).usedProofs digest = true := by
      intro txs
      induction txs with
      | nil =>
        intro s member
        cases member
      | cons tx rest ih =>
        intro s member
        rcases List.mem_cons.mp member with rfl | later
        · exact Machine.run_keeps (used_keeps digest) (accepts_once accepts).2 rest
        · exact ih _ later
    exact kept txs s₀ member

/-- Exact acceptance over runs: whatever went before, a relay of a proof that the enclave made
    succeeds just if its hashes are given, the time is within the window, the enclave's address
    is registered and no relay of the proof has succeeded yet; and then its data are recorded. -/
theorem relay_accepts_iff (precompile : Ecrecover crypto curve) {req : Request} {p : ZkTlsProof}
    (key : req.signer ≠ 0)
    (generated : generateProof jq curve.k256 crypto.keccak256 sha256 req = some (.ok p))
    {owner : Address} {s₀ : State} (deployed : deploy owner = .ok s₀) (txs : List Tx)
    (sender : Address) (now urlHash dataHash : Word) (proof : CalldataBytes)
    (wire : proof.bytes = p.toBytes) :
    let s := (machine crypto).run s₀ txs
    let relay : Tx := ⟨sender, now, .relayVerifiedWeb2Data proof urlHash dataHash⟩
    ((∃ r, (exec crypto relay).run s = .ok r) ↔
      Relayable crypto curve req.signer p s now urlHash dataHash ∧
        ∀ e ∈ (machine crypto).trace s₀ txs, ¬ Accepts crypto (crypto.keccak256 p.payload) e) ∧
    ((∃ r, (exec crypto relay).run s = .ok r) →
      ((machine crypto).run s₀ (txs ++ [relay])).verifiedWeb2Data urlHash = ⟨dataHash, now⟩) := by
  intro s relay
  have ran : (∃ r, (exec crypto relay).run s = .ok r) ↔
      ∃ f, Accepted crypto s now proof urlHash dataHash f := by
    constructor
    · intro h
      obtain ⟨r, ok⟩ := h
      obtain ⟨f, accepted, _⟩ := relay_ok.mp ok
      exact ⟨f, accepted⟩
    · intro h
      obtain ⟨f, accepted⟩ := h
      exact ⟨_, relay_ok.mpr ⟨f, accepted, rfl⟩⟩
  constructor
  · rw [ran, accepted_iff precompile key generated wire]
    refine and_congr_right fun _ => ?_
    rw [Bool.eq_false_iff, ne_eq, used_iff deployed]
    simp
  · intro h
    obtain ⟨r, ok⟩ := h
    obtain ⟨f, accepted, rfl⟩ := relay_ok.mp ok
    rw [Machine.run_append]
    change ((machine crypto).step s relay).verifiedWeb2Data urlHash = _
    have after : (machine crypto).step s relay = s.relayed crypto now f := after_ok ok
    rw [after, State.relayed, ← accepted.url, ← accepted.data]
    exact Function.update_self _ _ _

section Sample

/-- A precompile over the sample group. -/
def recoveringCrypto : Crypto where
  keccak256 _ := 9
  ecrecover digest v r s :=
    if v = 27 ∨ v = 28 then
      ((recoverEmitted sampleGroup digest ⟨r.bytes, r.bytes_length⟩ ⟨s.bytes, s.bytes_length⟩
        (if v = 28 then 1 else 0)).map (addressOf sampleCurve.k256 fun _ => 9)).getD 0
    else 0

theorem recoveringCrypto_ecrecover : Ecrecover recoveringCrypto sampleCurve := by
  constructor
  · intro digest v r s not_even not_odd
    exact if_neg (not_or.mpr ⟨not_even, not_odd⟩)
  · intro digest r s odd _
    have r_block : (⟨(Word.ofBytes r.toList).bytes, Word.bytes_length _⟩ : Block 32) = r :=
      Subtype.ext (Word.bytes_ofBytes r.toList_length)
    have s_block : (⟨(Word.ofBytes s.toList).bytes, Word.bytes_length _⟩ : Block 32) = s :=
      Subtype.ext (Word.bytes_ofBytes s.toList_length)
    cases odd <;> simp [recoveringCrypto, r_block, s_block, sampleCurve]

/-- The owner registers the enclave; a bystander relays its proof 100 seconds after its making. -/
theorem relay_accepts_iff_sample : ∃ p proof,
    generateProof sampleJq sampleCurve.k256 recoveringCrypto.keccak256 sampleSha256
      (sampleRequest ".a") = some (.ok p) ∧
    ((machine recoveringCrypto).run ⟨1, fun _ => false, fun _ => ⟨0, 0⟩, fun _ => false,
        [.ownershipTransferred 0 1]⟩ ([⟨1, 990, .registerZkTlsSigner 9⟩] ++
          [⟨5, 1700000100, .relayVerifiedWeb2Data proof (Word.ofBytes p.urlHash.toList)
            (Word.ofBytes p.dataHash.toList)⟩])).verifiedWeb2Data (Word.ofBytes p.urlHash.toList) =
      ⟨Word.ofBytes p.dataHash.toList, 1700000100⟩ := by
  have ok : ∃ p, generateProof sampleJq sampleCurve.k256 recoveringCrypto.keccak256 sampleSha256
      (sampleRequest ".a") = some (.ok p) := by
    have selected : jqSelect sampleJq (sampleRequest ".a").responseBody (sampleRequest ".a").selector =
        .ok (selection ".a") := sample_selects ".a" (by decide)
    simp [generateProof, sampleRequest] at selected ⊢
    simp [selected, leaked]
  obtain ⟨p, generated⟩ := ok
  obtain ⟨_, timestamp, _, clock, payload⟩ := generateProof_ok generated
  cases clock
  have stamp : p.timestamp = 1700000000 := (canonicalPayload_injective payload).2.2.2.2.1
  have inside : 0 + 218 ≤ p.toBytes.length := by rw [p.toBytes_length]
  refine ⟨p, ⟨p.toBytes, 0, 218, inside⟩, generated, ?_⟩
  have wire : CalldataBytes.bytes ⟨p.toBytes, 0, 218, inside⟩ = p.toBytes :=
    List.take_of_length_le (by rw [List.drop_zero, p.toBytes_length])
  obtain ⟨accepts, records⟩ := relay_accepts_iff recoveringCrypto_ecrecover (by decide) generated
    (show deploy 1 = .ok _ from rfl) [⟨1, 990, .registerZkTlsSigner 9⟩] 5 1700000100
    (Word.ofBytes p.urlHash.toList) (Word.ofBytes p.dataHash.toList) _ wire
  refine records (accepts.mpr ⟨⟨rfl, rfl, ?_, ?_, ?_, ?_, by decide, by decide +kernel⟩, ?_⟩)
  · rw [stamp]
    decide
  · rw [stamp]
    decide
  · rw [stamp]
    decide
  · have small : sampleCurve.SmallNonce signingKey 9 := by
      rw [Secp256k1.SmallNonce]
      decide +kernel
    exact small
  · intro e member accepted
    obtain rfl := List.mem_singleton.mp member
    obtain ⟨_, _, _, _, _, call, _⟩ := accepted
    cases call

end Sample

end ZkTlsRelayer

end ZkTls
