import VerifiableRag.ZkTls.Wire

/-!
Runs of the relayer. A record needs an accepted relay, and an accepted relay puts
up the flag of its digest, which no transaction takes down again.
-/
namespace ZkTls
open Bytes Transaction Ownable

namespace ZkTlsRelayer
variable {crypto : Crypto}

def ProofFields.digest (crypto : Crypto) (f : ProofFields) : Word := crypto.keccak256 f.packed

def ProofFields.signer (crypto : Crypto) (f : ProofFields) : Address :=
  crypto.ecrecover (f.digest crypto) (UInt8.ofNat (27 + f.v.toNat)) f.r f.s

/-- What the store and the arguments of an accepted relay satisfy. -/
structure Accepted (crypto : Crypto) (s : State) (now : Word) (proof : CalldataBytes)
    (urlHash dataHash : Word) (f : ProofFields) : Prop where
  decoded : decodeProof proof = .ok f
  url : f.urlHash = urlHash
  data : f.dataHash = dataHash
  not_ahead : f.ts.toNat ≤ now.toNat + proofMaxAge
  not_behind : now.toNat ≤ f.ts.toNat + proofMaxAge
  no_overflow : now.toNat + proofMaxAge < 2 ^ 256 ∧ f.ts.toNat + proofMaxAge < 2 ^ 64 ∧
    27 + f.v.toNat < 2 ^ 8
  fresh : s.usedProofs (f.digest crypto) = false
  recovered : f.signer crypto ≠ 0
  registered : s.zkTlsSigners (f.signer crypto) = true

def State.relayed (crypto : Crypto) (s : State) (now : Word) (f : ProofFields) : State :=
  { s with
    usedProofs := Function.update s.usedProofs (f.digest crypto) true
    verifiedWeb2Data := Function.update s.verifiedWeb2Data f.urlHash ⟨f.dataHash, now⟩
    log := s.log ++ [.web2DataRelayed f.urlHash f.dataHash (f.signer crypto) f.responseHash
      f.certFingerprint now] }

theorem relay_ok {now : Word} {proof : CalldataBytes} {urlHash dataHash : Word} {s : State}
    {r : Bool × State} :
    (relayVerifiedWeb2Data crypto now proof urlHash dataHash).run s = .ok r ↔
      ∃ f, Accepted crypto s now proof urlHash dataHash f ∧ r = (true, s.relayed crypto now f) := by
  simp only [relayVerifiedWeb2Data, lift_bind_ok, revertIf_bind_ok, checked_bind_ok, get_bind_ok,
    modify_bind_ok, pure_ok, emit]
  constructor
  · rintro ⟨f, decoded, same, now_fits, ahead, ts_fits, behind, fresh, v_fits, recovered,
      registered, rfl⟩
    obtain ⟨rfl, rfl⟩ : f.urlHash = urlHash ∧ f.dataHash = dataHash := by
      simpa [not_or] using same
    refine ⟨f, ⟨decoded, rfl, rfl, by omega, by omega, ⟨now_fits, ts_fits, v_fits⟩, ?_, recovered,
      ?_⟩, rfl⟩
    · exact Bool.eq_false_iff.mpr fresh
    · exact Bool.of_not_eq_false registered
  · rintro ⟨f, accepted, rfl⟩
    obtain ⟨decoded, rfl, rfl, ahead, behind, ⟨now_fits, ts_fits, v_fits⟩, fresh, recovered,
      registered⟩ := accepted
    exact ⟨f, decoded, by simp, now_fits, by omega, ts_fits, by omega,
      Bool.eq_false_iff.mp fresh, v_fits, recovered,
      by simpa [ProofFields.signer, ProofFields.digest] using registered, rfl⟩

theorem decodeProof_ok {proof : CalldataBytes} {f : ProofFields} (decoded : decodeProof proof = .ok f) :
    proof.bytes.length = 218 ∧ f.version = 1 := by
  unfold decodeProof at decoded
  split at decoded
  · cases decoded
  · rename_i size
    rw [bytes_length]
    split at decoded
    · cases decoded
    · rename_i version first
      split at decoded
      · cases decoded
      · rename_i known
        cases decoded
        exact ⟨not_not.mp size, not_not.mp known⟩

/-- A successful transaction is an accepted relay or leaves records and used digests alone. -/
theorem exec_cases {tx : Tx} {s s' : State} {b : Bool} (ok : (exec crypto tx).run s = .ok (b, s')) :
    (s'.verifiedWeb2Data = s.verifiedWeb2Data ∧ s'.usedProofs = s.usedProofs) ∨
    ∃ proof urlHash dataHash f, tx.call = .relayVerifiedWeb2Data proof urlHash dataHash ∧
      Accepted crypto s tx.now proof urlHash dataHash f ∧ s' = s.relayed crypto tx.now f := by
  unfold exec at ok
  split at ok
  · simp only [registerZkTlsSigner, bind_assoc, onlyOwner_bind_ok, revertIf_bind_ok, get_bind_ok,
      modify_bind_ok, emit, pure_ok, Prod.mk.injEq] at ok
    obtain ⟨_, _, _, _, rfl⟩ := ok
    exact .inl ⟨rfl, rfl⟩
  · simp only [deregisterZkTlsSigner, bind_assoc, onlyOwner_bind_ok, revertIf_bind_ok,
      get_bind_ok, modify_bind_ok, emit, pure_ok, Prod.mk.injEq] at ok
    obtain ⟨_, _, _, rfl⟩ := ok
    exact .inl ⟨rfl, rfl⟩
  · rename_i proof urlHash dataHash call
    obtain ⟨f, accepted, same⟩ := relay_ok.mp ok
    exact .inr ⟨proof, urlHash, dataHash, f, call, accepted, congrArg Prod.snd same⟩
  · simp only [transferOwnership_bind_ok, pure_ok, Prod.mk.injEq] at ok
    obtain ⟨_, _, _, rfl⟩ := ok
    exact .inl ⟨rfl, rfl⟩
  · simp only [renounceOwnership_bind_ok, pure_ok, Prod.mk.injEq] at ok
    obtain ⟨_, _, rfl⟩ := ok
    exact .inl ⟨rfl, rfl⟩

theorem used_keeps (digest : Word) :
    (machine crypto).Keeps fun s => s.usedProofs digest = true := by
  intro s tx b s' used ok
  rcases exec_cases ok with ⟨_, same⟩ | ⟨_, _, _, f, _, _, rfl⟩
  · rw [same]
    exact used
  · by_cases here : digest = f.digest crypto <;> simp [State.relayed, here, used]

def Accepts (crypto : Crypto) (digest : Word) (e : Entry State Tx Bool Error) : Prop :=
  ∃ proof urlHash dataHash f r, e.input.call = .relayVerifiedWeb2Data proof urlHash dataHash ∧
    decodeProof proof = .ok f ∧ f.digest crypto = digest ∧ e.outcome = .ok r

theorem accepts_once {digest : Word} {s : State} {tx : Tx}
    (accepts : Accepts crypto digest ((machine crypto).entry s tx)) :
    ¬ s.usedProofs digest = true ∧ ((machine crypto).step s tx).usedProofs digest = true := by
  obtain ⟨proof, urlHash, dataHash, f, ⟨b, s'⟩, call, decoded, rfl, ok⟩ := accepts
  rw [Machine.step, after_ok ok]
  change (exec crypto tx).run s = .ok (b, s') at ok
  change tx.call = _ at call
  rw [exec, call] at ok
  obtain ⟨f', accepted, same⟩ := relay_ok.mp ok
  obtain rfl : f = f' := Except.ok.inj (decoded.symm.trans accepted.decoded)
  cases same
  exact ⟨Bool.eq_false_iff.mp accepted.fresh, by simp [State.relayed]⟩

theorem deployed_unrecorded {owner : Address} {s₀ : State} (deployed : deploy owner = .ok s₀)
    (u : Word) : s₀.verifiedWeb2Data u = ⟨0, 0⟩ := by
  unfold deploy at deployed
  split at deployed
  · cases deployed
  · cases deployed
    rfl

/-- Safety of the relayer over every run: a record comes from an accepted relay,
    no digest is accepted twice, and a reverted call changes nothing. -/
theorem relayer_safety {owner : Address} {s₀ : State} (deployed : deploy owner = .ok s₀)
    (txs : List Tx) :
    (∀ u d t, ((machine crypto).run s₀ txs).verifiedWeb2Data u = ⟨d, t⟩ → t ≠ 0 →
      ∃ e ∈ (machine crypto).trace s₀ txs, (∃ r, e.outcome = .ok r) ∧ e.input.now = t ∧
        ∃ proof f, e.input.call = .relayVerifiedWeb2Data proof u d ∧ decodeProof proof = .ok f ∧
          (proof.bytes.length = 218 ∧ f.version = 1 ∧ f.urlHash = u ∧ f.dataHash = d) ∧
          (f.ts.toNat ≤ t.toNat + 300 ∧ t.toNat ≤ f.ts.toNat + 300) ∧
          e.before.zkTlsSigners (f.signer crypto) = true) ∧
    (∀ digest, ((machine crypto).trace s₀ txs).Pairwise fun a b =>
      ¬ (Accepts crypto digest a ∧ Accepts crypto digest b)) ∧
    (∀ tx v, (exec crypto tx).run ((machine crypto).run s₀ txs) = .error v →
      (machine crypto).run s₀ (txs ++ [tx]) = (machine crypto).run s₀ txs) := by
  refine ⟨?_, ?_, ?_⟩
  · intro u d t recorded recent
    have absent : ¬ s₀.verifiedWeb2Data u = ⟨d, t⟩ := by
      rw [deployed_unrecorded deployed u]
      intro same
      cases same
      exact recent rfl
    obtain ⟨e, member, old, b, s', ok, new⟩ :=
      Machine.run_cause (fun s : State => s.verifiedWeb2Data u = ⟨d, t⟩) absent recorded
    have run : (exec crypto e.input).run e.before = .ok (b, s') :=
      (Machine.trace_outcome member).symm.trans ok
    refine ⟨e, member, ⟨_, ok⟩, ?_⟩
    rcases exec_cases run with ⟨same, _⟩ | ⟨proof, urlHash, dataHash, f, call, accepted, rfl⟩
    · rw [same] at new
      exact absurd new old
    · obtain ⟨size, version⟩ := decodeProof_ok accepted.decoded
      by_cases here : u = f.urlHash
      · subst here
        simp only [State.relayed, Function.update_self, VerifiedData.mk.injEq] at new
        obtain ⟨rfl, rfl⟩ := new
        obtain ⟨decoded, rfl, rfl, ahead, behind, _, _, _, registered⟩ := accepted
        exact ⟨rfl, proof, f, call, decoded, ⟨size, version, rfl, rfl⟩, ⟨ahead, behind⟩,
          registered⟩
      · simp only [State.relayed, Function.update_of_ne here] at new
        exact absurd new old
  · intro digest
    exact Machine.trace_at_most_once (used_keeps digest) (fun s tx => accepts_once) s₀ txs
  · intro tx v reverted
    exact Machine.run_reverted reverted

section Sample

def sampleCrypto : Crypto := ⟨fun _ => 9, fun _ _ _ _ => 7⟩

def sampleCalldata : CalldataBytes :=
  ⟨sample.toBytes, 0, 218, by rw [sample.toBytes_length]⟩

def sampleRelay : Tx :=
  ⟨2, 1000, .relayVerifiedWeb2Data sampleCalldata (Word.ofBytes sample.urlHash.toList)
    (Word.ofBytes sample.dataHash.toList)⟩

theorem relayer_safety_sample :
    ∃ e ∈ (machine sampleCrypto).trace ⟨1, fun _ => false, fun _ => ⟨0, 0⟩, fun _ => false,
      [.ownershipTransferred 0 1]⟩ [⟨1, 990, .registerZkTlsSigner 7⟩, sampleRelay],
      e.input.now = 1000 ∧ e.before.zkTlsSigners 7 = true := by
  obtain ⟨cause, _, _⟩ := @relayer_safety sampleCrypto 1 _ rfl
    [⟨1, 990, .registerZkTlsSigner 7⟩, sampleRelay]
  obtain ⟨e, member, _, time, _, _, _, _, _, _, registered⟩ :=
    cause (Word.ofBytes sample.urlHash.toList) (Word.ofBytes sample.dataHash.toList) 1000
      (by decide +kernel) (by decide)
  exact ⟨e, member, time, registered⟩

end Sample

end ZkTlsRelayer

end ZkTls
