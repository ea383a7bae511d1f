import VerifiableRag.Contracts.Ledger
import VerifiableRag.Kms.Gate
import VerifiableRag.Kms.GroupOrder
import VerifiableRag.Library.EventLog

/-!
The KMS signers over whole runs of the contract: whose signatures it acts on, and until when.
-/
namespace VerifiableRag
open Bytes Transaction Ownable Results EventLog

variable {Proof : Type} {prim : Primitives Proof}

/-- The registered signers after a successful call. -/
def Method.signersAfter (signers : Address → Bool) : Method → Address → Bool
  | .registerKmsSigner signer => Function.update signers signer true
  | .deregisterKmsSigner signer => Function.update signers signer false
  | _ => signers

/-- A successful call of the owner. -/
def OwnerCalls (call : Method) (e : Entry State (Tx Proof) Returned Error) : Prop :=
  e.input.call = call ∧ e.input.sender = e.before.owner ∧ Succeeds e

/-- The owner has registered the signer and not deregistered it since. -/
def StandsRegistered (signer : Address) (trace : List (Entry State (Tx Proof) Returned Error)) :
    Prop :=
  Since (OwnerCalls (.registerKmsSigner signer)) (OwnerCalls (.deregisterKmsSigner signer)) trace

theorem exec_signers {tx : Tx Proof} {s s' : State} {x : Returned}
    (ok : (exec prim tx).run s = .ok (x, s')) :
    s'.kmsSigners = tx.call.signersAfter s.kmsSigners ∧
      ∀ signer, tx.call = .registerKmsSigner signer ∨ tx.call = .deregisterKmsSigner signer →
        tx.sender = s.owner := by
  unfold exec at ok
  split at ok
  case h_8 r call =>
    rw [call]
    simp only [bind_ok, pure_ok, Prod.mk.injEq] at ok
    obtain ⟨b, _, settled, _, rfl⟩ := ok
    obtain ⟨_, _, _, _, _, _, _, _, _, _, _, rfl⟩ := verifyAndSettleRAG_ok settled
    exact ⟨rfl, by simp⟩
  all_goals
    rename_i call
    rw [call]
    simp only [updateApprovedImageDigest, updateZkTlsRelayer, updatePriceFeedId, registerKmsSigner,
      deregisterKmsSigner, executeKmsSignedAction, submitAttestation, emit, bind_assoc,
      onlyOwner_bind_ok, transferOwnership_bind_ok, renounceOwnership_bind_ok, revertIf_bind_ok,
      get_bind_ok, lift_bind_ok, modify_bind_ok, pure_bind, pure_ok, Prod.mk.injEq] at ok
  case h_4 =>
    obtain ⟨owner, _, _, _, rfl⟩ := ok
    exact ⟨rfl, fun _ _ => owner.symm⟩
  case h_5 =>
    obtain ⟨owner, _, _, rfl⟩ := ok
    exact ⟨rfl, fun _ _ => owner.symm⟩
  case h_1 =>
    obtain ⟨_, _, _, _, rfl⟩ := ok
    exact ⟨rfl, by simp⟩
  case h_2 =>
    obtain ⟨_, _, _, _, rfl⟩ := ok
    exact ⟨rfl, by simp⟩
  case h_3 =>
    obtain ⟨_, _, _, _, rfl⟩ := ok
    exact ⟨rfl, by simp⟩
  case h_6 =>
    obtain ⟨_, _, _, _, rfl⟩ := ok
    exact ⟨rfl, by simp⟩
  case h_7 =>
    obtain ⟨_, _, _, rfl⟩ := ok
    exact ⟨rfl, by simp⟩
  case h_9 =>
    obtain ⟨_, _, _, rfl⟩ := ok
    exact ⟨rfl, by simp⟩
  case h_10 =>
    obtain ⟨_, _, rfl⟩ := ok
    exact ⟨rfl, by simp⟩

/-- What one transaction does to one signer. -/
theorem signer_step (signer : Address) (s : State) (tx : Tx Proof) :
    ((machine prim).step s tx).kmsSigners signer = true ↔
      OwnerCalls (.registerKmsSigner signer) ((machine prim).entry s tx) ∨
        s.kmsSigners signer = true ∧
          ¬ OwnerCalls (.deregisterKmsSigner signer) ((machine prim).entry s tx) := by
  cases outcome : (exec prim tx).run s with
  | error e =>
    have reverted : ((machine prim).entry s tx).outcome = .error e := outcome
    have none_called : ∀ call, ¬ OwnerCalls call ((machine prim).entry s tx) := by
      rintro call ⟨_, _, x, s', ok⟩
      rw [reverted] at ok
      cases ok
    rw [Machine.step, after_reverted reverted]
    simp only [none_called, not_false_eq_true, and_true, false_or]
    rfl
  | ok result =>
    obtain ⟨x, s'⟩ := result
    have accepted : ((machine prim).entry s tx).outcome = .ok (x, s') := outcome
    obtain ⟨signers, owner⟩ := exec_signers outcome
    have calls (call : Method) : OwnerCalls call ((machine prim).entry s tx) ↔
        tx.call = call ∧ tx.sender = s.owner :=
      ⟨fun calls => ⟨calls.1, calls.2.1⟩, fun calls => ⟨calls.1, calls.2, x, s', accepted⟩⟩
    rw [Machine.step, after_ok accepted, signers, calls, calls]
    cases call : tx.call with
    | registerKmsSigner other =>
      have sent := owner other (Or.inl call)
      by_cases same : other = signer
      · simp [Method.signersAfter, same, sent]
      · simp [Method.signersAfter, same, Function.update_of_ne (Ne.symm same)]
    | deregisterKmsSigner other =>
      have sent := owner other (Or.inr call)
      by_cases same : other = signer
      · simp [Method.signersAfter, same, sent]
      · simp [Method.signersAfter, same, Function.update_of_ne (Ne.symm same)]
    | _ => simp [Method.signersAfter]

theorem deployed_signers {owner registry : Address} {digest : Word} {s₀ : State}
    (deployed : deploy owner registry digest = .ok s₀) (signer : Address) :
    ¬ s₀.kmsSigners signer = true := by
  unfold deploy at deployed
  iterate 3
    split at deployed
    · cases deployed
  cases deployed
  exact Bool.false_ne_true

theorem signer_since {owner registry : Address} {digest : Word} {s₀ : State}
    (deployed : deploy owner registry digest = .ok s₀) (txs : List (Tx Proof)) (signer : Address) :
    ((machine prim).run s₀ txs).kmsSigners signer = true ↔
      StandsRegistered signer ((machine prim).trace s₀ txs) :=
  @run_since _ _ _ _ (machine prim) (fun s => s.kmsSigners signer = true) _ _ (signer_step signer)
    s₀ (deployed_signers deployed signer) txs

theorem execute_accepts_iff {tx : Tx Proof} {actionHash r s : Word} {v : UInt8} {state : State}
    (call : tx.call = .executeKmsSignedAction actionHash v r s) :
    (∃ x s', (exec prim tx).run state = .ok (x, s')) ↔
      actionHash ≠ 0 ∧ prim.ecrecover actionHash v r s ≠ 0 ∧
        state.kmsSigners (prim.ecrecover actionHash v r s) = true := by
  unfold exec
  rw [call]
  simp only [executeKmsSignedAction, requireKmsSignature, emit, bind_assoc, revertIf_bind_ok,
    get_bind_ok, lift_bind_ok, modify_bind_ok, pure_bind, pure_ok, except_bind_ok, view_revertIf_ok,
    except_pure_ok, Bool.not_eq_false]
  constructor
  · rintro ⟨x, s', given, signer, ⟨_, nonzero, _, known, rfl⟩, _⟩
    exact ⟨given, nonzero, known⟩
  · rintro ⟨given, nonzero, known⟩
    exact ⟨_, _, given, _, ⟨(), nonzero, (), known, rfl⟩, rfl⟩

section Wallet
variable {Point : Type} [AddCommGroup Point] [Module Kms.Scalar Point] [DecidableEq Point]
  {k256 : Kms.K256 Point}

section Sample

/-- The curve by discrete logarithms; beside the sample signature, the key itself stands in `r`. -/
def openK256 : Kms.K256 Kms.Scalar where
  generator := 1
  coordinates := Kms.sampleK256.coordinates
  signDigestRecoverable d digest :=
    if d = (3 : ℕ) ∧ digest = Kms.sampleDigest then ((Kms.sampleR, Kms.sampleS), ⟨true, false⟩)
    else ((d, 1), ⟨false, false⟩)

def openPrimitives : Primitives Unit :=
  { Kms.samplePrimitives with
    ecrecover := fun digest v r s =>
      if digest = Kms.sampleDigest ∧ v = 28 ∧ r = Word.ofBytes (Kms.scalarBytes Kms.sampleR).toList ∧
        s = Word.ofBytes (Kms.scalarBytes Kms.sampleS).toList then
        0x6813eb9362372eef6200f3b1dbc3f819671cba69
      else Kms.addressOf openK256 Kms.samplePrimitives.keccak256 (r.toNat : Kms.Scalar) }

theorem open_signed {d : Kms.Scalar} {digest : Word}
    (other : ¬ (d = (3 : ℕ) ∧ digest = Kms.sampleDigest)) :
    openK256.signDigestRecoverable d digest = ((d, 1), ⟨false, false⟩) := if_neg other

theorem open_standard : Kms.Standard openPrimitives openK256 := by
  constructor
  · intro d digest
    by_cases sample : d = (3 : ℕ) ∧ digest = Kms.sampleDigest
    · obtain ⟨rfl, rfl⟩ := sample
      decide +kernel
    · rw [open_signed sample]
      have one : Kms.normalizeS 1 = none := by decide +kernel
      exact one
  · intro d digest _
    have generated : d • openK256.generator = d := mul_one d
    rw [generated]
    by_cases sample : d = (3 : ℕ) ∧ digest = Kms.sampleDigest
    · obtain ⟨rfl, rfl⟩ := sample
      decide +kernel
    · have back : ((Word.ofBytes (Kms.scalarBytes d).toList).toNat : Kms.Scalar) = d := by
        rw [Word.toNat_ofBytes (Kms.scalarBytes d).toList_length, Kms.decode_scalarBytes,
          ZMod.natCast_val, ZMod.cast_id]
      rw [open_signed sample]
      change (if _ then _ else Kms.addressOf openK256 _ _) = _
      have even : ¬ (27 : UInt8) = 28 := by decide
      rw [if_neg (fun matched => even matched.2.1), back]
      rfl

/-- The owner registers the composed address and somebody uses a signature of the shares. -/
def walletTxs : List (Tx Unit) :=
  [⟨1, 990, sampleAnswers, .registerKmsSigner 0x6813eb9362372eef6200f3b1dbc3f819671cba69⟩,
    ⟨4, 995, sampleAnswers, .executeKmsSignedAction Kms.sampleDigest (27 + Kms.sampleSignature.yParity)
      (Word.ofBytes Kms.sampleSignature.r.toList) (Word.ofBytes Kms.sampleSignature.s.toList)⟩]

end Sample

end Wallet

end VerifiableRag
