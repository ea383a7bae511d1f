import VerifiableRag.Contracts.Valuation
import VerifiableRag.Library.EventLog

/-!
Everything that a successful transaction on the settlement contract can do to its store, and
what is left of that for a transaction that the owner did not send.
-/
namespace VerifiableRag
open Bytes Transaction Ownable Results EventLog

variable {Proof : Type} {prim : Primitives Proof}

/-- The store after a successful transaction, with the checks that it passed. -/
inductive Effect (prim : Primitives Proof) (tx : Tx Proof) (s : State) : State → Prop
  | imageDigest {new : Word} (owner : s.owner = tx.sender) (nonzero : new ≠ 0)
      (changes : new ≠ s.approvedImageDigest) :
      Effect prim tx s { s with
        approvedImageDigest := new
        log := s.log ++ [.imageDigestUpdated s.approvedImageDigest new] }
  | relayer {new : Address} (owner : s.owner = tx.sender) (nonzero : new ≠ 0)
      (changes : new ≠ s.zkTlsRelayer) :
      Effect prim tx s { s with
        zkTlsRelayer := new
        log := s.log ++ [.zkTlsRelayerUpdated s.zkTlsRelayer new] }
  | feed {new : FeedId} (owner : s.owner = tx.sender) (nonzero : new ≠ 0)
      (changes : new ≠ s.priceFeedId) :
      Effect prim tx s { s with
        priceFeedId := new
        log := s.log ++ [.priceFeedIdUpdated s.priceFeedId new] }
  | registered {signer : Address} (owner : s.owner = tx.sender) (nonzero : signer ≠ 0)
      (new : s.kmsSigners signer = false) :
      Effect prim tx s { s with
        kmsSigners := Function.update s.kmsSigners signer true
        log := s.log ++ [.kmsSignerRegistered signer] }
  | deregistered {signer : Address} (owner : s.owner = tx.sender)
      (known : s.kmsSigners signer = true) :
      Effect prim tx s { s with
        kmsSigners := Function.update s.kmsSigners signer false
        log := s.log ++ [.kmsSignerDeregistered signer] }
  | action {signer : Address} {actionHash : Word} (given : actionHash ≠ 0) (nonzero : signer ≠ 0)
      (known : s.kmsSigners signer = true) :
      Effect prim tx s { s with
        log := s.log ++ [.kmsActionExecuted signer actionHash tx.now] }
  | submitted {proof : AttestationProof}
      (unused : s.submittedProofs (attestationId prim proof) = false) :
      Effect prim tx s { s with
        submittedProofs := Function.update s.submittedProofs (attestationId prim proof) true
        latestProofHash := attestationId prim proof
        log := s.log ++
          [.attestationSubmitted (attestationId prim proof) tx.sender proof.bindingHash] }
  | settled {r : Settlement} {root valuation : Word} {live : Feed} (query : r.queryHash ≠ 0)
      (unused : s.submittedProofs (r.proofId prim) = false) (quantity : r.settlementQuantity ≠ 0)
      (configured : s.priceFeedId ≠ 0)
      (scaled : scaleValuation r.settlementQuantity live.value live.decimals = .ok valuation) :
      Effect prim tx s (s.settled prim tx.now r root live valuation)
  | ownership {new : Address} (owner : s.owner = tx.sender) :
      Effect prim tx s { s with owner := new, log := s.log ++ [.ownershipTransferred s.owner new] }

theorem requireKmsSignature_ok {s : State} {hash r t : Word} {v : UInt8} {signer : Address}
    (passed : requireKmsSignature prim s hash v r t = .ok signer) :
    signer ≠ 0 ∧ s.kmsSigners signer = true := by
  simp only [requireKmsSignature, except_bind_ok, view_revertIf_ok, except_pure_ok,
    Bool.not_eq_false] at passed
  obtain ⟨_, nonzero, _, known, rfl⟩ := passed
  exact ⟨nonzero, known⟩

theorem exec_effect {tx : Tx Proof} {s s' : State} {x : Returned}
    (ok : (exec prim tx).run s = .ok (x, s')) : Effect prim tx s s' := by
  unfold exec at ok
  split at ok
  case h_8 =>
    simp only [bind_ok, pure_ok, Prod.mk.injEq] at ok
    obtain ⟨b, _, settled, _, rfl⟩ := ok
    obtain ⟨acceptable, _, ⟨quantity, configured⟩, root, live, valuation, _, _, _, scaled, _, rfl⟩ :=
      verifyAndSettleRAG_ok settled
    exact .settled acceptable.query_given acceptable.unused quantity configured scaled
  all_goals
    simp only [updateApprovedImageDigest, updateZkTlsRelayer, updatePriceFeedId, registerKmsSigner,
      deregisterKmsSigner, executeKmsSignedAction, submitAttestation, emit, bind_assoc,
      onlyOwner_bind_ok, transferOwnership_bind_ok, renounceOwnership_bind_ok, revertIf_bind_ok,
      get_bind_ok, lift_bind_ok, modify_bind_ok, pure_bind, pure_ok, Prod.mk.injEq] at ok
  case h_1 =>
    obtain ⟨owner, nonzero, changes, _, rfl⟩ := ok
    exact .imageDigest owner nonzero changes
  case h_2 =>
    obtain ⟨owner, nonzero, changes, _, rfl⟩ := ok
    exact .relayer owner nonzero changes
  case h_3 =>
    obtain ⟨owner, nonzero, changes, _, rfl⟩ := ok
    exact .feed owner nonzero changes
  case h_4 =>
    obtain ⟨owner, nonzero, new, _, rfl⟩ := ok
    exact .registered owner nonzero (Bool.eq_false_iff.mpr new)
  case h_5 =>
    obtain ⟨owner, known, _, rfl⟩ := ok
    exact .deregistered owner (Bool.of_not_eq_false known)
  case h_6 =>
    obtain ⟨given, signer, passed, _, rfl⟩ := ok
    obtain ⟨nonzero, known⟩ := requireKmsSignature_ok passed
    exact .action given nonzero known
  case h_7 =>
    obtain ⟨_, unused, _, rfl⟩ := ok
    exact .submitted (Bool.eq_false_iff.mpr unused)
  case h_9 =>
    obtain ⟨owner, _, _, rfl⟩ := ok
    exact .ownership owner
  case h_10 =>
    obtain ⟨owner, _, rfl⟩ := ok
    exact .ownership owner

section Administration

/-- What only the owner sets. -/
structure Config where
  approvedImageDigest : Word
  priceFeedId : FeedId
  zkTlsRelayer : Address
  kmsSigners : Address → Bool

def State.config (s : State) : Config :=
  ⟨s.approvedImageDigest, s.priceFeedId, s.zkTlsRelayer, s.kmsSigners⟩

/-- The events that the calls open to everyone write under a configuration. -/
def Event.Under (c : Config) : Event → Prop
  | .kmsActionExecuted signer _ _ => c.kmsSigners signer = true
  | .attestationSubmitted _ _ _ => True
  | .priceSettled feedId _ _ => feedId = c.priceFeedId
  | .querySettled _ feedId _ _ _ _ _ => feedId = c.priceFeedId
  | .proofVerified _ imageDigest _ => imageDigest = c.approvedImageDigest
  | _ => False

theorem settlementEvents_under {s : State} {now valuation : Word} {r : Settlement} {live : Feed} :
    ∀ event ∈ settlementEvents s now r live valuation, event.Under s.config := by
  intro event member
  simp only [settlementEvents, List.mem_cons, List.not_mem_nil, or_false] at member
  rcases member with rfl | rfl | rfl
  · rfl
  · rfl
  · rfl

theorem exec_unprivileged {tx : Tx Proof} {s s' : State} {x : Returned}
    (ok : (exec prim tx).run s = .ok (x, s')) (other : tx.sender ≠ s.owner) :
    Unprivileged State.config State.log Event.Under s s' := by
  have one {event : Event} (under : event.Under s.config) :
      ∀ event' ∈ [event], event'.Under s.config := by
    intro event' member
    rw [List.mem_singleton.mp member]
    exact under
  cases exec_effect ok with
  | action given nonzero known => exact ⟨rfl, rfl, _, rfl, one known⟩
  | submitted unused => exact ⟨rfl, rfl, _, rfl, one trivial⟩
  | settled => exact ⟨rfl, rfl, _, rfl, settlementEvents_under⟩
  | imageDigest owner => exact absurd owner.symm other
  | relayer owner => exact absurd owner.symm other
  | feed owner => exact absurd owner.symm other
  | registered owner => exact absurd owner.symm other
  | deregistered owner => exact absurd owner.symm other
  | ownership owner => exact absurd owner.symm other

/-- Without a transaction of the owner, as after it renounced, a run changes neither the owner
    nor the configuration: all it can announce is made under the configuration it began with. -/
theorem frozen_without_owner {s : State} {txs : List (Tx Proof)}
    (others : ∀ tx ∈ txs, tx.sender ≠ s.owner) :
    ((machine prim).run s txs).owner = s.owner ∧
      ((machine prim).run s txs).config = s.config ∧
      ∃ added, ((machine prim).run s txs).log = s.log ++ added ∧
        ∀ event ∈ added, event.Under s.config := by
  have guarded : ∀ s tx x s', ((machine prim).exec tx).run s = .ok (x, s') →
      tx.sender ≠ Owned.owner s → Unprivileged State.config State.log Event.Under s s' :=
    fun _ _ _ _ ok other => exec_unprivileged ok other
  obtain ⟨owner, config, events⟩ := run_unprivileged guarded others
  exact ⟨owner, config, events⟩

/-- The sample contract after its owner has set the feed and renounced it. -/
def renouncedState : State :=
  (machine samplePrimitives).run sampleState
    [⟨1, 990, sampleAnswers, .updatePriceFeedId 6⟩, ⟨1, 995, sampleAnswers, .renounceOwnership⟩]

theorem frozen_without_owner_renounced :
    ((machine samplePrimitives).run renouncedState
      [⟨1, 998, sampleAnswers, .updatePriceFeedId 7⟩,
        ⟨4, 1000, sampleAnswers,
          .verifyAndSettleRAG (sampleSettlement "c2ln")⟩]).config.priceFeedId = 6 := by
  have renounced : renouncedState.owner = 0 := by decide +kernel
  have configured : renouncedState.config.priceFeedId = 6 := by decide +kernel
  obtain ⟨_, config, _⟩ := @frozen_without_owner _ samplePrimitives renouncedState
    [⟨1, 998, sampleAnswers, .updatePriceFeedId 7⟩,
      ⟨4, 1000, sampleAnswers, .verifyAndSettleRAG (sampleSettlement "c2ln")⟩] (by simp [renounced])
  rw [config, configured]

end Administration

end VerifiableRag
