import VerifiableRag.Library.EventLog
import VerifiableRag.ZkTls.RelayerRuns

/-!
The relayer seen through its events: they give the signers and the records of the store, and
after the owner's last transaction only the signers it left can add to them.
-/
namespace ZkTls
open Bytes Transaction Ownable EventLog

namespace ZkTlsRelayer
variable {crypto : Crypto}

/-- Everything that a successful transaction can do to the store. -/
inductive Effect (crypto : Crypto) (tx : Tx) (s : State) : State → Prop
  | registered {signer : Address} (owner : s.owner = tx.sender) (nonzero : signer ≠ 0)
      (new : s.zkTlsSigners signer = false) :
      Effect crypto tx s { s with
        zkTlsSigners := Function.update s.zkTlsSigners signer true
        log := s.log ++ [.zkTlsSignerRegistered signer] }
  | deregistered {signer : Address} (owner : s.owner = tx.sender)
      (known : s.zkTlsSigners signer = true) :
      Effect crypto tx s { s with
        zkTlsSigners := Function.update s.zkTlsSigners signer false
        log := s.log ++ [.zkTlsSignerDeregistered signer] }
  | relayed {f : ProofFields} (recovered : f.signer crypto ≠ 0)
      (known : s.zkTlsSigners (f.signer crypto) = true) :
      Effect crypto tx s (s.relayed crypto tx.now f)
  | ownership {new : Address} (owner : s.owner = tx.sender) :
      Effect crypto tx s { s with owner := new, log := s.log ++ [.ownershipTransferred s.owner new] }

theorem exec_effect {tx : Tx} {s s' : State} {b : Bool} (ok : (exec crypto tx).run s = .ok (b, s')) :
    Effect crypto tx s s' := by
  unfold exec at ok
  split at ok
  · simp only [registerZkTlsSigner, bind_assoc, onlyOwner_bind_ok, revertIf_bind_ok, get_bind_ok,
      modify_bind_ok, emit, pure_ok, Prod.mk.injEq] at ok
    obtain ⟨owner, nonzero, new, _, rfl⟩ := ok
    exact .registered owner nonzero (Bool.eq_false_iff.mpr new)
  · simp only [deregisterZkTlsSigner, bind_assoc, onlyOwner_bind_ok, revertIf_bind_ok,
      get_bind_ok, modify_bind_ok, emit, pure_ok, Prod.mk.injEq] at ok
    obtain ⟨owner, known, _, rfl⟩ := ok
    exact .deregistered owner (Bool.of_not_eq_false known)
  · obtain ⟨f, accepted, same⟩ := relay_ok.mp ok
    cases same
    exact .relayed accepted.recovered accepted.registered
  · simp only [transferOwnership_bind_ok, pure_ok, Prod.mk.injEq] at ok
    obtain ⟨owner, _, _, rfl⟩ := ok
    exact .ownership owner
  · simp only [renounceOwnership_bind_ok, pure_ok, Prod.mk.injEq] at ok
    obtain ⟨owner, _, rfl⟩ := ok
    exact .ownership owner

section Observer

/-- What an observer of the events has put together. -/
structure Registry where
  owner : Address
  zkTlsSigners : Address → Bool
  verifiedWeb2Data : Word → VerifiedData

namespace Registry

def start : Registry := ⟨0, fun _ => false, fun _ => ⟨0, 0⟩⟩

def when (c : Prop) [Decidable c] (k : Registry) : Option Registry := if c then some k else none

/-- Data come from a signer that is registered as far as the events go. -/
def apply (k : Registry) : Event → Option Registry
  | .zkTlsSignerRegistered signer =>
    when (signer ≠ 0 ∧ k.zkTlsSigners signer = false)
      { k with zkTlsSigners := Function.update k.zkTlsSigners signer true }
  | .zkTlsSignerDeregistered signer =>
    when (k.zkTlsSigners signer = true)
      { k with zkTlsSigners := Function.update k.zkTlsSigners signer false }
  | .web2DataRelayed urlHash dataHash signer _ _ timestamp =>
    when (signer ≠ 0 ∧ k.zkTlsSigners signer = true)
      { k with verifiedWeb2Data := Function.update k.verifiedWeb2Data urlHash ⟨dataHash, timestamp⟩ }
  | .ownershipTransferred previousOwner newOwner =>
    when (previousOwner = k.owner) { k with owner := newOwner }

end Registry

def State.registry (s : State) : Registry := ⟨s.owner, s.zkTlsSigners, s.verifiedWeb2Data⟩

theorem replay_single {event : Event} {k k' : Registry} (taken : k.apply event = some k') :
    replay Registry.apply k [event] = some k' := by
  rw [replay, taken]
  rfl

theorem exec_reports (crypto : Crypto) :
    Reports (machine crypto) State.log Registry.apply fun k s => k = s.registry := by
  intro s tx b s' k ok stands
  subst stands
  cases exec_effect ok with
  | registered owner nonzero new =>
    exact ⟨_, _, rfl, replay_single (if_pos ⟨nonzero, new⟩), rfl⟩
  | deregistered owner known => exact ⟨_, _, rfl, replay_single (if_pos known), rfl⟩
  | relayed recovered known => exact ⟨_, _, rfl, replay_single (if_pos ⟨recovered, known⟩), rfl⟩
  | ownership owner => exact ⟨_, _, rfl, replay_single (if_pos rfl), rfl⟩

theorem deployed_registry {owner : Address} {s₀ : State} (deployed : deploy owner = .ok s₀) :
    Replicated State.log Registry.apply (fun k s => k = s.registry) .start s₀ := by
  unfold deploy at deployed
  split at deployed
  · cases deployed
  · cases deployed
    exact ⟨_, rfl, rfl⟩

end Observer

section Owner

/-- The events that a relay writes under a set of signers. -/
def Event.Under (signers : Address → Bool) : Event → Prop
  | .web2DataRelayed _ _ signer _ _ _ => signers signer = true
  | _ => False

theorem exec_unprivileged {tx : Tx} {s s' : State} {b : Bool}
    (ok : (exec crypto tx).run s = .ok (b, s')) (other : tx.sender ≠ s.owner) :
    Unprivileged State.zkTlsSigners State.log Event.Under s s' := by
  cases exec_effect ok with
  | relayed recovered known =>
    refine ⟨rfl, rfl, _, rfl, ?_⟩
    intro event member
    rw [List.mem_singleton.mp member]
    exact known
  | registered owner => exact absurd owner.symm other
  | deregistered owner => exact absurd owner.symm other
  | ownership owner => exact absurd owner.symm other

/-- The events of every run give the owner, the signers and the records of the store; and what
    follows the last transaction of an owner is data of the signers that were registered then. -/
theorem log_gives_registry {owner : Address} {s₀ : State} (deployed : deploy owner = .ok s₀)
    (txs later : List Tx)
    (others : ∀ tx ∈ later, tx.sender ≠ ((machine crypto).run s₀ txs).owner) :
    replay Registry.apply .start ((machine crypto).run s₀ (txs ++ later)).log =
        some ((machine crypto).run s₀ (txs ++ later)).registry ∧
      ((machine crypto).run s₀ (txs ++ later)).zkTlsSigners =
        ((machine crypto).run s₀ txs).zkTlsSigners ∧
      ∃ added, ((machine crypto).run s₀ (txs ++ later)).log =
          ((machine crypto).run s₀ txs).log ++ added ∧
        ∀ event ∈ added, event.Under ((machine crypto).run s₀ txs).zkTlsSigners := by
  obtain ⟨k, read, rfl⟩ :=
    run_replicated (exec_reports crypto) (deployed_registry deployed) (txs ++ later)
  have guarded : ∀ s tx b s', ((machine crypto).exec tx).run s = .ok (b, s') →
      tx.sender ≠ Owned.owner s → Unprivileged State.zkTlsSigners State.log Event.Under s s' :=
    fun _ _ _ _ ok other => exec_unprivileged ok other
  obtain ⟨_, signers, events⟩ := run_unprivileged guarded others
  rw [← Machine.run_append] at signers events
  exact ⟨read, signers, events⟩

/-- The signer stays registered when its owner is gone. -/
theorem log_gives_registry_sample :
    ((machine sampleCrypto).run ⟨1, fun _ => false, fun _ => ⟨0, 0⟩, fun _ => false,
      [.ownershipTransferred 0 1]⟩ ([⟨1, 990, .registerZkTlsSigner 7⟩, ⟨1, 995, .renounceOwnership⟩] ++
        [sampleRelay, ⟨1, 1010, .deregisterZkTlsSigner 7⟩])).zkTlsSigners 7 = true := by
  obtain ⟨_, signers, _⟩ := @log_gives_registry sampleCrypto 1 _ rfl
    [⟨1, 990, .registerZkTlsSigner 7⟩, ⟨1, 995, .renounceOwnership⟩]
    [sampleRelay, ⟨1, 1010, .deregisterZkTlsSigner 7⟩] (by decide +kernel)
  rw [signers]
  decide +kernel

end Owner

end ZkTlsRelayer

end ZkTls
