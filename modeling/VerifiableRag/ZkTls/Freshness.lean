import VerifiableRag.ZkTls.RelayerRuns

/-!
How fresh the records of the relayer are, over its runs. A record holds the block time
of its relay only; the signing time stays inside the proof behind it.
-/
namespace ZkTls
open Bytes Transaction Ownable

namespace ZkTlsRelayer
variable {crypto : Crypto}

structure Relayed where
  signedAt : BitVec 64
  record : VerifiedData
  deriving DecidableEq

def recorded (u : Word) (e : Entry State Tx Bool Error) : Option Relayed :=
  match e.outcome, e.input.call with
  | .ok _, .relayVerifiedWeb2Data proof urlHash dataHash =>
    match decodeProof proof with
    | .ok f => if urlHash = u then some ⟨f.ts, ⟨dataHash, e.input.now⟩⟩ else none
    | .error _ => none
  | _, _ => none

def relays (u : Word) (trace : List (Entry State Tx Bool Error)) : List Relayed :=
  trace.filterMap (recorded u)

def behind (u : Word) (trace : List (Entry State Tx Bool Error)) : Option Relayed :=
  (relays u trace).getLast?

/-- Along a run the proof behind a record is never replaced by one signed earlier. -/
def NeverDecreases (crypto : Crypto) (s₀ : State) (txs : List Tx) (u : Word) : Prop :=
  ∀ earlier later, earlier <+: later → later <+: txs →
    ∀ a, behind u ((machine crypto).trace s₀ earlier) = some a →
      ∃ b, behind u ((machine crypto).trace s₀ later) = some b ∧
        a.signedAt.toNat ≤ b.signedAt.toNat

theorem entry_relayed {s : State} {tx : Tx} {proof : CalldataBytes} {urlHash dataHash : Word}
    {f : ProofFields} (call : tx.call = .relayVerifiedWeb2Data proof urlHash dataHash)
    (accepted : Accepted crypto s tx.now proof urlHash dataHash f) :
    ((machine crypto).entry s tx).outcome = .ok (true, s.relayed crypto tx.now f) := by
  change (exec crypto tx).run s = _
  rw [exec, call]
  exact relay_ok.mpr ⟨f, accepted, rfl⟩

theorem recorded_relay {u : Word} {s : State} {tx : Tx} {proof : CalldataBytes}
    {urlHash dataHash : Word} {f : ProofFields}
    (call : tx.call = .relayVerifiedWeb2Data proof urlHash dataHash)
    (accepted : Accepted crypto s tx.now proof urlHash dataHash f) :
    recorded u ((machine crypto).entry s tx) =
      if urlHash = u then some ⟨f.ts, ⟨dataHash, tx.now⟩⟩ else none := by
  have input : ((machine crypto).entry s tx).input.call = tx.call := rfl
  rw [recorded, entry_relayed call accepted, input, call]
  simp only [accepted.decoded]
  rfl

theorem recorded_some {u : Word} {s : State} {tx : Tx} {a : Relayed}
    (some_recorded : recorded u ((machine crypto).entry s tx) = some a) :
    ∃ proof dataHash f, tx.call = .relayVerifiedWeb2Data proof u dataHash ∧
      Accepted crypto s tx.now proof u dataHash f ∧ a = ⟨f.ts, ⟨dataHash, tx.now⟩⟩ := by
  cases outcome : ((machine crypto).entry s tx).outcome with
  | error v =>
    rw [recorded, outcome] at some_recorded
    cases some_recorded
  | ok r =>
    cases call : tx.call with
    | relayVerifiedWeb2Data proof urlHash dataHash =>
      have ran : (exec crypto tx).run s = .ok r := outcome
      rw [exec, call] at ran
      obtain ⟨f, accepted, _⟩ := relay_ok.mp ran
      rw [recorded_relay call accepted] at some_recorded
      split at some_recorded
      next same =>
        subst same
        cases some_recorded
        exact ⟨proof, dataHash, f, rfl, accepted, rfl⟩
      next => cases some_recorded
    | _ =>
      have input : ((machine crypto).entry s tx).input.call = tx.call := rfl
      rw [recorded, outcome, input, call] at some_recorded
      cases some_recorded

/-- One transaction: it records an accepted relay, or leaves the record of the url alone. -/
theorem step_recorded (u : Word) (s : State) (tx : Tx) :
    ((machine crypto).step s tx).verifiedWeb2Data u =
      ((recorded u ((machine crypto).entry s tx)).map Relayed.record).getD
        (s.verifiedWeb2Data u) := by
  cases known : recorded u ((machine crypto).entry s tx) with
  | some a =>
    obtain ⟨proof, dataHash, f, call, accepted, rfl⟩ := recorded_some known
    rw [Machine.step, after_ok (entry_relayed call accepted)]
    simp [State.relayed, accepted.url, accepted.data]
  | none =>
    cases outcome : ((machine crypto).entry s tx).outcome with
    | error v =>
      rw [Machine.step, after_reverted outcome]
      rfl
    | ok r =>
      rw [Machine.step, after_ok outcome]
      rcases exec_cases outcome with ⟨same, _⟩ | ⟨proof, urlHash, dataHash, f, call, accepted, same⟩
      · rw [same]
        rfl
      · rw [recorded_relay call accepted] at known
        have elsewhere : u ≠ f.urlHash := by
          intro here
          rw [← accepted.url, if_pos here.symm] at known
          cases known
        rw [same]
        simp [State.relayed, Function.update_of_ne elsewhere]

theorem recorded_window {u : Word} {s : State} {tx : Tx} {a : Relayed}
    (known : recorded u ((machine crypto).entry s tx) = some a) :
    a.signedAt.toNat ≤ a.record.verifiedAt.toNat + 300 ∧
      a.record.verifiedAt.toNat ≤ a.signedAt.toNat + 300 := by
  obtain ⟨proof, dataHash, f, _, accepted, rfl⟩ := recorded_some known
  exact ⟨accepted.not_ahead, accepted.not_behind⟩

/-- The record is that of the last accepted relay, whenever its proof was signed. -/
theorem run_behind (u : Word) (s : State) (txs : List Tx) :
    ((machine crypto).run s txs).verifiedWeb2Data u =
      ((behind u ((machine crypto).trace s txs)).map Relayed.record).getD
        (s.verifiedWeb2Data u) := by
  induction txs generalizing s with
  | nil => rfl
  | cons tx rest ih =>
    change ((machine crypto).run ((machine crypto).step s tx) rest).verifiedWeb2Data u = _
    rw [ih, step_recorded]
    simp only [behind, relays, Machine.trace, List.filterMap_cons]
    cases recorded u ((machine crypto).entry s tx) with
    | none => rfl
    | some a =>
      rw [List.getLast?_cons]
      cases (((machine crypto).trace ((machine crypto).step s tx) rest).filterMap
        (recorded u)).getLast? with
      | none => rfl
      | some b => rfl

theorem relays_append (u : Word) (s : State) (earlier later : List Tx) :
    relays u ((machine crypto).trace s (earlier ++ later)) =
      relays u ((machine crypto).trace s earlier) ++
        relays u ((machine crypto).trace ((machine crypto).run s earlier) later) := by
  rw [Machine.trace_append, relays, List.filterMap_append]
  rfl

theorem relays_window {u : Word} {s : State} {txs : List Tx} {a : Relayed}
    (member : a ∈ relays u ((machine crypto).trace s txs)) :
    a.signedAt.toNat ≤ a.record.verifiedAt.toNat + 300 ∧
      a.record.verifiedAt.toNat ≤ a.signedAt.toNat + 300 := by
  obtain ⟨e, entry, known⟩ := List.mem_filterMap.mp member
  rw [Machine.trace_entry entry] at known
  exact recorded_window known

theorem relays_single {u : Word} {s : State} {tx : Tx} {b : Relayed}
    (member : b ∈ relays u ((machine crypto).trace s [tx])) :
    relays u ((machine crypto).trace s [tx]) = [b] := by
  change b ∈ [(machine crypto).entry s tx].filterMap (recorded u) at member
  change [(machine crypto).entry s tx].filterMap (recorded u) = [b]
  rw [List.filterMap_cons] at member ⊢
  cases known : recorded u ((machine crypto).entry s tx) with
  | none => simp [known] at member
  | some c =>
    simp only [known, List.filterMap_nil, List.mem_singleton] at member ⊢
    rw [member]

/-- Records never go back exactly when the proofs are relayed in the order of signing. -/
theorem neverDecreases_iff {u : Word} {s : State} {txs : List Tx} :
    NeverDecreases crypto s txs u ↔ (relays u ((machine crypto).trace s txs)).Pairwise
      fun a b => a.signedAt.toNat ≤ b.signedAt.toNat := by
  constructor
  · intro never
    induction txs using List.reverseRecOn with
    | nil => exact .nil
    | append_singleton earlier tx ih =>
      have sorted := ih fun xs ys sub within => never xs ys sub (within.trans (List.prefix_append _ _))
      rw [relays_append, List.pairwise_append]
      refine ⟨sorted, ?_, ?_⟩
      · cases new : relays u ((machine crypto).trace ((machine crypto).run s earlier) [tx]) with
        | nil => exact .nil
        | cons b rest =>
          have single := relays_single (new ▸ List.mem_cons_self)
          rw [← new, single]
          exact List.pairwise_singleton _ _
      · intro a old b new
        have single := relays_single new
        obtain ⟨newest, last⟩ : ∃ l, behind u ((machine crypto).trace s earlier) = some l :=
          Option.isSome_iff_exists.mp (List.getLast?_isSome.mpr (List.ne_nil_of_mem old))
        obtain ⟨b', last', order⟩ := never earlier (earlier ++ [tx]) (List.prefix_append _ _)
          (List.prefix_refl _) newest last
        rw [behind, relays_append, single, List.getLast?_concat] at last'
        obtain rfl : b = b' := Option.some.inj last'
        have nonempty := List.ne_nil_of_mem old
        have final : (relays u ((machine crypto).trace s earlier)).getLast nonempty = newest :=
          Option.some.inj ((List.getLast?_eq_some_getLast nonempty).symm.trans last)
        have behind_newest := sorted.rel_getLast_of_rel_getLast_getLast old (le_refl _)
        rw [final] at behind_newest
        exact behind_newest.trans order
  · intro sorted earlier later sub within a last
    obtain ⟨middle, rfl⟩ := sub
    obtain ⟨rest, rfl⟩ := within
    rw [relays_append, relays_append] at sorted
    obtain ⟨_, _, ordered⟩ := List.pairwise_append.mp (List.pairwise_append.mp sorted).1
    have standing : (relays u ((machine crypto).trace s earlier)).getLast? = some a := last
    rw [behind, relays_append, List.getLast?_append, standing]
    cases next : (relays u ((machine crypto).trace ((machine crypto).run s earlier)
        middle)).getLast? with
    | none => exact ⟨a, rfl, le_refl _⟩
    | some b => exact ⟨b, rfl, ordered a (List.mem_of_getLast? last) b (List.mem_of_getLast? next)⟩

/-- Records are last-writer-wins within the freshness window. -/
theorem record_freshness {owner : Address} {s₀ : State} (deployed : deploy owner = .ok s₀)
    (txs : List Tx) (u : Word) :
    ((machine crypto).run s₀ txs).verifiedWeb2Data u =
      ((behind u ((machine crypto).trace s₀ txs)).map Relayed.record).getD ⟨0, 0⟩ ∧
    (∀ a ∈ relays u ((machine crypto).trace s₀ txs),
      ∀ b ∈ relays u ((machine crypto).trace s₀ txs),
        a.record.verifiedAt.toNat ≤ b.record.verifiedAt.toNat →
          a.signedAt.toNat ≤ b.signedAt.toNat + 600) ∧
    (NeverDecreases crypto s₀ txs u ↔ (relays u ((machine crypto).trace s₀ txs)).Pairwise
      fun a b => a.signedAt.toNat ≤ b.signedAt.toNat) := by
  refine ⟨?_, ?_, neverDecreases_iff⟩
  · rw [run_behind, deployed_unrecorded deployed u]
  · intro a a_relayed b b_relayed later
    have ahead := (relays_window a_relayed).1
    have lag := (relays_window b_relayed).2
    omega

section Sample

def block (n : Nat) : Block 32 := ⟨encode 32 n, encode_length 32 n⟩

/-- Two proofs about one url, signed a minute apart by the key 3. -/
def olderProof : ZkTlsProof where
  version := 1
  urlHash := block 0x6df58614e2109de8fc6531f60d523870d0a15ec898007738d1808ff0622a3069
  dataHash := block 0x4355a46b19d348dc2f57c046f8ef63d4538ebb936000f3c9ee954a27460dd865
  responseHash := block 0xe59cfb6b86469cb8383ef739706b6bc27bab34d2b4415debcd5d8833c6fb8f2d
  certFingerprint := block 0x922643e7134821483a6cd203e644d40128a3fd8a60aa843ad3a7f46acb76e5ef
  timestamp := 1700000000
  nonce := List.Vector.replicate 16 7
  r := block 0x927fae1bf0196ae572d1989612c21495413348a7685f6fd40e7e0c855fc7bce4
  s := block 0x20565db4a7278d07d39ff849d770e81e3a3e30ac4837e76edd0228678e7f2a84
  v := 0

def newerProof : ZkTlsProof where
  version := 1
  urlHash := olderProof.urlHash
  dataHash := block 0x53c234e5e8472b6ac51c1ae1cab3fe06fad053beb8ebfd8977b010655bfdd3c3
  responseHash := block 0x243850add28553ef3ce403fab4ba1a17f1df89f839de0fd53a017a2870d74683
  certFingerprint := olderProof.certFingerprint
  timestamp := 1700000060
  nonce := List.Vector.replicate 16 9
  r := block 0x8731ca21efb185eba90498ee221d72a6672b4ad2bc555b87e29d2eb13b01bd80
  s := block 0x7234db9906754680f78a8d145d4ddbc8fec85270fbe2cebb678e3e3027f036f5
  v := 0

def olderDigest : Word := 0x20ac6546fd343f446dd5041e491b26c71df736105acb7777ed10cef541d7acf4
def newerDigest : Word := 0xae6836df593f633e4d9a0b66716378ad22db03ae79203ce26bbdc4de898d45af

def signerAddress : Address := 0x6813eb9362372eef6200f3b1dbc3f819671cba69

def proofsCrypto : Crypto where
  keccak256 bytes :=
    if bytes = olderProof.payload then olderDigest
    else if bytes = newerProof.payload then newerDigest
    else 0
  ecrecover digest v r s :=
    let by_proof := fun (d : Word) (p : ZkTlsProof) =>
      digest = d ∧ r.bytes = p.r.toList ∧ s.bytes = p.s.toList
    if v = 27 ∧ (by_proof olderDigest olderProof ∨ by_proof newerDigest newerProof) then
      signerAddress
    else 0

def relayTx (now : Word) (p : ZkTlsProof) : Tx :=
  ⟨2, now, .relayVerifiedWeb2Data ⟨p.toBytes, 0, 218, by rw [p.toBytes_length]⟩
    (Word.ofBytes p.urlHash.toList) (Word.ofBytes p.dataHash.toList)⟩

def registerTx : Tx := ⟨1, 1700000000, .registerZkTlsSigner signerAddress⟩

def fresh : State :=
  ⟨1, fun _ => false, fun _ => ⟨0, 0⟩, fun _ => false, [.ownershipTransferred 0 1]⟩

def sampleUrlHash : Word := Word.ofBytes olderProof.urlHash.toList

def inOrder : List Tx :=
  [registerTx, relayTx 1700000100 olderProof, relayTx 1700000101 newerProof]

def reordered : List Tx :=
  [registerTx, relayTx 1700000100 newerProof, relayTx 1700000101 olderProof]

theorem record_freshness_sample :
    ((machine proofsCrypto).run fresh inOrder).verifiedWeb2Data sampleUrlHash =
      ⟨Word.ofBytes newerProof.dataHash.toList, 1700000101⟩ ∧
    NeverDecreases proofsCrypto fresh inOrder sampleUrlHash := by
  obtain ⟨record, _, never⟩ := @record_freshness proofsCrypto 1 fresh rfl inOrder sampleUrlHash
  have last : behind sampleUrlHash ((machine proofsCrypto).trace fresh inOrder) =
      some ⟨1700000060, ⟨Word.ofBytes newerProof.dataHash.toList, 1700000101⟩⟩ := by
    decide +kernel
  rw [last] at record
  exact ⟨record, never.mpr (by decide +kernel)⟩

theorem older_proof_replaces_newer :
    deploy 1 = .ok fresh ∧ ¬ NeverDecreases proofsCrypto fresh reordered sampleUrlHash := by
  refine ⟨rfl, ?_⟩
  intro never
  have sorted := neverDecreases_iff.mp never
  revert sorted
  decide +kernel

end Sample

end ZkTlsRelayer

end ZkTls
