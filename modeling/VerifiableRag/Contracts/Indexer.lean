import VerifiableRag.Contracts.Effects
import VerifiableRag.Contracts.Ledger

/-!
An indexer of the settlement contract: what an observer of the events can tell of the store.
-/
namespace VerifiableRag
open Bytes Transaction Ownable EventLog

/-- Where the observer is inside the three events of a settlement. -/
inductive Phase where
  | idle
  | priced (price timestamp : Word)
  | valued (queryHash timestamp : Word)
  deriving DecidableEq

/-- What the observer has put together. `announced` are the proof ids of `submitAttestation`. -/
structure Index where
  phase : Phase
  owner : Address
  approvedImageDigest : Word
  priceFeedId : FeedId
  zkTlsRelayer : Address
  kmsSigners : Address → Bool
  announced : Word → Bool
  verifiedAt : Word → Option Word
  lastSettlementPrice : Word
  lastSettlementValuation : Word

namespace Index

/-- The digest of the deployment is not announced. -/
def start (initialApprovedImageDigest : Word) : Index where
  phase := .idle
  owner := 0
  approvedImageDigest := initialApprovedImageDigest
  priceFeedId := 0
  zkTlsRelayer := 0
  kmsSigners _ := false
  announced _ := false
  verifiedAt _ := none
  lastSettlementPrice := 0
  lastSettlementValuation := 0

def when (c : Prop) [Decidable c] (k : Index) : Option Index := if c then some k else none

/-- The first verification of a query stands. -/
def verify (verifiedAt : Word → Option Word) (queryHash timestamp : Word) : Word → Option Word :=
  Function.update verifiedAt queryHash (some ((verifiedAt queryHash).getD timestamp))

/-- An administrative event names the value it replaces, a settlement is told in three events
    about one feed, query and block, and its valuation is that of its own figures. -/
def apply (k : Index) : Event → Option Index
  | .imageDigestUpdated old new =>
    when (k.phase = .idle ∧ old = k.approvedImageDigest ∧ new ≠ old ∧ new ≠ 0)
      { k with approvedImageDigest := new }
  | .zkTlsRelayerUpdated old new =>
    when (k.phase = .idle ∧ old = k.zkTlsRelayer ∧ new ≠ old ∧ new ≠ 0)
      { k with zkTlsRelayer := new }
  | .priceFeedIdUpdated old new =>
    when (k.phase = .idle ∧ old = k.priceFeedId ∧ new ≠ old ∧ new ≠ 0)
      { k with priceFeedId := new }
  | .kmsSignerRegistered signer =>
    when (k.phase = .idle ∧ signer ≠ 0 ∧ k.kmsSigners signer = false)
      { k with kmsSigners := Function.update k.kmsSigners signer true }
  | .kmsSignerDeregistered signer =>
    when (k.phase = .idle ∧ k.kmsSigners signer = true)
      { k with kmsSigners := Function.update k.kmsSigners signer false }
  | .kmsActionExecuted signer actionId _ =>
    when (k.phase = .idle ∧ k.kmsSigners signer = true ∧ actionId ≠ 0) k
  | .attestationSubmitted proofId _ _ =>
    when (k.phase = .idle ∧ k.announced proofId = false)
      { k with announced := Function.update k.announced proofId true }
  | .priceSettled feedId price timestamp =>
    when (k.phase = .idle ∧ feedId = k.priceFeedId ∧ feedId ≠ 0)
      { k with phase := .priced price timestamp }
  | .querySettled queryHash feedId price decimals quantity valuation' timestamp =>
    when (k.phase = .priced price timestamp ∧ feedId = k.priceFeedId ∧ queryHash ≠ 0 ∧
        quantity ≠ 0 ∧ valuation'.toNat = valuation quantity price decimals)
      { k with
        phase := .valued queryHash timestamp
        lastSettlementPrice := price
        lastSettlementValuation := valuation' }
  | .proofVerified queryHash imageDigest timestamp =>
    when (k.phase = .valued queryHash timestamp ∧ imageDigest = k.approvedImageDigest)
      { k with phase := .idle, verifiedAt := verify k.verifiedAt queryHash timestamp }
  | .ownershipTransferred previousOwner newOwner =>
    when (k.phase = .idle ∧ previousOwner = k.owner) { k with owner := newOwner }

/-- The store that the observer sees: all but the proof ids of settlements, the binding hashes,
    the latest proof and the latest web data. -/
structure Stands (k : Index) (s : State) : Prop where
  phase : k.phase = .idle
  owner : k.owner = s.owner
  approvedImageDigest : k.approvedImageDigest = s.approvedImageDigest
  priceFeedId : k.priceFeedId = s.priceFeedId
  zkTlsRelayer : k.zkTlsRelayer = s.zkTlsRelayer
  kmsSigners : k.kmsSigners = s.kmsSigners
  announced : ∀ id, k.announced id = true → s.submittedProofs id = true
  verifiedAt : ∀ q, k.verifiedAt q =
    if (s.verifiedQueries q).verified then some (s.verifiedQueries q).verifiedAt else none
  lastSettlementPrice : k.lastSettlementPrice = s.lastSettlementPrice
  lastSettlementValuation : k.lastSettlementValuation = s.lastSettlementValuation

/-- The index after the three events of a settlement. -/
def settle (k : Index) (queryHash timestamp price valuation : Word) : Index :=
  { k with
    phase := .idle
    verifiedAt := verify k.verifiedAt queryHash timestamp
    lastSettlementPrice := price
    lastSettlementValuation := valuation }

theorem when_pass {c : Prop} [Decidable c] (holds : c) (k : Index) : when c k = some k :=
  if_pos holds

end Index

section Reports
variable {Proof : Type} {prim : Primitives Proof} {k : Index} {s : State}

theorem replay_single {event : Event} {k' : Index} (taken : k.apply event = some k') :
    replay Index.apply k [event] = some k' := by
  rw [replay, taken]
  rfl

theorem stands_recorded (stands : k.Stands s) (now queryHash bindingHash q : Word) :
    Index.verify k.verifiedAt queryHash now q =
      if (recorded s.verifiedQueries now queryHash bindingHash q).verified then
        some (recorded s.verifiedQueries now queryHash bindingHash q).verifiedAt
      else none := by
  have here := stands.verifiedAt queryHash
  by_cases same : q = queryHash
  · subst same
    rw [Index.verify, Function.update_self, here]
    cases verified : (s.verifiedQueries q).verified with
    | true => rw [recorded_kept verified, verified, if_pos rfl, Option.getD_some]
    | false => rw [recorded_new verified, if_neg Bool.false_ne_true, Option.getD_none, if_pos rfl]
  · have kept : recorded s.verifiedQueries now queryHash bindingHash q = s.verifiedQueries q := by
      unfold recorded
      split
      · rfl
      · rw [Function.update_of_ne same]
    rw [Index.verify, Function.update_of_ne same, kept]
    exact stands.verifiedAt q

/-- The three events of a settlement carry the index to the store after it. -/
theorem settled_reports (stands : k.Stands s) {now root valuation' : Word} {r : Settlement}
    {live : Feed} (query : r.queryHash ≠ 0) (quantity : r.settlementQuantity ≠ 0)
    (configured : s.priceFeedId ≠ 0)
    (scaled : scaleValuation r.settlementQuantity live.value live.decimals = .ok valuation') :
    ∃ k', replay Index.apply k (settlementEvents s now r live valuation') = some k' ∧
      k'.Stands (s.settled prim now r root live valuation') := by
  have exact_value : valuation'.toNat = valuation r.settlementQuantity live.value live.decimals :=
    (scaleValuation_ok.mp scaled).2
  have priced : k.apply (.priceSettled s.priceFeedId live.value now) =
      some { k with phase := .priced live.value now } :=
    Index.when_pass ⟨stands.phase, stands.priceFeedId.symm, configured⟩ _
  have valued : Index.apply { k with phase := .priced live.value now }
      (.querySettled r.queryHash s.priceFeedId live.value live.decimals r.settlementQuantity
        valuation' now) = some { k with
          phase := .valued r.queryHash now
          lastSettlementPrice := live.value
          lastSettlementValuation := valuation' } :=
    Index.when_pass ⟨rfl, stands.priceFeedId.symm, query, quantity, exact_value⟩ _
  have verified : Index.apply { k with
      phase := .valued r.queryHash now
      lastSettlementPrice := live.value
      lastSettlementValuation := valuation' } (.proofVerified r.queryHash s.approvedImageDigest now) =
        some (k.settle r.queryHash now live.value valuation') :=
    Index.when_pass ⟨rfl, stands.approvedImageDigest.symm⟩ _
  refine ⟨k.settle r.queryHash now live.value valuation', ?_, ?_⟩
  · simp only [settlementEvents, replay, priced, valued, verified, Option.bind_some]
  · constructor
    · rfl
    · exact stands.owner
    · exact stands.approvedImageDigest
    · exact stands.priceFeedId
    · exact stands.zkTlsRelayer
    · exact stands.kmsSigners
    · intro id announced
      by_cases here : id = r.proofId prim
      · simp [State.settled, here]
      · simpa [State.settled, here] using stands.announced id announced
    · intro q
      exact stands_recorded stands now r.queryHash _ q
    · rfl
    · rfl

theorem exec_reports (prim : Primitives Proof) :
    Reports (machine prim) State.log Index.apply Index.Stands := by
  intro s tx x s' k ok stands
  cases exec_effect ok with
  | imageDigest owner nonzero changes =>
    have old := stands.approvedImageDigest.symm
    refine ⟨_, _, rfl, replay_single (Index.when_pass ⟨stands.phase, old, changes, nonzero⟩ _), ?_⟩
    exact { stands with approvedImageDigest := rfl }
  | relayer owner nonzero changes =>
    have old := stands.zkTlsRelayer.symm
    refine ⟨_, _, rfl, replay_single (Index.when_pass ⟨stands.phase, old, changes, nonzero⟩ _), ?_⟩
    exact { stands with zkTlsRelayer := rfl }
  | feed owner nonzero changes =>
    have old := stands.priceFeedId.symm
    refine ⟨_, _, rfl, replay_single (Index.when_pass ⟨stands.phase, old, changes, nonzero⟩ _), ?_⟩
    exact { stands with priceFeedId := rfl }
  | registered owner nonzero new =>
    rw [← stands.kmsSigners] at new
    refine ⟨_, _, rfl, replay_single (Index.when_pass ⟨stands.phase, nonzero, new⟩ _), ?_⟩
    exact { stands with kmsSigners := by rw [stands.kmsSigners] }
  | deregistered owner known =>
    rw [← stands.kmsSigners] at known
    refine ⟨_, _, rfl, replay_single (Index.when_pass ⟨stands.phase, known⟩ _), ?_⟩
    exact { stands with kmsSigners := by rw [stands.kmsSigners] }
  | action given nonzero known =>
    rw [← stands.kmsSigners] at known
    refine ⟨_, _, rfl, replay_single (Index.when_pass ⟨stands.phase, known, given⟩ _), ?_⟩
    exact { stands with }
  | @submitted proof unused =>
    have new : k.announced (attestationId prim proof) = false := by
      rw [Bool.eq_false_iff]
      intro announced
      rw [stands.announced _ announced] at unused
      cases unused
    refine ⟨_, _, rfl, replay_single (Index.when_pass ⟨stands.phase, new⟩ _), ?_⟩
    refine { stands with announced := ?_ }
    intro id announced
    by_cases here : id = attestationId prim proof
    · simp [here]
    · have earlier : k.announced id = true := by simpa [here] using announced
      simpa [here] using stands.announced id earlier
  | settled query unused quantity configured scaled =>
    obtain ⟨k', read, stands'⟩ := settled_reports stands query quantity configured scaled
    exact ⟨_, k', rfl, read, stands'⟩
  | ownership owner =>
    have old := stands.owner.symm
    refine ⟨_, _, rfl, replay_single (Index.when_pass ⟨stands.phase, old⟩ _), ?_⟩
    exact { stands with owner := rfl }

theorem deployed_indexed {owner registry : Address} {digest : Word} {s₀ : State}
    (deployed : deploy owner registry digest = .ok s₀) :
    Replicated State.log Index.apply Index.Stands (.start digest) s₀ := by
  unfold deploy at deployed
  split at deployed
  · cases deployed
  split at deployed
  · cases deployed
  split at deployed
  · cases deployed
  · cases deployed
    refine ⟨{ Index.start digest with owner }, rfl, ?_⟩
    constructor <;> first | rfl | simp [Index.start]

/-- The events of every run, taken in order, fit one another and give what the store holds; so
    two runs from one image digest that tell the same events leave an observer one index. -/
theorem log_indexes_store {owner registry : Address} {digest : Word} {s₀ : State}
    (deployed : deploy owner registry digest = .ok s₀) (txs : List (Tx Proof)) :
    ∃ k, replay Index.apply (.start digest) ((machine prim).run s₀ txs).log = some k ∧
      k.Stands ((machine prim).run s₀ txs) :=
  run_replicated (exec_reports prim) (deployed_indexed deployed) txs

theorem log_indexes_store_sample : ∃ k,
    replay Index.apply (.start sampleDigest)
      ((machine samplePrimitives).run sampleState sampleTxs).log = some k ∧
    k.verifiedAt 7 = some 1000 ∧ k.lastSettlementValuation = 6 := by
  obtain ⟨k, read, stands⟩ :=
    @log_indexes_store _ samplePrimitives 1 2 sampleDigest sampleState rfl sampleTxs
  refine ⟨k, read, ?_, ?_⟩
  · rw [stands.verifiedAt]
    decide +kernel
  · rw [stands.lastSettlementValuation]
    decide +kernel

end Reports

end VerifiableRag
