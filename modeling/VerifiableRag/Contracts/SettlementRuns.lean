import VerifiableRag.Contracts.Settling

/-!
Runs of the settlement contract: what stands behind a verified query, and when a
query is settled at most once.
-/
namespace VerifiableRag
open Bytes Transaction Ownable Results

variable {Proof : Type} {prim : Primitives Proof}

section Gates
variable {answers : Answers Proof}

theorem resolve_ok {state : State} {name : String} {target : Address} :
    resolve answers state name = .ok target ↔
      answers.getContractAddressByName state.contractRegistry name = some target ∧
        target ≠ 0 := by
  simp only [resolve, except_bind_ok, expect_ok, view_revertIf_ok, except_pure_ok, exists_and_left,
    exists_const]
  constructor
  · rintro ⟨found, registered, nonzero, rfl⟩
    exact ⟨registered, nonzero⟩
  · rintro ⟨registered, nonzero⟩
    exact ⟨target, registered, nonzero, rfl⟩

theorem verifiedWeb2Root_ok {state : State} {fdcProof : List UInt8} {root : Word}
    (ok : verifiedWeb2Root prim answers state fdcProof = .ok root) :
    ∃ proof verifier, prim.decodeProof fdcProof = some proof ∧
      fdcVerification answers state = .ok verifier ∧
      answers.verifyWeb2Json verifier proof = some true := by
  unfold verifiedWeb2Root at ok
  split at ok
  · rename_i root' run
    simp only [verifiedWeb2RootImpl, except_bind_ok, expect_ok, view_revertIf_ok] at run
    obtain ⟨proof, decoded, verifier, resolved, verified, answer, _, accepted, _⟩ := run
    rw [Bool.not_eq_false] at accepted
    exact ⟨proof, verifier, decoded, resolved, accepted ▸ answer⟩
  · cases ok

structure GatesPassed (prim : Primitives Proof) (tx : Tx Proof) (s : State) (r : Settlement) :
    Prop where
  token : ∃ payload, TokenClaims.jwtPayload r.vtpmToken = some payload ∧
    TokenClaims.hasSwname payload = true ∧
    TokenClaims.extractImageDigest payload = some s.approvedImageDigest
  fdc : ∃ proof verifier, prim.decodeProof r.fdcProof = some proof ∧
    tx.answers.getContractAddressByName s.contractRegistry "FdcVerification" = some verifier ∧
    verifier ≠ 0 ∧ tx.answers.verifyWeb2Json verifier proof = some true
  quantity : r.settlementQuantity ≠ 0
  configured : s.priceFeedId ≠ 0
  feed : ∃ ftso live, tx.answers.getContractAddressByName s.contractRegistry "FtsoV2" = some ftso ∧
    ftso ≠ 0 ∧ tx.answers.getFeedById ftso s.priceFeedId = some live ∧
    live.timestamp.toNat ≤ tx.now.toNat + 300 ∧ tx.now.toNat ≤ live.timestamp.toNat + 300

theorem gates_of_ok {tx : Tx Proof} {s s' : State} {r : Settlement} {b : Bool}
    (ok : (verifyAndSettleRAG prim tx.answers tx.now r).run s = .ok (b, s')) :
    GatesPassed prim tx s r := by
  obtain ⟨acceptable, _, ⟨quantity, configured⟩, root, live, _, fdc, read, fresh, _⟩ :=
    verifyAndSettleRAG_ok ok
  obtain ⟨proof, verifier, decoded, resolved, verified⟩ := verifiedWeb2Root_ok fdc
  obtain ⟨registered, nonzero⟩ := resolve_ok.mp resolved
  simp only [readFeed, except_bind_ok, expect_ok] at read
  obtain ⟨ftso, found, answer⟩ := read
  obtain ⟨ftso_registered, ftso_nonzero⟩ := resolve_ok.mp found
  exact ⟨tokenDigest_ok.mp acceptable.token, ⟨proof, verifier, decoded, registered, nonzero,
    verified⟩, quantity, configured, ftso, live, ftso_registered, ftso_nonzero, answer, fresh⟩

end Gates

/-- What a new contract has not seen yet. -/
structure Blank (s : State) : Prop where
  proofs : ∀ id, s.submittedProofs id = false
  latest : s.latestProofHash = 0
  unverified : ∀ q, (s.verifiedQueries q).verified = false
  unsettled : ∀ q, s.log.countP (·.settles q) = 0

theorem deployed_blank {owner registry : Address} {digest : Word} {s₀ : State}
    (deployed : deploy owner registry digest = .ok s₀) : Blank s₀ := by
  unfold deploy at deployed
  split at deployed
  · cases deployed
  split at deployed
  · cases deployed
  split at deployed
  · cases deployed
  · cases deployed
    exact ⟨fun _ => rfl, rfl, fun _ => rfl, fun _ => rfl⟩

theorem recorded_verified {queries : Word → QueryRecord} {now queryHash bindingHash q : Word} :
    (recorded queries now queryHash bindingHash q).verified = true ↔
      (queries q).verified = true ∨ q = queryHash := by
  unfold recorded
  split
  · rename_i verified
    constructor
    · exact Or.inl
    · rintro (already | rfl)
      · exact already
      · exact verified
  · by_cases here : q = queryHash <;> simp [here]

section Sample

/-- A token of the sample image; only its unread signature segment varies. -/
def sampleToken (signature : String) : List UInt8 :=
  utf8 ("e30.eyJzd25hbWUiOiJDT05GSURFTlRJQUxfU1BBQ0UiLCJzdWJtb2RzIjp7ImNvbnRhaW5lciI6eyJpbWFnZV" ++
    "9kaWdlc3QiOiJzaGEyNTY6MTExMTExMTExMTExMTExMTExMTExMTExMTExMTExMTExMTExMTExMTExMTExMTEx" ++
    "MTExMTExMTExMTExMTExMSJ9fX0." ++ signature)

def sampleDigest : Word :=
  0x1111111111111111111111111111111111111111111111111111111111111111

def sampleKeccak (bytes : List UInt8) : Word :=
  if bytes = Abi.abiEncode [.bytes (sampleToken "c2ln"), .bytes [1], .static [7]] then
    0x8a0be4e7495fcf4c00bbec48c0f3aa7838c77fdfb5a6d73c6d94cac13d9ecee1
  else if bytes = Abi.abiEncode [.bytes (sampleToken "c2lo"), .bytes [1], .static [7]] then
    0xfe3cb5550edf360b7311ce1f08acb47439a60faa086621c63249e6cc31965563
  else if bytes = Abi.abiEncode [.static [7], .bytes [1], .static [sampleDigest]] then
    0xd44a6837940e3d3dfb0b6783a9b5ec79192f925ec707aa32742764ed5249847b
  else 0

def samplePrimitives : Primitives Unit where
  keccak256 := sampleKeccak
  ecrecover _ _ _ _ := 0
  decodeProof _ := some ()
  votingRound _ := 3

def sampleAnswers : Answers Unit where
  getContractAddressByName _ _ := some 9
  verifyWeb2Json _ _ := some true
  relay _ := some 9
  fdcProtocolId _ := some 200
  merkleRoots _ _ _ := some 5
  getFeedById _ _ := some ⟨3, 0, 1000⟩

def sampleSettlement (signature : String) : Settlement := ⟨sampleToken signature, [1], 7, 2, []⟩

def sampleState : State where
  owner := 1
  contractRegistry := 2
  approvedImageDigest := sampleDigest
  priceFeedId := 0
  zkTlsRelayer := 0
  latestProofHash := 0
  latestVerifiedWeb2Hash := 0
  lastSettlementPrice := 0
  lastSettlementValuation := 0
  submittedProofs _ := false
  verifiedQueries _ := ⟨false, 0, 0⟩
  kmsSigners _ := false
  log := [.ownershipTransferred 0 1]

/-- The owner configures a feed; two callers settle query 7 with two tokens. -/
def sampleTxs : List (Tx Unit) :=
  [⟨1, 990, sampleAnswers, .updatePriceFeedId 6⟩,
    ⟨4, 1000, sampleAnswers, .verifyAndSettleRAG (sampleSettlement "c2ln")⟩,
    ⟨5, 1010, sampleAnswers, .verifyAndSettleRAG (sampleSettlement "c2lo")⟩]

end Sample

/-- The settlement gate over whole runs: a verified query was settled by a call that
    passed every gate, and a reverted call changes nothing. -/
theorem settlement_gate {owner registry : Address} {digest : Word} {s₀ : State}
    (deployed : deploy owner registry digest = .ok s₀) (txs : List (Tx Proof)) :
    (∀ q, (((machine prim).run s₀ txs).verifiedQueries q).verified = true →
      ∃ e ∈ (machine prim).trace s₀ txs, ∃ r, e.input.call = .verifyAndSettleRAG r ∧
        r.queryHash = q ∧ (∃ s', e.outcome = .ok (.bool true, s')) ∧
        GatesPassed prim e.input e.before r) ∧
    (∀ tx v, (exec prim tx).run ((machine prim).run s₀ txs) = .error v →
      (machine prim).run s₀ (txs ++ [tx]) = (machine prim).run s₀ txs) := by
  constructor
  · intro q verified
    have absent : ¬ (s₀.verifiedQueries q).verified = true := by
      simp [(deployed_blank deployed).unverified q]
    obtain ⟨e, member, old, x, s', outcome, new⟩ :=
      Machine.run_cause (fun s : State => (s.verifiedQueries q).verified = true) absent verified
    have run : (exec prim e.input).run e.before = .ok (x, s') :=
      (Machine.trace_outcome member).symm.trans outcome
    rcases exec_cases run with quiet | ⟨r, b, call, rfl, ok⟩
    · rw [quiet.verifiedQueries] at new
      exact absurd new old
    · obtain ⟨_, _, _, root, live, valuation, _, _, _, _, rfl, rfl⟩ := verifyAndSettleRAG_ok ok
      have here : q = r.queryHash := (recorded_verified.mp new).resolve_left old
      exact ⟨e, member, r, call, here.symm, ⟨_, outcome⟩, gates_of_ok ok⟩
  · intro tx v reverted
    exact Machine.run_reverted reverted

theorem settlement_gate_sample :
    ∃ e ∈ (machine samplePrimitives).trace sampleState sampleTxs, ∃ r,
      e.input.call = .verifyAndSettleRAG r ∧ r.queryHash = 7 ∧
        GatesPassed samplePrimitives e.input e.before r := by
  obtain ⟨cause, _⟩ := @settlement_gate _ samplePrimitives 1 2 sampleDigest sampleState rfl sampleTxs
  obtain ⟨e, member, r, call, query, _, gates⟩ := cause 7 (by decide +kernel)
  exact ⟨e, member, r, call, query, gates⟩

section AtMostOnce

/-- A call for a query that is verified already, with the zk proof and image digest
    it was verified with, under an accepted token not used for it before. -/
def Reverifies (prim : Primitives Proof) (e : Entry State (Tx Proof) Returned Error) : Prop :=
  ∃ r, e.input.call = .verifyAndSettleRAG r ∧
    Acceptable prim e.input.answers e.before r ∧
    (e.before.verifiedQueries r.queryHash).verified = true ∧ Bound prim e.before r

def Event.ofSettlement : Event → Bool
  | .querySettled _ _ _ _ _ _ _ => true
  | .priceSettled _ _ _ => true
  | .proofVerified _ _ _ => true
  | _ => false

/-- The call returned true, wrote no price, valuation or record, and announced nothing. -/
def Idempotent (e : Entry State (Tx Proof) Returned Error) : Prop :=
  ∃ s', e.outcome = .ok (.bool true, s') ∧
    s'.lastSettlementPrice = e.before.lastSettlementPrice ∧
    s'.lastSettlementValuation = e.before.lastSettlementValuation ∧
    s'.verifiedQueries = e.before.verifiedQueries ∧
    s'.log.filter Event.ofSettlement = e.before.log.filter Event.ofSettlement

/-- Re-verifications settle nothing, and no query is settled twice. -/
def SettledOnce (prim : Primitives Proof) (s₀ : State) (txs : List (Tx Proof)) : Prop :=
  (∀ e ∈ (machine prim).trace s₀ txs, Reverifies prim e → Idempotent e) ∧
  ∀ q, ((machine prim).run s₀ txs).log.countP (·.settles q) ≤ 1

/-- A call that re-verifies settles again: it announces a settlement or reverts. -/
theorem reverifies_not_idempotent {s : State} {tx : Tx Proof}
    (reverifies : Reverifies prim ((machine prim).entry s tx)) :
    ¬ Idempotent ((machine prim).entry s tx) := by
  rintro ⟨s', outcome, _, _, _, silent⟩
  obtain ⟨r, call, _⟩ := reverifies
  change (exec prim tx).run s = .ok (.bool true, s') at outcome
  change tx.call = _ at call
  simp only [exec, call, bind_ok, pure_ok, Prod.mk.injEq] at outcome
  obtain ⟨b, _, ok, _, rfl⟩ := outcome
  obtain ⟨_, _, _, root, live, valuation, _, _, _, _, _, rfl⟩ := verifyAndSettleRAG_ok ok
  change ((s.log ++ _).filter _) = s.log.filter _ at silent
  simp [List.filter_append, settlementEvents, Event.ofSettlement] at silent

/-- The settlements of a query so far: none before it is verified, one after. -/
def CountedOnce (s : State) : Prop :=
  ∀ q, s.log.countP (·.settles q) ≤ if (s.verifiedQueries q).verified then 1 else 0

theorem settled_counts {s : State} {now : Word} {r : Settlement} {root valuation : Word}
    {live : Feed} (once : CountedOnce s) (new : (s.verifiedQueries r.queryHash).verified = false) :
    CountedOnce (s.settled prim now r root live valuation) := by
  intro q
  have before := once q
  have verified : ((s.settled prim now r root live valuation).verifiedQueries q).verified = true ↔
      (s.verifiedQueries q).verified = true ∨ q = r.queryHash := recorded_verified
  have events : (s.settled prim now r root live valuation).log.countP (·.settles q) =
      s.log.countP (·.settles q) + if q = r.queryHash then 1 else 0 := by
    simp only [State.settled, List.countP_append, settlementEvents]
    by_cases here : q = r.queryHash
    · simp [Event.settles, here]
    · simp [Event.settles, here, Ne.symm here]
  rw [events]
  by_cases here : q = r.queryHash
  · subst here
    simp only [new, Bool.false_eq_true, if_false] at before
    simp only [verified, or_true, if_true]
    omega
  · simpa [verified, here] using before

/-- A query is settled at most once exactly in the runs without a re-verification. -/
theorem settled_once_iff {owner registry : Address} {digest : Word} {s₀ : State}
    (deployed : deploy owner registry digest = .ok s₀) (txs : List (Tx Proof)) :
    SettledOnce prim s₀ txs ↔ ∀ e ∈ (machine prim).trace s₀ txs, ¬ Reverifies prim e := by
  constructor
  · rintro ⟨idempotent, _⟩ e member reverifies
    have entry := Machine.trace_entry member
    rw [entry] at reverifies
    exact reverifies_not_idempotent reverifies (entry ▸ idempotent e member (entry ▸ reverifies))
  · intro none
    refine ⟨fun e member reverifies => absurd reverifies (none e member), ?_⟩
    have counted : CountedOnce ((machine prim).run s₀ txs) := by
      refine Machine.run_keeps_while ?_ ?_ none
      · intro s tx x s' once first ok
        rcases exec_cases ok with quiet | ⟨r, b, call, rfl, run⟩
        · obtain ⟨event, log, other⟩ := quiet.event
          intro q
          simpa [log, other, quiet.verifiedQueries] using once q
        · obtain ⟨acceptable, bound, _, root, live, valuation, _, _, _, _, rfl, rfl⟩ :=
            verifyAndSettleRAG_ok run
          refine settled_counts once (Bool.eq_false_iff.mpr ?_)
          exact fun verified => first ⟨r, call, acceptable, verified, bound verified⟩
      · intro q
        simp [(deployed_blank deployed).unverified q, (deployed_blank deployed).unsettled q]
    intro q
    refine (counted q).trans ?_
    split <;> omega

theorem settled_once_fails : ¬ SettledOnce samplePrimitives sampleState sampleTxs := by
  rintro ⟨_, once⟩
  exact absurd (once 7) (by decide +kernel)

theorem settled_once_iff_sample :
    deploy 1 2 sampleDigest = .ok sampleState ∧
      ((machine samplePrimitives).run sampleState (sampleTxs.take 2)).log.countP (·.settles 7) = 1 ∧
      SettledOnce samplePrimitives sampleState (sampleTxs.take 2) := by
  refine ⟨rfl, by decide +kernel,
    (@settled_once_iff _ samplePrimitives 1 2 sampleDigest sampleState rfl _).mpr ?_⟩
  rintro e member ⟨r, call, _, verified, _⟩
  rcases List.mem_cons.mp member with rfl | member
  · cases call
  · obtain rfl := List.mem_singleton.mp member
    cases call
    exact absurd verified (by decide +kernel)

end AtMostOnce

end VerifiableRag
