import VerifiableRag.Contracts.Contract

/-!
What one transaction does. A settlement passes the token, FDC and replay gates,
keeps or writes the record of its query and reads a fresh feed; every other
transaction leaves records and settlements alone.
-/
namespace VerifiableRag
open Bytes Transaction Ownable Results

variable {Proof : Type} {prim : Primitives Proof} {answers : Answers Proof}

/-- A feed within the freshness window around a block time, either way. -/
def Fresh (now : Word) (feed : Feed) : Prop :=
  feed.timestamp.toNat ≤ now.toNat + realtimeMaxAge ∧
    now.toNat ≤ feed.timestamp.toNat + realtimeMaxAge

theorem liveFeed_ok {state : State} {now : Word} {feedId : FeedId} {feed : Feed}
    (read : liveFeed answers now state feedId = .ok feed) :
    readFeed answers state feedId = .ok feed ∧ Fresh now feed := by
  simp only [liveFeed, except_bind_ok, view_checked_ok, view_revertIf_ok, except_pure_ok, and_assoc,
    exists_and_left, exists_eq_left', exists_const] at read
  obtain ⟨found, read, _, ahead, _, behind, rfl⟩ := read
  exact ⟨read, by simpa using ahead, by simpa using behind⟩

theorem tokenDigest_ok {token : List UInt8} {digest : Word} :
    tokenDigest token = .ok digest ↔ ∃ payload, TokenClaims.jwtPayload token = some payload ∧
      TokenClaims.hasSwname payload = true ∧
      TokenClaims.extractImageDigest payload = some digest := by
  simp only [tokenDigest, except_bind_ok, expect_ok, view_revertIf_ok, exists_and_left, exists_const,
    Bool.not_eq_false]

/-- The checks of a settlement up to its record: an accepted token and FDC proof,
    and a combination of token, proof and query that was not used before. -/
structure Acceptable (prim : Primitives Proof) (answers : Answers Proof) (s : State)
    (r : Settlement) : Prop where
  token_given : r.vtpmToken.length ≠ 0
  proof_given : r.zkpProof.length ≠ 0
  query_given : r.queryHash ≠ 0
  token : tokenDigest r.vtpmToken = .ok s.approvedImageDigest
  fdc : ∃ root, verifiedWeb2Root prim answers s r.fdcProof = .ok root
  unused : s.submittedProofs (r.proofId prim) = false

/-- The query is verified already, with this zk proof and image digest. -/
def Bound (prim : Primitives Proof) (s : State) (r : Settlement) : Prop :=
  (s.verifiedQueries r.queryHash).bindingHash = r.bindingHash prim s.approvedImageDigest

/-- The record map after a settlement: a verified record is kept. -/
def recorded (queries : Word → QueryRecord) (now queryHash bindingHash : Word) :
    Word → QueryRecord :=
  if (queries queryHash).verified then queries
  else Function.update queries queryHash ⟨true, bindingHash, now⟩

theorem recordQuery_bind_ok {β : Type} {now queryHash bindingHash : Word}
    {f : Unit → Call State Error β} {s : State} {x : β × State} :
    (recordQuery now queryHash bindingHash >>= f).run s = .ok x ↔
      ((s.verifiedQueries queryHash).verified = true →
        (s.verifiedQueries queryHash).bindingHash = bindingHash) ∧
      (f ()).run { s with verifiedQueries := recorded s.verifiedQueries now queryHash bindingHash } = .ok x := by
  rw [recordQuery, bind_assoc, get_bind_ok]
  cases verified : (s.verifiedQueries queryHash).verified with
  | true =>
    have kept : recorded s.verifiedQueries now queryHash bindingHash = s.verifiedQueries := if_pos verified
    simp only [if_true, revertIf_bind_ok, not_not, ne_eq, kept, forall_const]
  | false =>
    have written : recorded s.verifiedQueries now queryHash bindingHash =
        Function.update s.verifiedQueries queryHash ⟨true, bindingHash, now⟩ :=
      if_neg (by simp [verified])
    simp [written]

def settlementEvents (s : State) (now : Word) (r : Settlement) (live : Feed) (valuation : Word) :
    List Event :=
  [.priceSettled s.priceFeedId live.value now,
    .querySettled r.queryHash s.priceFeedId live.value live.decimals r.settlementQuantity valuation
      now,
    .proofVerified r.queryHash s.approvedImageDigest now]

def State.settled (prim : Primitives Proof) (s : State) (now : Word) (r : Settlement) (root : Word)
    (live : Feed) (valuation : Word) : State :=
  { s with
    latestVerifiedWeb2Hash := root
    submittedProofs := Function.update s.submittedProofs (r.proofId prim) true
    latestProofHash := r.proofId prim
    verifiedQueries := recorded s.verifiedQueries now r.queryHash
      (r.bindingHash prim s.approvedImageDigest)
    lastSettlementPrice := live.value
    lastSettlementValuation := valuation
    log := s.log ++ settlementEvents s now r live valuation }

theorem verifyAndSettleRAG_ok {now : Word} {r : Settlement} {s s' : State} {b : Bool}
    (ok : (verifyAndSettleRAG prim answers now r).run s = .ok (b, s')) :
    Acceptable prim answers s r ∧
    ((s.verifiedQueries r.queryHash).verified = true → Bound prim s r) ∧
    (r.settlementQuantity ≠ 0 ∧ s.priceFeedId ≠ 0) ∧
    ∃ root live valuation, verifiedWeb2Root prim answers s r.fdcProof = .ok root ∧
      readFeed answers s s.priceFeedId = .ok live ∧ Fresh now live ∧
      scaleValuation r.settlementQuantity live.value live.decimals = .ok valuation ∧
      b = true ∧ s' = s.settled prim now r root live valuation := by
  simp only [verifyAndSettleRAG, settleAgainstFeed, emit, bind_assoc, revertIf_bind_ok, get_bind_ok,
    lift_bind_ok, modify_bind_ok, recordQuery_bind_ok, pure_ok, Prod.mk.injEq] at ok
  obtain ⟨given, query, digest, token, approved, root, fdc, unused, bound, quantity, feedId, live,
    read, valuation, scaled, rfl, rfl⟩ := ok
  obtain rfl : digest = s.approvedImageDigest := not_not.mp approved
  obtain ⟨read, fresh⟩ := liveFeed_ok read
  refine ⟨⟨?_, ?_, query, token, ⟨root, fdc⟩, by simpa using unused⟩, bound, ⟨quantity, feedId⟩,
    root, live, valuation, fdc, read, fresh, scaled, rfl, ?_⟩
  · exact fun h => given (Or.inl h)
  · exact fun h => given (Or.inr h)
  · simp [State.settled, settlementEvents]

def Event.settles (queryHash : Word) : Event → Bool
  | .querySettled q _ _ _ _ _ _ => q == queryHash
  | _ => false

/-- A transaction that touches neither records nor settlements and logs one event. -/
structure Quiet (s s' : State) : Prop where
  verifiedQueries : s'.verifiedQueries = s.verifiedQueries
  lastSettlementPrice : s'.lastSettlementPrice = s.lastSettlementPrice
  lastSettlementValuation : s'.lastSettlementValuation = s.lastSettlementValuation
  event : ∃ event, s'.log = s.log ++ [event] ∧ ∀ q, event.settles q = false

theorem exec_cases {tx : Tx Proof} {s s' : State} {x : Returned}
    (ok : (exec prim tx).run s = .ok (x, s')) :
    Quiet s s' ∨ ∃ r b, tx.call = .verifyAndSettleRAG r ∧ x = .bool b ∧
      (verifyAndSettleRAG prim tx.answers tx.now r).run s = .ok (b, s') := by
  unfold exec at ok
  split at ok
  case h_8 r call =>
    simp only [bind_ok, pure_ok, Prod.mk.injEq] at ok
    obtain ⟨b, _, settled, rfl, rfl⟩ := ok
    exact .inr ⟨r, b, call, rfl, settled⟩
  all_goals
    left
    simp only [updateApprovedImageDigest, updateZkTlsRelayer, updatePriceFeedId, registerKmsSigner,
      deregisterKmsSigner, executeKmsSignedAction, submitAttestation, emit, bind_assoc,
      onlyOwner_bind_ok, transferOwnership_bind_ok, renounceOwnership_bind_ok, revertIf_bind_ok,
      get_bind_ok, lift_bind_ok, modify_bind_ok, pure_bind, pure_ok, Prod.mk.injEq] at ok
  · obtain ⟨_, _, _, _, rfl⟩ := ok
    exact ⟨rfl, rfl, rfl, _, rfl, fun _ => rfl⟩
  · obtain ⟨_, _, _, _, rfl⟩ := ok
    exact ⟨rfl, rfl, rfl, _, rfl, fun _ => rfl⟩
  · obtain ⟨_, _, _, _, rfl⟩ := ok
    exact ⟨rfl, rfl, rfl, _, rfl, fun _ => rfl⟩
  · obtain ⟨_, _, _, _, rfl⟩ := ok
    exact ⟨rfl, rfl, rfl, _, rfl, fun _ => rfl⟩
  · obtain ⟨_, _, _, rfl⟩ := ok
    exact ⟨rfl, rfl, rfl, _, rfl, fun _ => rfl⟩
  · obtain ⟨_, _, _, _, rfl⟩ := ok
    exact ⟨rfl, rfl, rfl, _, rfl, fun _ => rfl⟩
  · obtain ⟨_, _, _, rfl⟩ := ok
    exact ⟨rfl, rfl, rfl, _, rfl, fun _ => rfl⟩
  · obtain ⟨_, _, _, rfl⟩ := ok
    exact ⟨rfl, rfl, rfl, _, rfl, fun _ => rfl⟩
  · obtain ⟨_, _, rfl⟩ := ok
    exact ⟨rfl, rfl, rfl, _, rfl, fun _ => rfl⟩

end VerifiableRag
