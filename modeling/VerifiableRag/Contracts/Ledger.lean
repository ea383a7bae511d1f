import Mathlib.Data.Set.Function
import VerifiableRag.Contracts.SettlementRuns

/-!
The replay set, the latest proof and the query records over whole runs. Both entry
points post their proof id to one set; Keccak-256 is assumed free of collisions
where a result needs it.
-/
namespace VerifiableRag
open Bytes Transaction Ownable

variable {Proof : Type} {prim : Primitives Proof}

def AttestationProof.preimage (proof : AttestationProof) : List UInt8 :=
  Abi.abiEncode [.static [proof.bindingHash], .bytes proof.zkProof,
    .static proof.publicInputs.toList]

def Settlement.preimage (r : Settlement) : List UInt8 :=
  Abi.abiEncode [.bytes r.vtpmToken, .bytes r.zkpProof, .static [r.queryHash]]

def Settlement.bindingPreimage (r : Settlement) (digest : Word) : List UInt8 :=
  Abi.abiEncode [.static [r.queryHash], .bytes r.zkpProof, .static [digest]]

/-- What a call hashes to its proof id. -/
def Method.preimage : Method → Option (List UInt8)
  | .submitAttestation proof _ => some proof.preimage
  | .verifyAndSettleRAG r => some r.preimage
  | _ => none

def Method.proofId (prim : Primitives Proof) (call : Method) : Option Word :=
  call.preimage.map prim.keccak256

/-- The call posts `id`, which was unused. -/
structure Posts (s s' : State) (id : Word) : Prop where
  unused : s.submittedProofs id = false
  submittedProofs : s'.submittedProofs = Function.update s.submittedProofs id true
  latestProofHash : s'.latestProofHash = id

structure LeavesProofs (s s' : State) : Prop where
  submittedProofs : s'.submittedProofs = s.submittedProofs
  latestProofHash : s'.latestProofHash = s.latestProofHash

theorem exec_posts {tx : Tx Proof} {s s' : State} {x : Returned}
    (ok : (exec prim tx).run s = .ok (x, s')) :
    match tx.call.proofId prim with
    | some id => Posts s s' id
    | none => LeavesProofs s s' := by
  unfold exec at ok
  split at ok
  case h_7 proof attestationData call =>
    rw [call]
    simp only [submitAttestation, emit, bind_assoc, revertIf_bind_ok, get_bind_ok, modify_bind_ok,
      pure_bind, pure_ok, Prod.mk.injEq] at ok
    obtain ⟨_, unused, _, rfl⟩ := ok
    exact ⟨Bool.eq_false_iff.mpr unused, rfl, rfl⟩
  case h_8 r call =>
    rw [call]
    simp only [bind_ok, pure_ok, Prod.mk.injEq] at ok
    obtain ⟨b, _, settled, _, rfl⟩ := ok
    obtain ⟨acceptable, _, _, _, _, _, _, _, _, _, _, rfl⟩ := verifyAndSettleRAG_ok settled
    exact ⟨acceptable.unused, rfl, rfl⟩
  all_goals
    rename_i call
    rw [call]
    simp only [updateApprovedImageDigest, updateZkTlsRelayer, updatePriceFeedId, registerKmsSigner,
      deregisterKmsSigner, executeKmsSignedAction, emit, bind_assoc,
      onlyOwner_bind_ok, transferOwnership_bind_ok, renounceOwnership_bind_ok, revertIf_bind_ok,
      get_bind_ok, lift_bind_ok, modify_bind_ok, pure_bind, pure_ok, Prod.mk.injEq] at ok
  · obtain ⟨_, _, _, _, rfl⟩ := ok
    exact ⟨rfl, rfl⟩
  · obtain ⟨_, _, _, _, rfl⟩ := ok
    exact ⟨rfl, rfl⟩
  · obtain ⟨_, _, _, _, rfl⟩ := ok
    exact ⟨rfl, rfl⟩
  · obtain ⟨_, _, _, _, rfl⟩ := ok
    exact ⟨rfl, rfl⟩
  · obtain ⟨_, _, _, rfl⟩ := ok
    exact ⟨rfl, rfl⟩
  · obtain ⟨_, _, _, _, rfl⟩ := ok
    exact ⟨rfl, rfl⟩
  · obtain ⟨_, _, _, rfl⟩ := ok
    exact ⟨rfl, rfl⟩
  · obtain ⟨_, _, rfl⟩ := ok
    exact ⟨rfl, rfl⟩

theorem proofs_kept (id : Word) :
    (machine prim).Keeps fun s => s.submittedProofs id = true := by
  intro s tx x s' posted ok
  have posts := exec_posts ok
  cases call : tx.call.proofId prim with
  | none =>
    rw [call] at posts
    exact (congrFun posts.submittedProofs id).trans posted
  | some other =>
    rw [call] at posts
    rw [posts.submittedProofs]
    by_cases same : id = other
    · simp [same]
    · rw [Function.update_of_ne same]
      exact posted

def LatestPosted (s : State) : Prop :=
  s.latestProofHash = 0 ∨ s.submittedProofs s.latestProofHash = true

theorem latest_kept : (machine prim).Keeps LatestPosted := by
  intro s tx x s' latest ok
  have posts := exec_posts ok
  cases call : tx.call.proofId prim with
  | none =>
    rw [call] at posts
    rw [LatestPosted, posts.latestProofHash, posts.submittedProofs]
    exact latest
  | some id =>
    rw [call] at posts
    rw [LatestPosted, posts.latestProofHash, posts.submittedProofs, Function.update_self]
    exact Or.inr rfl

theorem recorded_kept {queries : Word → QueryRecord} {now queryHash bindingHash q : Word}
    (verified : (queries q).verified = true) :
    recorded queries now queryHash bindingHash q = queries q := by
  unfold recorded
  split
  · rfl
  · rename_i other
    have apart : q ≠ queryHash := fun same => other (same ▸ verified)
    rw [Function.update_of_ne apart]

theorem recorded_new {queries : Word → QueryRecord} {now bindingHash q : Word}
    (new : (queries q).verified = false) :
    recorded queries now q bindingHash q = ⟨true, bindingHash, now⟩ := by
  rw [recorded, if_neg (by simp [new]), Function.update_self]

theorem record_kept {q : Word} {record : QueryRecord} (verified : record.verified = true) :
    (machine prim).Keeps fun s => s.verifiedQueries q = record := by
  intro s tx x s' held ok
  rcases exec_cases ok with quiet | ⟨r, b, call, rfl, run⟩
  · exact (congrFun quiet.verifiedQueries q).trans held
  · obtain ⟨_, _, _, _, _, _, _, _, _, _, _, rfl⟩ := verifyAndSettleRAG_ok run
    have already : (s.verifiedQueries q).verified = true := held ▸ verified
    exact (recorded_kept already).trans held

def Succeeds (e : Entry State (Tx Proof) Returned Error) : Prop :=
  ∃ x s', e.outcome = .ok (x, s')

def Accepts (prim : Primitives Proof) (id : Word)
    (e : Entry State (Tx Proof) Returned Error) : Prop :=
  Succeeds e ∧ e.input.call.proofId prim = some id

theorem accepts_once (id : Word) (s : State) (tx : Tx Proof)
    (accepts : Accepts prim id ((machine prim).entry s tx)) :
    ¬ s.submittedProofs id = true ∧ ((machine prim).step s tx).submittedProofs id = true := by
  obtain ⟨⟨x, s', ok⟩, call⟩ := accepts
  have posts := exec_posts ok
  change tx.call.proofId prim = some id at call
  rw [call] at posts
  rw [Machine.step, after_ok ok, posts.submittedProofs, Function.update_self, posts.unused]
  exact ⟨Bool.false_ne_true, rfl⟩

/-- A settled query binds its zk proof and the digest of its token. -/
def Binds (prim : Primitives Proof) (e : Entry State (Tx Proof) Returned Error) (s : State) :
    Prop :=
  ∀ r digest, e.input.call = .verifyAndSettleRAG r → tokenDigest r.vtpmToken = .ok digest →
    (s.verifiedQueries r.queryHash).verified = true ∧
      (s.verifiedQueries r.queryHash).bindingHash = r.bindingHash prim digest

theorem binds_kept (e : Entry State (Tx Proof) Returned Error) :
    (machine prim).Keeps (Binds prim e) := by
  intro s tx x s' binds ok r digest call token
  obtain ⟨verified, bound⟩ := binds r digest call token
  have kept := record_kept verified s tx x s' rfl ok
  exact kept ▸ ⟨verified, bound⟩

theorem settles_binds {s : State} {tx : Tx Proof}
    (succeeds : Succeeds ((machine prim).entry s tx)) :
    Binds prim ((machine prim).entry s tx) ((machine prim).step s tx) := by
  intro r digest call token
  obtain ⟨x, s', ok⟩ := succeeds
  rw [Machine.step, after_ok ok]
  change tx.call = _ at call
  change (exec prim tx).run s = _ at ok
  simp only [exec, call, bind_ok, pure_ok, Prod.mk.injEq] at ok
  obtain ⟨b, _, run, _, rfl⟩ := ok
  obtain ⟨acceptable, bound, _, _, _, _, _, _, _, _, _, rfl⟩ := verifyAndSettleRAG_ok run
  obtain rfl : digest = s.approvedImageDigest :=
    Except.ok.inj (token.symm.trans acceptable.token)
  refine ⟨recorded_verified.mpr (Or.inr rfl), ?_⟩
  change (recorded s.verifiedQueries tx.now r.queryHash _ r.queryHash).bindingHash = _
  cases verified : (s.verifiedQueries r.queryHash).verified with
  | true =>
    rw [recorded_kept verified]
    exact bound verified
  | false =>
    rw [recorded_new verified]

theorem bindingPreimage_injective {r r' : Settlement} {digest digest' : Word}
    (same : r.bindingPreimage digest = r'.bindingPreimage digest') :
    r.zkpProof = r'.zkpProof ∧ digest = digest' := by
  simp only [Settlement.bindingPreimage, Abi.abiEncode, Abi.heads, Abi.Arg.head,
    Abi.Arg.static_tail, List.flatMap_cons, List.flatMap_nil, List.append_nil, List.nil_append,
    List.append_assoc] at same
  obtain ⟨_, same⟩ := List.append_inj same (by simp)
  obtain ⟨_, same⟩ := List.append_inj same (by simp [Abi.uint_length])
  obtain ⟨digests, same⟩ := List.append_inj same (by simp)
  refine ⟨Abi.bytes_tail_injective same, ?_⟩
  rw [← Word.ofBytes_bytes digest, digests, Word.ofBytes_bytes]

def bindingPreimages (trace : List (Entry State (Tx Proof) Returned Error)) :
    Set (List UInt8) :=
  {bytes | ∃ e ∈ trace, ∃ r digest, e.input.call = .verifyAndSettleRAG r ∧
    tokenDigest r.vtpmToken = .ok digest ∧ bytes = r.bindingPreimage digest}

/-- A settled query is presented again with another zk proof or another digest. -/
def Conflicts (a b : Entry State (Tx Proof) Returned Error) : Prop :=
  ∃ r r' digest, Succeeds a ∧ a.input.call = .verifyAndSettleRAG r ∧
    tokenDigest r.vtpmToken = .ok digest ∧ b.input.call = .verifyAndSettleRAG r' ∧
    r'.queryHash = r.queryHash ∧
    (r'.zkpProof ≠ r.zkpProof ∨ tokenDigest r'.vtpmToken ≠ .ok digest)

def Refused (e : Entry State (Tx Proof) Returned Error) : Prop :=
  ∃ v, e.outcome = .error v ∧ e.after = e.before

theorem conflict_refused {s₀ : State} {txs : List (Tx Proof)}
    (collision_free : Set.InjOn prim.keccak256 (bindingPreimages ((machine prim).trace s₀ txs)))
    {a b : Entry State (Tx Proof) Returned Error} (earlier : a ∈ (machine prim).trace s₀ txs)
    (later : b ∈ (machine prim).trace s₀ txs)
    (since : Binds prim a a.after → Binds prim a b.before) (conflicts : Conflicts a b) :
    Refused b := by
  obtain ⟨r, r', digest, succeeds, call, token, call', query, differ⟩ := conflicts
  cases outcome : b.outcome with
  | error v => exact ⟨v, outcome, after_reverted outcome⟩
  | ok result =>
    exfalso
    have bound_a : Binds prim a a.after := by
      rw [Machine.trace_entry earlier] at succeeds ⊢
      exact settles_binds succeeds
    have ok : (exec prim b.input).run b.before = .ok result :=
      (Machine.trace_outcome later).symm.trans outcome
    simp only [exec, call', bind_ok] at ok
    obtain ⟨_, _, run, _⟩ := ok
    obtain ⟨acceptable, bound, _⟩ := verifyAndSettleRAG_ok run
    obtain ⟨verified, held⟩ := since bound_a r digest call token
    rw [← query] at verified held
    -- the record of the query binds both pairs, so the two preimages are one
    have hashes : prim.keccak256 (r.bindingPreimage digest) =
        prim.keccak256 (r'.bindingPreimage b.before.approvedImageDigest) :=
      held.symm.trans (bound verified)
    have same := collision_free ⟨a, earlier, r, digest, call, token, rfl⟩
      ⟨b, later, r', _, call', acceptable.token, rfl⟩ hashes
    obtain ⟨proofs, digests⟩ := bindingPreimage_injective same
    rcases differ with other | other
    · exact other proofs.symm
    · exact other (digests ▸ acceptable.token)

/-- The ledger over any run: records and the replay set are permanent, the latest proof is
posted, no proof id is accepted twice, and a conflicting call is refused. -/
theorem ledger_invariants {owner registry : Address} {digest : Word} {s₀ : State}
    (deployed : deploy owner registry digest = .ok s₀) (txs later : List (Tx Proof)) :
    (∀ q, (((machine prim).run s₀ txs).verifiedQueries q).verified = true →
      ((machine prim).run s₀ (txs ++ later)).verifiedQueries q =
        ((machine prim).run s₀ txs).verifiedQueries q) ∧
    (∀ id, ((machine prim).run s₀ txs).submittedProofs id = true →
      ((machine prim).run s₀ (txs ++ later)).submittedProofs id = true) ∧
    LatestPosted ((machine prim).run s₀ txs) ∧
    (∀ id, ((machine prim).trace s₀ txs).Pairwise fun a b =>
      ¬ (Accepts prim id a ∧ Accepts prim id b)) ∧
    (Set.InjOn prim.keccak256 (bindingPreimages ((machine prim).trace s₀ txs)) →
      ((machine prim).trace s₀ txs).Pairwise fun a b => Conflicts a b → Refused b) := by
  refine ⟨?_, ?_, ?_, ?_, ?_⟩
  · intro q verified
    rw [Machine.run_append]
    exact Machine.run_keeps (record_kept verified) rfl later
  · intro id posted
    rw [Machine.run_append]
    exact Machine.run_keeps (proofs_kept id) posted later
  · exact Machine.run_keeps latest_kept (Or.inl (deployed_blank deployed).latest) txs
  · intro id
    exact Machine.trace_at_most_once (proofs_kept id) (accepts_once id) s₀ txs
  · intro collision_free
    refine (Machine.trace_since binds_kept s₀ txs).imp_of_mem ?_
    intro a b earlier later since
    exact conflict_refused collision_free earlier later since

section Sample

theorem injOn_of_two {α β : Type} {f : α → β} {s : Set α} {x y : α}
    (two : ∀ b ∈ s, b = x ∨ b = y) (apart : f x ≠ f y) : Set.InjOn f s := by
  intro a a_member b b_member same
  rcases two a a_member with rfl | rfl <;> rcases two b b_member with rfl | rfl
  · rfl
  · exact absurd same apart
  · exact absurd same.symm apart
  · rfl

def conflictingSettlement : Settlement := ⟨sampleToken "c2ln", [2], 7, 2, []⟩

/-- Keccak-256 on the buffers of the sample settlements and of the conflicting one. -/
def conflictingKeccak (bytes : List UInt8) : Word :=
  if bytes = conflictingSettlement.preimage then
    0xfaa2f2dbe04e131836dfbb0a19ed92d4d6b694267f0d5cc2ab4fe239401c0c61
  else if bytes = conflictingSettlement.bindingPreimage sampleDigest then
    0x21c1f9e31bce860fcf1349108df7f920142a986e42b20036b4bdbb84a6f65160
  else sampleKeccak bytes

def conflictingPrimitives : Primitives Unit :=
  { samplePrimitives with keccak256 := conflictingKeccak }

def conflictingTxs : List (Tx Unit) :=
  sampleTxs ++ [⟨6, 1020, sampleAnswers, .verifyAndSettleRAG conflictingSettlement⟩]

theorem sampleToken_digest : tokenDigest (sampleToken "c2ln") = .ok sampleDigest ∧
    tokenDigest (sampleToken "c2lo") = .ok sampleDigest := by
  constructor <;> decide +kernel

theorem sample_binding (signature : String) :
    (sampleSettlement signature).bindingPreimage sampleDigest =
      Abi.abiEncode [.static [7], .bytes [1], .static [sampleDigest]] := rfl

theorem ledger_invariants_sample :
    let trace := (machine conflictingPrimitives).trace sampleState conflictingTxs
    LatestPosted ((machine conflictingPrimitives).run sampleState conflictingTxs) ∧
      trace.Pairwise fun a b => Conflicts a b → Refused b := by
  intro trace
  obtain ⟨_, _, latest, _, refused⟩ :=
    @ledger_invariants _ conflictingPrimitives 1 2 sampleDigest sampleState rfl conflictingTxs []
  refine ⟨latest, refused ?_⟩
  have bound : ∀ bytes ∈ bindingPreimages ((machine conflictingPrimitives).trace sampleState
      conflictingTxs), bytes = Abi.abiEncode [.static [7], .bytes [1], .static [sampleDigest]] ∨
        bytes = conflictingSettlement.bindingPreimage sampleDigest := by
    rintro bytes ⟨e, member, r, digest, call, token, rfl⟩
    have input := Machine.trace_input member
    simp only [conflictingTxs, sampleTxs, List.cons_append, List.nil_append, List.mem_cons,
      List.not_mem_nil, or_false] at input
    rcases input with first | second | third | fourth
    · rw [first] at call
      cases call
    · rw [second] at call
      cases call
      obtain rfl := Except.ok.inj (sampleToken_digest.1.symm.trans token)
      exact Or.inl (sample_binding _)
    · rw [third] at call
      cases call
      obtain rfl := Except.ok.inj (sampleToken_digest.2.symm.trans token)
      exact Or.inl (sample_binding _)
    · rw [fourth] at call
      cases call
      obtain rfl := Except.ok.inj (sampleToken_digest.1.symm.trans token)
      exact Or.inr rfl
  have apart : conflictingPrimitives.keccak256
        (Abi.abiEncode [.static [7], .bytes [1], .static [sampleDigest]]) ≠
      conflictingPrimitives.keccak256 (conflictingSettlement.bindingPreimage sampleDigest) := by
    decide +kernel
  exact injOn_of_two bound apart

end Sample

end VerifiableRag
