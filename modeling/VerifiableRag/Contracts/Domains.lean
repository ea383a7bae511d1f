import VerifiableRag.Contracts.Ledger

/-!
The two preimages behind the shared replay set. The layouts coincide for tokens of
at most one word only, and no token that passes the claim checks is that short.
-/
namespace VerifiableRag
open Bytes Transaction Ownable

namespace TokenClaims

theorem hexWord_length {count : Nat} {s : List UInt8} {v w : Word}
    (read : hexWord count s v = some w) : count ≤ s.length := by
  induction count generalizing s v with
  | zero => exact Nat.zero_le _
  | succ count ih =>
    cases s with
    | nil => cases read
    | cons c rest =>
      rw [hexWord] at read
      split at read
      · cases read
      · exact Nat.succ_le_succ (ih read)

theorem extractImageDigest_length {json : List UInt8} {digest : Word}
    (found : extractImageDigest json = some digest) : 64 ≤ json.length := by
  simp only [extractImageDigest, Option.bind_eq_bind, Option.bind_eq_some_iff,
    Option.ite_none_left_eq_some] at found
  obtain ⟨ki, _, _, _, _, read⟩ := found
  have long := hexWord_length read
  rw [List.length_drop] at long
  omega

theorem decodeGroups_length : ∀ {s out : List UInt8}, decodeGroups s = some out →
    out.length ≤ s.length
  | [], _, ok => by
    cases ok
    exact Nat.le_refl 0
  | [_], _, ok => by cases ok
  | [_, _], _, ok => by
    rw [decodeGroups] at ok
    split at ok
    · cases ok
    · cases ok
      simp
  | [_, _, _], _, ok => by
    rw [decodeGroups] at ok
    split at ok
    · cases ok
    · cases ok
      simp
  | _ :: _ :: _ :: _ :: rest, _, ok => by
    rw [decodeGroups] at ok
    split at ok
    · cases ok
    · obtain ⟨out, decoded, rfl⟩ := Option.map_eq_some_iff.mp ok
      have shorter := decodeGroups_length decoded
      simp only [List.length_cons]
      omega

theorem stripPadding_length (input : List UInt8) : (stripPadding input).length ≤ input.length := by
  have shorter := (List.dropWhile_sublist (p := (· == 0x3D)) (l := input.reverse)).length_le
  rw [List.length_reverse] at shorter
  rw [stripPadding, List.length_reverse]
  exact shorter

theorem jwtPayload_length {token payload : List UInt8} (cut : jwtPayload token = some payload) :
    payload.length ≤ token.length := by
  simp only [jwtPayload, b64UrlDecode, Option.bind_eq_bind, Option.bind_eq_some_iff,
    Option.ite_none_left_eq_some] at cut
  obtain ⟨first, _, second, _, _, _, decoded⟩ := cut
  have groups := decodeGroups_length decoded
  have stripped := stripPadding_length ((token.drop (first + 1)).take (second - (first + 1)))
  rw [List.length_take, List.length_drop] at stripped
  omega

theorem accepted_length {token : List UInt8} {digest : Word}
    (accepted : tokenDigest token = .ok digest) : 64 ≤ token.length := by
  obtain ⟨payload, cut, _, found⟩ := tokenDigest_ok.mp accepted
  exact (extractImageDigest_length found).trans (jwtPayload_length cut)

end TokenClaims

/-- The layouts agree on their second word only when the token fills one word. -/
theorem layouts_coincide {proof : AttestationProof} {r : Settlement}
    (calldata : r.vtpmToken.length < 2 ^ 64) (same : proof.preimage = r.preimage) :
    r.vtpmToken.length ≤ 32 := by
  have three := proof.publicInputs.toList_length
  simp only [AttestationProof.preimage, Settlement.preimage, Abi.abiEncode, Abi.heads,
    Abi.Arg.head, Abi.Arg.headSize, Abi.Arg.static_tail, List.flatMap_cons, List.flatMap_nil, List.append_nil,
    List.nil_append, List.append_assoc, List.map_cons, List.map_nil, List.sum_cons, List.sum_nil] at same
  obtain ⟨_, same⟩ := List.append_inj same (by simp [Abi.uint_length])
  obtain ⟨offsets, _⟩ := List.append_inj same (by simp [Abi.uint_length])
  have numbers := Abi.uint_inj offsets
  simp only [Abi.Arg.tail, List.length_append, Abi.uint_length, Abi.padRight_length,
    List.length_cons, List.length_nil, three] at numbers
  omega

theorem preimages_apart (proof : AttestationProof) {r : Settlement} {digest : Word}
    (calldata : r.vtpmToken.length < 2 ^ 64) (accepted : tokenDigest r.vtpmToken = .ok digest) :
    proof.preimage ≠ r.preimage := by
  intro same
  have short := layouts_coincide calldata same
  have long := TokenClaims.accepted_length accepted
  omega

/-- The ABI decoder admits no calldata array of 2^64 bytes or more. -/
def Method.Decodable : Method → Prop
  | .verifyAndSettleRAG r => r.vtpmToken.length < 2 ^ 64
  | _ => True

def proofPreimages (txs : List (Tx Proof)) : Set (List UInt8) :=
  {bytes | ∃ tx ∈ txs, tx.call.preimage = some bytes}

theorem posted_by {owner registry : Address} {digest : Word} {s₀ : State}
    (deployed : deploy owner registry digest = .ok s₀) {txs : List (Tx Proof)}
    {bytes : List UInt8}
    (collision_free : Set.InjOn prim.keccak256 (insert bytes (proofPreimages txs)))
    (posted : ((machine prim).run s₀ txs).submittedProofs (prim.keccak256 bytes) = true) :
    ∃ e ∈ (machine prim).trace s₀ txs, Succeeds e ∧ e.input.call.preimage = some bytes := by
  have absent : ¬ s₀.submittedProofs (prim.keccak256 bytes) = true := by
    simp [(deployed_blank deployed).proofs]
  obtain ⟨e, member, old, x, s', outcome, new⟩ :=
    Machine.run_cause (fun s : State => s.submittedProofs (prim.keccak256 bytes) = true) absent posted
  have posts := exec_posts ((Machine.trace_outcome member).symm.trans outcome)
  refine ⟨e, member, ⟨x, s', outcome⟩, ?_⟩
  cases call : e.input.call.preimage with
  | none =>
    rw [Method.proofId, call] at posts
    exact absurd ((congrFun posts.submittedProofs _).symm.trans new) old
  | some other =>
    rw [Method.proofId, call] at posts
    have written := posts.submittedProofs
    rw [written] at new
    by_cases same : prim.keccak256 bytes = prim.keccak256 other
    · have one := collision_free (Set.mem_insert _ _)
        (Set.mem_insert_of_mem _ ⟨e.input, Machine.trace_input member, call⟩) same
      rw [one]
    · rw [Function.update_of_ne same] at new
      exact absurd new old

theorem succeeded_settlement {e : Entry State (Tx Proof) Returned Error} {s₀ : State}
    {txs : List (Tx Proof)} (member : e ∈ (machine prim).trace s₀ txs) (succeeds : Succeeds e)
    {r : Settlement} (call : e.input.call = .verifyAndSettleRAG r) :
    tokenDigest r.vtpmToken = .ok e.before.approvedImageDigest := by
  obtain ⟨x, s', outcome⟩ := succeeds
  have ok : (exec prim e.input).run e.before = .ok (x, s') :=
    (Machine.trace_outcome member).symm.trans outcome
  simp only [exec, call, bind_ok] at ok
  obtain ⟨_, _, run, _⟩ := ok
  exact (verifyAndSettleRAG_ok run).1.token

/-- No attestation hashes what an accepted settlement hashes, so in any run the proof id of
either was posted by its own entry point. -/
theorem domain_separation {owner registry : Address} {digest : Word} {s₀ : State}
    (deployed : deploy owner registry digest = .ok s₀) (txs : List (Tx Proof))
    (decodable : ∀ tx ∈ txs, tx.call.Decodable) :
    (∀ (proof : AttestationProof) (r : Settlement) (attested : Word),
      r.vtpmToken.length < 2 ^ 64 → tokenDigest r.vtpmToken = .ok attested →
      proof.preimage ≠ r.preimage) ∧
    (∀ (r : Settlement) (attested : Word),
      r.vtpmToken.length < 2 ^ 64 → tokenDigest r.vtpmToken = .ok attested →
      Set.InjOn prim.keccak256 (insert r.preimage (proofPreimages txs)) →
      ((machine prim).run s₀ txs).submittedProofs (r.proofId prim) = true →
      ∃ e ∈ (machine prim).trace s₀ txs, Succeeds e ∧
        ∃ r', e.input.call = .verifyAndSettleRAG r' ∧ r'.preimage = r.preimage) ∧
    ∀ proof : AttestationProof,
      Set.InjOn prim.keccak256 (insert proof.preimage (proofPreimages txs)) →
      ((machine prim).run s₀ txs).submittedProofs (attestationId prim proof) = true →
      ∃ e ∈ (machine prim).trace s₀ txs, Succeeds e ∧
        ∃ proof' data, e.input.call = .submitAttestation proof' data ∧
          proof'.preimage = proof.preimage := by
  refine ⟨fun proof r attested => preimages_apart proof, ?_, ?_⟩
  · intro r attested calldata accepted collision_free posted
    obtain ⟨e, member, succeeds, hashed⟩ := posted_by deployed collision_free posted
    refine ⟨e, member, succeeds, ?_⟩
    cases call : e.input.call with
    | verifyAndSettleRAG r' =>
      rw [call] at hashed
      exact ⟨r', rfl, Option.some.inj hashed⟩
    | submitAttestation proof data =>
      rw [call] at hashed
      exact absurd (Option.some.inj hashed) (preimages_apart proof calldata accepted)
    | _ =>
      rw [call] at hashed
      cases hashed
  · intro proof collision_free posted
    obtain ⟨e, member, succeeds, hashed⟩ := posted_by deployed collision_free posted
    refine ⟨e, member, succeeds, ?_⟩
    cases call : e.input.call with
    | verifyAndSettleRAG r =>
      have calldata := decodable e.input (Machine.trace_input member)
      rw [call] at hashed calldata
      exact absurd (Option.some.inj hashed).symm
        (preimages_apart proof calldata (succeeded_settlement member succeeds call))
    | submitAttestation proof' data =>
      rw [call] at hashed
      exact ⟨proof', data, rfl, Option.some.inj hashed⟩
    | _ =>
      rw [call] at hashed
      cases hashed

theorem domain_separation_sample :
    (AttestationProof.mk 96 [1] ⟨[7, 0, 0], rfl⟩).preimage ≠ (sampleSettlement "c2ln").preimage ∧
    ∃ e ∈ (machine samplePrimitives).trace sampleState sampleTxs, Succeeds e ∧
      ∃ r', e.input.call = .verifyAndSettleRAG r' ∧
        r'.preimage = (sampleSettlement "c2ln").preimage := by
  have inputs : ∀ tx ∈ sampleTxs, (∃ feedId, tx.call = .updatePriceFeedId feedId) ∨
      tx.call = .verifyAndSettleRAG (sampleSettlement "c2ln") ∨
      tx.call = .verifyAndSettleRAG (sampleSettlement "c2lo") := by
    intro tx member
    simp only [sampleTxs, List.mem_cons, List.not_mem_nil, or_false] at member
    rcases member with rfl | rfl | rfl
    · exact Or.inl ⟨6, rfl⟩
    · exact Or.inr (Or.inl rfl)
    · exact Or.inr (Or.inr rfl)
  have short : (sampleSettlement "c2ln").vtpmToken.length < 2 ^ 64 := by decide +kernel
  have decodable : ∀ tx ∈ sampleTxs, tx.call.Decodable := by
    intro tx member
    rcases inputs tx member with ⟨feedId, call⟩ | call | call
    · rw [call]
      trivial
    · rw [call]
      exact short
    · rw [call]
      change (sampleSettlement "c2lo").vtpmToken.length < 2 ^ 64
      decide +kernel
  have apart_hashes : samplePrimitives.keccak256 (sampleSettlement "c2ln").preimage ≠
      samplePrimitives.keccak256 (sampleSettlement "c2lo").preimage := by
    decide +kernel
  obtain ⟨apart, settled, _⟩ :=
    @domain_separation _ samplePrimitives 1 2 sampleDigest sampleState rfl sampleTxs decodable
  refine ⟨apart _ _ _ short sampleToken_digest.1,
    settled _ _ short sampleToken_digest.1 (injOn_of_two ?_ apart_hashes) (by decide +kernel)⟩
  intro bytes member
  rcases member with same | ⟨tx, member, hashed⟩
  · exact Or.inl same
  · rcases inputs tx member with ⟨feedId, call⟩ | call | call
    · rw [call] at hashed
      cases hashed
    · rw [call] at hashed
      exact Or.inl (Option.some.inj hashed).symm
    · rw [call] at hashed
      exact Or.inr (Option.some.inj hashed).symm

end VerifiableRag
