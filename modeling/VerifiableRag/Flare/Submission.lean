import VerifiableRag.Contracts.Ledger
import VerifiableRag.Flare.AbiArgs
import VerifiableRag.Library.AbiStruct
import VerifiableRag.Library.Base64Encoding
import VerifiableRag.Library.JsonAscii
import VerifiableRag.Processor.PublicWords

/-!
An attestation proof on its way to the contract: the payload of `to_flare_payload`, the call
that `submit_attestation` makes of it and what `submitAttestation` reads in the calldata.
-/
namespace Flare
open Abi Base64 Bytes CodePoints Json Jwt RagEngine Results Transaction
open Ownable (Address)
open VerifiableRag (Method Primitives State attestationId exec machine)

section Record

/-- The code points of a text in generalized UTF-8. -/
def ofUtf8 (t : Text) : Str :=
  let push (done : List Nat) (b : UInt8) : List Nat :=
    if Unicode.isContinuation b then
      (done.headD 0 * 64 + (b.toNat - 0x80)) :: done.tail
    else if b < 0x80 then b.toNat :: done
    else if b < 0xE0 then (b.toNat - 0xC0) :: done
    else if b < 0xF0 then (b.toNat - 0xE0) :: done
    else (b.toNat - 0xF0) :: done
  ((t.foldl push []).map (Fin.ofNat 0x110000)).reverse

def dumpsText (t : Text) : Text := encodeBasestringAscii (ofUtf8 t)

def dumpsTexts (ts : List Text) : Text :=
  0x5B :: (List.intercalate [0x2C] (ts.map dumpsText) ++ [0x5D])

/-- `json.dumps(self.to_record(), separators=(",", ":"))`. -/
def recordJson (p : AttestationProof) : Text :=
  let members : List (String × Text) := [
    ("attested", utf8 "true"),
    ("swname", dumpsText p.swname),
    ("image_digest", dumpsText p.imageDigest),
    ("hardware", dumpsText p.hardware),
    ("zk_proof", dumpsText (b64encode p.zkProof)),
    ("public_inputs", dumpsTexts (p.publicInputs.inputs.map fun input => hex input.toList)),
    ("binding_hash", dumpsText p.bindingHash)]
  0x7B :: (List.intercalate [0x2C] (members.map fun member =>
    dumpsText (utf8 member.1) ++ 0x3A :: member.2) ++ [0x7D])

/-- The values of a payload beside dicts. -/
inductive Leaf where
  | text (t : Text)
  | bytes (data : List UInt8)
  | texts (ts : List Text)

def toFlarePayload (p : AttestationProof) : List (Str × PyValue Leaf) := [
  (ofString "proof", .dict [
    (ofString "bindingHash", .other (.text p.toFlareProof.bindingHash)),
    (ofString "zkProof", .other (.bytes p.toFlareProof.zkProof)),
    (ofString "publicInputs", .other (.texts p.toFlareProof.publicInputs))]),
  (ofString "payload", .other (.bytes (recordJson p)))]

end Record

section Call

/-- An entry of an ABI; a name or a list of inputs that it lacks is empty. -/
structure AbiEntry where
  type : Str
  name : Str
  inputs : List AbiInput

def AbiEntry.isFunction (entry : AbiEntry) : Bool := entry.type = ofString "function"

/-- `"attest" in name.lower()`; no other letter than those of ASCII has one of these in lower
    case. -/
def namesAttest (name : Str) : Bool :=
  let lower := name.map fun c => if 0x41 ≤ c.val ∧ c.val ≤ 0x5A then c + 0x20 else c
  lower.tails.any (ofString "attest").isPrefixOf

inductive SubmitError where
  /-- no attestation function found in VerifiableRAG ABI at {address} -/
  | noFunction (address : Str)
  /-- function {target} not found in ABI of {address} -/
  | notFound (target address : Str)
  | payload (e : TransactionError)
  /-- `web3` has no encoding of the arguments. -/
  | encoding

def SUBMIT_ATTESTATION : Str := ofString "submitAttestation"

def submitTarget (abi : List AbiEntry) (fnName : Option Str) : Option Str :=
  match fnName.filter (· ≠ []) with
  | some name => some name
  | none =>
    let candidates := abi.filter fun entry => entry.isFunction && namesAttest entry.name
    match candidates with
    | [] => none
    | first :: _ => some ((candidates.find? (·.name = SUBMIT_ATTESTATION)).getD first).name

/-- `submit_attestation` up to the function and the arguments of the transaction. -/
def submitCall (address : Str) (abi : List AbiEntry) (fnName : Option Str)
    (payload : List (Str × PyValue Leaf)) : Except SubmitError (Str × List (Arg Leaf)) :=
  match submitTarget abi fnName with
  | none => .error (.noFunction address)
  | some target =>
    match abi.find? fun entry => entry.isFunction && entry.name = target with
    | none => .error (.notFound target address)
    | some fn => do
      let args ← (abiArgsForPayload target fn.inputs payload).mapError .payload
      return (target, args)

/-- The selector of `submitAttestation((bytes32,bytes,bytes32[3]),bytes)`. -/
def submitSelector : List UInt8 := [0x54, 0x1A, 0x39, 0x28]

def proofFields (proof : VerifiableRag.AttestationProof) : List Abi.Arg :=
  [.static [proof.bindingHash], .bytes proof.zkProof, .static proof.publicInputs.toList]

/-- The calldata at the types of `submitAttestation`. -/
def submitCalldata (toBytes32 : Text → Option Word) : List (Arg Leaf) → Option (List UInt8)
  | [.flat [.value (.other (.text bindingHash)), .value (.other (.bytes zkProof)),
      .value (.other (.texts publicInputs))], .value (.other (.bytes data))] => do
    let proof ← FlareProof.encoded toBytes32 ⟨bindingHash, zkProof, publicInputs⟩
    return submitSelector ++ encodeStructCall (proofFields proof) [.bytes data]
  | _ => none

def submission (toBytes32 : Text → Option Word) (address : Str) (abi : List AbiEntry)
    (record : AttestationProof) : Except SubmitError (List UInt8) := do
  let call ← submitCall address abi none (toFlarePayload record)
  let calldata := if call.1 = SUBMIT_ATTESTATION then submitCalldata toBytes32 call.2 else none
  calldata.elim (.error .encoding) .ok

def submittedMethod : List Abi.Arg × List Abi.Arg → Option Method
  | ([.static [bindingHash], .bytes zkProof, .static [doc, prompt, out]], [.bytes data]) =>
    some (.submitAttestation ⟨bindingHash, zkProof, ⟨[doc, prompt, out], rfl⟩⟩ data)
  | _ => none

/-- The call that the contract finds in its calldata. -/
def readSubmission (calldata : List UInt8) : Option Method :=
  if calldata.take 4 = submitSelector then
    (decodeStructCall [.static 1, .bytes, .static 3] [.bytes] (calldata.drop 4)).bind submittedMethod
  else none

/-- `submitAttestation(AttestationProof, bytes)` with this name of its second input. -/
def submitEntry (data : Str) : AbiEntry where
  type := ofString "function"
  name := SUBMIT_ATTESTATION
  inputs := [
    ⟨ofString "_proof", [⟨ofString "bindingHash", []⟩, ⟨ofString "zkProof", []⟩,
      ⟨ofString "publicInputs", []⟩]⟩,
    ⟨data, []⟩]

/-- The ABI has this `submitAttestation` before any other. -/
def Publishes (abi : List AbiEntry) (data : Str) : Prop :=
  abi.find? (fun entry => entry.isFunction && entry.name = SUBMIT_ATTESTATION) =
    some (submitEntry data)

end Call

section Mapping
variable {record : AttestationProof} {data : Str}

theorem published_target {abi : List AbiEntry} (published : Publishes abi data) :
    submitTarget abi none = some SUBMIT_ATTESTATION := by
  have canonical : namesAttest SUBMIT_ATTESTATION = true := by decide
  have found : (abi.filter fun entry => entry.isFunction && namesAttest entry.name).find?
      (·.name = SUBMIT_ATTESTATION) = some (submitEntry data) := by
    rw [List.find?_filter, ← published]
    congr 1
    funext entry
    by_cases named : entry.name = SUBMIT_ATTESTATION
    · simp [named, canonical]
    · simp [named]
  unfold submitTarget
  simp only [Option.filter_none]
  split
  · rename_i empty
    rw [empty] at found
    cases found
  · rename_i first rest candidates
    rw [candidates] at found
    rw [candidates, found]
    rfl

/-- The arguments of a record, whatever value stands under the second name. -/
def recordArgs (record : AttestationProof) (value : PyValue Leaf) : List (Arg Leaf) := [
  .flat [.value (.other (.text record.toFlareProof.bindingHash)),
    .value (.other (.bytes record.toFlareProof.zkProof)),
    .value (.other (.texts record.toFlareProof.publicInputs))],
  .value value]

theorem submitEntry_args : abiArgsForPayload SUBMIT_ATTESTATION (submitEntry data).inputs
      (toFlarePayload record) =
    ((toFlarePayload record).lookup (AbiInput.key ⟨data, []⟩)).elim
      (.error (.missingInput data SUBMIT_ATTESTATION [ofString "_proof", data]))
      (fun value => .ok (recordArgs record value)) := by
  have struct : valueFor SUBMIT_ATTESTATION (toFlarePayload record) ⟨ofString "_proof",
      [⟨ofString "bindingHash", []⟩, ⟨ofString "zkProof", []⟩, ⟨ofString "publicInputs", []⟩]⟩ =
      .ok (some (.flat [.value (.other (.text record.toFlareProof.bindingHash)),
        .value (.other (.bytes record.toFlareProof.zkProof)),
        .value (.other (.texts record.toFlareProof.publicInputs))])) := by
    rfl
  rw [abiArgsForPayload, submitEntry, collect, struct, collect, collect, valueFor]
  cases (toFlarePayload record).lookup (AbiInput.key ⟨data, []⟩) with
  | none => rfl
  | some value => rfl

theorem lookup_payload (key : Str) : (toFlarePayload record).lookup key =
    if key = ofString "proof" then some (.dict [
      (ofString "bindingHash", .other (.text record.toFlareProof.bindingHash)),
      (ofString "zkProof", .other (.bytes record.toFlareProof.zkProof)),
      (ofString "publicInputs", .other (.texts record.toFlareProof.publicInputs))])
    else if key = ofString "payload" then some (.other (.bytes (recordJson record)))
    else none := by
  rw [toFlarePayload, List.lookup_cons, List.lookup_cons, List.lookup_nil]
  by_cases proof : key = ofString "proof"
  · simp [proof]
  · rw [beq_eq_false_iff_ne.mpr proof, if_neg proof]
    by_cases payload : key = ofString "payload"
    · simp [payload]
    · simp [beq_eq_false_iff_ne.mpr payload, payload]

variable {toBytes32 : Text → Option Word} {address : Str} {abi : List AbiEntry}

theorem submission_eq (published : Publishes abi data) :
    submission toBytes32 address abi record =
      ((toFlarePayload record).lookup (AbiInput.key ⟨data, []⟩)).elim
        (.error (.payload (.missingInput data SUBMIT_ATTESTATION [ofString "_proof", data])))
        fun value => (submitCalldata toBytes32 (recordArgs record value)).elim
          (.error .encoding) .ok := by
  have found := published
  unfold Publishes at found
  rw [submission, submitCall, published_target published]
  dsimp only
  rw [found]
  dsimp only
  rw [submitEntry_args]
  cases (toFlarePayload record).lookup (AbiInput.key ⟨data, []⟩) with
  | none => rfl
  | some value => rfl

end Mapping

section Delivery
variable {Proof : Type} {prim : Primitives Proof} {proof : VerifiableRag.AttestationProof}
  {json : List UInt8}

/-- The contract finds in the calldata the struct and the bytes that were put in. -/
theorem readSubmission_encode
    (small : (encodeStructCall (proofFields proof) [.bytes json]).length < 2 ^ 256) :
    readSubmission (submitSelector ++ encodeStructCall (proofFields proof) [.bytes json]) =
      some (.submitAttestation proof json) := by
  obtain ⟨bindingHash, zkProof, ⟨words, three⟩⟩ := proof
  obtain ⟨doc, prompt, out, rfl⟩ := List.length_eq_three.mp three
  have given :
      0 < (abiEncode (proofFields ⟨bindingHash, zkProof, ⟨[doc, prompt, out], three⟩⟩)).length := by
    simp [proofFields, abiEncode, heads, Arg.head]
  have decoded := decodeStructCall_encode given small
  have kinds : (proofFields ⟨bindingHash, zkProof, ⟨[doc, prompt, out], three⟩⟩).map Abi.Arg.kind =
      [.static 1, .bytes, .static 3] := rfl
  have kinds' : [Abi.Arg.bytes json].map Abi.Arg.kind = [.bytes] := rfl
  have selector : submitSelector.length = 4 := rfl
  rw [readSubmission, if_pos (List.take_left' selector), List.drop_left' selector]
  rw [← kinds, ← kinds', decoded, Option.bind_some]
  rfl

/-- The store after an accepted submission. -/
def posted (prim : Primitives Proof) (proof : VerifiableRag.AttestationProof) (sender : Address)
    (s : State) : State :=
  { s with
    submittedProofs := Function.update s.submittedProofs (attestationId prim proof) true
    latestProofHash := attestationId prim proof
    log := s.log ++ [.attestationSubmitted (attestationId prim proof) sender proof.bindingHash] }

theorem exec_submission {tx : VerifiableRag.Tx Proof}
    (call : tx.call = .submitAttestation proof json)
    (given : json ≠ []) (s : State) : (exec prim tx).run s =
      if s.submittedProofs (attestationId prim proof) then
        .error (.error (.duplicateProof (attestationId prim proof)))
      else .ok (.word (attestationId prim proof), posted prim proof tx.sender s) := by
  have nonempty : ¬ json.length = 0 := fun empty => given (List.eq_nil_of_length_eq_zero empty)
  rw [exec, call]
  dsimp only
  rw [VerifiableRag.submitAttestation, revertIf_bind_pass nonempty, bind_assoc, get_bind]
  split
  · rename_i used
    rw [revertIf, if_pos used]
    rfl
  · rename_i unused
    rw [revertIf_bind_pass unused]
    rfl

/-- An accepted submission of this record. -/
def Settles (proof : VerifiableRag.AttestationProof) (json : List UInt8)
    (e : Entry State (VerifiableRag.Tx Proof) VerifiableRag.Returned VerifiableRag.Error) : Prop :=
  VerifiableRag.Succeeds e ∧ e.input.call = .submitAttestation proof json

theorem settles_accepts
    {e : Entry State (VerifiableRag.Tx Proof) VerifiableRag.Returned VerifiableRag.Error}
    (settles : Settles proof json e) : VerifiableRag.Accepts prim (attestationId prim proof) e := by
  refine ⟨settles.1, ?_⟩
  rw [settles.2]
  rfl

end Delivery

section Submission
variable {system : ProofSystem} {toBytes32 : Text → Option Word} {token : AttestationToken}
  {document prompt : List UInt8} {record : AttestationProof}

theorem generated_hash
    (generated : generateAttestationProof system token document prompt = .ok record) :
    ∃ digest : Bytes.Block 32, record.bindingHash = hex digest.toList := by
  obtain ⟨result, _, generated⟩ := except_bind_ok.mp generated
  dsimp only at generated
  split at generated
  · cases generated
  · cases generated
  · rename_i bindingHash hardware hashed _
    cases generated
    obtain ⟨digest, _, same⟩ := Option.bind_eq_some_iff.mp hashed
    exact ⟨_, (Option.some.inj same).symm⟩

theorem encoded_record {digest : Bytes.Block 32} (hash : record.bindingHash = hex digest.toList)
    (encodes : ∀ b : Bytes.Block 32,
      toBytes32 (utf8 "0x" ++ hex b.toList) = some (Word.ofBytes b.toList)) :
    ∃ sent, record.toFlareProof.encoded toBytes32 = some sent := by
  refine ⟨⟨Word.ofBytes digest.toList, record.zkProof,
    ⟨record.publicInputs.inputs.map fun input => Word.ofBytes input.toList, rfl⟩⟩, ?_⟩
  rw [FlareProof.encoded, AttestationProof.toFlareProof, hash, encodes,
    Processor.mapM_words encodes]
  rfl

theorem submission_cases {address : Str} {abi : List AbiEntry} {data : Str}
    {sent : VerifiableRag.AttestationProof} (published : Publishes abi data)
    (encoded : record.toFlareProof.encoded toBytes32 = some sent) :
    submission toBytes32 address abi record =
      if AbiInput.key ⟨data, []⟩ = ofString "proof" then .error .encoding
      else if AbiInput.key ⟨data, []⟩ = ofString "payload" then
        .ok (submitSelector ++ encodeStructCall (proofFields sent) [.bytes (recordJson record)])
      else .error (.payload (.missingInput data SUBMIT_ATTESTATION [ofString "_proof", data])) := by
  rw [submission_eq published, lookup_payload]
  split
  · rfl
  · split
    · rw [Option.elim_some, recordArgs, submitCalldata]
      change (Option.elim ((record.toFlareProof.encoded toBytes32).bind _) _ _) = _
      rw [encoded]
      rfl
    · rfl

/-- What becomes of a record under an ABI whose `submitAttestation` has this second input: the
    call needs a `payload` there, the contract reads what was sent, and it posts that once. -/
structure Delivers {Proof : Type} (toBytes32 : Text → Option Word) (prim : Primitives Proof)
    (address : Str) (abi : List AbiEntry) (data : Str) (record : AttestationProof)
    (sent : VerifiableRag.AttestationProof) : Prop where
  missing : AbiInput.key ⟨data, []⟩ ∉ [ofString "proof", ofString "payload"] →
    submission toBytes32 address abi record = .error (.payload
      (.missingInput data SUBMIT_ATTESTATION [ofString "_proof", data]))
  sends_iff : (∃ calldata, submission toBytes32 address abi record = .ok calldata) ↔
    AbiInput.key ⟨data, []⟩ = ofString "payload"
  read : ∀ calldata, submission toBytes32 address abi record = .ok calldata →
    calldata.length < 2 ^ 256 →
      readSubmission calldata = some (.submitAttestation sent (recordJson record))
  executed : ∀ (tx : VerifiableRag.Tx Proof) (s : State),
    tx.call = .submitAttestation sent (recordJson record) →
    (exec prim tx).run s =
      if s.submittedProofs (attestationId prim sent) then
        .error (.error (.duplicateProof (attestationId prim sent)))
      else .ok (.word (attestationId prim sent), posted prim sent tx.sender s)
  once : ∀ (s : State) (txs : List (VerifiableRag.Tx Proof)),
    ((machine prim).trace s txs).Pairwise fun a b =>
    ¬ (Settles sent (recordJson record) a ∧ Settles sent (recordJson record) b)

theorem submission_settles_once {Proof : Type} {prim : Primitives Proof} {address : Str}
    {abi : List AbiEntry} {data : Str} (published : Publishes abi data)
    (encodes : ∀ b : Bytes.Block 32,
      toBytes32 (utf8 "0x" ++ hex b.toList) = some (Word.ofBytes b.toList))
    (generated : generateAttestationProof system token document prompt = .ok record) :
    ∃ sent, Processor.submittedProof system toBytes32 token document prompt = some sent ∧
      Delivers toBytes32 prim address abi data record sent := by
  obtain ⟨digest, hash⟩ := generated_hash generated
  obtain ⟨sent, encoded⟩ := encoded_record hash encodes
  have sends := @submission_cases _ _ address _ _ _ published encoded
  refine ⟨sent, by rw [Processor.submittedProof, generated]; exact encoded, ?_⟩
  constructor
  · intro other
    simp only [List.mem_cons, List.not_mem_nil, or_false, not_or] at other
    rw [sends, if_neg other.1, if_neg other.2]
  · rw [sends]
    split
    · rename_i struct
      rw [struct]
      exact iff_of_false nofun (by decide)
    · split
      · rename_i payload
        exact iff_of_true ⟨_, rfl⟩ payload
      · rename_i other
        exact iff_of_false nofun other
  · intro calldata sent_ok small
    rw [sends] at sent_ok
    split at sent_ok
    · cases sent_ok
    · split at sent_ok
      · cases sent_ok
        rw [List.length_append] at small
        exact readSubmission_encode (Nat.lt_of_le_of_lt (Nat.le_add_left _ _) small)
      · cases sent_ok
  · intro tx s call
    exact exec_submission call (List.cons_ne_nil _ _) s
  · intro s txs
    have once : ((machine prim).trace s txs).Pairwise fun a b =>
        ¬ (VerifiableRag.Accepts prim (attestationId prim sent) a ∧
          VerifiableRag.Accepts prim (attestationId prim sent) b) :=
      Machine.trace_at_most_once (VerifiableRag.proofs_kept _) (VerifiableRag.accepts_once _) s txs
    refine once.imp ?_
    rintro a b once ⟨first, second⟩
    exact once ⟨settles_accepts first, settles_accepts second⟩

/-- The sample record under the name that the connector's payloads have and under the one that
    the contract has. -/
theorem submission_settles_once_sample : ∃ token record sent,
    generateAttestationProof Processor.sampleSystem token Processor.sampleDocument
      Processor.samplePrompt = .ok record ∧
    Delivers Processor.hexToBytes32 VerifiableRag.conflictingPrimitives []
      [submitEntry (ofString "_payload")]
      (ofString "_payload") record sent ∧
    (∃ calldata, submission Processor.hexToBytes32 [] [submitEntry (ofString "_payload")] record =
      .ok calldata) ∧
    submission Processor.hexToBytes32 [] [submitEntry (ofString "_attestationData")] record =
      .error (.payload (.missingInput (ofString "_attestationData") SUBMIT_ATTESTATION
        [ofString "_proof", ofString "_attestationData"])) := by
  obtain ⟨token, _, _, submitted, _⟩ := Processor.sample_submitted
  obtain ⟨record, generated, _⟩ := Option.bind_eq_some_iff.mp submitted
  obtain ⟨sent, _, delivers⟩ := @submission_settles_once _ _ _ _ _ record _
    VerifiableRag.conflictingPrimitives [] [submitEntry (ofString "_payload")] _ rfl
    Processor.hexToBytes32_hex (toOption_some.mp generated)
  obtain ⟨_, _, refused⟩ := @submission_settles_once _ _ _ _ _ record _
    VerifiableRag.conflictingPrimitives [] [submitEntry (ofString "_attestationData")] _ rfl
    Processor.hexToBytes32_hex (toOption_some.mp generated)
  exact ⟨token, record, sent, toOption_some.mp generated, delivers,
    delivers.sends_iff.mpr (by decide), refused.missing (by decide)⟩

end Submission

end Flare
