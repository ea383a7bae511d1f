import Mathlib.Data.ZMod.Basic
import VerifiableRag.Contracts.Contract
import VerifiableRag.Jwt.BindingHash
import VerifiableRag.Jwt.IntelToken
import VerifiableRag.Processor.Query

/-!
The public inputs of a proof on their way from the engine (`zkp.rs`, `ffi.rs`) over
`attestation.py` to the words of the contract.
-/
namespace RagEngine
open Bytes CodePoints

/-- The modulus of the Pasta field. -/
def pastaModulus : Nat := 0x40000000000000000000000000000000224698fc094cf91b992d30ed00000001

abbrev Fp := ZMod pastaModulus

def digestToField (sha256 : List UInt8 → Block 32) (bytes : List UInt8) : Fp :=
  (sha256 bytes).toList.foldl (fun acc byte => acc * 256 + (byte.toNat : Fp)) 0

structure ProveResult where
  proof : List UInt8
  docHash : Block 32
  promptHash : Block 32
  outputHash : Block 32

/-- The code under the engine: the hash, `serde_json::to_vec`, the halo2 prover and
    `PrimeField::to_repr`. -/
structure ProofSystem where
  sha256 : List UInt8 → Block 32
  toVec : List GraphMatch → Except Str (List UInt8)
  generateProof : Fp → Fp → Fp → Except Str (List UInt8)
  toRepr : Fp → Block 32

/-- The end of `parse_and_prove_core`, behind the matching. -/
def ProofSystem.commitAndProve (system : ProofSystem) (document prompt : List UInt8)
    (found : List GraphMatch) : Except Str ProveResult := do
  let evidenceJson ← system.toVec found
  let hDoc := digestToField system.sha256 document
  let hPrompt := digestToField system.sha256 prompt
  let hOut := digestToField system.sha256 evidenceJson
  let proof ← system.generateProof hDoc hPrompt hOut
  return ⟨proof, system.toRepr hDoc, system.toRepr hPrompt, system.toRepr hOut⟩

section Horner
variable {sha256 : List UInt8 → Block 32}

/-- The loop takes the digest for a number whose first byte is the most significant. -/
theorem horner_decode (done rest : List UInt8) :
    rest.foldl (fun acc byte => acc * 256 + (byte.toNat : Fp)) (decode done : Fp) =
      (decode (done ++ rest) : Fp) := by
  induction rest generalizing done with
  | nil => rw [List.foldl_nil, List.append_nil]
  | cons byte rest ih =>
    have step : (decode done : Fp) * 256 + (byte.toNat : Fp) = (decode (done ++ [byte]) : Fp) := by
      have single : decode [byte] = byte.toNat := by simp [decode]
      rw [decode_append, single, List.length_singleton, pow_one]
      push_cast
      rfl
    rw [List.foldl_cons, step, ih, List.append_assoc, List.singleton_append]

theorem digestToField_eq (bytes : List UInt8) :
    digestToField sha256 bytes = (decode (sha256 bytes).toList : Fp) := by
  have start : (0 : Fp) = (decode [] : Fp) := by simp [decode]
  rw [digestToField, start, horner_decode, List.nil_append]

theorem digestToField_val (bytes : List UInt8) :
    (digestToField sha256 bytes).val = decode (sha256 bytes).toList % pastaModulus := by
  rw [digestToField_eq, ZMod.val_natCast]

end Horner

end RagEngine

namespace Jwt
open Bytes CodePoints Json RagEngine

/-- The `hardware` property; `none` is the `TypeError` of a value that has no hash. -/
def AttestationToken.hardware (token : AttestationToken) : Option Text :=
  if truthy token.hwmodel then
    match token.hwmodel with
    | .arr _ | .obj _ => none
    | .str model =>
      if model = utf8 "GCP_AMD_SEV" then some (utf8 "AMD SEV-SNP")
      else if model = utf8 "GCP_INTEL_TDX" then some (utf8 "Intel TDX")
      else some (utf8 "unknown")
    | _ => some (utf8 "unknown")
  else some (utf8 "unknown")

structure AttestationProof where
  rawToken : Text
  imageDigest : Text
  swname : Text
  hardware : Text
  zkProof : List UInt8
  publicInputs : PublicInputs
  bindingHash : Text

inductive ProofFault where
  /-- `RuntimeError` of the engine -/
  | engine (message : Str)
  /-- `UnicodeEncodeError` of the image digest -/
  | encode
  /-- `TypeError` of the hardware model -/
  | unhashable

/-- `generate_attestation_proof` on the token that `fetch_token` returned. -/
def generateAttestationProof (system : ProofSystem) (token : AttestationToken)
    (document prompt : List UInt8) : Except ProofFault AttestationProof := do
  let result ← (Processor.parseAndProveCore system.commitAndProve document prompt).mapError .engine
  let publicInputs : PublicInputs := ⟨result.docHash, result.promptHash, result.outputHash⟩
  match computeBindingHash system.sha256 token.imageDigest result.proof publicInputs,
      token.hardware with
  | none, _ => .error .encode
  | some _, none => .error .unhashable
  | some bindingHash, some hardware =>
    return {
      rawToken := token.rawToken
      imageDigest := token.imageDigest
      swname := token.swname
      hardware
      zkProof := result.proof
      publicInputs
      bindingHash }

/-- The `proof` entry of `to_flare_payload`. -/
structure FlareProof where
  bindingHash : Text
  zkProof : List UInt8
  publicInputs : List Text

def AttestationProof.toFlareProof (p : AttestationProof) : FlareProof where
  bindingHash := utf8 "0x" ++ p.bindingHash
  zkProof := p.zkProof
  publicInputs := p.publicInputs.inputs.map fun input => utf8 "0x" ++ hex input.toList

/-- The struct in the calldata; `toBytes32` is what `web3` makes of a text at a `bytes32`. -/
def FlareProof.encoded (toBytes32 : Text → Option Word) (p : FlareProof) :
    Option VerifiableRag.AttestationProof := do
  let bindingHash ← toBytes32 p.bindingHash
  let words ← p.publicInputs.mapM toBytes32
  if three : words.length = 3 then some ⟨bindingHash, p.zkProof, ⟨words, three⟩⟩ else none

end Jwt

namespace Processor
open Bytes CodePoints Json Jwt RagEngine Results

/-- The struct that `submit_attestation` sends for the proof of a document and a prompt. -/
def submittedProof (system : ProofSystem) (toBytes32 : Text → Option Word)
    (token : AttestationToken) (document prompt : List UInt8) :
    Option VerifiableRag.AttestationProof :=
  (generateAttestationProof system token document prompt).toOption.bind fun record =>
    record.toFlareProof.encoded toBytes32

/-- The word read from its last byte to its first is the field element of the evidence, and
    read as an integer it is that only if its bytes are the same in both directions. -/
structure LittleEndianWord (sha256 : List UInt8 → Block 32) (evidence : List UInt8)
    (word : Word) : Prop where
  field : (digestToField sha256 evidence).val = decode (sha256 evidence).toList % pastaModulus
  reversed : decode word.bytes.reverse = (digestToField sha256 evidence).val
  direct_iff : word.toNat = (digestToField sha256 evidence).val ↔ word.bytes.reverse = word.bytes

section Words
variable {system : ProofSystem} {toBytes32 : Text → Option Word} {token : AttestationToken}
  {document prompt : List UInt8}

theorem commitAndProve_ok {found : List GraphMatch} {result : ProveResult}
    (proved : system.commitAndProve document prompt found = .ok result) :
    ∃ evidenceJson, system.toVec found = .ok evidenceJson ∧
      [result.docHash, result.promptHash, result.outputHash] =
        [document, prompt, evidenceJson].map fun evidence =>
          system.toRepr (digestToField system.sha256 evidence) := by
  obtain ⟨evidenceJson, serialized, proved⟩ := except_bind_ok.mp proved
  obtain ⟨proof, _, proved⟩ := except_bind_ok.mp proved
  cases proved
  exact ⟨evidenceJson, serialized, rfl⟩

theorem generateAttestationProof_ok {record : AttestationProof}
    (generated : generateAttestationProof system token document prompt = .ok record) :
    ∃ found evidenceJson, Evidence document found ∧ system.toVec found = .ok evidenceJson ∧
      record.publicInputs.inputs = [document, prompt, evidenceJson].map fun evidence =>
        system.toRepr (digestToField system.sha256 evidence) := by
  obtain ⟨result, proved, generated⟩ := except_bind_ok.mp generated
  obtain ⟨found, evidence, proved⟩ := parseAndProveCore_ok (mapError_ok.mp proved)
  obtain ⟨evidenceJson, serialized, hashes⟩ := commitAndProve_ok proved
  dsimp only at generated
  split at generated
  · cases generated
  · cases generated
  · cases generated
    exact ⟨found, evidenceJson, evidence, serialized, hashes⟩

theorem mapM_words {inputs : List (Block 32)}
    (encodes : ∀ b : Block 32, toBytes32 (utf8 "0x" ++ hex b.toList) = some (Word.ofBytes b.toList)) :
    (inputs.map fun input => utf8 "0x" ++ hex input.toList).mapM toBytes32 =
      some (inputs.map fun input => Word.ofBytes input.toList) := by
  induction inputs with
  | nil => rfl
  | cons input inputs ih =>
    rw [List.map_cons, List.mapM_cons, encodes, ih]
    rfl

theorem encoded_words {record : AttestationProof} {sent : VerifiableRag.AttestationProof}
    (encodes : ∀ b : Block 32, toBytes32 (utf8 "0x" ++ hex b.toList) = some (Word.ofBytes b.toList))
    (encoded : record.toFlareProof.encoded toBytes32 = some sent) :
    sent.publicInputs.toList =
      record.publicInputs.inputs.map fun input => Word.ofBytes input.toList := by
  obtain ⟨bindingHash, _, encoded⟩ := Option.bind_eq_some_iff.mp encoded
  obtain ⟨words, read, encoded⟩ := Option.bind_eq_some_iff.mp encoded
  rw [AttestationProof.toFlareProof, mapM_words encodes] at read
  cases read
  split at encoded
  · cases encoded
    rfl
  · cases encoded

theorem littleEndianWord {input : Block 32} {evidence : List UInt8}
    (little : input.toList =
      littleEndian 32 (digestToField system.sha256 evidence).val) :
    LittleEndianWord system.sha256 evidence (Word.ofBytes input.toList) := by
  have below : (digestToField system.sha256 evidence).val < 256 ^ 32 := by
    rw [digestToField_val]
    exact lt_trans (Nat.mod_lt _ (by decide)) (by decide)
  have bytes : (Word.ofBytes input.toList).bytes = input.toList :=
    Word.bytes_ofBytes input.toList_length
  have reversed : decode input.toList.reverse = (digestToField system.sha256 evidence).val := by
    have exact_value := decode_encode 32 (digestToField system.sha256 evidence).val
    rw [Nat.mod_eq_of_lt below, encode, ← little] at exact_value
    exact exact_value
  constructor
  · exact digestToField_val evidence
  · rw [bytes, reversed]
  · rw [bytes, Word.toNat_ofBytes input.toList_length, ← reversed]
    constructor
    · intro same
      have back := encode_decode input.toList.reverse
      rw [← same, List.length_reverse, encode_decode] at back
      exact back.symm
    · intro palindrome
      rw [palindrome]

/-- The words of the contract are the little-endian representations of the field elements. -/
theorem public_words_little_endian
    (little : ∀ x, (system.toRepr x).toList = littleEndian 32 x.val)
    (encodes : ∀ b : Block 32, toBytes32 (utf8 "0x" ++ hex b.toList) = some (Word.ofBytes b.toList))
    {sent : VerifiableRag.AttestationProof}
    (submitted : submittedProof system toBytes32 token document prompt = some sent) :
    ∃ found evidenceJson, Evidence document found ∧ system.toVec found = .ok evidenceJson ∧
      List.Forall₂ (LittleEndianWord system.sha256) [document, prompt, evidenceJson]
        sent.publicInputs.toList := by
  obtain ⟨record, generated, encoded⟩ := Option.bind_eq_some_iff.mp submitted
  obtain ⟨found, evidenceJson, evidence, serialized, inputs⟩ :=
    generateAttestationProof_ok (toOption_some.mp generated)
  have word (part : List UInt8) : LittleEndianWord system.sha256 part
      (Word.ofBytes (system.toRepr (digestToField system.sha256 part)).toList) :=
    littleEndianWord (little _)
  have words := encoded_words encodes encoded
  rw [inputs] at words
  rw [words]
  exact ⟨found, evidenceJson, evidence, serialized,
    .cons (word _) (.cons (word _) (.cons (word _) .nil))⟩

end Words

section Sample

def sampleDocument : List UInt8 := utf8 "a b"

def samplePrompt : List UInt8 := utf8 "q"

/-- The evidence of the document as `serde_json` writes it. -/
def sampleEvidence : List UInt8 := utf8 <|
  "[\x7b\"subject\":0,\"object\":1,\"predicate\":\"related_to\"," ++
  "\"span\":\x7b\"start\":0,\"end\":1\x7d\x7d]"

/-- SHA-256 of these texts and of the preimage of the binding hash. -/
def engineSha256 (data : List UInt8) : Block 32 :=
  let digest : Nat :=
    if data = sampleDocument then
      0xc8687a08aa5d6ed2044328fa6a697ab8e96dc34291e8c2034ae8c38e6fcc6d65
    else if data = samplePrompt then
      0x8e35c2cd3bf6641bdb0e2050b76932cbb2e6034a0ddacc1d9bea82a6ba57f7cf
    else if data = sampleEvidence then
      0x065de868aac73ab0ea0c8214bb69c093c0e9b4bb58f0ff944b5e3eb3451474de
    else 0xc97b9f211b06427fca1d46b89ddb3ea65886c8a0e18745cead043123f4a28594
  ⟨encode 32 digest, encode_length 32 digest⟩

/-- The proof is some byte; nothing reads it but the binding hash. -/
def sampleSystem : ProofSystem where
  sha256 := engineSha256
  toVec found := if found = [⟨0, 1, relatedTo, ⟨0, 1⟩⟩] then .ok sampleEvidence else .error []
  generateProof _ _ _ := .ok [1]
  toRepr x := ⟨littleEndian 32 x.val, littleEndian_length 32 x.val⟩

def hexValue (digits : Text) : Nat :=
  digits.foldl (fun v c => 16 * v + (hexDigit c).getD 0) 0

/-- 64 digits behind `0x`. -/
def hexToBytes32 (s : Text) : Option Word :=
  if s.take 2 = utf8 "0x" ∧ (s.drop 2).length = 64 ∧ (s.drop 2).all (hexDigit · |>.isSome) then
    some (BitVec.ofNat 256 (hexValue (s.drop 2)))
  else none

theorem hexDigit_digit {d : Nat} (small : d < 16) : hexDigit (Hexadecimal.digit d) = some d := by
  have table : ∀ d : Fin 16, hexDigit (Hexadecimal.digit d) = some d.val := by decide
  exact table ⟨d, small⟩

theorem ofBytes_single (b : UInt8) : Hexadecimal.ofBytes [b] =
    [Hexadecimal.digit (b.toNat / 16), Hexadecimal.digit (b.toNat % 16)] := by
  rw [Hexadecimal.ofBytes, List.flatMap_singleton, Hexadecimal.byte_digits]

theorem hexValue_ofBytes (bs : List UInt8) : hexValue (Hexadecimal.ofBytes bs) = decode bs := by
  induction bs using List.reverseRecOn with
  | nil => rfl
  | append_singleton bs b ih =>
    have bound := b.toNat_lt
    have single : decode [b] = b.toNat := by simp [decode]
    unfold hexValue at ih ⊢
    rw [Hexadecimal.ofBytes_append, List.foldl_append, ih, ofBytes_single, List.foldl_cons,
      List.foldl_cons, List.foldl_nil, hexDigit_digit (by omega), hexDigit_digit (by omega),
      decode_append, single, List.length_singleton, Option.getD_some, Option.getD_some]
    omega

theorem ofBytes_hex (bs : List UInt8) : (Hexadecimal.ofBytes bs).all (hexDigit · |>.isSome) := by
  induction bs with
  | nil => rfl
  | cons b bs ih =>
    have bound := b.toNat_lt
    have split : Hexadecimal.ofBytes (b :: bs) =
        Hexadecimal.ofBytes [b] ++ Hexadecimal.ofBytes bs := Hexadecimal.ofBytes_append [b] bs
    rw [split, List.all_append, ih, ofBytes_single, List.all_cons, List.all_cons, List.all_nil,
      hexDigit_digit (by omega), hexDigit_digit (by omega)]
    rfl

theorem hexToBytes32_hex (b : Block 32) :
    hexToBytes32 (utf8 "0x" ++ hex b.toList) = some (Word.ofBytes b.toList) := by
  have start : (utf8 "0x").length = 2 := by decide
  have digits : (utf8 "0x" ++ hex b.toList).drop 2 = hex b.toList :=
    List.drop_left' start
  have long : (hex b.toList).length = 64 := by
    rw [hex, Hexadecimal.ofBytes_length, b.toList_length]
  rw [hexToBytes32, digits, hex, hexValue_ofBytes]
  exact if_pos ⟨List.take_left' start, long, ofBytes_hex b.toList⟩

/-- The token of `plainSegment` with the proof of the sample document. -/
theorem sample_submitted : ∃ token sent,
    parseToken samplePython (tokenOf plainSegment) none none = .ok token ∧
    submittedProof sampleSystem hexToBytes32 token sampleDocument samplePrompt = some sent ∧
    (sent.publicInputs.get 0).toNat =
      0x626dcc6fc730617fb0d601764ef89982b87a696afa284304d26e5daa087a6808 := by
  have runs : (((parseToken samplePython (tokenOf plainSegment) none none).toOption.bind fun token =>
      submittedProof sampleSystem hexToBytes32 token sampleDocument samplePrompt).map fun sent =>
        (sent.publicInputs.get 0).toNat) =
      some 0x626dcc6fc730617fb0d601764ef89982b87a696afa284304d26e5daa087a6808 := by
    decide +kernel
  obtain ⟨sent, submitted, first⟩ := Option.map_eq_some_iff.mp runs
  obtain ⟨token, accepted, submitted⟩ := Option.bind_eq_some_iff.mp submitted
  exact ⟨token, sent, toOption_some.mp accepted, submitted, first⟩

theorem public_words_little_endian_sample : ∃ token sent found evidenceJson,
    submittedProof sampleSystem hexToBytes32 token sampleDocument samplePrompt = some sent ∧
    Evidence sampleDocument found ∧ sampleSystem.toVec found = .ok evidenceJson ∧
      List.Forall₂ (LittleEndianWord engineSha256) [sampleDocument, samplePrompt, evidenceJson]
        sent.publicInputs.toList := by
  obtain ⟨token, sent, _, submitted, _⟩ := sample_submitted
  obtain ⟨found, evidenceJson, words⟩ :=
    public_words_little_endian (fun _ => rfl) hexToBytes32_hex submitted
  exact ⟨token, sent, found, evidenceJson, submitted, words⟩

/-- The word of the document read as an integer is not its field element. -/
theorem public_words_not_big_endian : ∃ token sent,
    parseToken samplePython (tokenOf plainSegment) none none = .ok token ∧
    submittedProof sampleSystem hexToBytes32 token sampleDocument samplePrompt = some sent ∧
    (sent.publicInputs.get 0).toNat ≠ decode (engineSha256 sampleDocument).toList % pastaModulus := by
  obtain ⟨token, sent, accepted, submitted, first⟩ := sample_submitted
  refine ⟨token, sent, accepted, submitted, ?_⟩
  rw [first]
  decide +kernel

end Sample

end Processor
