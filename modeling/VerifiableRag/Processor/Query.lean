import VerifiableRag.Document.TokenGraph
import VerifiableRag.Processor.InboundPaths

/-!
`execute_query`: the symbolic engine on a decrypted payload, and the stage it fails in.
-/
namespace Processor
open Bytes CodePoints Crypto RagEngine Results

section Engine
variable {ρ : Type}

def noMatches : Str := ofString "document produced no symbolic graph matches"

def wildcardPattern : Pattern := .single wildcard wildcard wildcard

/-- `prove` is what follows the matching: the commitments and the halo2 proof. -/
def parseAndProveCore (prove : List UInt8 → List UInt8 → List GraphMatch → Except Str ρ)
    (document prompt : List UInt8) : Except Str ρ := do
  let tokens ← (tokenize document).mapError IndexerError.display
  let ast ← (parse tokens).mapError IndexerError.display
  let found ← (matchGraph (DocumentAST.fromAst ast) wildcardPattern).mapError IndexerError.display
  if found.isEmpty then .error noMatches else prove document prompt found

def destroyed : Str := ofString "EphemeralProcessor has been destroyed"

/-- A live processor with the engine installed; `raw` is the value of `ENCLAVE_PAYLOAD_KEY`. -/
def executeQuery (aesgcm : AESGCM) (limit : Nat) (validationText : List UInt8 → Str)
    (prove : List UInt8 → List UInt8 → List GraphMatch → Except Str ρ) (raw : Option Str)
    (encryptedPayload : List UInt8) : Except Raised ρ := do
  checkCap encryptedPayload
  let key ← loadPayloadKey raw
  let plain ← decryptPayload aesgcm key encryptedPayload
  let payload ← validatePayload limit validationText plain
  (parseAndProveCore prove payload.document payload.prompt).mapError .runtimeError

end Engine

inductive Stage where
  | schema | tokenization | parsing | matching
  deriving DecidableEq

/-- The stage in which a document fails. -/
def documentFailsAt (document : List UInt8) : Option Stage :=
  match tokenize document with
  | .error _ => some .tokenization
  | .ok tokens =>
    match parse tokens with
    | .error _ => some .parsing
    | .ok ast =>
      match matchGraph (DocumentAST.fromAst ast) wildcardPattern with
      | .error _ => some .matching
      | .ok found => if found.isEmpty then some .matching else none

/-- The stage before the proof in which a plaintext fails. -/
def failsAt (limit : Nat) (plain : List UInt8) : Option Stage :=
  match DecryptedPayload.modelValidateJson limit plain with
  | none => some .schema
  | some payload => documentFailsAt payload.document

/-- The first byte of the document that the tokenizer does not take. -/
def strayByte (limit : Nat) (plain : List UInt8) : Option (Nat × UInt8) :=
  (DecryptedPayload.modelValidateJson limit plain).bind fun payload =>
    firstUnclassifiable 0 payload.document

section Failures
variable {ρ : Type} {prove : List UInt8 → List UInt8 → List GraphMatch → Except Str ρ}

def tokenizationMessage (stray : Option (Nat × UInt8)) : Str :=
  match stray with
  | some (offset, b) => (IndexerError.tokenize offset (notClassifiable b)).display
  | none => []

def parsingMessage : Str :=
  (IndexerError.parse 0
    (ofString "no sentences could be derived from the token stream")).display

/-- The message of a stage; two of the four depend on the document. -/
def engineMessage (document : List UInt8) : Stage → Str
  | .schema => []
  | .tokenization => tokenizationMessage (firstUnclassifiable 0 document)
  | .parsing => parsingMessage
  | .matching => noMatches

theorem parseAndProveCore_fails {document prompt : List UInt8} {stage : Stage}
    (nonempty : document ≠ []) (fails : documentFailsAt document = some stage) :
    parseAndProveCore prove document prompt = .error (engineMessage document stage) := by
  unfold documentFailsAt at fails
  unfold parseAndProveCore
  split at fails
  · rename_i tokenized
    cases fails
    obtain ⟨offset, b, found, rfl⟩ := tokenize_error tokenized
    rw [mapError_error_bind tokenized, engineMessage, found]
    rfl
  rename_i tokens tokenized
  rw [mapError_ok_bind tokenized]
  split at fails
  · rename_i parsed
    cases fails
    rw [mapError_error_bind parsed, parse_error (tokenize_nonempty nonempty tokenized) parsed]
    rfl
  rename_i ast parsed
  rw [mapError_ok_bind parsed]
  obtain ⟨found, matched⟩ := matchGraph_ok ast wildcardPattern
  rw [mapError_ok_bind matched]
  rw [matched] at fails
  dsimp only at fails
  split at fails
  · rename_i empty
    cases fails
    exact if_pos empty
  · cases fails

/-- The matches of a document that reach the proof. -/
structure Evidence (document : List UInt8) (found : List GraphMatch) : Prop where
  nonempty : found ≠ []
  matched : ∃ tokens ast, tokenize document = .ok tokens ∧ parse tokens = .ok ast ∧
    matchGraph (DocumentAST.fromAst ast) wildcardPattern = .ok found

theorem Evidence.proves {document : List UInt8} {found : List GraphMatch}
    (evidence : Evidence document found) (prompt : List UInt8) :
    parseAndProveCore prove document prompt = prove document prompt found := by
  obtain ⟨nonempty, tokens, ast, tokenized, parsed, matched⟩ := evidence
  rw [parseAndProveCore, mapError_ok_bind tokenized, mapError_ok_bind parsed,
    mapError_ok_bind matched]
  apply if_neg
  rw [List.isEmpty_iff]
  exact nonempty

theorem parseAndProveCore_ok {document prompt : List UInt8} {result : ρ}
    (proved : parseAndProveCore prove document prompt = .ok result) :
    ∃ found, Evidence document found ∧ prove document prompt found = .ok result := by
  unfold parseAndProveCore at proved
  obtain ⟨tokens, tokenized, proved⟩ := except_bind_ok.mp proved
  obtain ⟨ast, parsed, proved⟩ := except_bind_ok.mp proved
  obtain ⟨found, matched, proved⟩ := except_bind_ok.mp proved
  split at proved
  · cases proved
  · rename_i some_match
    rw [List.isEmpty_iff] at some_match
    exact ⟨found, ⟨some_match, tokens, ast, mapError_ok.mp tokenized, mapError_ok.mp parsed,
      mapError_ok.mp matched⟩, proved⟩

variable {aesgcm : AESGCM} {limit : Nat} {validationText : List UInt8 → Str} {raw : Option Str}
  {key : Key GCM_KEY_LEN} {envelope plain : List UInt8}

/-- What `execute_query` raises on a plaintext that fails in a stage. -/
def stageError (limit : Nat) (validationText : List UInt8 → Str) (plain : List UInt8) :
    Stage → Raised
  | .schema => .valueError (validationText plain)
  | .tokenization => .runtimeError (tokenizationMessage (strayByte limit plain))
  | .parsing => .runtimeError parsingMessage
  | .matching => .runtimeError noMatches

theorem validatePayload_none
    (invalid : DecryptedPayload.modelValidateJson limit plain = none) :
    validatePayload limit validationText plain = .error (.valueError (validationText plain)) := by
  rw [validatePayload, invalid]

theorem validatePayload_some {payload : DecryptedPayload}
    (valid : DecryptedPayload.modelValidateJson limit plain = some payload) :
    validatePayload limit validationText plain = .ok payload := by
  rw [validatePayload, valid]

theorem documentFailsAt_ne_schema {document : List UInt8} :
    documentFailsAt document ≠ some .schema := by
  unfold documentFailsAt
  split
  · nofun
  split
  · nofun
  split
  · nofun
  · split <;> nofun

theorem executeQuery_fails {stage : Stage} (loaded : loadPayloadKey raw = .ok key)
    (authentic : opened aesgcm key envelope = some plain) (fails : failsAt limit plain = some stage) :
    executeQuery aesgcm limit validationText prove raw envelope =
      .error (stageError limit validationText plain stage) := by
  obtain ⟨long, short, decrypted⟩ := opened_some.mp authentic
  have cap : checkCap envelope = .ok () := checkCap_ok.mpr short
  have plaintext := decryptPayload_ok.mpr ⟨long, decrypted⟩
  rw [executeQuery, ok_bind cap, ok_bind loaded, ok_bind plaintext]
  unfold failsAt at fails
  split at fails
  · rename_i invalid
    cases fails
    exact error_bind (validatePayload_none invalid)
  · rename_i payload valid
    have nonempty := Unicode.chars_pos.mp payload.documentSized.1
    rw [ok_bind (validatePayload_some valid), parseAndProveCore_fails nonempty fails]
    cases stage with
    | schema => exact absurd fails documentFailsAt_ne_schema
    | tokenization =>
      rw [stageError, strayByte, valid]
      rfl
    | parsing => rfl
    | matching => rfl

end Failures

end Processor
