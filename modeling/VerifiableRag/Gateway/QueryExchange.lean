import VerifiableRag.Config.KeyFormats
import VerifiableRag.Crypto.ResponseCipher
import VerifiableRag.Gateway.EnvelopeText
import VerifiableRag.Gateway.Query
import VerifiableRag.Library.JsonWriting
import VerifiableRag.Processor.PublicWords

/-!
`POST /v1/query` from the client's texts to the record that the client opens.
-/
namespace Gateway
open Base64 CodePoints Crypto Json RagEngine Results
open Bytes (utf8)
open Processor (executeQuery loadPayloadKey parseAndProveCore)

section Record

structure QueryExecutionRecord where
  service : Text
  version : Text
  timestamp : Text
  proof : Text
  docHash : Text
  promptHash : Text
  outputHash : Text
  latencyMs : Number

/-- What the gateway itself puts into a record. -/
structure Stamp where
  service : Text
  version : Text
  timestamp : Text
  latencyMs : Number

def queryExecutionRecord (stamp : Stamp) (result : ProveResult) : QueryExecutionRecord where
  service := stamp.service
  version := stamp.version
  timestamp := stamp.timestamp
  proof := b64encode result.proof
  docHash := Hexadecimal.ofBytes result.docHash.toList
  promptHash := Hexadecimal.ofBytes result.promptHash.toList
  outputHash := Hexadecimal.ofBytes result.outputHash.toList
  latencyMs := stamp.latencyMs

/-- `model_dump_json`. -/
def QueryExecutionRecord.modelDumpJson (record : QueryExecutionRecord) : Text :=
  (Doc.obj (membersOf ("service", .str (writeText record.service)) [
    ("version", .str (writeText record.version)),
    ("timestamp", .str (writeText record.timestamp)),
    ("proof", .str (writeText record.proof)),
    ("doc_hash", .str (writeText record.docHash)),
    ("prompt_hash", .str (writeText record.promptHash)),
    ("output_hash", .str (writeText record.outputHash)),
    ("latency_ms", .number record.latencyMs)])).source

/-- The fields of a record by their names. -/
def QueryExecutionRecord.members (record : QueryExecutionRecord) : List (Text × Value) :=
  [(utf8 "service", .str record.service), (utf8 "version", .str record.version),
    (utf8 "timestamp", .str record.timestamp), (utf8 "proof", .str record.proof),
    (utf8 "doc_hash", .str record.docHash), (utf8 "prompt_hash", .str record.promptHash),
    (utf8 "output_hash", .str record.outputHash), (utf8 "latency_ms", record.latencyMs.parts.value)]

theorem modelDumpJson_reads (record : QueryExecutionRecord) (depth : Nat) :
    Yields (.obj record.members) (decodeJson depth record.modelDumpJson) := by
  have reads := decodeJson_source (.obj (membersOf ("service", .str (writeText record.service)) [
    ("version", .str (writeText record.version)),
    ("timestamp", .str (writeText record.timestamp)),
    ("proof", .str (writeText record.proof)),
    ("doc_hash", .str (writeText record.docHash)),
    ("prompt_hash", .str (writeText record.promptHash)),
    ("output_hash", .str (writeText record.outputHash)),
    ("latency_ms", .number record.latencyMs)])) depth
  rw [Doc.value, membersOf_values] at reads
  simp only [List.map_cons, List.map_nil, Doc.value, writeText_value] at reads
  exact reads

end Record

section Handler
variable (aesgcm : AESGCM) (limit : Nat) (validationText : List UInt8 → Str)
  (prove : List UInt8 → List UInt8 → List GraphMatch → Except Str ProveResult)
  (isprintable : CodePoint → Bool)

def QUERY_CONTEXT_AAD : Context := .str (ofString "/v1/query")

inductive QueryReply where
  | problem (detail : ProblemDetail)
  /-- An exception that has no handler. -/
  | unhandled
  | envelope (text : Text)

/-- `v1_query` within its deadline. `raw` is the value of `ENCLAVE_PAYLOAD_KEY`. -/
def v1QueryReply (raw : Option Str) (stamp : Stamp) (nonce : List UInt8) (payload : Text) :
    QueryReply :=
  match decodeEnvelopeBase64 payload with
  | none => .problem ⟨400, "invalid_request", ofString "payload is not valid base64"⟩
  | some envelope =>
    match v1Query aesgcm limit validationText prove raw envelope with
    | .error detail => .problem detail
    | .ok result =>
      match ClientPayloadCipher.init isprintable raw none with
      | .error _ => .unhandled
      | .ok cipher =>
        match cipher.encryptResponse aesgcm nonce (queryExecutionRecord stamp result).modelDumpJson
            QUERY_CONTEXT_AAD with
        | .error _ => .unhandled
        | .ok response => .envelope (b64encode response)

end Handler

section Exchange
variable {aesgcm : AESGCM} {limit : Nat} {validationText : List UInt8 → Str}
  {prove : List UInt8 → List UInt8 → List GraphMatch → Except Str ProveResult}
  {isprintable : CodePoint → Bool} {raw : Option Str} {key : Key GCM_KEY_LEN}
  {nonce envelope : List UInt8} {document prompt : Str}

/-- The cipher of the response holds the key that opened the request. -/
theorem init_of_loaded (loaded : loadPayloadKey raw = .ok key) :
    ClientPayloadCipher.init isprintable raw none = .ok ⟨key⟩ := by
  rcases raw with _ | raw
  · cases loaded
  · obtain ⟨nonempty, read⟩ := Config.loadPayloadKey_ok.mp loaded
    have decoded : decodeKey raw = some key.val := by
      rcases Config.dropHexPrefix_cases (strip raw) with ⟨text, marked⟩ | same
      · rw [(Config.fromhex_prefixed marked).1] at read
        cases read
      · rw [decodeKey, same, read]
    have ok := (@Config.loadHexKey_ok isprintable raw key).mpr ⟨nonempty, decoded⟩
    rw [ClientPayloadCipher.init, ok]

theorem payloadJson_reads (depth : Nat) (scalars : Scalars document) (scalars' : Scalars prompt) :
    decodeJson (depth + 1) (payloadJson document prompt) =
      .ok (.obj [(documentName, .str (toUtf8 document)), (promptName, .str (toUtf8 prompt))]) := by
  obtain ⟨name, nameSource, nameValue⟩ :=
    @escapeAscii_literal (ofString "document") (Bytes.forall_listed (by decide))
  obtain ⟨name', nameSource', nameValue'⟩ :=
    @escapeAscii_literal (ofString "prompt") (Bytes.forall_listed (by decide))
  obtain ⟨first, source, value⟩ := escapeAscii_literal scalars
  obtain ⟨second, source', value'⟩ := escapeAscii_literal scalars'
  have names : toUtf8 (ofString "document") = documentName ∧
      toUtf8 (ofString "prompt") = promptName := by
    decide +kernel
  have read := decodeJson_pair name first name' second depth
  rw [source, source', nameSource, nameSource', value, value', nameValue, nameValue', names.1,
    names.2] at read
  rw [payloadJson_eq, ← read]
  simp only [encodeBasestringAscii, List.cons_append, List.append_assoc, List.nil_append]

/-- What the client's side of the wire accepts passes the schema on the other side. -/
theorem modelValidateJson_accepted (limit : Nat)
    (accepted : Accepted ⟨key⟩ aesgcm nonce document prompt envelope) :
    ∃ payload, Processor.DecryptedPayload.modelValidateJson (limit + 1) (payloadJson document prompt) =
        some payload ∧ payload.document = toUtf8 document ∧ payload.prompt = toUtf8 prompt := by
  obtain ⟨_, solid, encodable, short⟩ := Processor.checkTextField_ok.mp accepted.documentOk
  obtain ⟨_, solid', encodable', short'⟩ := Processor.checkTextField_ok.mp accepted.promptOk
  have members : membersEncodable [(documentName, .str (toUtf8 document)),
      (promptName, .str (toUtf8 prompt))] = true := by
    have names : Unicode.encodable documentName = true ∧ Unicode.encodable promptName = true := by
      decide +kernel
    simp [membersEncodable, Value.encodable, names, encodable, encodable']
  refine ⟨⟨toUtf8 document, toUtf8 prompt, Processor.sized_of (Processor.strip_nonempty solid) short,
    Processor.sized_of (Processor.strip_nonempty solid') short'⟩, ?_, rfl, rfl⟩
  exact Processor.modelValidateJson_some.mpr ⟨payloadJson_utf8 document prompt, _,
    payloadJson_reads limit ((encodable_toUtf8 document).mp encodable)
      ((encodable_toUtf8 prompt).mp encodable'), members, rfl⟩

theorem opened_accepted (tagged : Aead.Tagged aesgcm GCM_TAG_LEN)
    (nonceSize : nonce.length = GCM_NONCE_LEN)
    (accepted : Accepted ⟨key⟩ aesgcm nonce document prompt envelope) :
    Processor.opened aesgcm key envelope = some (payloadJson document prompt) := by
  obtain ⟨_, decrypted⟩ := @decryptBytes_framed ⟨key⟩ _ _ tagged nonceSize _ accepted.capped
  rw [← accepted.framed] at decrypted
  exact Processor.decryptBytes_ok.mp decrypted

/-- The engine gets the texts of the client. -/
theorem executeQuery_accepted (limit : Nat) (validationText : List UInt8 → Str)
    (prove : List UInt8 → List UInt8 → List GraphMatch → Except Str ProveResult)
    (tagged : Aead.Tagged aesgcm GCM_TAG_LEN)
    (nonceSize : nonce.length = GCM_NONCE_LEN) (loaded : loadPayloadKey raw = .ok key)
    (accepted : Accepted ⟨key⟩ aesgcm nonce document prompt envelope) :
    envelope.length ≤ Processor.MAX_ENCRYPTED_PAYLOAD_BYTES ∧
      executeQuery aesgcm (limit + 1) validationText prove raw envelope =
        (parseAndProveCore prove (toUtf8 document) (toUtf8 prompt)).mapError .runtimeError := by
  obtain ⟨long, short, decrypted⟩ :=
    Processor.opened_some.mp (opened_accepted tagged nonceSize accepted)
  obtain ⟨payload, valid, documents, prompts⟩ := modelValidateJson_accepted limit accepted
  have cap : Processor.checkCap envelope = .ok () := Processor.checkCap_ok.mpr short
  refine ⟨short, ?_⟩
  rw [executeQuery, ok_bind cap, ok_bind loaded,
    ok_bind (Processor.decryptPayload_ok.mpr ⟨long, decrypted⟩),
    ok_bind (Processor.validatePayload_some valid), documents, prompts]

theorem v1Query_accepted (limit : Nat) (validationText : List UInt8 → Str)
    (prove : List UInt8 → List UInt8 → List GraphMatch → Except Str ProveResult)
    (tagged : Aead.Tagged aesgcm GCM_TAG_LEN) (nonceSize : nonce.length = GCM_NONCE_LEN)
    (loaded : loadPayloadKey raw = .ok key)
    (accepted : Accepted ⟨key⟩ aesgcm nonce document prompt envelope) :
    v1Query aesgcm (limit + 1) validationText prove raw envelope =
      ((parseAndProveCore prove (toUtf8 document) (toUtf8 prompt)).mapError .runtimeError).mapError
        queryFailure := by
  obtain ⟨short, executed⟩ := executeQuery_accepted limit validationText prove tagged nonceSize loaded
    accepted
  rw [v1Query, if_neg (Nat.not_lt.mpr short), executed]

theorem a2bStrict_b64encode (data : List UInt8) : a2bStrict (b64encode data) = some data :=
  a2bStrict_encode data

/-- The reply within the deadline to what a client of the right key sends, in any text that is
    taken for its envelope: the error of the engine on its own two texts, or an envelope in
    which it finds the record of the engine's result, or nothing when that record is over the
    cap. -/
theorem query_exchange (tagged : Aead.Tagged aesgcm GCM_TAG_LEN)
    {nonce' : List UInt8} (nonceSize : nonce.length = GCM_NONCE_LEN)
    (nonceSize' : nonce'.length = GCM_NONCE_LEN) (loaded : loadPayloadKey raw = .ok key)
    (sent : (ClientPayloadCipher.mk key).encryptPayload aesgcm nonce document prompt = .ok envelope)
    {payload : Text} (decoded : decodeEnvelopeBase64 payload = some envelope) (stamp : Stamp) :
    (∀ message, parseAndProveCore prove (toUtf8 document) (toUtf8 prompt) = .error message →
      v1QueryReply aesgcm (limit + 1) validationText prove isprintable raw stamp nonce' payload =
        .problem (queryFailure (.runtimeError message))) ∧
    ∀ result, parseAndProveCore prove (toUtf8 document) (toUtf8 prompt) = .ok result →
      (MAX_ENCRYPTED_PAYLOAD_BYTES - GCM_MIN_WIRE_LEN <
          (queryExecutionRecord stamp result).modelDumpJson.length →
        v1QueryReply aesgcm (limit + 1) validationText prove isprintable raw stamp nonce' payload =
          .unhandled) ∧
      ((queryExecutionRecord stamp result).modelDumpJson.length ≤
          MAX_ENCRYPTED_PAYLOAD_BYTES - GCM_MIN_WIRE_LEN →
        ∃ response json, v1QueryReply aesgcm (limit + 1) validationText prove isprintable raw stamp
            nonce' payload = .envelope (b64encode response) ∧
          a2bStrict (b64encode response) = some response ∧
          (ClientPayloadCipher.mk key).decryptResponse aesgcm response QUERY_CONTEXT_AAD = .ok json ∧
          (∀ depth, Yields (.obj (queryExecutionRecord stamp result).members) (decodeJson depth json)) ∧
          a2bStrict (queryExecutionRecord stamp result).proof = some result.proof) := by
  have accepted := encryptPayload_accepted sent
  have queried := v1Query_accepted limit validationText prove tagged nonceSize loaded accepted
  have bound : composeAad QUERY_CONTEXT_AAD =
      .ok (AES_GCM_AAD ++ AAD_SEPARATOR ++ utf8 "/v1/query") := by decide +kernel
  constructor
  · intro message failed
    rw [failed] at queried
    simp only [v1QueryReply, decoded, queried]
    rfl
  · intro result proved
    rw [proved] at queried
    have written := @write_ok aesgcm ⟨key⟩ nonce' (.response QUERY_CONTEXT_AAD)
      (queryExecutionRecord stamp result).modelDumpJson
    constructor
    · intro long
      cases response : (ClientPayloadCipher.mk key).encryptResponse aesgcm nonce'
          (queryExecutionRecord stamp result).modelDumpJson QUERY_CONTEXT_AAD with
      | error e =>
        simp only [v1QueryReply, decoded, queried, Except.mapError, init_of_loaded loaded, response]
      | ok response' =>
        have capped := (written.mp response).1
        omega
    · intro capped
      have response := written.mpr ⟨capped, _, bound, rfl⟩
      obtain ⟨_, opens⟩ := read_written tagged nonceSize' response
      refine ⟨_, _, ?_, a2bStrict_b64encode _, opens, modelDumpJson_reads _,
        a2bStrict_b64encode result.proof⟩
      have encrypted : (ClientPayloadCipher.mk key).encryptResponse aesgcm nonce'
          (queryExecutionRecord stamp result).modelDumpJson QUERY_CONTEXT_AAD = .ok _ := response
      simp only [v1QueryReply, decoded, queried, Except.mapError, init_of_loaded loaded, encrypted]

/-- The configured text of `sampleKey`. -/
def sampleKeyText : Str :=
  ofString "0707070707070707070707070707070707070707070707070707070707070707"

theorem sampleKey_loaded : loadPayloadKey (some sampleKeyText) = .ok Processor.sampleKey := by
  decide +kernel

def sampleStamp : Stamp where
  service := utf8 "flare-verifiable-rag-enclave"
  version := utf8 "0.1.0"
  timestamp := utf8 "2026-08-09T12:00:00+00:00"
  latencyMs := ⟨⟨[], utf8 "1", utf8 ".5", []⟩, by decide⟩

/-- A client that writes its envelope in the URL-safe alphabet and without pads. -/
theorem query_exchange_sample : ∃ payload response json,
    v1QueryReply Aead.zeroTagged 200 (fun _ => []) Processor.sampleSystem.commitAndProve (fun _ => true)
        (some sampleKeyText) sampleStamp (List.replicate 12 2) payload = .envelope (b64encode response) ∧
      (ClientPayloadCipher.mk Processor.sampleKey).decryptResponse Aead.zeroTagged response
        QUERY_CONTEXT_AAD = .ok json := by
  have accepted : ((ClientPayloadCipher.mk Processor.sampleKey).encryptPayload Aead.zeroTagged
      (List.replicate 12 1) (ofString "a b") (ofString "q")).toOption.isSome = true := by
    decide +kernel
  obtain ⟨envelope, sent⟩ := Option.isSome_iff_exists.mp accepted
  have proved : (parseAndProveCore Processor.sampleSystem.commitAndProve (toUtf8 (ofString "a b"))
      (toUtf8 (ofString "q"))).toOption.any (fun result =>
        (queryExecutionRecord sampleStamp result).modelDumpJson.length ≤
          MAX_ENCRYPTED_PAYLOAD_BYTES - GCM_MIN_WIRE_LEN) = true := by
    decide +kernel
  obtain ⟨result, proved, capped⟩ := (Option.any_eq_true _ _).mp proved
  have text : (encode urlAlphabet envelope).map urlSafe = encode standardAlphabet envelope := by
    rw [encode_map, encode_congr (fun v small => urlSafe_alphabet small)]
  obtain ⟨response, json, reply, _, opens, _⟩ := ((@query_exchange Aead.zeroTagged 199 (fun _ => [])
    Processor.sampleSystem.commitAndProve (fun _ => true) (some sampleKeyText) Processor.sampleKey
    (List.replicate 12 1) envelope (ofString "a b") (ofString "q") Aead.zeroTagged_tagged
    (List.replicate 12 2) rfl rfl sampleKey_loaded (toOption_some.mp sent) _
    (@decodeEnvelopeBase64_spelled _ _ 0 text (Nat.zero_le _)) sampleStamp).2 result (toOption_some.mp proved)).2 (of_decide_eq_true capped)
  exact ⟨_, response, json, reply, opens⟩

end Exchange

end Gateway
