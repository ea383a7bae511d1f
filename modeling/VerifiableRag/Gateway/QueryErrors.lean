import VerifiableRag.Gateway.QueryExchange
import VerifiableRag.Library.Disclosure

/-!
What the error responses of `POST /v1/query` tell of the texts that were decrypted.
-/
namespace Gateway
open CodePoints Crypto Disclosure RagEngine Results
open Bytes (utf8)
open Processor (DecryptedPayload Stage documentFailsAt executeQuery failsAt loadPayloadKey opened
  parseAndProveCore stageError tagMismatch tokenizationMessage)

section Fates
variable {ρ : Type}

/-- How a request ends: all that its response may show. -/
inductive Fate where
  /-- There is no plaintext. -/
  | unopened (size : Nat)
  | fails (stage : Stage)
  /-- The engine fails behind the matching. -/
  | unproved
  | answered

/-- The engine's error on a plaintext that passes the schema. -/
def engineError (limit : Nat) (prove : List UInt8 → List UInt8 → List GraphMatch → Except Str ρ)
    (plain : List UInt8) : Option Str :=
  (DecryptedPayload.modelValidateJson limit plain).bind fun payload =>
    match parseAndProveCore prove payload.document payload.prompt with
    | .error message => some message
    | .ok _ => none

def fate (aesgcm : AESGCM) (limit : Nat)
    (prove : List UInt8 → List UInt8 → List GraphMatch → Except Str ρ) (key : Key GCM_KEY_LEN)
    (envelope : List UInt8) : Fate :=
  match opened aesgcm key envelope with
  | none => .unopened envelope.length
  | some plain =>
    match failsAt limit plain with
    | some stage => .fails stage
    | none => if (engineError limit prove plain).isSome then .unproved else .answered

/-- What stands behind each end. -/
inductive Ends (aesgcm : AESGCM) (limit : Nat)
    (prove : List UInt8 → List UInt8 → List GraphMatch → Except Str ρ) (key : Key GCM_KEY_LEN)
    (envelope : List UInt8) : Fate → Prop
  | unopened (unopened : opened aesgcm key envelope = none) :
    Ends aesgcm limit prove key envelope (.unopened envelope.length)
  | fails {plain : List UInt8} {stage : Stage} (authentic : opened aesgcm key envelope = some plain)
    (fails : failsAt limit plain = some stage) : Ends aesgcm limit prove key envelope (.fails stage)
  | unproved {plain : List UInt8} (authentic : opened aesgcm key envelope = some plain)
    (passes : failsAt limit plain = none) (refused : (engineError limit prove plain).isSome) :
    Ends aesgcm limit prove key envelope .unproved
  | answered {plain : List UInt8} (authentic : opened aesgcm key envelope = some plain)
    (passes : failsAt limit plain = none) (content : engineError limit prove plain = none) :
    Ends aesgcm limit prove key envelope .answered

/-- The response where no plaintext is reached. -/
def unopenedProblem (size : Nat) : ProblemDetail :=
  if Processor.MAX_ENCRYPTED_PAYLOAD_BYTES < size then payloadTooLarge size
  else if size < GCM_MIN_WIRE_LEN then
    queryFailure (.valueError (ofString "encrypted payload too short: need nonce(12) + tag(16)"))
  else queryFailure (.runtimeError tagMismatch)

/-- The fates whose error says nothing of the plaintext. Pydantic and the prover write their
    texts themselves. -/
def Impersonal (aesgcm : AESGCM) (limit : Nat) (validationText : List UInt8 → Str)
    (prove : List UInt8 → List UInt8 → List GraphMatch → Except Str ρ) (key : Key GCM_KEY_LEN) :
    Fate → Prop
  | .unopened _ => True
  | .fails .schema =>
    OneText (opened aesgcm key) (fun plain => failsAt limit plain = some .schema) validationText
  | .fails .tokenization => False
  | .fails .parsing => True
  | .fails .matching => True
  | .unproved =>
    OneText (opened aesgcm key)
      (fun plain => failsAt limit plain = none ∧ (engineError limit prove plain).isSome)
      (engineError limit prove)
  | .answered => True

end Fates

section Responses
variable {ρ : Type} {prove : List UInt8 → List UInt8 → List GraphMatch → Except Str ρ}
  {aesgcm : AESGCM} {limit : Nat} {validationText : List UInt8 → Str} {raw : Option Str}
  {key : Key GCM_KEY_LEN} {envelope plain : List UInt8} {stage : Stage} {message : Str}

theorem v1Query_unopened (loaded : loadPayloadKey raw = .ok key)
    (unopened : opened aesgcm key envelope = none) :
    v1Query aesgcm limit validationText prove raw envelope =
      .error (unopenedProblem envelope.length) := by
  rw [v1Query, unopenedProblem]
  split
  · rfl
  · rename_i short
    have cap : Processor.checkCap envelope = .ok () := Processor.checkCap_ok.mpr (by omega)
    rw [executeQuery, ok_bind cap, ok_bind loaded]
    split
    · rename_i brief
      have refused : Processor.decryptPayload aesgcm key envelope =
          .error (.valueError (ofString "encrypted payload too short: need nonce(12) + tag(16)")) :=
        if_pos brief
      rw [error_bind refused]
      rfl
    · rename_i long
      have stuck : aesgcm.decrypt key (envelope.take GCM_NONCE_LEN) Processor.AES_GCM_AAD
          (envelope.drop GCM_NONCE_LEN) = none := by
        rw [opened, if_pos ⟨by omega, by omega⟩] at unopened
        exact unopened
      have refused : Processor.decryptPayload aesgcm key envelope =
          .error (.runtimeError tagMismatch) := by
        have framing : ¬ envelope.length < GCM_NONCE_LEN + 16 := long
        rw [Processor.decryptPayload, if_neg framing, stuck]
      rw [error_bind refused]
      rfl

theorem v1Query_opened (loaded : loadPayloadKey raw = .ok key)
    (authentic : opened aesgcm key envelope = some plain) :
    v1Query aesgcm limit validationText prove raw envelope =
      ((Processor.validatePayload limit validationText plain).bind fun payload =>
        (parseAndProveCore prove payload.document payload.prompt).mapError .runtimeError).mapError
          queryFailure := by
  obtain ⟨long, short, decrypted⟩ := Processor.opened_some.mp authentic
  have cap : Processor.checkCap envelope = .ok () := Processor.checkCap_ok.mpr short
  rw [v1Query, if_neg (Nat.not_lt.mpr short), executeQuery, ok_bind cap, ok_bind loaded,
    ok_bind (Processor.decryptPayload_ok.mpr ⟨long, decrypted⟩)]
  rfl

theorem v1Query_fails (loaded : loadPayloadKey raw = .ok key)
    (authentic : opened aesgcm key envelope = some plain) (fails : failsAt limit plain = some stage) :
    v1Query aesgcm limit validationText prove raw envelope =
      .error (queryFailure (stageError limit validationText plain stage)) := by
  have short := (Processor.opened_some.mp authentic).2.1
  rw [v1Query, if_neg (Nat.not_lt.mpr short), Processor.executeQuery_fails loaded authentic fails]
  rfl

theorem v1Query_engineError (loaded : loadPayloadKey raw = .ok key)
    (authentic : opened aesgcm key envelope = some plain)
    (refused : engineError limit prove plain = some message) :
    v1Query aesgcm limit validationText prove raw envelope =
      .error (queryFailure (.runtimeError message)) := by
  obtain ⟨payload, valid, raised⟩ := Option.bind_eq_some_iff.mp refused
  rw [v1Query_opened loaded authentic, Processor.validatePayload_some valid]
  split at raised
  · rename_i said
    cases raised
    simp only [Except.bind, said, Except.mapError]
  · cases raised

theorem v1Query_answers (loaded : loadPayloadKey raw = .ok key)
    (authentic : opened aesgcm key envelope = some plain) (passes : failsAt limit plain = none)
    (content : engineError limit prove plain = none) :
    ∃ result, v1Query aesgcm limit validationText prove raw envelope = .ok result := by
  cases valid : DecryptedPayload.modelValidateJson limit plain with
  | none =>
    rw [failsAt, valid] at passes
    cases passes
  | some payload =>
    rw [engineError, valid, Option.bind_some] at content
    rw [v1Query_opened loaded authentic, Processor.validatePayload_some valid]
    split at content
    · cases content
    · rename_i result proved
      exact ⟨result, by simp only [Except.bind, proved, Except.mapError]⟩

end Responses

section Secrecy
variable {ρ : Type} {prove : List UInt8 → List UInt8 → List GraphMatch → Except Str ρ}
  {aesgcm : AESGCM} {limit : Nat} {validationText : List UInt8 → Str} {raw : Option Str}
  {key : Key GCM_KEY_LEN} {envelope plain : List UInt8} {stage : Stage}

theorem fate_ends : Ends aesgcm limit prove key envelope (fate aesgcm limit prove key envelope) := by
  unfold fate
  split
  · rename_i unopened
    exact .unopened unopened
  · rename_i plain authentic
    split
    · rename_i stage fails
      exact .fails authentic fails
    · rename_i passes
      split
      · rename_i refused
        exact .unproved authentic passes refused
      · rename_i content
        exact .answered authentic passes (Option.not_isSome_iff_eq_none.mp content)

theorem ends_of_fate {f : Fate} (ends : fate aesgcm limit prove key envelope = f) :
    Ends aesgcm limit prove key envelope f := by
  rw [← ends]
  exact fate_ends

theorem fate_fails_iff : fate aesgcm limit prove key envelope = .fails stage ↔
    ∃ plain, opened aesgcm key envelope = some plain ∧ failsAt limit plain = some stage := by
  constructor
  · intro ends
    cases ends_of_fate ends with
    | fails authentic fails => exact ⟨_, authentic, fails⟩
  · intro sent
    obtain ⟨plain, authentic, fails⟩ := sent
    simp only [fate, authentic, fails]

theorem fate_unproved_iff : fate aesgcm limit prove key envelope = .unproved ↔
    ∃ plain, opened aesgcm key envelope = some plain ∧ failsAt limit plain = none ∧
      (engineError limit prove plain).isSome := by
  constructor
  · intro ends
    cases ends_of_fate ends with
    | unproved authentic passes refused => exact ⟨_, authentic, passes, refused⟩
  · intro sent
    obtain ⟨plain, authentic, passes, refused⟩ := sent
    simp only [fate, authentic, passes, refused, if_true]

theorem stage_conceals (loaded : loadPayloadKey raw = .ok key)
    (ends : fate aesgcm limit prove key envelope = .fails stage) :
    Conceals (v1Query aesgcm limit validationText prove raw) (fate aesgcm limit prove key) envelope ↔
      OneText (opened aesgcm key) (fun plain => failsAt limit plain = some stage) fun plain =>
        queryFailure (stageError limit validationText plain stage) := by
  have members : ∀ e, fate aesgcm limit prove key e = fate aesgcm limit prove key envelope ↔
      ∃ plain, opened aesgcm key e = some plain ∧ failsAt limit plain = some stage := by
    intro e
    rw [ends]
    exact fate_fails_iff
  rw [conceals_iff_oneText members fun e plain authentic fails => v1Query_fails loaded authentic fails]
  exact oneText_congr fun plain plain' _ _ => by rw [Except.error.injEq]

theorem unproved_conceals (loaded : loadPayloadKey raw = .ok key)
    (ends : fate aesgcm limit prove key envelope = .unproved) :
    Conceals (v1Query aesgcm limit validationText prove raw) (fate aesgcm limit prove key) envelope ↔
      Impersonal aesgcm limit validationText prove key .unproved := by
  have members : ∀ e, fate aesgcm limit prove key e = fate aesgcm limit prove key envelope ↔
      ∃ plain, opened aesgcm key e = some plain ∧ failsAt limit plain = none ∧
        (engineError limit prove plain).isSome := by
    intro e
    rw [ends]
    exact fate_unproved_iff
  have shows : ∀ e plain, opened aesgcm key e = some plain →
      failsAt limit plain = none ∧ (engineError limit prove plain).isSome →
        v1Query aesgcm limit validationText prove raw e =
          .error (queryFailure (.runtimeError ((engineError limit prove plain).getD []))) := by
    intro e plain authentic refused
    obtain ⟨message, said⟩ := Option.isSome_iff_exists.mp refused.2
    rw [v1Query_engineError loaded authentic said, said, Option.getD_some]
  rw [conceals_iff_oneText members shows]
  refine oneText_congr fun plain plain' refused refused' => ?_
  obtain ⟨message, said⟩ := Option.isSome_iff_exists.mp refused.2
  obtain ⟨message', said'⟩ := Option.isSome_iff_exists.mp refused'.2
  rw [said, said', Option.getD_some, Option.getD_some, Option.some.injEq, Except.error.injEq]
  constructor
  · intro same
    exact congrArg ProblemDetail.detail same
  · intro same
    rw [same]

/-- A client can have any stray byte named, at the offset where it stands. -/
theorem stray_sent (tagged : Aead.Tagged aesgcm GCM_TAG_LEN) (loaded : loadPayloadKey raw = .ok key)
    {document : Str} {offset : Nat} {b : UInt8}
    (solid : checkTextField "document" (.str (toUtf8 document)) = .ok (toUtf8 document))
    (short : (payloadJson document (ofString "q")).length ≤
      MAX_ENCRYPTED_PAYLOAD_BYTES - GCM_MIN_WIRE_LEN)
    (stray : firstUnclassifiable 0 (toUtf8 document) = some (offset, b)) :
    ∃ envelope, fate aesgcm (limit + 1) prove key envelope = .fails .tokenization ∧
      v1Query aesgcm (limit + 1) validationText prove raw envelope =
        .error (queryFailure (.runtimeError (tokenizationMessage (some (offset, b))))) := by
  have accepted : Accepted ⟨key⟩ aesgcm (List.replicate 12 0) document (ofString "q") _ :=
    ⟨solid, by decide +kernel, short, rfl⟩
  have authentic := opened_accepted tagged (List.length_replicate) accepted
  obtain ⟨payload, valid, documents, _⟩ := modelValidateJson_accepted limit accepted
  have fails : failsAt (limit + 1) (payloadJson document (ofString "q")) = some .tokenization := by
    rw [failsAt, valid]
    dsimp only
    rw [documents, documentFailsAt, tokenize, tokenizeFrom_error (Nat.le_refl _) stray]
  refine ⟨_, fate_fails_iff.mpr ⟨_, authentic, fails⟩, ?_⟩
  rw [v1Query_fails loaded authentic fails, stageError, Processor.strayByte, valid, Option.bind_some,
    documents, stray]

/-- No error of the tokenizer hides where the document has its stray byte. -/
theorem tokenization_not_concealed (tagged : Aead.Tagged aesgcm GCM_TAG_LEN)
    (loaded : loadPayloadKey raw = .ok key)
    (ends : fate aesgcm limit prove key envelope = .fails .tokenization) :
    ¬ Conceals (v1Query aesgcm limit validationText prove raw) (fate aesgcm limit prove key)
      envelope := by
  obtain ⟨plain, authentic, fails⟩ := fate_fails_iff.mp ends
  cases limit with
  | zero =>
    cases valid : DecryptedPayload.modelValidateJson 0 plain with
    | none =>
      rw [failsAt, valid] at fails
      cases fails
    | some payload =>
      obtain ⟨_, _, flat, _⟩ := Processor.modelValidateJson_some.mp valid
      exact absurd flat Json.decodeJson_flat
  | succ limit =>
    obtain ⟨first, tokenized, response⟩ := @stray_sent _ prove _ limit validationText _ _ tagged loaded
      (ofString "é") 0 0xC3 (by decide +kernel) (by decide +kernel) (by decide +kernel)
    obtain ⟨second, tokenized', response'⟩ := @stray_sent _ prove _ limit validationText _ _ tagged loaded
      (ofString "a é") 2 0xC3 (by decide +kernel) (by decide +kernel) (by decide +kernel)
    refine not_conceals (tokenized.trans ends.symm) (tokenized'.trans ends.symm) ?_
    rw [response, response']
    intro same
    have messages := congrArg ProblemDetail.detail (Except.error.inj same)
    exact absurd (tokenize_display_inj messages).1 (by decide)

theorem conceals_iff (tagged : Aead.Tagged aesgcm GCM_TAG_LEN) (loaded : loadPayloadKey raw = .ok key)
    {detail : ProblemDetail}
    (failed : v1Query aesgcm limit validationText prove raw envelope = .error detail) :
    Conceals (v1Query aesgcm limit validationText prove raw) (fate aesgcm limit prove key) envelope ↔
      Impersonal aesgcm limit validationText prove key (fate aesgcm limit prove key envelope) := by
  cases ends : fate aesgcm limit prove key envelope with
  | unopened size =>
    refine iff_of_true ?_ trivial
    intro e alike
    cases ends_of_fate ends with
    | unopened unopened =>
      generalize sized : envelope.length = size at ends
      cases ends_of_fate (alike.trans ends) with
      | unopened unopened' =>
        rw [v1Query_unopened loaded unopened, v1Query_unopened loaded unopened', sized]
  | fails stage =>
    cases stage with
    | schema =>
      rw [stage_conceals loaded ends]
      refine oneText_congr fun plain plain' _ _ => ?_
      constructor
      · intro same
        exact congrArg ProblemDetail.detail same
      · intro same
        rw [stageError, stageError, same]
    | tokenization => exact iff_of_false (tokenization_not_concealed tagged loaded ends) id
    | parsing =>
      rw [stage_conceals loaded ends]
      exact iff_of_true (oneText_const _) trivial
    | matching =>
      rw [stage_conceals loaded ends]
      exact iff_of_true (oneText_const _) trivial
  | unproved => exact unproved_conceals loaded ends
  | answered =>
    cases ends_of_fate ends with
    | answered authentic passes content =>
      obtain ⟨result, answers⟩ := v1Query_answers loaded authentic passes content
      rw [answers] at failed
      cases failed

/-- Two requests that end alike in an error get one response, and nothing of either plaintext is
    in it, just when their end is one whose error says nothing of the plaintext. -/
theorem query_errors_withheld_iff (tagged : Aead.Tagged aesgcm GCM_TAG_LEN)
    (loaded : loadPayloadKey raw = .ok key) {envelope' : List UInt8} {detail : ProblemDetail}
    (failed : v1Query aesgcm limit validationText prove raw envelope = .error detail)
    (alike : fate aesgcm limit prove key envelope = fate aesgcm limit prove key envelope') :
    (v1Query aesgcm limit validationText prove raw envelope =
          v1Query aesgcm limit validationText prove raw envelope' ∧
        Conceals (v1Query aesgcm limit validationText prove raw) (fate aesgcm limit prove key)
          envelope ∧
        Conceals (v1Query aesgcm limit validationText prove raw) (fate aesgcm limit prove key)
          envelope') ↔
      Impersonal aesgcm limit validationText prove key (fate aesgcm limit prove key envelope) := by
  rw [agree_and_conceal_iff alike]
  exact conceals_iff tagged loaded failed

def sampleEnvelope (plaintext : String) : List UInt8 :=
  List.replicate 12 1 ++
    Aead.zeroTagged.encrypt Processor.sampleKey (List.replicate 12 1) Processor.AES_GCM_AAD
      (utf8 plaintext)

/-- A prover that always succeeds, and no text of pydantic. -/
def sampleResponse (envelope : List UInt8) : Except ProblemDetail Unit :=
  v1Query Aead.zeroTagged 200 (fun _ => []) (fun _ _ _ => .ok ()) (some sampleKeyText) envelope

def sampleFate (envelope : List UInt8) : Fate :=
  fate Aead.zeroTagged 200 (fun _ _ _ => Except.ok ()) Processor.sampleKey envelope

def priceAccent : String := "\x7b\"document\":\"Price é\",\"prompt\":\"q\"\x7d"
def stockAccent : String := "\x7b\"document\":\"Stock é\",\"prompt\":\"q\"\x7d"
def accentAtStart : String := "\x7b\"document\":\"é\",\"prompt\":\"q\"\x7d"

theorem accent_fails {plaintext : String}
    (accent : plaintext ∈ [priceAccent, stockAccent, accentAtStart]) :
    sampleFate (sampleEnvelope plaintext) = .fails .tokenization ∧
      sampleResponse (sampleEnvelope plaintext) =
        .error (queryFailure (stageError 200 (fun _ => []) (utf8 plaintext) .tokenization)) := by
  have table : ∀ plaintext ∈ [priceAccent, stockAccent, accentAtStart],
      opened Aead.zeroTagged Processor.sampleKey (sampleEnvelope plaintext) = some (utf8 plaintext) ∧
        failsAt 200 (utf8 plaintext) = some .tokenization :=
    Bytes.forall_listed (by decide +kernel)
  obtain ⟨opens, fails⟩ := table plaintext accent
  exact ⟨fate_fails_iff.mpr ⟨_, opens, fails⟩, v1Query_fails sampleKey_loaded opens fails⟩

/-- One response to two plaintexts, and yet it has the offset of the stray byte of both. -/
theorem query_errors_withheld_iff_accents :
    sampleResponse (sampleEnvelope priceAccent) = sampleResponse (sampleEnvelope stockAccent) ∧
      ¬ Conceals sampleResponse sampleFate (sampleEnvelope priceAccent) := by
  obtain ⟨ends, response⟩ := @accent_fails priceAccent (by decide)
  obtain ⟨ends', response'⟩ := @accent_fails stockAccent (by decide)
  have same : sampleResponse (sampleEnvelope priceAccent) =
      sampleResponse (sampleEnvelope stockAccent) := by
    rw [response, response']
    exact congrArg Except.error (by decide +kernel)
  have alike := ends.trans ends'.symm
  refine ⟨same, fun conceals => ?_⟩
  have impersonal := (query_errors_withheld_iff Aead.zeroTagged_tagged sampleKey_loaded response
    alike).mp ⟨same, conceals, conceals_congr alike conceals⟩
  change Impersonal _ _ _ _ _ (sampleFate (sampleEnvelope priceAccent)) at impersonal
  rw [ends] at impersonal
  exact impersonal

theorem tokenizer_shows_offset :
    sampleFate (sampleEnvelope accentAtStart) = .fails .tokenization ∧
      sampleFate (sampleEnvelope priceAccent) = .fails .tokenization ∧
      sampleResponse (sampleEnvelope accentAtStart) = .error ⟨400, "query_failed",
        ofString "tokenization failed at byte offset 0: byte 0xc3 is not classifiable"⟩ ∧
      sampleResponse (sampleEnvelope priceAccent) = .error ⟨400, "query_failed",
        ofString "tokenization failed at byte offset 6: byte 0xc3 is not classifiable"⟩ := by
  obtain ⟨ends, response⟩ := @accent_fails accentAtStart (by decide)
  obtain ⟨ends', response'⟩ := @accent_fails priceAccent (by decide)
  refine ⟨ends, ends', ?_, ?_⟩
  · rw [response]
    exact congrArg Except.error (by decide +kernel)
  · rw [response']
    exact congrArg Except.error (by decide +kernel)

end Secrecy

end Gateway
