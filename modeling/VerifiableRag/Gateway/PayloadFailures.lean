import VerifiableRag.Crypto.EncryptPayload
import VerifiableRag.Gateway.AttestationProof

/-!
How `decrypt_payload` fails, the plaintext buffer behind a failure, and what
`POST /v1/attestation-proof` makes of one.
-/
namespace Gateway
open Bytes CodePoints Crypto Json Results

section Exceptions

/-- A subclass of `CryptoError`. -/
def IsCryptoError : PayloadError → Prop
  | .format _ | .crypto _ => True
  | .unicodeEncode | .digits | .recursion => False

/-- `except (PayloadFormatError, DecryptionError)`; `none` is an exception that goes on. -/
def decryptProblem : PayloadError → Option ProblemDetail
  | .format message => some ⟨400, "invalid_envelope", message⟩
  | .crypto (.decryption message) => some ⟨401, "authentication_failed", message⟩
  | .crypto (.keyConfig _) | .unicodeEncode | .digits | .recursion => none

/-- Each failure is typed and mapped, and leaves a buffer of zeros if any. -/
structure FailsTyped (cipher : ClientPayloadCipher) (aesgcm : AESGCM) (depth : Nat)
    (envelope : List UInt8) : Prop where
  typed : ∀ e, (cipher.decryptPayloadBuffer aesgcm depth envelope).1 = .error e → IsCryptoError e
  mapped : ∀ e, (cipher.decryptPayloadBuffer aesgcm depth envelope).1 = .error e →
    (decryptProblem e).isSome
  zeroed : ∀ e buffer, cipher.decryptPayloadBuffer aesgcm depth envelope = (.error e, some buffer) →
    IsZero buffer

/-- A non-blank text with a lone surrogate. -/
def LoneText : Value → Prop
  | .str s => PyStr.strip s ≠ [] ∧ Unicode.encodable s = false
  | _ => False

/-- The plaintexts that raise what is no `CryptoError`. -/
inductive Untranslated (depth : Nat) (plain : List UInt8) : Prop where
  /-- an integer over the digit limit -/
  | digits (loads : decodeJson depth plain = .error .digits)
  /-- nesting over the recursion limit -/
  | deep (loads : decodeJson depth plain = .error .recursion)
  | document {members : List (Text × Value)} {document prompt : Value}
      (loads : decodeJson depth plain = .ok (.obj members))
      (fields : exactFields members = some (document, prompt)) (lone : LoneText document)
  | prompt {members : List (Text × Value)} {document prompt : Value} {text : Text}
      (loads : decodeJson depth plain = .ok (.obj members))
      (fields : exactFields members = some (document, prompt))
      (passed : checkTextField "document" document = .ok text) (lone : LoneText prompt)

end Exceptions

section Failures
variable {cipher : ClientPayloadCipher} {aesgcm : AESGCM} {depth : Nat}
  {envelope plain : List UInt8}

theorem checkTextField_error {name : String} {value : Value} {e : PayloadError}
    (raised : checkTextField name value = .error e) :
    (∃ message, e = .format message) ∨ e = .unicodeEncode ∧ LoneText value := by
  unfold checkTextField at raised
  split at raised
  · split at raised
    · cases raised
      exact Or.inl ⟨_, rfl⟩
    split at raised
    · rename_i solid lone
      cases raised
      exact Or.inr ⟨rfl, solid, by simpa using lone⟩
    split at raised
    · cases raised
      exact Or.inl ⟨_, rfl⟩
    · cases raised
  · cases raised
    exact Or.inl ⟨_, rfl⟩

theorem checkTextField_lone {name : String} {value : Value} (lone : LoneText value) :
    checkTextField name value = .error .unicodeEncode := by
  cases value with
  | str text => rw [checkTextField, if_neg lone.1, if_pos (by simp [lone.2])]
  | _ => exact absurd lone id

theorem parsePayload_error {e : PayloadError} (raised : parsePayload depth plain = .error e) :
    (∃ message, e = .format message) ∨ Unicode.isUtf8 plain = true ∧ Untranslated depth plain := by
  unfold parsePayload at raised
  split at raised
  · rename_i utf8
    split at raised
    · rename_i members loads
      split at raised
      · rename_i document prompt fields
        cases first : checkTextField "document" document with
        | error e' =>
          rw [first] at raised
          cases raised
          rcases checkTextField_error first with format | ⟨_, lone⟩
          · exact Or.inl format
          · exact Or.inr ⟨utf8, .document loads fields lone⟩
        | ok text =>
          cases second : checkTextField "prompt" prompt with
          | error e' =>
            rw [first, second] at raised
            cases raised
            rcases checkTextField_error second with format | ⟨_, lone⟩
            · exact Or.inl format
            · exact Or.inr ⟨utf8, .prompt loads fields first lone⟩
          | ok text' =>
            rw [first, second] at raised
            cases raised
      · cases raised
        exact Or.inl ⟨_, rfl⟩
    · cases raised
      exact Or.inl ⟨_, rfl⟩
    · cases raised
      exact Or.inl ⟨_, rfl⟩
    · cases raised
      exact Or.inl ⟨_, rfl⟩
    · rename_i loads
      exact Or.inr ⟨utf8, .digits loads⟩
    · rename_i loads
      exact Or.inr ⟨utf8, .deep loads⟩
  · cases raised
    exact Or.inl ⟨_, rfl⟩

theorem parsePayload_untranslated (utf8 : Unicode.isUtf8 plain = true)
    (untranslated : Untranslated depth plain) :
    ∃ e, parsePayload depth plain = .error e ∧ ¬ IsCryptoError e := by
  rw [parsePayload, if_pos utf8]
  cases untranslated with
  | digits loads =>
    rw [loads]
    exact ⟨_, rfl, id⟩
  | deep loads =>
    rw [loads]
    exact ⟨_, rfl, id⟩
  | document loads fields lone =>
    rw [loads]
    simp only [fields, checkTextField_lone lone]
    exact ⟨_, rfl, id⟩
  | prompt loads fields passed lone =>
    rw [loads]
    simp only [fields, passed, checkTextField_lone lone]
    exact ⟨_, rfl, id⟩

/-- The key has the right size: opening fails for its framing or its tag only. -/
theorem decryptBytes_error {e : PayloadError} (raised : cipher.decryptBytes aesgcm envelope = .error e) :
    (∃ message, e = .format message) ∨ ∃ message, e = .crypto (.decryption message) := by
  rw [ClientPayloadCipher.decryptBytes, checkEnvelope] at raised
  split at raised
  · cases raised
    exact Or.inl ⟨_, rfl⟩
  split at raised
  · cases raised
    exact Or.inl ⟨_, rfl⟩
  · rw [decryptAesGcm, validateAesKey_ok cipher.key.property] at raised
    simp only [bind, Except.bind] at raised
    split at raised
    · cases raised
      exact Or.inr ⟨_, rfl⟩
    split at raised
    · cases raised
    · cases raised
      exact Or.inr ⟨_, rfl⟩

/-- No failure leaves a plaintext, typed or not. -/
theorem failure_zeroed {e : PayloadError} {buffer : List UInt8}
    (failed : cipher.decryptPayloadBuffer aesgcm depth envelope = (.error e, some buffer)) :
    IsZero buffer := by
  rw [ClientPayloadCipher.decryptPayloadBuffer] at failed
  split at failed
  · cases failed
  split at failed
  · cases failed
    exact zeroize_zero _
  · cases failed

theorem failsTyped_error {e : PayloadError} {buffer : Option (List UInt8)}
    (run : cipher.decryptPayloadBuffer aesgcm depth envelope = (.error e, buffer))
    (translated : (∃ message, e = .format message) ∨ ∃ message, e = .crypto (.decryption message)) :
    FailsTyped cipher aesgcm depth envelope := by
  have known : IsCryptoError e ∧ (decryptProblem e).isSome = true := by
    rcases translated with ⟨message, rfl⟩ | ⟨message, rfl⟩ <;> exact ⟨trivial, rfl⟩
  constructor
  · rw [run]
    rintro _ ⟨⟩
    exact known.1
  · rw [run]
    rintro _ ⟨⟩
    exact known.2
  · intro e' b
    exact failure_zeroed

theorem failsTyped_ok {payload : DecryptedClientPayload} {buffer : Option (List UInt8)}
    (run : cipher.decryptPayloadBuffer aesgcm depth envelope = (.ok payload, buffer)) :
    FailsTyped cipher aesgcm depth envelope := by
  constructor
  · rw [run]
    rintro _ ⟨⟩
  · rw [run]
    rintro _ ⟨⟩
  · rw [run]
    rintro _ _ ⟨⟩

/-- Nothing but a plaintext of these kinds gets past the typed errors of `decrypt_payload`. -/
theorem fails_typed_iff (cipher : ClientPayloadCipher) (aesgcm : AESGCM) (depth : Nat)
    (envelope : List UInt8) : FailsTyped cipher aesgcm depth envelope ↔
      ∀ plain, cipher.decryptBytes aesgcm envelope = .ok plain → Unicode.isUtf8 plain = true →
        ¬ Untranslated depth plain := by
  constructor
  · intro fails plain opened utf8 untranslated
    obtain ⟨e, raised, other⟩ := parsePayload_untranslated utf8 untranslated
    refine other (fails.typed e ?_)
    rw [ClientPayloadCipher.decryptPayloadBuffer, opened]
    dsimp only
    rw [raised]
  · intro translated
    cases opened : cipher.decryptBytes aesgcm envelope with
    | error e =>
      have run : cipher.decryptPayloadBuffer aesgcm depth envelope = (.error e, none) := by
        rw [ClientPayloadCipher.decryptPayloadBuffer, opened]
      exact failsTyped_error run (decryptBytes_error opened)
    | ok plain =>
      cases parsed : parsePayload depth plain with
      | error e =>
        have run : cipher.decryptPayloadBuffer aesgcm depth envelope =
            (.error e, some (zeroize plain)) := by
          rw [ClientPayloadCipher.decryptPayloadBuffer, opened]
          dsimp only
          rw [parsed]
        rcases parsePayload_error parsed with format | ⟨utf8, untranslated⟩
        · exact failsTyped_error run (Or.inl format)
        · exact absurd untranslated (translated plain opened utf8)
      | ok texts =>
        have run : cipher.decryptPayloadBuffer aesgcm depth envelope =
            (.ok ⟨texts.1, texts.2, plain⟩, some plain) := by
          rw [ClientPayloadCipher.decryptPayloadBuffer, opened]
          dsimp only
          rw [parsed]
        exact failsTyped_ok run

/-- Its document is a lone surrogate, an escape that is valid JSON. -/
def surrogatePayload : List UInt8 :=
  utf8 "\x7b\"document\":\"\\ud800\",\"prompt\":\"q\"\x7d"

def surrogateEnvelope : List UInt8 :=
  List.replicate 12 1 ++ Aead.zeroTagged.encrypt sampleCipher.key (List.replicate 12 1) AES_GCM_AAD
    surrogatePayload

theorem surrogate_not_typed : ¬ FailsTyped sampleCipher Aead.zeroTagged 900 surrogateEnvelope := by
  intro fails
  have raised : (sampleCipher.decryptPayloadBuffer Aead.zeroTagged 900 surrogateEnvelope).1 =
      .error .unicodeEncode := by decide +kernel
  exact fails.typed _ raised

end Failures

end Gateway
