import VerifiableRag.Crypto.KeyLoading
import VerifiableRag.Library.Disclosure

/-!
The key stage of `POST /v1/attestation-proof`: what a client sees of a key that the enclave
could not load.
-/
namespace Gateway
open CodePoints Crypto Disclosure

/-- The RFC 7807 body of a structured error. -/
structure ProblemDetail where
  statusCode : Nat
  title : String
  detail : Str
  deriving DecidableEq

variable {isprintable : CodePoint → Bool}

/-- The cipher `v1_attestation_proof` decrypts with. -/
def attestationProofCipher (isprintable : CodePoint → Bool) (environ : Option Str) :
    Except ProblemDetail ClientPayloadCipher :=
  (ClientPayloadCipher.init isprintable environ none).mapError fun exc =>
    ⟨503, "enclave_not_configured", exc.message⟩

theorem init_rejected {environ : Option Str} {reason : Rejection}
    (rejected : rejection GCM_KEY_LEN environ = some reason) :
    ClientPayloadCipher.init isprintable environ none =
      .error ⟨reason.message isprintable ENCLAVE_PAYLOAD_KEY_ENV GCM_KEY_LEN environ⟩ := by
  rw [ClientPayloadCipher.init, loadHexKey_rejected rejected]

theorem attestationProofCipher_rejected {environ : Option Str} {reason : Rejection}
    (rejected : rejection GCM_KEY_LEN environ = some reason) :
    attestationProofCipher isprintable environ =
      .error ⟨503, "enclave_not_configured",
        reason.message isprintable ENCLAVE_PAYLOAD_KEY_ENV GCM_KEY_LEN environ⟩ := by
  rw [attestationProofCipher, init_rejected rejected]
  rfl

/-- A key that is not hexadecimal text is sent to the client. -/
theorem not_hex_shows_key {key : Str} (rejected : rejection GCM_KEY_LEN (some key) = some .notHex) :
    attestationProofCipher isprintable (some key) =
      .error ⟨503, "enclave_not_configured",
        ofString "ENCLAVE_PAYLOAD_KEY must be hex text (64 chars), got " ++ repr isprintable key⟩ := by
  rw [attestationProofCipher_rejected rejected]
  have prompt : ENCLAVE_PAYLOAD_KEY_ENV ++ ofString " must be hex text (" ++
      decimal (GCM_KEY_LEN * 2) ++ ofString " chars), got " =
        ofString "ENCLAVE_PAYLOAD_KEY must be hex text (64 chars), got " := by
    decide +kernel
  rw [Rejection.message, notHexText, prompt]
  rfl

/-- What a value of the variable leads to: the error of `load_hex_key`, that of the cipher and
    the response. -/
def keyErrors (isprintable : CodePoint → Bool) (environ : Option Str) :
    Except CryptoError (Key GCM_KEY_LEN) × Except PayloadKeyError ClientPayloadCipher ×
      Except ProblemDetail ClientPayloadCipher :=
  (loadHexKey isprintable ENCLAVE_PAYLOAD_KEY_ENV GCM_KEY_LEN environ,
    ClientPayloadCipher.init isprintable environ none, attestationProofCipher isprintable environ)

/-- No character of a rejected value is given away: all that is raised and answered would be
    the same for any other value of the same rejection, and the detail does not quote it. -/
structure KeyWithheld (isprintable : CodePoint → Bool) (environ : Option Str) : Prop where
  conceals : Conceals (keyErrors isprintable) (rejection GCM_KEY_LEN) environ
  unquoted : ∀ key problem, environ = some key →
    attestationProofCipher isprintable environ = .error problem →
      ¬ repr isprintable key <:+: problem.detail

section Withheld
variable {raw raw' : Option Str} {reason : Rejection}

theorem keyErrors_rejected (rejected : rejection GCM_KEY_LEN raw = some reason) :
    keyErrors isprintable raw =
      (.error (.keyConfig (reason.message isprintable ENCLAVE_PAYLOAD_KEY_ENV GCM_KEY_LEN raw)),
        .error ⟨reason.message isprintable ENCLAVE_PAYLOAD_KEY_ENV GCM_KEY_LEN raw⟩,
        .error ⟨503, "enclave_not_configured",
          reason.message isprintable ENCLAVE_PAYLOAD_KEY_ENV GCM_KEY_LEN raw⟩) := by
  rw [keyErrors, loadHexKey_rejected rejected, init_rejected rejected,
    attestationProofCipher_rejected rejected]

theorem keyErrors_agree (rejected : rejection GCM_KEY_LEN raw = some reason)
    (rejected' : rejection GCM_KEY_LEN raw' = some reason) (hex : reason ≠ .notHex) :
    keyErrors isprintable raw = keyErrors isprintable raw' := by
  have message : reason.message isprintable ENCLAVE_PAYLOAD_KEY_ENV GCM_KEY_LEN raw =
      reason.message isprintable ENCLAVE_PAYLOAD_KEY_ENV GCM_KEY_LEN raw' :=
    (message_eq_iff rejected rejected').mpr fun other => absurd other hex
  rw [keyErrors_rejected rejected, keyErrors_rejected rejected', message]

theorem message_unquoted (hex : reason ≠ .notHex) (key : Str) :
    ¬ repr isprintable key <:+:
      reason.message isprintable ENCLAVE_PAYLOAD_KEY_ENV GCM_KEY_LEN raw := by
  intro shown
  have plain : ∀ c ∈ reason.message isprintable ENCLAVE_PAYLOAD_KEY_ENV GCM_KEY_LEN raw,
      c ≠ 0x27 ∧ c ≠ 0x22 := by
    have fixed : ∀ c ∈ notSet ENCLAVE_PAYLOAD_KEY_ENV ++ wrongSize ENCLAVE_PAYLOAD_KEY_ENV GCM_KEY_LEN 0,
        c ≠ 0x27 ∧ c ≠ 0x22 :=
      Bytes.forall_listed (by decide +kernel)
    rw [wrongSize] at fixed
    intro c member
    cases reason with
    | unset => exact fixed c (List.mem_append_left _ member)
    | notHex => exact absurd rfl hex
    | wrongLength got =>
      rcases List.mem_append.mp member with words | digits
      · exact fixed c (List.mem_append_right _ (List.mem_append_left _ words))
      · obtain ⟨low, high⟩ := decimal_digit digits
        constructor <;> rintro rfl <;> exact absurd low (by decide)
  have quote : quoteOf key ∈ repr isprintable key := List.mem_append_left _ List.mem_cons_self
  obtain ⟨single, double⟩ := plain _ (shown.subset quote)
  rcases quoteOf_mark key with mark | mark
  · exact single mark
  · exact double mark

theorem keyWithheld (rejected : rejection GCM_KEY_LEN raw = some reason) (hex : reason ≠ .notHex) :
    KeyWithheld isprintable raw := by
  constructor
  · intro other alike
    exact keyErrors_agree (alike.trans rejected) rejected hex
  · intro key problem _ answered
    rw [attestationProofCipher_rejected rejected] at answered
    cases answered
    exact message_unquoted hex key

theorem not_keyWithheld (rejected : rejection GCM_KEY_LEN raw = some .notHex) :
    ¬ KeyWithheld isprintable raw := by
  intro withheld
  obtain ⟨key, rfl⟩ := rejection_notHex rejected
  exact withheld.unquoted key _ rfl (not_hex_shows_key rejected) (List.suffix_append _ _).isInfix

/-- Two values rejected for one reason lead to the same errors, and neither of them is given
    away, unless the reason is that they are not hexadecimal text. -/
theorem key_errors_withheld_iff (rejected : rejection GCM_KEY_LEN raw = some reason)
    (rejected' : rejection GCM_KEY_LEN raw' = some reason) :
    (keyErrors isprintable raw = keyErrors isprintable raw' ∧ KeyWithheld isprintable raw ∧
      KeyWithheld isprintable raw') ↔ reason ≠ .notHex := by
  constructor
  · intro secret other
    rw [other] at rejected
    exact not_keyWithheld rejected secret.2.1
  · intro hex
    exact ⟨keyErrors_agree rejected rejected' hex, keyWithheld rejected hex,
      keyWithheld rejected' hex⟩

/-- A key of 32 bytes but for its last character. -/
def mistypedKey : Str :=
  ofString "00112233445566778899aabbccddeeff00112233445566778899aabbccddeefg"

theorem key_errors_withheld_iff_short :
    keyErrors (fun _ => false) (some (ofString "00ff")) =
        keyErrors (fun _ => false) (some (ofString "0xA1B2")) ∧
      KeyWithheld (fun _ => false) (some (ofString "00ff")) ∧
      KeyWithheld (fun _ => false) (some (ofString "0xA1B2")) :=
  (@key_errors_withheld_iff (fun _ => false) (some (ofString "00ff")) (some (ofString "0xA1B2"))
    (.wrongLength 2) (by decide +kernel) (by decide +kernel)).mpr nofun

theorem mistyped_key_shown :
    rejection GCM_KEY_LEN (some mistypedKey) = some .notHex ∧
      rejection GCM_KEY_LEN (some (ofString "not a key")) = some .notHex ∧
      attestationProofCipher (fun _ => false) (some mistypedKey) =
        .error ⟨503, "enclave_not_configured",
          ofString "ENCLAVE_PAYLOAD_KEY must be hex text (64 chars), got '" ++ mistypedKey ++
            ofString "'"⟩ ∧
      attestationProofCipher (fun _ => false) (some mistypedKey) ≠
        attestationProofCipher (fun _ => false) (some (ofString "not a key")) := by
  decide +kernel

end Withheld

end Gateway
