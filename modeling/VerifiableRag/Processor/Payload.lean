import VerifiableRag.Crypto.PayloadCipher

/-!
How `EphemeralProcessor` opens an encrypted payload: the framing, the key, the decryption
and the schema of the plaintext.
-/
namespace Processor
open Bytes CodePoints Json Crypto

def AES_GCM_AAD : List UInt8 := utf8 "flare-verifiable-rag:enclave:v1"
def MAX_ENCRYPTED_PAYLOAD_BYTES : Nat := 4 * 1024 * 1024

/-- What the processor raises; a `ValidationError` of pydantic is a `ValueError`. -/
inductive Raised where
  | valueError (message : Str)
  | runtimeError (message : Str)
  deriving DecidableEq

/-- `Field(min_length=1, max_length=MAX_ENCRYPTED_PAYLOAD_BYTES)`, in characters. -/
def Sized (t : Text) : Prop := 1 ≤ Unicode.chars t ∧ Unicode.chars t ≤ MAX_ENCRYPTED_PAYLOAD_BYTES

instance (t : Text) : Decidable (Sized t) := inferInstanceAs (Decidable (_ ∧ _))

structure DecryptedPayload where
  document : Text
  prompt : Text
  documentSized : Sized document
  promptSized : Sized prompt
  deriving DecidableEq

/-- The JSON reader of `model_validate_json`, as pydantic documents it: what Python's `json` reads
    (`NaN` and infinities too), from strict UTF-8, without lone surrogates, and only as deep as
    the recursion limit of the reader, which is `limit`. -/
def readJson (limit : Nat) (b : List UInt8) : Option Value :=
  if Unicode.isUtf8 b then
    match decodeJson limit b with
    | .ok value => if value.encodable then some value else none
    | .error _ => none
  else none

def DecryptedPayload.validate : Value → Option DecryptedPayload
  | .obj members =>
    match exactFields members with
    | some (.str document, .str prompt) =>
      if sized : Sized document ∧ Sized prompt then some ⟨document, prompt, sized.1, sized.2⟩
      else none
    | _ => none
  | _ => none

def DecryptedPayload.modelValidateJson (limit : Nat) (plain : List UInt8) :
    Option DecryptedPayload := (readJson limit plain).bind validate

/-- `_load_payload_key`; unlike `load_hex_key` it takes no `0x` prefix and shows no text. -/
def loadPayloadKey (raw : Option Str) : Except Raised (Key GCM_KEY_LEN) :=
  match raw with
  | none => .error (.runtimeError (notSetMessage))
  | some [] => .error (.runtimeError (notSetMessage))
  | some raw =>
    match fromhex (strip raw) with
    | none =>
      .error (.runtimeError (ENCLAVE_PAYLOAD_KEY_ENV ++ ofString " must be 64 hex chars (32 bytes)"))
    | some key =>
      if size : key.length = GCM_KEY_LEN then .ok ⟨key, size⟩
      else .error (.runtimeError (wrongSize ENCLAVE_PAYLOAD_KEY_ENV GCM_KEY_LEN key.length))
where
  notSetMessage : Str := ENCLAVE_PAYLOAD_KEY_ENV ++ ofString " is not set: cannot decrypt payloads"

def checkCap (encryptedPayload : List UInt8) : Except Raised Unit :=
  if MAX_ENCRYPTED_PAYLOAD_BYTES < encryptedPayload.length then
    .error (.valueError (ofString "encrypted payload of " ++ decimal encryptedPayload.length ++
      ofString " bytes exceeds the " ++ decimal MAX_ENCRYPTED_PAYLOAD_BYTES ++
      ofString "-byte cap"))
  else .ok ()

def tagMismatch : Str :=
  ofString
    "payload decryption failed: authentication tag mismatch (tampered ciphertext or wrong key)"

variable (aesgcm : AESGCM)

/-- `_decrypt_payload`. -/
def decryptPayload (key : Key GCM_KEY_LEN) (encryptedPayload : List UInt8) :
    Except Raised (List UInt8) :=
  if encryptedPayload.length < GCM_NONCE_LEN + 16 then
    .error (.valueError (ofString "encrypted payload too short: need nonce(12) + tag(16)"))
  else
    match aesgcm.decrypt key (encryptedPayload.take GCM_NONCE_LEN) AES_GCM_AAD
        (encryptedPayload.drop GCM_NONCE_LEN) with
    | some plaintext => .ok plaintext
    | none => .error (.runtimeError tagMismatch)

/-- `validationText` is `str` of the `ValidationError` that pydantic raises for a plaintext. -/
def validatePayload (limit : Nat) (validationText : List UInt8 → Str) (plain : List UInt8) :
    Except Raised DecryptedPayload :=
  match DecryptedPayload.modelValidateJson limit plain with
  | some payload => .ok payload
  | none => .error (.valueError (validationText plain))

/-- `execute_query` up to the engine. -/
def openPayload (limit : Nat) (validationText : List UInt8 → Str) (key : Key GCM_KEY_LEN)
    (encryptedPayload : List UInt8) : Except Raised DecryptedPayload := do
  checkCap encryptedPayload
  let plain ← decryptPayload aesgcm key encryptedPayload
  validatePayload limit validationText plain

end Processor
