import VerifiableRag.Crypto.KeyLoading
import VerifiableRag.Library.JsonStrings
import VerifiableRag.Library.PyStr

/-!
`ClientPayloadCipher`: how the gateway opens and checks an inbound envelope.
-/
namespace Crypto
open Bytes CodePoints Json

def MAX_ENCRYPTED_PAYLOAD_BYTES : Nat := 4 * 1024 * 1024
def MAX_CLIENT_TEXT_BYTES : Nat := 4 * 1024 * 1024

inductive PayloadError where
  /-- `PayloadFormatError` -/
  | format (message : Str)
  | crypto (error : CryptoError)
  /-- `UnicodeEncodeError` of a lone surrogate -/
  | unicodeEncode
  /-- `ValueError`: an integer literal over the digit limit -/
  | digits
  /-- `RecursionError` -/
  | recursion
  deriving DecidableEq

structure DecryptedClientPayload where
  document : Text
  prompt : Text
  plaintext : List UInt8
  deriving DecidableEq

def documentName : Text := utf8 "document"
def promptName : Text := utf8 "prompt"

/-- The two members of an object whose names are exactly `document` and `prompt`. -/
def exactFields (members : List (Text × Value)) : Option (Value × Value) :=
  if members.all fun m => m.1 = documentName ∨ m.1 = promptName then
    match lookup members documentName, lookup members promptName with
    | some document, some prompt => some (document, prompt)
    | _, _ => none
  else none

def checkEnvelope (envelope : List UInt8) : Except PayloadError Unit :=
  if envelope.length < GCM_MIN_WIRE_LEN then
    .error (.format (ofString "envelope too short: need nonce(12) + tag(16), got " ++
      decimal envelope.length ++ ofString " bytes"))
  else if MAX_ENCRYPTED_PAYLOAD_BYTES < envelope.length then
    .error (.format (ofString "envelope of " ++ decimal envelope.length ++
      ofString " bytes exceeds the " ++ decimal MAX_ENCRYPTED_PAYLOAD_BYTES ++ ofString "-byte cap"))
  else .ok ()

def notText (name : String) : PayloadError :=
  .format (ofString "client payload '" ++ ofString name ++ ofString "' must be a non-empty string")

def checkTextField (name : String) : Value → Except PayloadError Text
  | .str value =>
    if PyStr.strip value = [] then .error (notText name)
    else if ¬ Unicode.encodable value then .error .unicodeEncode
    else if MAX_CLIENT_TEXT_BYTES < value.length then
      .error (.format (ofString "client payload '" ++ ofString name ++ ofString "' exceeds the " ++
        decimal MAX_CLIENT_TEXT_BYTES ++ ofString "-byte cap"))
    else .ok value
  | _ => .error (notText name)

def notJson : PayloadError := .format (ofString "client payload is not valid UTF-8 JSON")

def notExact : PayloadError :=
  .format (ofString
    "client payload must be exactly \x7bdocument, prompt\x7d (extra/missing fields rejected)")

/-- `depth` is what is left of the interpreter's recursion limit. -/
def parsePayload (depth : Nat) (plain : List UInt8) : Except PayloadError (Text × Text) :=
  if Unicode.isUtf8 plain then
    match decodeJson depth plain with
    | .ok (.obj members) =>
      match exactFields members with
      | some (document, prompt) => do
        let document ← checkTextField "document" document
        let prompt ← checkTextField "prompt" prompt
        return (document, prompt)
      | none => .error notExact
    | .ok _ => .error notExact
    | .error .decode | .error .unicode => .error notJson
    | .error .digits => .error .digits
    | .error .recursion => .error .recursion
  else .error notJson

namespace ClientPayloadCipher
variable (cipher : ClientPayloadCipher) (aesgcm : AESGCM)

def decryptBytes (envelope : List UInt8) : Except PayloadError (List UInt8) := do
  checkEnvelope envelope
  (decryptAesGcm aesgcm cipher.key envelope AES_GCM_AAD).mapError .crypto

def decryptPayload (depth : Nat) (envelope : List UInt8) :
    Except PayloadError DecryptedClientPayload := do
  let plain ← cipher.decryptBytes aesgcm envelope
  let (document, prompt) ← parsePayload depth plain
  return ⟨document, prompt, plain⟩

end ClientPayloadCipher

end Crypto
