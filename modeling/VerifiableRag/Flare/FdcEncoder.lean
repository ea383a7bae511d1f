import VerifiableRag.Library.AbiDecoding
import VerifiableRag.Library.Json
import VerifiableRag.Library.PyStr

/-!
`fdc_encoder.py`: the validation, the encoding and the decoding of a Web2Json request. `eth_abi`
is the standard codec.
-/
namespace Flare
open Bytes Json

/-- A string as the generalized UTF-8 of its characters; none is longer than an address space. -/
@[ext] structure UniText where
  bytes : Text
  wellFormed : Unicode.wellFormed bytes = true
  size : bytes.length < 2 ^ 63

/-- No lone surrogate. -/
def UniText.Encodable (s : UniText) : Prop := Unicode.encodable s.bytes = true

instance (s : UniText) : Decidable s.Encodable := inferInstanceAs (Decidable (_ = _))

def methodGet : UniText := ⟨utf8 "GET", by decide, by decide⟩

/-- An object without members. -/
def emptyMembers : UniText := ⟨utf8 "\x7b\x7d", by decide, by decide⟩

structure RequestBody where
  url : UniText
  httpMethod : UniText
  headers : UniText
  queryParams : UniText
  body : UniText
  postProcessJq : UniText
  abiSignature : UniText

def RequestBody.strings (r : RequestBody) : List UniText :=
  [r.url, r.httpMethod, r.headers, r.queryParams, r.body, r.postProcessJq, r.abiSignature]

def RequestBody.ofStrings : List UniText → Option RequestBody
  | [url, httpMethod, headers, queryParams, body, postProcessJq, abiSignature] =>
    some ⟨url, httpMethod, headers, queryParams, body, postProcessJq, abiSignature⟩
  | _ => none

/-- Every string of the request has a UTF-8 form. -/
def RequestBody.Encodable (r : RequestBody) : Prop := ∀ s ∈ r.strings, s.Encodable

instance (r : RequestBody) : Decidable r.Encodable :=
  inferInstanceAs (Decidable (∀ s ∈ r.strings, s.Encodable))

def WEB2JSON_ATTESTATION_TYPE : UniText := ⟨utf8 "Web2Json", by decide, by decide⟩

def WEB2JSON_SOURCE_ID_PUBLIC_WEB2 : UniText := ⟨utf8 "PublicWeb2", by decide, by decide⟩

def WEB2JSON_HTTP_METHODS : List Text := ["GET", "POST", "PUT", "PATCH", "DELETE"].map utf8

def MAX_JQ_LENGTH : Nat := 5000

def MAX_ABI_SIGNATURE_LENGTH : Nat := 5000

/-- The messages of the encoder, each with the values that it shows. -/
inductive FdcEncodingError where
  | emptyId (value : UniText)
  | longId (value : UniText) (size : Nat)
  | notJson (field : String) (text : UniText)
  | notObject (field : String) (parsed : Value)
  | emptyUrl
  | notHttps (url : UniText)
  | httpMethod (got : UniText)
  | longJq (length : Nat)
  | emptySignature
  | longSignature (length : Nat)
  | integrityCode (length : Nat)
  | shortData (length : Nat)
  | undecodable

/-- What leaves these functions; only the first is one of their own errors. -/
inductive FdcRaised where
  | encoding (error : FdcEncodingError)
  | recursionError
  | unicodeEncodeError

def fdcError {α : Type} (e : FdcEncodingError) : Except FdcRaised α := .error (.encoding e)

/-- `value.encode("utf-8")` -/
def encodeUtf8 (s : UniText) : Except FdcRaised (List UInt8) :=
  if Unicode.encodable s.bytes then .ok s.bytes else .error .unicodeEncodeError

def decodeUtf8 (b : List UInt8) : Option UniText :=
  if given : Unicode.isUtf8 b = true ∧ b.length < 2 ^ 63 then
    some ⟨b, (Bool.and_eq_true_iff.mp given.1).1, given.2⟩
  else none

def padUtf8Bytes32 (value : UniText) : Except FdcRaised (List UInt8) :=
  if value.bytes = [] then fdcError (.emptyId value)
  else do
    let raw ← encodeUtf8 value
    if 32 < raw.length then fdcError (.longId value raw.length)
    else return raw ++ List.replicate (32 - raw.length) 0

section Validation
variable (depth : Nat)

/-- `json.loads` of a `str`, which may not start with a byte order mark. -/
def loadsText (text : Text) : Except LoadError Value :=
  if (Unicode.encode 0xFEFF).isPrefixOf text then .error .decode else decodeJson depth text

def isValidJsonObject (text : UniText) (field : String) : Except FdcRaised Unit :=
  match loadsText depth text.bytes with
  | .ok (.obj _) => .ok ()
  | .ok parsed => fdcError (.notObject field parsed)
  | .error .recursion => .error .recursionError
  | .error _ => fdcError (.notJson field text)

def validateRequestBody (r : RequestBody) : Except FdcRaised Unit :=
  if PyStr.strip r.url.bytes = [] then fdcError .emptyUrl
  else if !(utf8 "https://").isPrefixOf r.url.bytes then fdcError (.notHttps r.url)
  else if !WEB2JSON_HTTP_METHODS.contains r.httpMethod.bytes then fdcError (.httpMethod r.httpMethod)
  else do
    isValidJsonObject depth r.headers "headers"
    isValidJsonObject depth r.queryParams "queryParams"
    isValidJsonObject depth r.body "body"
    if MAX_JQ_LENGTH < Unicode.chars r.postProcessJq.bytes then
      fdcError (.longJq (Unicode.chars r.postProcessJq.bytes))
    else if PyStr.strip r.abiSignature.bytes = [] then fdcError .emptySignature
    else if MAX_ABI_SIGNATURE_LENGTH < Unicode.chars r.abiSignature.bytes then
      fdcError (.longSignature (Unicode.chars r.abiSignature.bytes))
    else return ()

/-- `encode_web2json_request(request, ...)`; no integrity code stands for 32 zero bytes. -/
def encodeWeb2JsonRequest (request : RequestBody) (attestationType sourceId : UniText)
    (messageIntegrityCode : Option (List UInt8)) : Except FdcRaised (List UInt8) := do
  validateRequestBody depth request
  let code := messageIntegrityCode.getD (List.replicate 32 0)
  if code.length ≠ 32 then fdcError (.integrityCode code.length)
  else
    let type ← padUtf8Bytes32 attestationType
    let source ← padUtf8Bytes32 sourceId
    let fields ← request.strings.mapM encodeUtf8
    return type ++ source ++ code ++ Abi.encodeTuple fields

end Validation

def decodeWeb2JsonRequest (data : List UInt8) : Except FdcRaised RequestBody :=
  if data.length < 96 then fdcError (.shortData data.length)
  else
    let decoded := do
      let fields ← Abi.decodeTuple 7 (data.drop 96)
      RequestBody.ofStrings (← fields.mapM decodeUtf8)
    match decoded with
    | some body => .ok body
    | none => fdcError .undecodable

/-- A type or source that fits its word. -/
structure IsId (value : UniText) : Prop where
  encodable : value.Encodable
  given : value.bytes ≠ []
  fits : value.bytes.length ≤ 32

def padTo32 (raw : List UInt8) : List UInt8 := raw ++ List.replicate (32 - raw.length) 0

/-- The header of 96 bytes, and the standard encoding of the seven strings. -/
def requestBytes (type source : UniText) (code : List UInt8) (r : RequestBody) : List UInt8 :=
  padTo32 type.bytes ++ padTo32 source.bytes ++ code ++
    Abi.encodeTuple (r.strings.map UniText.bytes)

section Codec
variable {depth : Nat} {r : RequestBody} {type source : UniText} {code : List UInt8}

theorem padTo32_length {raw : List UInt8} (fits : raw.length ≤ 32) : (padTo32 raw).length = 32 := by
  rw [padTo32, List.length_append, List.length_replicate]
  omega

theorem encodeUtf8_ok {s : UniText} (encodable : s.Encodable) : encodeUtf8 s = .ok s.bytes :=
  if_pos encodable

theorem encodeUtf8_error {s : UniText} (lone : ¬ s.Encodable) :
    encodeUtf8 s = .error .unicodeEncodeError := if_neg lone

theorem padUtf8Bytes32_ok {value : UniText} (id : IsId value) :
    padUtf8Bytes32 value = .ok (padTo32 value.bytes) := by
  rw [padUtf8Bytes32, if_neg id.given, encodeUtf8_ok id.encodable]
  exact if_neg (Nat.not_lt.mpr id.fits)

theorem mapM_encodeUtf8 {strings : List UniText} (encodable : ∀ s ∈ strings, s.Encodable) :
    strings.mapM encodeUtf8 = .ok (strings.map UniText.bytes) := by
  induction strings with
  | nil => rfl
  | cons s strings ih =>
    rw [List.forall_mem_cons] at encodable
    rw [List.mapM_cons, encodeUtf8_ok encodable.1, ih encodable.2]
    rfl

theorem mapM_encodeUtf8_error {strings : List UniText} (lone : ¬ ∀ s ∈ strings, s.Encodable) :
    strings.mapM encodeUtf8 = .error .unicodeEncodeError := by
  induction strings with
  | nil => exact absurd (fun s member => absurd member List.not_mem_nil) lone
  | cons s strings ih =>
    rw [List.forall_mem_cons] at lone
    rw [List.mapM_cons]
    by_cases first : s.Encodable
    · rw [encodeUtf8_ok first, ih fun later => lone ⟨first, later⟩]
      rfl
    · rw [encodeUtf8_error first]
      rfl

/-- A validated request is encoded as far as its strings have a UTF-8 form. -/
theorem encode_validated (valid : validateRequestBody depth r = .ok ()) (typeId : IsId type)
    (sourceId : IsId source) {code? : Option (List UInt8)}
    (size : (code?.getD (List.replicate 32 0)).length = 32) :
    encodeWeb2JsonRequest depth r type source code? =
      (r.strings.mapM encodeUtf8).map fun fields =>
        padTo32 type.bytes ++ padTo32 source.bytes ++ code?.getD (List.replicate 32 0) ++
          Abi.encodeTuple fields := by
  rw [encodeWeb2JsonRequest, valid]
  simp only [bind, Except.bind, size, ne_eq, not_true_eq_false, if_false, padUtf8Bytes32_ok typeId,
    padUtf8Bytes32_ok sourceId]
  cases r.strings.mapM encodeUtf8 <;> rfl

theorem encode_ok_valid {code? : Option (List UInt8)} {bytes : List UInt8}
    (ok : encodeWeb2JsonRequest depth r type source code? = .ok bytes) :
    validateRequestBody depth r = .ok () := by
  rw [encodeWeb2JsonRequest] at ok
  cases valid : validateRequestBody depth r with
  | ok _ => rfl
  | error e =>
    rw [valid] at ok
    cases ok

theorem decodeUtf8_bytes {s : UniText} (encodable : s.Encodable) : decodeUtf8 s.bytes = some s := by
  have utf8 : Unicode.isUtf8 s.bytes = true := by
    rw [Unicode.isUtf8, s.wellFormed, Bool.true_and]
    exact encodable
  rw [decodeUtf8, dif_pos ⟨utf8, s.size⟩]

theorem mapM_decodeUtf8 {strings : List UniText} (encodable : ∀ s ∈ strings, s.Encodable) :
    (strings.map UniText.bytes).mapM decodeUtf8 = some strings := by
  induction strings with
  | nil => rfl
  | cons s strings ih =>
    rw [List.forall_mem_cons] at encodable
    rw [List.map_cons, List.mapM_cons, decodeUtf8_bytes encodable.1, ih encodable.2]
    rfl

theorem strings_small (r : RequestBody) :
    ∀ field ∈ r.strings.map UniText.bytes, field.length < 2 ^ 63 := by
  intro field member
  obtain ⟨s, _, rfl⟩ := List.mem_map.mp member
  exact s.size

theorem encodeTuple_strings (r : RequestBody) :
    Abi.decodeTuple 7 (Abi.encodeTuple (r.strings.map UniText.bytes)) =
      some (r.strings.map UniText.bytes) := by
  have small := strings_small r
  have count : (r.strings.map UniText.bytes).length = 7 := rfl
  have tails := Abi.tails_length_le small
  have total := Abi.encodeTuple_length (r.strings.map UniText.bytes)
  rw [count] at tails total
  have given : r.strings.map UniText.bytes ≠ [] := List.cons_ne_nil _ _
  have fits : (Abi.encodeTuple (r.strings.map UniText.bytes)).length < 2 ^ 256 := by omega
  have fields := Abi.decodeTuple_encodeTuple given fits
    (fun field member => Nat.lt_trans (small field member) (by decide))
  rw [count] at fields
  exact fields

theorem decode_requestBytes (typeId : IsId type) (sourceId : IsId source) (size : code.length = 32)
    (encodable : r.Encodable) : decodeWeb2JsonRequest (requestBytes type source code r) = .ok r := by
  have header : (padTo32 type.bytes ++ padTo32 source.bytes ++ code).length = 96 := by
    rw [List.length_append, List.length_append, padTo32_length typeId.fits,
      padTo32_length sourceId.fits, size]
  have long : ¬ (requestBytes type source code r).length < 96 := by
    rw [requestBytes, List.length_append, header]
    omega
  rw [decodeWeb2JsonRequest, if_neg long, requestBytes, List.drop_left' header, encodeTuple_strings]
  simp only [Option.bind_eq_bind, Option.bind_some, mapM_decodeUtf8 encodable]
  rfl

/-- The round trip of a validated request holds exactly when no string holds a lone surrogate. -/
theorem round_trip_iff (valid : validateRequestBody depth r = .ok ()) (typeId : IsId type)
    (sourceId : IsId source) (size : code.length = 32) :
    (encodeWeb2JsonRequest depth r type source (some code)).bind decodeWeb2JsonRequest = .ok r ↔
      r.Encodable := by
  rw [@encode_validated depth r type source valid typeId sourceId (some code) size]
  constructor
  · intro back
    by_contra lone
    rw [mapM_encodeUtf8_error lone] at back
    cases back
  · intro encodable
    rw [mapM_encodeUtf8 encodable]
    exact decode_requestBytes typeId sourceId size encodable

end Codec

end Flare
