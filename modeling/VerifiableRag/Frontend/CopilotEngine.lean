import VerifiableRag.Flare.FdcEncoder
import VerifiableRag.Library.Hexadecimal

/-!
`copilot_engine.ts`: the Web2Json request that the front end encodes by itself, digit by digit,
and its agreement with the encoder of the enclave. Texts are in UTF-8.
-/
namespace Frontend
open Bytes Flare Hexadecimal Json

/-- `TextEncoder.encode` replaces a lone surrogate by U+FFFD. -/
def textEncode : Text → List UInt8
  | b0 :: b1 :: b2 :: rest =>
    if b0 = 0xED ∧ 0xA0 ≤ b1 then Unicode.encode 0xFFFD ++ textEncode rest
    else b0 :: textEncode (b1 :: b2 :: rest)
  | s => s

def utf8Hex (value : UniText) : Text := ofBytes (textEncode value.bytes)

def pad32Hex (hex : Text) : Except String Text :=
  if 64 < hex.length then
    .error ("value longer than 32 bytes (" ++ toString (hex.length / 2) ++ " bytes)")
  else .ok (padEnd 64 hex)

def encodeAbiString (value : UniText) : Text :=
  let data := utf8Hex value
  let byteLen := data.length / 2
  let padded := padEnd ((byteLen + 31) / 32 * 64) data
  padStart 64 (toString16 byteLen) ++ padded

/-! The literals of the header. -/

def web2JsonText : UniText :=
  ⟨utf8 "Web2Json", WEB2JSON_ATTESTATION_TYPE.wellFormed, WEB2JSON_ATTESTATION_TYPE.size⟩

def publicWeb2Text : UniText :=
  ⟨utf8 "PublicWeb2", WEB2JSON_SOURCE_ID_PUBLIC_WEB2.wellFormed, WEB2JSON_SOURCE_ID_PUBLIC_WEB2.size⟩

/-- The next offset, the offsets and the tail so far, after one more field. -/
def appendField (state : Nat × List Text × Text) (field : UniText) : Nat × List Text × Text :=
  let block := encodeAbiString field
  (state.1 + block.length / 2, state.2.1 ++ [padStart 64 (toString16 state.1)], state.2.2 ++ block)

def encodeFdcWeb2JsonRequest (body : RequestBody) : Except String Text := do
  let type ← pad32Hex (utf8Hex web2JsonText)
  let source ← pad32Hex (utf8Hex publicWeb2Text)
  let header := type ++ source ++ List.replicate 64 0x30
  let fields := body.strings
  let tailStart := fields.length * 0x20
  let head := padStart 64 (toString16 0x20)
  let (_, offsets, tail) := fields.foldl appendField (tailStart, [], [])
  return utf8 "0x" ++ header ++ head ++ offsets.flatten ++ tail

section Agreement
variable {s : UniText}

theorem textEncode_encodable {s : Text} (encodable : Unicode.encodable s = true) :
    textEncode s = s := by
  induction s using textEncode.induct with
  | case1 b0 b1 b2 rest lone =>
    have first : (!(b0 == 0xED && decide (0xA0 ≤ b1))) = true := by
      rw [Unicode.encodable, List.tail_cons, List.zip_cons_cons, List.all_cons,
        Bool.and_eq_true] at encodable
      exact encodable.1
    simp [lone.1, lone.2] at first
  | case2 b0 b1 b2 rest other ih =>
    have later : Unicode.encodable (b1 :: b2 :: rest) = true := by
      rw [Unicode.encodable, List.tail_cons, List.zip_cons_cons, List.all_cons,
        Bool.and_eq_true] at encodable
      exact encodable.2
    rw [textEncode, if_neg other, ih later]
  | case3 s short =>
    unfold textEncode
    split
    · rename_i same
      exact absurd rfl (short _ _ _ _)
    · rfl

theorem utf8Hex_eq (encodable : s.Encodable) : utf8Hex s = ofBytes s.bytes :=
  congrArg ofBytes (textEncode_encodable encodable)

theorem uint_hex {n : Nat} (small : n < 2 ^ 256) :
    padStart 64 (toString16 n) = ofBytes (Abi.uint n) :=
  padStart_encode (k := 32) (by decide) small

/-- The block of a string is its standard encoding in hexadecimal. -/
theorem encodeAbiString_eq (encodable : s.Encodable) :
    encodeAbiString s = ofBytes (Abi.Arg.bytes s.bytes).tail := by
  have size : (ofBytes s.bytes).length / 2 = s.bytes.length := by
    rw [ofBytes_length]
    omega
  have word := s.size
  have zeros : (s.bytes.length + 31) / 32 * 64 - 2 * s.bytes.length =
      2 * ((32 - s.bytes.length % 32) % 32) := by omega
  rw [encodeAbiString, utf8Hex_eq encodable]
  simp only [size]
  rw [uint_hex (by omega), padEnd, ofBytes_length, zeros, ← ofBytes_zeros, ← ofBytes_append,
    ← ofBytes_append]
  rfl

theorem appendField_eq (encodable : s.Encodable) {offset : Nat} (small : offset < 2 ^ 256)
    (offsets : List Text) (tail : Text) : appendField (offset, offsets, tail) s =
      (offset + (Abi.Arg.bytes s.bytes).tail.length, offsets ++ [ofBytes (Abi.uint offset)],
        tail ++ ofBytes (Abi.Arg.bytes s.bytes).tail) := by
  have size : (ofBytes (Abi.Arg.bytes s.bytes).tail).length / 2 =
      (Abi.Arg.bytes s.bytes).tail.length := by
    rw [ofBytes_length]
    omega
  rw [appendField, encodeAbiString_eq encodable]
  simp only [size, uint_hex small]

/-- What the loop has when it has taken all fields from an offset on. -/
theorem foldl_appendField {fields : List UniText} (encodable : ∀ s ∈ fields, s.Encodable)
    (offset : Nat) (offsets : List Text) (tail : Text)
    (small : offset + (((fields.map UniText.bytes).map Abi.Arg.bytes).flatMap Abi.Arg.tail).length <
      2 ^ 256) :
    let state := fields.foldl appendField (offset, offsets, tail)
    state.2.1.flatten =
        offsets.flatten ++ ofBytes (Abi.heads offset ((fields.map UniText.bytes).map Abi.Arg.bytes)) ∧
      state.2.2 =
        tail ++ ofBytes (((fields.map UniText.bytes).map Abi.Arg.bytes).flatMap Abi.Arg.tail) := by
  induction fields generalizing offset offsets tail with
  | nil => exact ⟨(List.append_nil _).symm, (List.append_nil _).symm⟩
  | cons s fields ih =>
    rw [List.forall_mem_cons] at encodable
    rw [List.map_cons, List.map_cons, List.flatMap_cons, List.length_append] at small
    have later := ih encodable.2 (offset + (Abi.Arg.bytes s.bytes).tail.length)
      (offsets ++ [ofBytes (Abi.uint offset)]) (tail ++ ofBytes (Abi.Arg.bytes s.bytes).tail) (by omega)
    rw [List.foldl_cons, appendField_eq encodable.1 (by omega)]
    rw [List.map_cons, List.map_cons, List.flatMap_cons, Abi.heads, ofBytes_append, ofBytes_append]
    simpa [List.append_assoc, Abi.Arg.head] using later

/-- The front end writes the bytes of the request with the default header. -/
theorem encodeFdc_eq {body : RequestBody} (encodable : body.Encodable) :
    encodeFdcWeb2JsonRequest body = .ok (utf8 "0x" ++ ofBytes (requestBytes WEB2JSON_ATTESTATION_TYPE
      WEB2JSON_SOURCE_ID_PUBLIC_WEB2 (List.replicate 32 0) body)) := by
  have count : (body.strings.map UniText.bytes).length = 7 := rfl
  have tails := Abi.tails_length_le (strings_small body)
  rw [count] at tails
  have heads :
      (((body.strings.map UniText.bytes).map Abi.Arg.bytes).map Abi.Arg.headSize).sum = 224 := by
    rw [Abi.headSize_bytes, count]
  obtain ⟨offsets, tail⟩ := foldl_appendField encodable 224 [] [] (by omega)
  have type : pad32Hex (utf8Hex web2JsonText) =
      .ok (ofBytes (padTo32 WEB2JSON_ATTESTATION_TYPE.bytes)) := by decide +kernel
  have source : pad32Hex (utf8Hex publicWeb2Text) =
      .ok (ofBytes (padTo32 WEB2JSON_SOURCE_ID_PUBLIC_WEB2.bytes)) := by decide +kernel
  have zeros : List.replicate 64 0x30 = ofBytes (List.replicate 32 0) := (ofBytes_zeros 32).symm
  rw [encodeFdcWeb2JsonRequest, type, source, zeros, requestBytes, Abi.encodeTuple, Abi.abiEncode,
    heads]
  have start : body.strings.length * 0x20 = 224 := rfl
  simp only [bind, Except.bind, start]
  -- from here on nothing but the two facts about the loop's result is used
  generalize body.strings.foldl appendField (224, [], []) = state at offsets tail ⊢
  rw [List.flatten_nil, List.nil_append] at offsets
  rw [List.nil_append] at tail
  simp only [pure, Except.pure, offsets, tail, uint_hex (show 0x20 < 2 ^ 256 by decide), ofBytes_append,
    List.append_assoc]

theorem webType_isId : IsId WEB2JSON_ATTESTATION_TYPE := ⟨by decide, by decide, by decide⟩

theorem publicWeb_isId : IsId WEB2JSON_SOURCE_ID_PUBLIC_WEB2 := ⟨by decide, by decide, by decide⟩

theorem encode_default {depth : Nat} {body : RequestBody} {bytes : List UInt8}
    (encodable : body.Encodable) (ok : encodeWeb2JsonRequest depth body WEB2JSON_ATTESTATION_TYPE
      WEB2JSON_SOURCE_ID_PUBLIC_WEB2 none = .ok bytes) :
    bytes = requestBytes WEB2JSON_ATTESTATION_TYPE WEB2JSON_SOURCE_ID_PUBLIC_WEB2
      (List.replicate 32 0) body := by
  rw [encode_validated (encode_ok_valid ok) webType_isId publicWeb_isId rfl,
    mapM_encodeUtf8 encodable] at ok
  exact (Except.ok.inj ok).symm

/-- A validated request survives its encoding exactly when no string holds a lone surrogate; the
    front end writes the same bytes, for all strings that have a UTF-8 form. -/
theorem fdc_codec_agreement_iff {depth : Nat} {r : RequestBody} {type source : UniText}
    {code : List UInt8} (valid : validateRequestBody depth r = .ok ()) (typeId : IsId type)
    (sourceId : IsId source) (size : code.length = 32) :
    ((encodeWeb2JsonRequest depth r type source (some code)).bind decodeWeb2JsonRequest = .ok r ↔
      r.Encodable) ∧
    ∀ body : RequestBody, body.Encodable →
      encodeFdcWeb2JsonRequest body = .ok (utf8 "0x" ++ ofBytes (requestBytes
        WEB2JSON_ATTESTATION_TYPE WEB2JSON_SOURCE_ID_PUBLIC_WEB2 (List.replicate 32 0) body)) ∧
      ∀ depth bytes, encodeWeb2JsonRequest depth body WEB2JSON_ATTESTATION_TYPE
          WEB2JSON_SOURCE_ID_PUBLIC_WEB2 none = .ok bytes →
        encodeFdcWeb2JsonRequest body = .ok (utf8 "0x" ++ ofBytes bytes) := by
  refine ⟨round_trip_iff valid typeId sourceId size, ?_⟩
  intro body encodable
  refine ⟨encodeFdc_eq encodable, ?_⟩
  intro depth bytes ok
  rw [encode_default encodable ok]
  exact encodeFdc_eq encodable

end Agreement

section Sample

def sampleBody (url : UniText) : RequestBody where
  url := url
  httpMethod := methodGet
  headers := emptyMembers
  queryParams := ⟨utf8 "\x7b\"q\":1\x7d", by decide, by decide⟩
  body := emptyMembers
  postProcessJq := ⟨utf8 ".name", by decide, by decide⟩
  abiSignature := ⟨utf8 "string", by decide, by decide⟩

def plainUrl : UniText := ⟨utf8 "https://api.example.com/é", by decide, by decide⟩

/-- It ends in U+D800. -/
def surrogateUrl : UniText := ⟨utf8 "https://" ++ [0xED, 0xA0, 0x80], by decide, by decide⟩

theorem fdc_codec_agreement_iff_plain :
    (encodeWeb2JsonRequest 100 (sampleBody plainUrl) WEB2JSON_ATTESTATION_TYPE
      WEB2JSON_SOURCE_ID_PUBLIC_WEB2 (some (List.replicate 32 7))).bind decodeWeb2JsonRequest =
        .ok (sampleBody plainUrl) := by
  have valid : validateRequestBody 100 (sampleBody plainUrl) = .ok () := rfl
  exact (fdc_codec_agreement_iff valid webType_isId publicWeb_isId List.length_replicate).1.mpr
    (by decide)

/-- A lone surrogate passes the validation and stops the encoding with another error. -/
theorem surrogate_url_untyped :
    validateRequestBody 100 (sampleBody surrogateUrl) = .ok () ∧
    encodeWeb2JsonRequest 100 (sampleBody surrogateUrl) WEB2JSON_ATTESTATION_TYPE
      WEB2JSON_SOURCE_ID_PUBLIC_WEB2 none = .error .unicodeEncodeError ∧
    (encodeWeb2JsonRequest 100 (sampleBody surrogateUrl) WEB2JSON_ATTESTATION_TYPE
      WEB2JSON_SOURCE_ID_PUBLIC_WEB2 none).bind decodeWeb2JsonRequest ≠
        .ok (sampleBody surrogateUrl) := by
  have valid : validateRequestBody 100 (sampleBody surrogateUrl) = .ok () := rfl
  have raised : encodeWeb2JsonRequest 100 (sampleBody surrogateUrl) WEB2JSON_ATTESTATION_TYPE
      WEB2JSON_SOURCE_ID_PUBLIC_WEB2 none = .error .unicodeEncodeError := by
    rw [encode_validated valid webType_isId publicWeb_isId rfl, mapM_encodeUtf8_error (by decide)]
    rfl
  refine ⟨valid, raised, ?_⟩
  rw [raised]
  intro back
  cases back

end Sample

end Frontend
