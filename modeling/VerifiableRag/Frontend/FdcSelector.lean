import VerifiableRag.Flare.FdcDecoding
import VerifiableRag.Frontend.CopilotEngine
import VerifiableRag.Library.Regex
import VerifiableRag.Library.TextBytes

/-!
`generateFdcSelector`: the front end's own rules for a Web2Json request, and those of the
enclave. The WHATWG parser behind `new URL` is a parameter.
-/
namespace Frontend
open Bytes CodePoints Flare Hexadecimal Json Regex

/-- A string of JavaScript by its code points; the language bounds its length. -/
@[ext] structure JsString where
  chars : Str
  short : chars.length < 2 ^ 53

section Strings

def JsString.text (s : JsString) : UniText where
  bytes := toUtf8 s.chars
  wellFormed := wellFormed_toUtf8 s.chars
  size := by
    have short := s.short
    have size := (toUtf8_size s.chars).2
    omega

/-- White space and line terminators. -/
def isJsSpace (c : CodePoint) : Bool :=
  (0x9 ≤ c ∧ c ≤ 0xD) ∨ c = 0x20 ∨ c = 0xA0 ∨ c = 0x1680 ∨ (0x2000 ≤ c ∧ c ≤ 0x200A) ∨ c = 0x2028 ∨
    c = 0x2029 ∨ c = 0x202F ∨ c = 0x205F ∨ c = 0x3000 ∨ c = 0xFEFF

def trimChars (s : Str) : Str := ((s.dropWhile isJsSpace).reverse.dropWhile isJsSpace).reverse

theorem trimChars_length (s : Str) : (trimChars s).length ≤ s.length := by
  have front := (List.dropWhile_suffix isJsSpace (l := s)).length_le
  have back := (List.dropWhile_suffix isJsSpace (l := (s.dropWhile isJsSpace).reverse)).length_le
  rw [List.length_reverse] at back
  rw [trimChars, List.length_reverse]
  omega

def JsString.trim (s : JsString) : JsString :=
  ⟨trimChars s.chars, Nat.lt_of_le_of_lt (trimChars_length s.chars) s.short⟩

end Strings

section Rules

structure ParsedUrl where
  protocol : Str
  hostname : Str

/-- `newUrl` is `new URL(url)`, or `none` where it throws. -/
def validateUrl (newUrl : Str → Option ParsedUrl) (url : Str) : Except String Unit :=
  match newUrl url with
  | none => .error "Not a valid URL."
  | some parsed =>
    if parsed.protocol ≠ ofString "https:" then .error "The FDC only attests HTTPS endpoints."
    else if 0x2E ∉ parsed.hostname then .error "The host does not look like a public domain."
    else .ok ()

def word (s : String) : Regex CodePoint := literal (ofString s)

def isJsDigit (c : CodePoint) : Bool := 0x30 ≤ c ∧ c ≤ 0x39

/-- `.` without the `s` flag -/
def notTerminator (c : CodePoint) : Bool := c ≠ 0xA ∧ c ≠ 0xD ∧ c ≠ 0x2028 ∧ c ≠ 0x2029

/-- `(8|16|…|256)?` -/
def intSize : Regex CodePoint :=
  optional (oneOf ((List.range' 8 32 8).map fun size => word (toString size)))

/-- `VALID_ABI_TYPES` -/
def validAbiTypes : Regex CodePoint :=
  .seq
    (oneOf [
      .seq (optional (word "u")) (.seq (word "int") intSize),
      word "bool",
      word "address",
      .seq (word "bytes") (optional (oneOf (["1", "2", "4", "8", "16", "32"].map word))),
      word "string",
      .seq (word "tuple")
        (optional (.seq (word "(") (.seq (.star (.char notTerminator)) (word ")"))))])
    (optional (.seq (word "[") (.seq (.star (.char isJsDigit)) (word "]"))))

/-- `[A-Za-z_]` -/
def isNameStart (c : CodePoint) : Bool :=
  (0x41 ≤ c ∧ c ≤ 0x5A) ∨ (0x61 ≤ c ∧ c ≤ 0x7A) ∨ c = 0x5F

/-- `[A-Za-z0-9_-]` -/
def isNamePart (c : CodePoint) : Bool := isNameStart c ∨ isJsDigit c ∨ c = 0x2D

def fieldName : Regex CodePoint := .seq (.char isNameStart) (.star (.char isNamePart))

def indexed : Regex CodePoint := .seq (word "[") (.seq (plus (.char isJsDigit)) (word "]"))

def jqPath : Regex CodePoint :=
  .seq (word ".") (.seq (.star (oneOf [fieldName, indexed, word "[]"]))
    (.star (oneOf [.seq (word ".") fieldName, indexed, word "[]"])))

def validateJq (jq : JsString) : Except String Unit :=
  let trimmed := jq.trim.chars
  if trimmed = [] then .error "jq path is empty."
  else if 0x24 ∈ trimmed then .error "Shell-expansion syntax is not valid jq."
  else if !jqPath.test trimmed then
    .error "Use a simple jq path like .main.temp or .items[0].id."
  else .ok ()

def validateAbiSignature (abi : JsString) : Except String Unit :=
  if abi.trim.chars = [] then .error "ABI signature is empty."
  else if !validAbiTypes.test abi.trim.chars then
    .error "Use a Solidity type: uint256, bool, address, string, bytes32, tuple(...)."
  else .ok ()

end Rules

section Selector

structure FdcWeb2JsonConfig where
  attestationType : String
  sourceId : String
  httpMethod : String
  url : JsString
  postProcessJq : JsString
  abiSignature : JsString
  requestBody : RequestBody
  abiEncodedRequest : Text
  byteLength : Nat

def requestBodyOf (url jsonPath abiSignature : JsString) : RequestBody where
  url := url.trim.text
  httpMethod := methodGet
  headers := emptyMembers
  queryParams := emptyMembers
  body := emptyMembers
  postProcessJq := jsonPath.trim.text
  abiSignature := abiSignature.trim.text

/-- An error is the text of a refusal, or of what the encoder throws. -/
def generateFdcSelector (newUrl : Str → Option ParsedUrl) (url jsonPath abiSignature : JsString) :
    Except String FdcWeb2JsonConfig := do
  validateUrl newUrl url.chars
  validateJq jsonPath
  validateAbiSignature abiSignature
  let requestBody := requestBodyOf url jsonPath abiSignature
  let abiEncodedRequest ← encodeFdcWeb2JsonRequest requestBody
  return {
    attestationType := "Web2Json"
    sourceId := "PublicWeb2"
    httpMethod := "GET"
    url := url.trim
    postProcessJq := jsonPath.trim
    abiSignature := abiSignature.trim
    requestBody
    abiEncodedRequest
    byteLength := (abiEncodedRequest.length - 2) / 2 }

end Selector

section Texts

theorem text_encodable {s : JsString} : s.text.Encodable ↔ Scalars s.chars := encodable_toUtf8 s.chars

/-- In ASCII, and neither a control character nor white space. -/
def IsVisible (c : CodePoint) : Prop := 0x21 ≤ c.val ∧ c.val ≤ 0x7E

instance (c : CodePoint) : Decidable (IsVisible c) := inferInstanceAs (Decidable (_ ∧ _))

theorem within_word {s : String} (visible : (ofString s).all (fun c => IsVisible c) = true) :
    (word s).Within IsVisible := within_literal (forall_listed visible)

theorem isJsDigit_visible (c : CodePoint) (digit : isJsDigit c = true) : IsVisible c := by
  have range := of_decide_eq_true digit
  have low : 0x30 ≤ c.val := Fin.le_def.mp range.1
  have high : c.val ≤ 0x39 := Fin.le_def.mp range.2
  exact ⟨by omega, by omega⟩

theorem isNameStart_visible (c : CodePoint) (start : isNameStart c = true) : IsVisible c := by
  rcases of_decide_eq_true start with upper | lower | rfl
  · have low : 0x41 ≤ c.val := Fin.le_def.mp upper.1
    have high : c.val ≤ 0x5A := Fin.le_def.mp upper.2
    exact ⟨by omega, by omega⟩
  · have low : 0x61 ≤ c.val := Fin.le_def.mp lower.1
    have high : c.val ≤ 0x7A := Fin.le_def.mp lower.2
    exact ⟨by omega, by omega⟩
  · decide

theorem isNamePart_visible (c : CodePoint) (part : isNamePart c = true) : IsVisible c := by
  rcases of_decide_eq_true part with start | digit | rfl
  · exact isNameStart_visible c start
  · exact isJsDigit_visible c digit
  · decide

theorem fieldName_visible : fieldName.Within IsVisible := ⟨isNameStart_visible, isNamePart_visible⟩

theorem indexed_visible : indexed.Within IsVisible :=
  ⟨within_word (by decide), ⟨isJsDigit_visible, isJsDigit_visible⟩, within_word (by decide)⟩

/-- A path that the pattern admits is in ASCII. -/
theorem jqPath_visible {s : Str} (matched : jqPath.test s = true) : ∀ c ∈ s, IsVisible c := by
  refine @Matches.within _ IsVisible _ _ (test_iff.mp matched) ?_
  refine ⟨within_word (by decide), within_oneOf ?_, within_oneOf ?_⟩
  · simp only [List.forall_mem_cons]
    exact ⟨fieldName_visible, indexed_visible, within_word (by decide), List.forall_mem_nil _⟩
  · simp only [List.forall_mem_cons]
    exact ⟨⟨within_word (by decide), fieldName_visible⟩, indexed_visible, within_word (by decide),
      List.forall_mem_nil _⟩

/-- A type that the pattern admits starts with a small letter. -/
theorem validAbiTypes_start {s : Str} (matched : validAbiTypes.test s = true) :
    ∃ c rest, s = c :: rest ∧ 0x61 ≤ c.val ∧ c.val ≤ 0x7A := by
  cases s with
  | nil => exact absurd matched (by decide)
  | cons c rest =>
    refine ⟨c, rest, rfl, ?_⟩
    have starting := (test_iff.mp matched).starts
    have u := starts_literal (show (ofString "u").head? = some 0x75 by decide) c
    have int := starts_literal (show (ofString "int").head? = some 0x69 by decide) c
    have bool := starts_literal (show (ofString "bool").head? = some 0x62 by decide) c
    have address := starts_literal (show (ofString "address").head? = some 0x61 by decide) c
    have bytes := starts_literal (show (ofString "bytes").head? = some 0x62 by decide) c
    have string := starts_literal (show (ofString "string").head? = some 0x73 by decide) c
    have tuple := starts_literal (show (ofString "tuple").head? = some 0x74 by decide) c
    simp only [validAbiTypes, word, Regex.optional, oneOf, starts, nullable, u, int, bool, address,
      bytes, string, tuple, Bool.or_eq_true, decide_eq_true_eq, Bool.false_and, Bool.and_false,
      Bool.or_false, Bool.true_and, Bool.or_true] at starting
    rcases starting with (same | same) | same | same | same | same | same <;> rw [same] <;> decide

/-- A byte that no white space of Python has. -/
def Solid (b : UInt8) : Prop := 0x21 ≤ b ∧ b ≤ 0x7E

instance (b : UInt8) : Decidable (Solid b) := inferInstanceAs (Decidable (_ ∧ _))

theorem strip_solid {s : Text} {b : UInt8} (member : b ∈ s) (solid : Solid b) :
    PyStr.strip s ≠ [] := by
  have spaces : ∀ form ∈ PyStr.spaces, form ≠ [] ∧ form.all (fun b => ¬ Solid b) :=
    forall_listed (by decide +kernel)
  obtain ⟨left, right, split, outer, outer'⟩ := @PyStr.strip_split (fun b => ¬ Solid b)
    (fun form listed => ⟨(spaces form listed).1,
      fun b here => of_decide_eq_true (List.all_eq_true.mp (spaces form listed).2 b here)⟩) s
  intro empty
  rw [empty, List.nil_append] at split
  rw [split, List.mem_append] at member
  exact member.elim (outer b · solid) (outer' b · solid)

end Texts

section Admission
variable {newUrl : Str → Option ParsedUrl} {url jsonPath abiSignature : JsString}
  {config : FdcWeb2JsonConfig}

/-- What is known of the config of an accepted request. -/
structure Made (url jsonPath abiSignature : JsString) (config : FdcWeb2JsonConfig) : Prop where
  texts : config.url = url.trim ∧ config.postProcessJq = jsonPath.trim
  body : config.requestBody = requestBodyOf url jsonPath abiSignature
  encoded : encodeFdcWeb2JsonRequest config.requestBody = .ok config.abiEncodedRequest
  jq : jqPath.test jsonPath.trim.chars = true
  abi : validAbiTypes.test abiSignature.trim.chars = true

theorem made_of (ok : generateFdcSelector newUrl url jsonPath abiSignature = .ok config) :
    Made url jsonPath abiSignature config := by
  simp only [generateFdcSelector, Results.except_bind_ok] at ok
  obtain ⟨_, _, _, jq, _, abi, encoded, written, same⟩ := ok
  cases same
  refine ⟨⟨rfl, rfl⟩, rfl, written, ?_, ?_⟩
  · simp only [validateJq] at jq
    split at jq
    · cases jq
    split at jq
    · cases jq
    split at jq
    · cases jq
    · rename_i matched
      simpa using matched
  · simp only [validateAbiSignature] at abi
    split at abi
    · cases abi
    split at abi
    · cases abi
    · rename_i matched
      simpa using matched

/-- The enclave's rules admit the request, and its decoder reads back the request body. -/
structure Admitted (depth : Nat) (config : FdcWeb2JsonConfig) : Prop where
  rules : validateRequestBody depth config.requestBody = .ok ()
  decoded : ∃ bytes, config.abiEncodedRequest = utf8 "0x" ++ ofBytes bytes ∧
    decodeWeb2JsonRequest bytes = .ok config.requestBody

/-- What the front end leaves to its URL parser and to its patterns. -/
structure Literal (url jsonPath abiSignature : JsString) : Prop where
  scheme : ofString "https://" <+: url.trim.chars
  jq : jsonPath.trim.chars.length ≤ 5000
  abi : abiSignature.trim.chars.length ≤ 5000
  urlScalars : Scalars url.trim.chars
  abiScalars : Scalars abiSignature.trim.chars

theorem https_prefix (s : JsString) :
    (utf8 "https://").isPrefixOf s.text.bytes = true ↔ ofString "https://" <+: s.chars := by
  have bytes : utf8 "https://" = toUtf8 (ofString "https://") := by decide +kernel
  have ascii : ∀ c ∈ ofString "https://", c.val < 0x80 := forall_listed (by decide +kernel)
  rw [List.isPrefixOf_iff_prefix, bytes]
  exact toUtf8_prefix ascii

theorem emptyMembers_object (depth : Nat) (field : String) :
    isValidJsonObject (depth + 1) emptyMembers field = .ok () := rfl

/-- The rules that are left for a request body of the front end. -/
theorem rules_iff {depth : Nat} (made : Made url jsonPath abiSignature config) :
    validateRequestBody (depth + 1) config.requestBody = .ok () ↔
      ofString "https://" <+: url.trim.chars ∧ jsonPath.trim.chars.length ≤ 5000 ∧
        abiSignature.trim.chars.length ≤ 5000 := by
  have abiSolid : PyStr.strip abiSignature.trim.text.bytes ≠ [] := by
    obtain ⟨c, rest, whole, low, high⟩ := validAbiTypes_start made.abi
    have single : Unicode.encode c.val = [UInt8.ofNat c.val] := if_pos (by omega)
    have value := byte_val (show c.val < 256 by omega)
    apply @strip_solid _ (UInt8.ofNat c.val)
    · show UInt8.ofNat c.val ∈ toUtf8 abiSignature.trim.chars
      rw [whole, toUtf8_cons, single]
      simp
    · exact ⟨(byte_le (n := 0x21) (by decide)).mpr (by omega),
        (byte_ge (n := 0x7E) (by decide)).mpr (by omega)⟩
  have method : WEB2JSON_HTTP_METHODS.contains methodGet.bytes = true := by decide
  have jqSize : Unicode.chars jsonPath.trim.text.bytes = jsonPath.trim.chars.length := chars_toUtf8 _
  have abiSize : Unicode.chars abiSignature.trim.text.bytes = abiSignature.trim.chars.length :=
    chars_toUtf8 _
  have absent : ∀ field, isValidJsonObject (depth + 1) emptyMembers field = .ok () :=
    emptyMembers_object depth
  rw [made.body, validateRequestBody, ← https_prefix]
  simp only [requestBodyOf, method, absent, jqSize, abiSize]
  by_cases scheme : (utf8 "https://").isPrefixOf url.trim.text.bytes = true
  · have urlSolid : PyStr.strip url.trim.text.bytes ≠ [] := by
      obtain ⟨rest, same⟩ := List.isPrefixOf_iff_prefix.mp scheme
      apply @strip_solid _ 0x68
      · rw [← same]
        simp [show (0x68 : UInt8) ∈ utf8 "https://" by decide]
      · decide
    rw [if_neg urlSolid, if_neg (by simp [scheme]), if_neg (by decide), if_neg abiSolid,
      and_iff_right scheme]
    simp only [bind, Except.bind]
    by_cases jqLong : MAX_JQ_LENGTH < jsonPath.trim.chars.length
    · rw [if_pos jqLong]
      exact iff_of_false nofun (fun short => Nat.not_lt.mpr short.1 jqLong)
    rw [if_neg jqLong]
    have jqShort : jsonPath.trim.chars.length ≤ 5000 := Nat.not_lt.mp jqLong
    rw [and_iff_right jqShort]
    by_cases abiLong : MAX_ABI_SIGNATURE_LENGTH < abiSignature.trim.chars.length
    · rw [if_pos abiLong]
      exact iff_of_false nofun (Nat.not_le.mpr abiLong)
    · rw [if_neg abiLong]
      exact iff_of_true rfl (Nat.not_lt.mp abiLong)
  · rw [iff_false_right (fun admitted => scheme admitted.1)]
    split
    · exact nofun
    · rw [if_pos (by simp [scheme])]
      exact nofun

theorem requestBodyOf_encodable (matched : jqPath.test jsonPath.trim.chars = true) :
    (requestBodyOf url jsonPath abiSignature).Encodable ↔
      Scalars url.trim.chars ∧ Scalars abiSignature.trim.chars := by
  have jq : jsonPath.trim.text.Encodable := by
    rw [text_encodable]
    intro c listed
    have high := (jqPath_visible matched c listed).2
    rw [isSurrogate, decide_eq_false_iff_not]
    omega
  rw [← text_encodable, ← text_encodable]
  simp only [RequestBody.Encodable, RequestBody.strings, requestBodyOf, List.forall_mem_cons]
  constructor
  · rintro ⟨url, _, _, _, _, _, abi, _⟩
    exact ⟨url, abi⟩
  · rintro ⟨url, abi⟩
    exact ⟨url, by decide, by decide, by decide, by decide, jq, abi, List.forall_mem_nil _⟩

/-- A request of the front end is admitted exactly when its URL is spelled with the literal prefix,
    its texts are short enough and no text holds a lone surrogate. -/
theorem admitted_iff {depth : Nat}
    (ok : generateFdcSelector newUrl url jsonPath abiSignature = .ok config) :
    Admitted (depth + 1) config ↔ Literal url jsonPath abiSignature := by
  have made := made_of ok
  constructor
  · intro admitted
    obtain ⟨scheme, jq, abi⟩ := (rules_iff made).mp admitted.rules
    obtain ⟨bytes, _, decoded⟩ := admitted.decoded
    have encodable := reads_encodable (decode_ok_iff.mp decoded)
    rw [made.body, requestBodyOf_encodable made.jq] at encodable
    exact ⟨scheme, jq, abi, encodable.1, encodable.2⟩
  · intro literal
    have encodable : config.requestBody.Encodable := by
      rw [made.body, requestBodyOf_encodable made.jq]
      exact ⟨literal.urlScalars, literal.abiScalars⟩
    refine ⟨(rules_iff made).mpr ⟨literal.scheme, literal.jq, literal.abi⟩, ?_⟩
    have written := (encodeFdc_eq encodable).symm.trans made.encoded
    exact ⟨_, (Except.ok.inj written).symm,
      decode_requestBytes webType_isId publicWeb_isId List.length_replicate encodable⟩

end Admission

section Sample

def js (s : String) (short : (ofString s).length < 2 ^ 53) : JsString := ⟨ofString s, short⟩

/-- `new URL` at the two spellings below. -/
def sampleUrls (url : Str) : Option ParsedUrl :=
  if url = ofString "https://api.example.com" ∨ url = ofString "HTTPS://api.example.com" then
    some ⟨ofString "https:", ofString "api.example.com"⟩
  else none

def sampleConfig (url : String) (short : (ofString url).length < 2 ^ 53) :
    Except String FdcWeb2JsonConfig :=
  generateFdcSelector sampleUrls (js url short) (js ".price" (by decide)) (js "uint256" (by decide))

theorem sampleConfig_ok {url : String} {short : (ofString url).length < 2 ^ 53}
    (accepted : (sampleConfig url short).toOption.isSome = true) :
    ∃ config, sampleConfig url short = .ok config := by
  obtain ⟨config, ok⟩ := Option.isSome_iff_exists.mp accepted
  exact ⟨config, Results.toOption_some.mp ok⟩

theorem admitted_iff_sample : ∃ config,
    sampleConfig "https://api.example.com" (by decide) = .ok config ∧ Admitted 1 config := by
  obtain ⟨config, ok⟩ := @sampleConfig_ok "https://api.example.com" (by decide) (by decide +kernel)
  exact ⟨config, ok, (admitted_iff ok).mpr ⟨by decide +kernel, by decide +kernel, by decide +kernel,
    forall_listed (by decide +kernel), forall_listed (by decide +kernel)⟩⟩

/-- The scheme in capitals is accepted here and refused there. -/
theorem capital_scheme_refused : ∃ config,
    sampleConfig "HTTPS://api.example.com" (by decide) = .ok config ∧ ¬ Admitted 1 config := by
  obtain ⟨config, ok⟩ := @sampleConfig_ok "HTTPS://api.example.com" (by decide) (by decide +kernel)
  refine ⟨config, ok, ?_⟩
  intro admitted
  have scheme := ((rules_iff (made_of ok)).mp admitted.rules).1
  exact absurd scheme (by decide +kernel)

end Sample

end Frontend
