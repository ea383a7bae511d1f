import VerifiableRag.Kms.JsonField
import VerifiableRag.Library.Base64Strict
import VerifiableRag.Library.JsonSplicing
import VerifiableRag.Library.RustStr

/-!
`KmsClient` (`client.rs`): the enclave's EAT is exchanged for an access token, and the access token
releases the key shard. What carries the requests is a parameter.
-/
namespace Kms
open Base64 Bytes Json Results

inductive KmsError where
  | transport (e : Text)
  | http (status : Nat) (body : Text)
  | parse (e : Text)
  | missingToken
  | missingEat

structure KmsConfig where
  cryptoKeyName : Text
  wipAudience : Text
  kmsBaseUrl : Text
  stsTokenUrl : Text

/-- A `POST` of JSON. -/
structure Request where
  url : Text
  authorization : Option Text
  body : Text

/-- `STANDARD.decode`: nothing but what the encoder writes. -/
def standardDecode (s : Text) : Option (List UInt8) := (a2bStrict s).filter (b64encode · = s)

theorem standardDecode_iff {s : Text} {data : List UInt8} :
    standardDecode s = some data ↔ s = b64encode data := by
  rw [standardDecode, Option.filter_eq_some_iff, decide_eq_true_iff]
  constructor
  · exact fun both => both.2.symm
  · rintro rfl
    exact ⟨a2bStrict_encode data, rfl⟩

section Client
variable (client : Request → Except Text (Nat × List UInt8)) (base64Error : Text → Text)

def postJson (url : Text) (bearer : Option Text) (body : Text) : Except KmsError (Nat × Text) :=
  match client ⟨url, bearer.map (utf8 "Bearer " ++ ·), body⟩ with
  | .error e => .error (.transport e)
  | .ok (status, bytes) => .ok (status, utf8 (RustStr.fromUtf8Lossy bytes))

def exchangeBody (aud tok : Text) : Text :=
  utf8 "\x7b\"audience\":\"" ++ aud ++
  utf8 ("\",\"grantType\":\"urn:ietf:params:oauth:grant-type:token-exchange\"," ++
    "\"requestedTokenType\":\"urn:ietf:params:oauth:token-type:access_token\"," ++
    "\"scope\":\"https://www.googleapis.com/auth/cloudkms\"," ++
    "\"subjectTokenType\":\"urn:ietf:params:oauth:token-type:jwt\"," ++
    "\"subjectToken\":\"") ++ tok ++
  utf8 "\"\x7d"

def exchangeEatForAccessToken (config : KmsConfig) (eatToken : Text) : Except KmsError Text :=
  if trimStart eatToken = [] then .error .missingEat
  else do
    let (status, text) ← postJson client config.stsTokenUrl none
      (exchangeBody config.wipAudience eatToken)
    if status ≠ 200 then .error (.http status text)
    else
      match jsonStrField text (utf8 "access_token") with
      | none => .error .missingToken
      | some token => .ok token

def decryptUrl (config : KmsConfig) : Text :=
  config.kmsBaseUrl.rdropWhile (· == 0x2F) ++ utf8 "/v1/" ++ config.cryptoKeyName ++ utf8 ":decrypt"

def decryptBody (ct : Text) : Text := utf8 "\x7b\"ciphertext\":\"" ++ ct ++ utf8 "\"\x7d"

def decryptKeyShard (config : KmsConfig) (accessToken shardCiphertext : Text) :
    Except KmsError (List UInt8) := do
  let (status, text) ← postJson client (decryptUrl config) (some accessToken)
    (decryptBody shardCiphertext)
  if status ≠ 200 then .error (.http status text)
  else
    match jsonStrField text (utf8 "plaintext") with
    | none => .error (.parse (utf8 "no plaintext field in decrypt response"))
    | some b64 =>
      match standardDecode b64 with
      | none => .error (.parse (utf8 "plaintext is not valid base64: " ++ base64Error b64))
      | some shard => .ok shard

def releaseEnclaveShard (config : KmsConfig) (eatToken shardCiphertext : Text) :
    Except KmsError (List UInt8) := do
  let accessToken ← exchangeEatForAccessToken client config eatToken
  decryptKeyShard client base64Error config accessToken shardCiphertext

/-- The service answers a request with a text in which the scanner finds this string. -/
def Answers (request : Request) (field value : Text) : Prop :=
  ∃ bytes, client request = .ok (200, bytes) ∧
    jsonStrField (utf8 (RustStr.fromUtf8Lossy bytes)) field = some value

end Client

section Bodies
variable {aud tok ct : Text}

/-- What STS is to read. -/
def exchangeMembers (aud tok : Text) : List (Text × Value) :=
  [(utf8 "audience", .str aud),
    (utf8 "grantType", .str (utf8 "urn:ietf:params:oauth:grant-type:token-exchange")),
    (utf8 "requestedTokenType", .str (utf8 "urn:ietf:params:oauth:token-type:access_token")),
    (utf8 "scope", .str (utf8 "https://www.googleapis.com/auth/cloudkms")),
    (utf8 "subjectTokenType", .str (utf8 "urn:ietf:params:oauth:token-type:jwt")),
    (utf8 "subjectToken", .str tok)]

theorem exchangeBody_reads (depth : Nat) :
    decodeJson (depth + 1) (exchangeBody aud tok) = .ok (.obj (exchangeMembers aud tok)) ↔
      PlainText aud ∧ PlainText tok := by
  let grantType : TextField :=
    ⟨utf8 "grantType", by decide +kernel, utf8 "urn:ietf:params:oauth:grant-type:token-exchange"⟩
  let requestedTokenType : TextField :=
    ⟨utf8 "requestedTokenType", by decide +kernel,
      utf8 "urn:ietf:params:oauth:token-type:access_token"⟩
  let scope : TextField :=
    ⟨utf8 "scope", by decide +kernel, utf8 "https://www.googleapis.com/auth/cloudkms"⟩
  let subjectTokenType : TextField :=
    ⟨utf8 "subjectTokenType", by decide +kernel, utf8 "urn:ietf:params:oauth:token-type:jwt"⟩
  have opening : utf8 "\x7b\"audience\":\"" =
      0x7B :: 0x22 :: (utf8 "audience" ++ [0x22, 0x3A, 0x22]) := by decide +kernel
  have middle : utf8 ("\",\"grantType\":\"urn:ietf:params:oauth:grant-type:token-exchange\"," ++
      "\"requestedTokenType\":\"urn:ietf:params:oauth:token-type:access_token\"," ++
      "\"scope\":\"https://www.googleapis.com/auth/cloudkms\"," ++
      "\"subjectTokenType\":\"urn:ietf:params:oauth:token-type:jwt\"," ++
      "\"subjectToken\":\"") =
      0x22 :: 0x2C :: (grantType.source ++ 0x2C :: (requestedTokenType.source ++ 0x2C ::
        (scope.source ++ 0x2C :: (subjectTokenType.source ++ 0x2C :: 0x22 ::
          (utf8 "subjectToken" ++ [0x22, 0x3A, 0x22]))))) := by decide +kernel
  have closing : utf8 "\"\x7d" = [0x22, 0x7D] := by decide
  have body : exchangeBody aud tok = spliced ⟨utf8 "audience", by decide +kernel, aud⟩ [grantType,
      requestedTokenType, scope, subjectTokenType, ⟨utf8 "subjectToken", by decide +kernel, tok⟩] := by
    rw [exchangeBody, opening, middle, closing]
    simp only [spliced, splicedRest, TextField.source, List.cons_append, List.append_assoc,
      List.nil_append]
  have fixed : PlainText grantType.text ∧ PlainText requestedTokenType.text ∧
      PlainText scope.text ∧ PlainText subjectTokenType.text := by decide +kernel
  have reads := decodeJson_spliced ⟨utf8 "audience", by decide +kernel, aud⟩ [grantType,
      requestedTokenType, scope, subjectTokenType, ⟨utf8 "subjectToken", by decide +kernel, tok⟩] depth
  rw [body, exchangeMembers]
  refine Iff.trans reads ?_
  simp only [List.forall_mem_cons, List.not_mem_nil, false_implies, implies_true, and_true, fixed,
    true_and]

theorem decryptBody_reads (depth : Nat) :
    decodeJson (depth + 1) (decryptBody ct) = .ok (.obj [(utf8 "ciphertext", .str ct)]) ↔
      PlainText ct := by
  have opening : utf8 "\x7b\"ciphertext\":\"" =
      0x7B :: 0x22 :: (utf8 "ciphertext" ++ [0x22, 0x3A, 0x22]) := by decide +kernel
  have closing : utf8 "\"\x7d" = [0x22, 0x7D] := by decide
  have body : decryptBody ct = spliced ⟨utf8 "ciphertext", by decide +kernel, ct⟩ [] := by
    rw [decryptBody, opening, closing]
    simp only [spliced, splicedRest, TextField.source, List.cons_append, List.append_assoc,
      List.nil_append]
  have reads := decodeJson_spliced ⟨utf8 "ciphertext", by decide +kernel, ct⟩ [] depth
  rw [body]
  exact reads.trans (List.forall_mem_singleton)

end Bodies

section Release
variable {client : Request → Except Text (Nat × List UInt8)} {base64Error : Text → Text}
  {config : KmsConfig}

theorem postJson_ok {url body : Text} {bearer : Option Text} {status : Nat} {text : Text} :
    postJson client url bearer body = .ok (status, text) ↔
      ∃ bytes, client ⟨url, bearer.map (utf8 "Bearer " ++ ·), body⟩ = .ok (status, bytes) ∧
        utf8 (RustStr.fromUtf8Lossy bytes) = text := by
  rw [postJson]
  cases client ⟨url, bearer.map (utf8 "Bearer " ++ ·), body⟩ with
  | error e => simp
  | ok answer =>
    obtain ⟨status', bytes⟩ := answer
    simp [and_assoc, eq_comm]

theorem exchange_ok {eatToken token : Text} :
    exchangeEatForAccessToken client config eatToken = .ok token ↔ trimStart eatToken ≠ [] ∧
      Answers client ⟨config.stsTokenUrl, none, exchangeBody config.wipAudience eatToken⟩
        (utf8 "access_token") token := by
  unfold exchangeEatForAccessToken
  by_cases blank : trimStart eatToken = []
  · simp [blank]
  rw [if_neg blank, except_bind_ok, ne_eq, and_iff_right blank, Answers]
  constructor
  · rintro ⟨⟨status, text⟩, posted, read⟩
    obtain ⟨bytes, answered, rfl⟩ := postJson_ok.mp posted
    dsimp only at read
    split at read
    · cases read
    rename_i ok
    rw [not_not] at ok
    subst ok
    split at read
    · cases read
    · rename_i found
      cases read
      exact ⟨bytes, answered, found⟩
  · rintro ⟨bytes, answered, found⟩
    refine ⟨(200, _), postJson_ok.mpr ⟨bytes, answered, rfl⟩, ?_⟩
    simp only [ne_eq, not_true_eq_false, if_false, found]

theorem decrypt_ok {accessToken shardCiphertext : Text} {shard : List UInt8} :
    decryptKeyShard client base64Error config accessToken shardCiphertext = .ok shard ↔
      Answers client ⟨decryptUrl config, some (utf8 "Bearer " ++ accessToken),
        decryptBody shardCiphertext⟩ (utf8 "plaintext") (b64encode shard) := by
  rw [decryptKeyShard, except_bind_ok, Answers]
  constructor
  · rintro ⟨⟨status, text⟩, posted, read⟩
    obtain ⟨bytes, answered, rfl⟩ := postJson_ok.mp posted
    dsimp only at read
    split at read
    · cases read
    rename_i ok
    rw [not_not] at ok
    subst ok
    split at read
    · cases read
    rename_i found
    split at read
    · cases read
    · rename_i decoded
      cases read
      exact ⟨bytes, answered, by rw [found, standardDecode_iff.mp decoded]⟩
  · rintro ⟨bytes, answered, found⟩
    refine ⟨(200, _), postJson_ok.mpr ⟨bytes, answered, rfl⟩, ?_⟩
    have decoded : standardDecode (b64encode shard) = some shard := standardDecode_iff.mpr rfl
    simp only [ne_eq, not_true_eq_false, if_false, found, decoded]

theorem released_ok {eatToken shardCiphertext : Text} {shard : List UInt8} :
    releaseEnclaveShard client base64Error config eatToken shardCiphertext = .ok shard ↔
      trimStart eatToken ≠ [] ∧ ∃ token,
        Answers client ⟨config.stsTokenUrl, none, exchangeBody config.wipAudience eatToken⟩
          (utf8 "access_token") token ∧
        Answers client ⟨decryptUrl config, some (utf8 "Bearer " ++ token),
          decryptBody shardCiphertext⟩ (utf8 "plaintext") (b64encode shard) := by
  rw [releaseEnclaveShard, except_bind_ok]
  simp only [exchange_ok, decrypt_ok, and_assoc, exists_and_left]

end Release

section Services

/-- What STS and KMS decide on the members that they read. -/
structure Services where
  grant : List (Text × Value) → Option Text
  decrypt : Text → Text → List (Text × Value) → Option (List UInt8)

/-- An object that spells the value out, or another status than 200. -/
def Replies (client : Request → Except Text (Nat × List UInt8)) (request : Request) (field : Text) :
    Option Text → Prop
  | some value => ∃ bytes object, client request = .ok (200, bytes) ∧
      utf8 (RustStr.fromUtf8Lossy bytes) = FlatObject.source object ∧
      ReadsField object field ∧ object.string field = some value
  | none => ∃ status bytes, client request = .ok (status, bytes) ∧ status ≠ 200

/-- Both services read JSON, within some depth. -/
structure Connects (client : Request → Except Text (Nat × List UInt8)) (config : KmsConfig)
    (services : Services) (depth : Nat) : Prop where
  sts : ∀ body members, decodeJson depth body = .ok (.obj members) →
    Replies client ⟨config.stsTokenUrl, none, body⟩ (utf8 "access_token") (services.grant members)
  kms : ∀ token body members, decodeJson depth body = .ok (.obj members) →
    Replies client ⟨decryptUrl config, some (utf8 "Bearer " ++ token), body⟩ (utf8 "plaintext")
      ((services.decrypt config.cryptoKeyName token members).map b64encode)

variable {client : Request → Except Text (Nat × List UInt8)} {base64Error : Text → Text}
  {config : KmsConfig} {services : Services}

theorem replies_answers {request : Request} {field value : Text} {given : Option Text}
    (replies : Replies client request field given) :
    Answers client request field value ↔ given = some value := by
  cases given with
  | none =>
    obtain ⟨status, bytes, answered, refused⟩ := replies
    refine iff_of_false ?_ (by simp)
    rintro ⟨bytes', granted, _⟩
    rw [answered] at granted
    cases granted
    exact refused rfl
  | some v =>
    obtain ⟨bytes, object, answered, text, reads, string⟩ := replies
    rw [ReadsField, ← text, string] at reads
    rw [Answers]
    constructor
    · rintro ⟨bytes', granted, found⟩
      rw [answered] at granted
      cases granted
      exact reads.symm.trans found
    · intro same
      exact ⟨bytes, answered, reads.trans same⟩

theorem b64encode_inj {a b : List UInt8} (same : b64encode a = b64encode b) : a = b := by
  have read := standardDecode_iff.mpr same
  rw [standardDecode_iff.mpr rfl] at read
  exact Option.some.inj read

section Sample

def sampleConfig : KmsConfig where
  cryptoKeyName := utf8 "projects/p/locations/global/keyRings/r/cryptoKeys/k"
  wipAudience := utf8 "//iam.googleapis.com/projects/1/providers/p"
  kmsBaseUrl := utf8 "https://cloudkms.googleapis.com/"
  stsTokenUrl := utf8 "https://sts.googleapis.com/v1/token"

def sampleServices : Services where
  grant _ := some (utf8 "abc123")
  decrypt _ _ _ := some (utf8 "secret")

def sampleAnswer (request : Request) : Except Text (Nat × List UInt8) :=
  .ok (200, if request.authorization = none then utf8 "\x7b\"access_token\":\"abc123\"\x7d"
    else utf8 "\x7b\"plaintext\":\"c2VjcmV0\"\x7d")

theorem sample_connects : Connects sampleAnswer sampleConfig sampleServices 1 := by
  constructor
  · intro body members _
    exact ⟨utf8 "\x7b\"access_token\":\"abc123\"\x7d",
      textObject [textMember "access_token" "abc123" 0], rfl, by decide +kernel,
      (show jsonStrField _ _ = _ by decide +kernel), by decide +kernel⟩
  · intro token body members _
    exact ⟨utf8 "\x7b\"plaintext\":\"c2VjcmV0\"\x7d",
      textObject [textMember "plaintext" "c2VjcmV0" 0], rfl, by decide +kernel,
      (show jsonStrField _ _ = _ by decide +kernel), by decide +kernel⟩

end Sample

end Services

end Kms
