import VerifiableRag.Library.Base64
import VerifiableRag.Library.Json
import VerifiableRag.Library.PyStr
import VerifiableRag.Library.Results

/-!
`jwt_parser.py`: decoding a JWT and validating its OIDC claims.
-/
namespace Jwt
open Bytes Json Float64 Results

abbrev Claims := List (Text × Value)

/-- `claims.get(name)`; Python's `None` is the JSON null. -/
def Claims.get (claims : Claims) (name : String) : Value :=
  (lookup claims (utf8 name)).getD .null

/-- The messages of the parser, each with the value that it shows. -/
inductive JwtParseError where
  | emptySegment
  | base64Url
  | emptyToken
  | segments (count : Nat)
  | json
  | notObjects
  | alg
  | typ (typ : Value)

/-- The messages of the claim checks, each with the values that it shows. -/
inductive JwtValidationError where
  | notString (name : String) (value : Value)
  | missing (name : String)
  | notNumericDate (name : String) (value : Value)
  | expired (exp : Value) (now : F64)
  | issuedInFuture (iat : Value) (now skew : F64)
  | notYetValid (nbf : Value) (now skew : F64)
  | issuer (issuer : Value) (expected : Text)
  | audience (expected : Text) (aud : Value)
  | azpRequired
  | azp (azp : Value) (expected : Text)
  | audienceType (aud : Value)
  | audienceEmpty
  | wipMember (member : Text)
  | wipExpected (expected : Text)

inductive JwtError where
  | parse (error : JwtParseError)
  | validation (error : JwtValidationError)

/-- What these functions raise: their typed errors, and what `json.loads` lets through. -/
inductive Raised where
  | jwt (error : JwtError)
  | valueError
  | recursionError

def parseError {α : Type} (e : JwtParseError) : Except Raised α := .error (.jwt (.parse e))

def invalid {α : Type} (e : JwtValidationError) : Except Raised α := .error (.jwt (.validation e))

section Decoding

def decodeBase64Url (segment : Text) : Except Raised (List UInt8) :=
  if segment = [] then parseError .emptySegment
  else
    let padded := segment ++ List.replicate ((4 - segment.length % 4) % 4) 0x3D
    if padded.all (· < 0x80) then
      match Base64.b64decodeUrl padded with
      | some bytes => .ok bytes
      | none => parseError .base64Url
    else parseError .base64Url

/-- `json.loads` as `decode_jwt` handles its exceptions. -/
def loadSegment (depth : Nat) (segment : Text) : Except Raised Value := do
  let bytes ← decodeBase64Url segment
  match loads depth bytes with
  | .ok value => return value
  | .error .unicode | .error .decode => parseError .json
  | .error .digits => .error .valueError
  | .error .recursion => .error .recursionError

def isString (v : Value) (s : Text) : Bool :=
  match v with
  | .str t => t = s
  | _ => false

/-- Only ASCII letters have the letters of `none` as lower case. -/
def validAlg : Value → Bool
  | .str alg => PyStr.asciiLower alg ≠ utf8 "none"
  | _ => false

def validTyp : Value → Bool
  | .null => true
  | .str typ => PyStr.asciiUpper typ = utf8 "JWT"
  | _ => false

def decodeJwt (depth : Nat) (token : Text) : Except Raised (Claims × Claims) :=
  let stripped := PyStr.strip token
  if stripped = [] then parseError .emptyToken
  else match PyStr.split 0x2E stripped with
    | [first, second, _] => do
      let header ← loadSegment depth first
      let claims ← loadSegment depth second
      match header, claims with
      | .obj header, .obj claims =>
        if validAlg (Claims.get header "alg") then
          if validTyp (Claims.get header "typ") then return (header, claims)
          else parseError (.typ (Claims.get header "typ"))
        else parseError .alg
      | _, _ => parseError .notObjects
    | parts => parseError (.segments parts.length)

end Decoding

section Extraction

def descend (current : Value) (part : Text) : Value :=
  match current with
  | .obj members => (lookup members part).getD .null
  | _ => .null

def getNestedClaim (claims : Claims) (path : String) : Value :=
  (PyStr.split 0x2E (utf8 path)).foldl descend (.obj claims)

/-- The claims of `extract_attestation_claims`; an absent one is `none`. -/
structure Extracted where
  sub : Option Text
  aud : Value
  swname : Option Text
  imageDigest : Option Text
  instanceId : Option Text

def optionalString (name : String) : Value → Except Raised (Option Text)
  | .null => .ok none
  | .str s => .ok (some s)
  | v => invalid (.notString name v)

def extractAttestationClaims (claims : Claims) : Except Raised Extracted := do
  let sub ← optionalString "sub" (claims.get "sub")
  let swname ← optionalString "swname" (claims.get "swname")
  let imageDigest ← optionalString "image_digest"
    (getNestedClaim claims "submods.container.image_digest")
  let instanceId ← optionalString "instance_id" (getNestedClaim claims "submods.gce.instance_id")
  return { sub, aud := claims.get "aud", swname, imageDigest, instanceId }

end Extraction

section Validation

def audienceContains (aud : Value) (expected : Text) : Bool :=
  match aud with
  | .str s => s = expected
  | .arr items =>
    items.all (fun v => match v with | .str _ => true | _ => false) && items.any (isString · expected)
  | _ => false

/-- A number as Python compares it with a float: exactly. -/
def numberLe (v : Value) (x : F64) : Bool :=
  match v, x with
  | .int n, .finite q _ => (n : ℚ) ≤ q
  | .int _, .infinite negative => !negative
  | .float y, x => y.le x
  | _, _ => false

def numberLt (x : F64) (v : Value) : Bool :=
  match v, x with
  | .int n, .finite q _ => q < (n : ℚ)
  | .int _, .infinite negative => negative
  | .float y, x => x.lt y
  | _, _ => false

def validateNumericDate (claims : Claims) (name : String) (required : Bool) :
    Except Raised (Option Value) :=
  match claims.get name with
  | .null => if required then invalid (.missing name) else .ok none
  | .int n => .ok (some (.int n))
  | .float x => .ok (some (.float x))
  | v => invalid (.notNumericDate name v)

def validateExpiration (claims : Claims) (skew now : F64) : Except Raised Value := do
  match ← validateNumericDate claims "exp" true with
  | some exp => if numberLe exp (now.sub skew) then invalid (.expired exp now) else return exp
  | none => invalid (.missing "exp")

structure OidcChecks where
  expectedIssuer : Option Text
  expectedAudience : Option Text
  clockSkew : F64
  requireSub : Bool
  requireIat : Bool

def checkIssuer (claims : Claims) : Option Text → Except Raised Unit
  | none => .ok ()
  | some expected =>
    if isString (claims.get "iss") expected then .ok ()
    else invalid (.issuer (claims.get "iss") expected)

def checkSub (claims : Claims) (required : Bool) : Except Raised Unit :=
  if required then
    match claims.get "sub" with
    | .str (_ :: _) => .ok ()
    | _ => invalid (.missing "sub")
  else .ok ()

/-- Several audiences need `azp`; with a single string it must match where present. -/
def checkAudience (claims : Claims) : Option Text → Except Raised Unit
  | none => .ok ()
  | some expected =>
    if audienceContains (claims.get "aud") expected then
      match claims.get "aud", claims.get "azp" with
      | .arr (_ :: _ :: _), .null => invalid .azpRequired
      | .str _, .null => .ok ()
      | .arr (_ :: _ :: _), azp | .str _, azp =>
        if isString azp expected then .ok () else invalid (.azp azp expected)
      | _, _ => .ok ()
    else invalid (.audience expected (claims.get "aud"))

def checkPast (claims : Claims) (name : String) (required : Bool) (limit : F64)
    (fault : Value → JwtValidationError) : Except Raised Unit := do
  match ← validateNumericDate claims name required with
  | some date => if numberLt limit date then invalid (fault date) else return ()
  | none => return ()

def checkIat (claims : Claims) (checks : OidcChecks) (now : F64) : Except Raised Unit :=
  checkPast claims "iat" checks.requireIat (now.add checks.clockSkew)
    (.issuedInFuture · now checks.clockSkew)

def checkNbf (claims : Claims) (checks : OidcChecks) (now : F64) : Except Raised Unit :=
  checkPast claims "nbf" false (now.add checks.clockSkew) (.notYetValid · now checks.clockSkew)

/-- `validate_oidc_claims` without `require_wip_audience`. -/
def validateOidcClaims (claims : Claims) (checks : OidcChecks) (now : F64) :
    Except Raised Claims := do
  checkIssuer claims checks.expectedIssuer
  checkSub claims checks.requireSub
  checkAudience claims checks.expectedAudience
  let _ ← validateExpiration claims checks.clockSkew now
  checkIat claims checks now
  checkNbf claims checks now
  return claims

theorem validateOidcClaims_iff {claims claims' : Claims} {checks : OidcChecks} {now : F64} :
    validateOidcClaims claims checks now = .ok claims' ↔
      checkIssuer claims checks.expectedIssuer = .ok () ∧
        checkSub claims checks.requireSub = .ok () ∧
        checkAudience claims checks.expectedAudience = .ok () ∧
        (∃ date, validateExpiration claims checks.clockSkew now = .ok date) ∧
        checkIat claims checks now = .ok () ∧ checkNbf claims checks now = .ok () ∧
        claims = claims' := by
  simp only [validateOidcClaims, except_bind_ok]
  constructor
  · rintro ⟨_, issuer, _, sub, _, audience, date, exp, _, iat, _, nbf, same⟩
    exact ⟨issuer, sub, audience, ⟨date, exp⟩, iat, nbf, Except.ok.inj same⟩
  · rintro ⟨issuer, sub, audience, ⟨date, exp⟩, iat, nbf, rfl⟩
    exact ⟨_, issuer, _, sub, _, audience, date, exp, _, iat, _, nbf, rfl⟩

end Validation

end Jwt
