import VerifiableRag.Jwt.JwtParser

/-!
The audience of a Workload Identity Pool provider, and `validate_oidc_claims` with all of its
parameters.
-/
namespace Jwt
open Bytes Json Float64 Results

section Recogniser

/-- `[a-z0-9-]` -/
def isIdChar (c : UInt8) : Bool := (0x61 ≤ c ∧ c ≤ 0x7A) ∨ (0x30 ≤ c ∧ c ≤ 0x39) ∨ c = 0x2D

def matchLiteral (literal s : Text) : Option Text :=
  if literal.isPrefixOf s then some (s.drop literal.length) else none

/-- `\d+`; no digit can start what follows it in the pattern. -/
def matchDigits (s : Text) : Option Text :=
  let rest := PyStr.dropForms PyStr.decimals 0 s
  if rest.length < s.length then some rest else none

/-- `(?!gcp-)[a-z0-9-]{4,32}`; no character of the class can start what follows it. -/
def matchId (s : Text) : Option Text :=
  let size := (s.takeWhile isIdChar).length
  if (utf8 "gcp-").isPrefixOf s then none
  else if 4 ≤ size ∧ size ≤ 32 then some (s.drop size)
  else none

def matchWipPath (s : Text) : Option Text := do
  let s ← matchLiteral (utf8 "//iam.googleapis.com/projects/") s
  let s ← matchDigits s
  let s ← matchLiteral (utf8 "/locations/global/workloadIdentityPools/") s
  let s ← matchId s
  let s ← matchLiteral (utf8 "/providers/") s
  matchId s

/-- `_WIP_AUDIENCE_RE`; the `$` also matches before a final newline. -/
def wipAudienceRe (s : Text) : Bool :=
  match matchWipPath ((matchLiteral (utf8 "https:") s).getD s) with
  | some rest => rest = [] ∨ rest = [0x0A]
  | none => false

def isWipAudience : Value → Bool
  | .str s => wipAudienceRe s
  | _ => false

example : isWipAudience (.str (utf8 <| "//iam.googleapis.com/projects/1234567890/locations/global/" ++
    "workloadIdentityPools/flare-pool/providers/attestation")) := by
  decide +kernel

end Recogniser

section Validation

def asString : Value → Option Text
  | .str s => some s
  | _ => none

def audiences : Value → Option (List Text)
  | .str s => some [s]
  | .arr items => items.mapM asString
  | _ => none

/-- Several members need `azp`, and the pinned audience where there is one. -/
def checkWipAzp (claims : Claims) (expectedAudience : Option Text) : Except Raised Unit :=
  match claims.get "azp", expectedAudience with
  | .null, _ => invalid .azpRequired
  | azp, some expected =>
    if isString azp expected then .ok () else invalid (.azp azp expected)
  | _, none => .ok ()

def checkWipExpected (claims : Claims) : Option Text → Except Raised Unit
  | none => .ok ()
  | some expected =>
    if wipAudienceRe expected then
      if audienceContains (claims.get "aud") expected then .ok ()
      else invalid (.audience expected (claims.get "aud"))
    else invalid (.wipExpected expected)

def validateWipAudience (claims : Claims) (expectedAudience : Option Text) : Except Raised Unit :=
  match claims.get "aud", audiences (claims.get "aud") with
  | .null, _ => invalid (.missing "aud")
  | aud, none => invalid (.audienceType aud)
  | _, some [] => invalid .audienceEmpty
  | _, some (first :: others) =>
    match (first :: others).find? (!wipAudienceRe ·) with
    | some member => invalid (.wipMember member)
    | none => do
      if others ≠ [] then checkWipAzp claims expectedAudience
      checkWipExpected claims expectedAudience

structure AllChecks extends OidcChecks where
  requireWipAudience : Bool

def checkWip (claims : Claims) (checks : AllChecks) : Except Raised Unit :=
  if checks.requireWipAudience then validateWipAudience claims checks.expectedAudience else .ok ()

/-- `validate_oidc_claims`; `now` is the given clock value or `time.time()`. -/
def validateAllClaims (claims : Claims) (checks : AllChecks) (now : F64) :
    Except Raised Claims := do
  checkIssuer claims checks.expectedIssuer
  checkSub claims checks.requireSub
  checkAudience claims checks.expectedAudience
  checkWip claims checks
  let _ ← validateExpiration claims checks.clockSkew now
  checkIat claims checks.toOidcChecks now
  checkNbf claims checks.toOidcChecks now
  return claims

/-- `decode_and_validate`: header and claims. -/
def decodeAndValidate (depth : Nat) (token : Text) (checks : AllChecks) (now : F64) :
    Except Raised (Claims × Claims) := do
  let (header, claims) ← decodeJwt depth token
  let validated ← validateAllClaims claims checks now
  return (header, validated)

/-- Without the flag the pool is not looked at. -/
theorem validateAllClaims_plain {claims : Claims} {checks : AllChecks} {now : F64}
    (plain : checks.requireWipAudience = false) :
    validateAllClaims claims checks now = validateOidcClaims claims checks.toOidcChecks now := by
  have passed : checkWip claims checks = .ok () := by simp [checkWip, plain]
  rw [validateAllClaims, passed]
  rfl

end Validation

end Jwt
