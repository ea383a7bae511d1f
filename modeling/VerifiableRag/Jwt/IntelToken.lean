import VerifiableRag.Jwt.Attestation

/-!
`AttestationEngine.parse_intel_token` of `attestation.py`: the token of the Intel Trust
Authority, the second verifier on TDX hardware.
-/
namespace Jwt
open Bytes Json Float64

def itaOidcIssuer : Text := utf8 "https://portal.trustauthority.intel.com"

def expectedTdxHwmodel : Text := utf8 "GCP_INTEL_TDX"

def expectedTdxTcb : List Text := [utf8 "INTEL"]

/-- `bool(value)`. -/
def truthy : Value → Bool
  | .null => false
  | .bool b => b
  | .int n => n ≠ 0
  | .float (.finite q _) => q ≠ 0
  | .float _ => true
  | .str s => s ≠ []
  | .arr items => !items.isEmpty
  | .obj members => !members.isEmpty

def orElse (first second : Value) : Value := if truthy first then first else second

inductive IntelFault where
  | jwt (error : JwtError)
  /-- ITA token hwmodel is {hwmodel!r}, expected 'GCP_INTEL_TDX' — an ITA token must attest
      Intel TDX -/
  | hwmodel (hwmodel : Value)
  /-- ITA token attester_tcb is {tcb!r}, expected it to include ('INTEL',) (Intel hardware
      root of trust) -/
  | tcb (tcb : List Text)
  /-- ITA token nonce mismatch: none of the requested nonces were echoed (anti-replay check
      failed) -/
  | nonce

inductive IntelError where
  /-- `AttestationTokenError` -/
  | token (fault : IntelFault)
  /-- `UntrustedEnvironmentError`: ITA token swname is {swname!r}, expected
      'CONFIDENTIAL_SPACE' — not an attested Confidential Space (RIM failed?) -/
  | untrustedEnvironment (swname : Value)
  | valueError
  | recursionError
  | timestamp

structure IntelAttestationToken where
  rawToken : Text
  claims : Claims
  swname : Text
  hwmodel : Value
  attesterTcb : List Text
  issuer : Text
  audience : Value
  sub : Value
  issuedAt : Option Instant
  expiresAt : Option Instant
  eatNonce : Value
  tdxQuote : Value
  policyIdsMatched : List Text
  policyIdsUnmatched : List Text
  container : Value

/-- The `try` around the JWT layer. -/
def wrapJwtIntel {α : Type} : Except Raised α → Except IntelError α
  | .ok a => .ok a
  | .error (.jwt e) => .error (.token (.jwt e))
  | .error .valueError => .error .valueError
  | .error .recursionError => .error .recursionError

theorem wrapJwtIntel_ok {α : Type} {x : Except Raised α} {a : α} :
    wrapJwtIntel x = .ok a ↔ x = .ok a := by
  match x with
  | .ok b => simp [wrapJwtIntel]
  | .error (.jwt e) => simp [wrapJwtIntel]
  | .error .valueError => simp [wrapJwtIntel]
  | .error .recursionError => simp [wrapJwtIntel]

/-- `_id_list`: the identifiers of a list of policies. -/
def idList (py : Interpreter) : Value → List Text
  | .arr items => items.map fun item =>
    match item with
    | .obj members => py.str ((lookup members (utf8 "id")).getD item)
    | _ => py.str item
  | _ => []

def intelChecks (expectedAudience : Option Text) : OidcChecks :=
  { oidcChecks expectedAudience with expectedIssuer := some itaOidcIssuer }

def readIntelClaims (py : Interpreter) (rawToken : Text) (expectedAudience : Option Text) :
    Except Raised Claims := do
  let (_, claims) ← decodeJwt py.depth rawToken
  validateOidcClaims claims (intelChecks expectedAudience) py.now

/-- The nonces that a token echoes, also under the launcher's alias. -/
def intelEcho (py : Interpreter) (claims : Claims) : List Text :=
  py.asStrList (orElse (claims.get "eat_nonce") (claims.get "nonce"))

def parseIntelToken (py : Interpreter) (rawToken : Text) (expectedAudience : Option Text)
    (expectedNonces : Option (List Text)) : Except IntelError IntelAttestationToken := do
  let claims ← wrapJwtIntel (readIntelClaims py rawToken expectedAudience)
  if isString (claims.get "swname") expectedSwname then
    if isString (claims.get "hwmodel") expectedTdxHwmodel then
      let tcb := py.asStrList (claims.get "attester_tcb")
      if tcb.any (expectedTdxTcb.contains ·) then
        (checkNonces (intelEcho py claims) expectedNonces).mapError fun _ => .token .nonce
        let issuedAt ← (timestamp (claims.get "iat")).mapError fun _ => .timestamp
        let expiresAt ← (timestamp (claims.get "exp")).mapError fun _ => .timestamp
        return {
          rawToken := PyStr.strip rawToken
          claims := claims
          swname := expectedSwname
          hwmodel := claims.get "hwmodel"
          attesterTcb := tcb
          issuer := ((lookup claims (utf8 "iss")).map py.str).getD []
          audience := claims.get "aud"
          sub := claims.get "sub"
          issuedAt := issuedAt
          expiresAt := expiresAt
          eatNonce := orElse (claims.get "eat_nonce") (claims.get "nonce")
          tdxQuote := orElse (claims.get "tdx") (claims.get "tdquote")
          policyIdsMatched := idList py (claims.get "policy_ids_matched")
          policyIdsUnmatched := idList py (claims.get "policy_ids_unmatched")
          container := claims.get "container" }
      else .error (.token (.tcb tcb))
    else .error (.token (.hwmodel (claims.get "hwmodel")))
  else .error (.untrustedEnvironment (claims.get "swname"))

end Jwt
