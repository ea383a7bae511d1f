import VerifiableRag.Jwt.JwtParser

/-!
`AttestationEngine.parse_token` of `attestation.py`: the attestation-specific checks
on top of the JWT layer.
-/
namespace Jwt
open Bytes Json Float64 Results

/-- What the interpreter supplies to a call: `time.time()`, what is left of the recursion
    limit, and `str()` of a value that is no string. -/
structure Interpreter where
  now : F64
  depth : Nat
  repr : Value → Text

namespace Interpreter

def str (py : Interpreter) : Value → Text
  | .str s => s
  | v => py.repr v

def asStrList (py : Interpreter) : Value → List Text
  | .str s => [s]
  | .arr items => items.map py.str
  | _ => []

end Interpreter

def expectedSwname : Text := utf8 "CONFIDENTIAL_SPACE"

def oidcIssuer : Text := utf8 "https://confidentialcomputing.googleapis.com"

/-- `CLOCK_SKEW_S`. -/
def clockSkew : F64 := ofRat 5

def isLowerHex (c : UInt8) : Bool := (0x30 ≤ c ∧ c ≤ 0x39) ∨ (0x61 ≤ c ∧ c ≤ 0x66)

/-- `^sha256:[0-9a-f]{64}$`; the `$` also matches before a final newline. -/
def imageDigestRe (s : Text) : Bool :=
  (utf8 "sha256:").isPrefixOf s && ((s.drop 7).take 64).length == 64 &&
    ((s.drop 7).take 64).all isLowerHex && (s.drop 71 == [] || s.drop 71 == [0x0A])

/-- Microseconds since the epoch of a `datetime` in UTC. -/
abbrev Instant := ℤ

/-- The years 1 to 9999. -/
def inYears (t : Instant) : Bool := -62135596800 ≤ t / 1000000 ∧ t / 1000000 ≤ 253402300799

/-- `datetime.fromtimestamp(value, tz=timezone.utc)`; `none` where it raises. -/
def fromTimestamp (v : Value) : Option Instant :=
  match v with
  | .int n => if inYears (n * 1000000) then some (n * 1000000) else none
  | .float (.finite q _) =>
    let whole : ℤ := if 0 ≤ q then q.floor else q.ceil
    match ofRat ((q - whole) * 1000000) with
    | .finite micros _ =>
      let t := whole * 1000000 + roundEven micros
      if inYears t then some t else none
    | _ => none
  | _ => none

inductive TokenFault where
  | jwt (error : JwtError)
  /-- token missing or malformed image_digest claim
      (submods.container.image_digest expected sha256:<64 hex>) -/
  | imageDigest
  /-- token nonce mismatch: none of the requested nonces were echoed in eat_nonce
      (anti-replay check failed) -/
  | nonce

inductive TokenError where
  /-- `AttestationTokenError` -/
  | token (fault : TokenFault)
  /-- `UntrustedEnvironmentError`: swname claim is {swname!r}, expected 'CONFIDENTIAL_SPACE' -/
  | untrustedEnvironment (swname : Option Text)
  /-- The exceptions of `json.loads` that the JWT layer lets through. -/
  | valueError
  | recursionError
  /-- `OverflowError`, `ValueError` or `OSError` of `fromtimestamp`. -/
  | timestamp

structure AttestationToken where
  rawToken : Text
  claims : Claims
  swname : Text
  swversion : List Text
  hwmodel : Value
  imageDigest : Text
  instanceId : Option Text
  dbgstat : Value
  attesterTcb : List Text
  googleServiceAccounts : List Text
  issuer : Text
  audience : Value
  sub : Option Text
  issuedAt : Option Instant
  expiresAt : Option Instant
  eatNonce : Value

/-- The `try` around the JWT layer. -/
def wrapJwt {α : Type} : Except Raised α → Except TokenError α
  | .ok a => .ok a
  | .error (.jwt e) => .error (.token (.jwt e))
  | .error .valueError => .error .valueError
  | .error .recursionError => .error .recursionError

theorem wrapJwt_ok {α : Type} {x : Except Raised α} {a : α} : wrapJwt x = .ok a ↔ x = .ok a := by
  match x with
  | .ok b => simp [wrapJwt]
  | .error (.jwt e) => simp [wrapJwt]
  | .error .valueError => simp [wrapJwt]
  | .error .recursionError => simp [wrapJwt]

def checkNonces (echoed : List Text) : Option (List Text) → Except TokenError Unit
  | none | some [] => .ok ()
  | some expected =>
    if echoed.any (expected.contains ·) then .ok () else .error (.token .nonce)

/-- `_ts`. -/
def timestamp (v : Value) : Except TokenError (Option Instant) :=
  match v with
  | .int _ | .float _ =>
    match fromTimestamp v with
    | some t => .ok (some t)
    | none => .error .timestamp
  | _ => .ok none

def oidcChecks (expectedAudience : Option Text) : OidcChecks where
  expectedIssuer := some oidcIssuer
  expectedAudience := expectedAudience
  clockSkew := clockSkew
  requireSub := false
  requireIat := false

/-- The claims that pass the JWT layer, and the identity claims among them. -/
def readClaims (py : Interpreter) (rawToken : Text) (expectedAudience : Option Text) :
    Except Raised (Claims × Extracted) := do
  let (_, claims) ← decodeJwt py.depth rawToken
  let claims ← validateOidcClaims claims (oidcChecks expectedAudience) py.now
  let extracted ← extractAttestationClaims claims
  return (claims, extracted)

def parseToken (py : Interpreter) (rawToken : Text) (expectedAudience : Option Text)
    (expectedNonces : Option (List Text)) : Except TokenError AttestationToken := do
  let (claims, extracted) ← wrapJwt (readClaims py rawToken expectedAudience)
  if extracted.swname ≠ some expectedSwname then
    .error (.untrustedEnvironment extracted.swname)
  else match extracted.imageDigest with
    | none => .error (.token .imageDigest)
    | some imageDigest =>
      if imageDigestRe imageDigest then
        checkNonces (py.asStrList (claims.get "eat_nonce")) expectedNonces
        let issuedAt ← timestamp (claims.get "iat")
        let expiresAt ← timestamp (claims.get "exp")
        return {
          rawToken := PyStr.strip rawToken
          claims := claims
          swname := expectedSwname
          swversion := py.asStrList (claims.get "swversion")
          hwmodel := claims.get "hwmodel"
          imageDigest := imageDigest
          instanceId := extracted.instanceId
          dbgstat := claims.get "dbgstat"
          attesterTcb := py.asStrList (claims.get "attester_tcb")
          googleServiceAccounts := py.asStrList (claims.get "google_service_accounts")
          issuer := ((lookup claims (utf8 "iss")).map py.str).getD []
          audience := claims.get "aud"
          sub := extracted.sub
          issuedAt := issuedAt
          expiresAt := expiresAt
          eatNonce := claims.get "eat_nonce" }
      else .error (.token .imageDigest)

section Accepted
variable {py : Interpreter} {token : Text} {audience : Option Text} {nonces : Option (List Text)}

/-- What `parse_token` accepts has passed every check. -/
theorem parseToken_ok {att : AttestationToken} (ok : parseToken py token audience nonces = .ok att) :
    att.rawToken = PyStr.strip token ∧ ∃ header claims extracted,
      decodeJwt py.depth token = .ok (header, claims) ∧
      validateOidcClaims claims (oidcChecks audience) py.now = .ok claims ∧
      extractAttestationClaims claims = .ok extracted ∧ extracted.swname = some expectedSwname ∧
      extracted.imageDigest = some att.imageDigest ∧ imageDigestRe att.imageDigest = true ∧
      checkNonces (py.asStrList (claims.get "eat_nonce")) nonces = .ok () ∧
      timestamp (claims.get "iat") = .ok att.issuedAt ∧
      timestamp (claims.get "exp") = .ok att.expiresAt := by
  simp only [parseToken, except_bind_ok, wrapJwt_ok, readClaims] at ok
  obtain ⟨⟨claims, extracted⟩, ⟨⟨header, claims'⟩, decoded, claims'', validated, extracted', read,
    same⟩, ok⟩ := ok
  cases same
  have unchanged : claims' = claims := (validateOidcClaims_iff.mp validated).2.2.2.2.2.2
  subst unchanged
  split at ok
  · cases ok
  next swname =>
    split at ok
    · cases ok
    next imageDigest image =>
      split at ok
      next form =>
        simp only [except_bind_ok] at ok
        obtain ⟨_, echo, issuedAt, issued, expiresAt, expires, same⟩ := ok
        cases same
        exact ⟨rfl, header, claims', extracted, decoded, validated, read, not_not.mp swname, image,
          form, echo, issued, expires⟩
      next => cases ok

theorem years_checked {s t : Instant} (read : (if inYears s then some s else none) = some t) :
    inYears t = true := by
  split at read
  next ok => exact Option.some.inj read ▸ ok
  next => cases read

theorem fromTimestamp_inYears {v : Value} {t : Instant} (read : fromTimestamp v = some t) :
    inYears t = true := by
  unfold fromTimestamp at read
  split at read
  · exact years_checked read
  next q _ =>
    dsimp only at read
    generalize (if 0 ≤ q then q.floor else q.ceil) = whole at read
    split at read
    · exact years_checked read
    · cases read
  · cases read

theorem timestamp_inYears {v : Value} {t : Instant} (read : timestamp v = .ok (some t)) :
    inYears t = true := by
  unfold timestamp at read
  split at read <;> try split at read
  all_goals cases read
  all_goals exact fromTimestamp_inYears ‹_›

theorem parseToken_expires {att : AttestationToken} {expires : Instant}
    (ok : parseToken py token audience nonces = .ok att) (expiry : att.expiresAt = some expires) :
    inYears expires = true := by
  obtain ⟨_, _, claims, _, _, _, _, _, _, _, _, _, read⟩ := parseToken_ok ok
  exact timestamp_inYears (expiry ▸ read)

end Accepted

end Jwt
