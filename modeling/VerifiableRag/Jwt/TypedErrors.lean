import VerifiableRag.Jwt.IntelToken
import VerifiableRag.Jwt.TimeClaims

/-!
Which exceptions `parse_token` and `parse_intel_token` let out.
-/
namespace Jwt
open Bytes Json Float64 Results

/-- A `JwtError`. -/
def Raised.Typed : Raised → Prop
  | .jwt _ => True
  | .valueError | .recursionError => False

/-- A subclass of `AttestationError`. -/
def TokenError.Typed : TokenError → Prop
  | .token _ | .untrustedEnvironment _ => True
  | .valueError | .recursionError | .timestamp => False

def IntelError.Typed : IntelError → Prop
  | .token _ | .untrustedEnvironment _ => True
  | .valueError | .recursionError | .timestamp => False

instance : DecidablePred TokenError.Typed
  | .token _ | .untrustedEnvironment _ => isTrue trivial
  | .valueError | .recursionError | .timestamp => isFalse id

section Decoding

theorem raises_parseError {α : Type} {e : JwtParseError} :
    Raises Raised.Typed (parseError e : Except Raised α) :=
  raises_error.mpr trivial

theorem raises_invalid {α : Type} {e : JwtValidationError} :
    Raises Raised.Typed (invalid e : Except Raised α) :=
  raises_error.mpr trivial

theorem raises_decodeBase64Url (segment : Text) : Raises Raised.Typed (decodeBase64Url segment) := by
  rw [decodeBase64Url]
  split
  · exact raises_parseError
  dsimp only
  split
  · split
    · exact raises_ok
    · exact raises_parseError
  · exact raises_parseError

/-- `json.loads` of a segment raises what no handler names: an integer literal over the digit
    limit, or nesting over the recursion limit. -/
def Bursts (depth : Nat) (segment : Text) : Prop :=
  ∃ bytes, decodeBase64Url segment = .ok bytes ∧
    (loads depth bytes = .error .digits ∨ loads depth bytes = .error .recursion)

theorem raises_loadSegment {depth : Nat} {segment : Text} :
    Raises Raised.Typed (loadSegment depth segment) ↔ ¬ Bursts depth segment := by
  rw [loadSegment, raises_bind]
  constructor
  · intro h burst
    obtain ⟨bytes, decoded, cause⟩ := burst
    have typed := h.2 bytes decoded
    rcases cause with digits | recursion
    · rw [digits] at typed
      exact raises_error.mp typed
    · rw [recursion] at typed
      exact raises_error.mp typed
  · intro calm
    refine ⟨raises_decodeBase64Url segment, ?_⟩
    intro bytes decoded
    cases read : loads depth bytes with
    | ok value => exact raises_ok
    | error e =>
      cases e with
      | unicode | decode => exact raises_parseError
      | digits => exact absurd ⟨bytes, decoded, Or.inl read⟩ calm
      | recursion => exact absurd ⟨bytes, decoded, Or.inr read⟩ calm

/-- The payload is read only behind a header that is. -/
def LoadsTyped (depth : Nat) (token : Text) : Prop :=
  ∀ first second third, PyStr.split 0x2E (PyStr.strip token) = [first, second, third] →
    ¬ Bursts depth first ∧
      ∀ header, loadSegment depth first = .ok header → ¬ Bursts depth second

theorem raises_decodeJwt {depth : Nat} {token : Text} :
    Raises Raised.Typed (decodeJwt depth token) ↔ LoadsTyped depth token := by
  simp only [decodeJwt]
  split
  · rename_i empty
    refine iff_of_true raises_parseError ?_
    intro first second third split
    rw [empty] at split
    cases split
  split
  · rename_i first second third split
    simp only [raises_bind, raises_loadSegment]
    constructor
    · intro h first' second' third' split'
      rw [split] at split'
      cases split'
      exact ⟨h.1, fun header read => (h.2 header read).1⟩
    · intro typed
      obtain ⟨calm, later⟩ := typed first second third split
      refine ⟨calm, fun header read => ⟨later header read, ?_⟩⟩
      intro claims _
      split
      · split
        · split
          · exact raises_ok
          · exact raises_parseError
        · exact raises_parseError
      · exact raises_parseError
  · rename_i other
    refine iff_of_true raises_parseError ?_
    intro first second third split
    exact absurd split (other first second third)

end Decoding

section Claims
variable {claims : Claims}

theorem raises_validateNumericDate (name : String) (required : Bool) :
    Raises Raised.Typed (validateNumericDate claims name required) := by
  rw [validateNumericDate]
  split
  · split
    · exact raises_invalid
    · exact raises_ok
  · exact raises_ok
  · exact raises_ok
  · exact raises_invalid

theorem raises_checkPast (name : String) (required : Bool) (limit : F64)
    (fault : Value → JwtValidationError) :
    Raises Raised.Typed (checkPast claims name required limit fault) := by
  rw [checkPast, raises_bind]
  refine ⟨raises_validateNumericDate name required, ?_⟩
  intro date _
  split
  · split
    · exact raises_invalid
    · exact raises_ok
  · exact raises_ok

theorem raises_validateExpiration (skew now : F64) :
    Raises Raised.Typed (validateExpiration claims skew now) := by
  rw [validateExpiration, raises_bind]
  refine ⟨raises_validateNumericDate "exp" true, ?_⟩
  intro date _
  split
  · split
    · exact raises_invalid
    · exact raises_ok
  · exact raises_invalid

theorem raises_checkIssuer (expected : Option Text) :
    Raises Raised.Typed (checkIssuer claims expected) := by
  cases expected with
  | none => exact raises_ok
  | some expected =>
    rw [checkIssuer]
    split
    · exact raises_ok
    · exact raises_invalid

theorem raises_checkSub (required : Bool) : Raises Raised.Typed (checkSub claims required) := by
  rw [checkSub]
  split
  · split
    · exact raises_ok
    · exact raises_invalid
  · exact raises_ok

theorem raises_checkAudience (expected : Option Text) :
    Raises Raised.Typed (checkAudience claims expected) := by
  cases expected with
  | none => exact raises_ok
  | some expected =>
    rw [checkAudience]
    split
    · split
      · exact raises_invalid
      · exact raises_ok
      · split
        · exact raises_ok
        · exact raises_invalid
      · split
        · exact raises_ok
        · exact raises_invalid
      · exact raises_ok
    · exact raises_invalid

/-- The claims are only refused in the JWT layer's own words. -/
theorem raises_validateOidcClaims (checks : OidcChecks) (now : F64) :
    Raises Raised.Typed (validateOidcClaims claims checks now) := by
  simp only [validateOidcClaims, raises_bind]
  exact ⟨raises_checkIssuer _, fun _ _ => ⟨raises_checkSub _, fun _ _ => ⟨raises_checkAudience _,
    fun _ _ => ⟨raises_validateExpiration _ _, fun _ _ => ⟨raises_checkPast _ _ _ _,
      fun _ _ => ⟨raises_checkPast _ _ _ _, fun _ _ => raises_ok⟩⟩⟩⟩⟩⟩

theorem raises_optionalString (name : String) (v : Value) :
    Raises Raised.Typed (optionalString name v) := by
  cases v with
  | null | str => exact raises_ok
  | bool | int | float | arr | obj => exact raises_invalid

theorem raises_extractAttestationClaims :
    Raises Raised.Typed (extractAttestationClaims claims) := by
  simp only [extractAttestationClaims, raises_bind]
  exact ⟨raises_optionalString _ _, fun _ _ => ⟨raises_optionalString _ _,
    fun _ _ => ⟨raises_optionalString _ _, fun _ _ => ⟨raises_optionalString _ _,
      fun _ _ => raises_ok⟩⟩⟩⟩

end Claims

section Parsing
variable {py : Interpreter} {token : Text} {audience : Option Text} {nonces : Option (List Text)}

theorem raises_readClaims : Raises Raised.Typed (readClaims py token audience) ↔
    LoadsTyped py.depth token := by
  rw [readClaims, raises_bind, raises_decodeJwt]
  refine and_iff_left ?_
  intro pair _
  simp only [raises_bind]
  exact ⟨raises_validateOidcClaims _ _, fun _ _ => ⟨raises_extractAttestationClaims,
    fun _ _ => raises_ok⟩⟩

theorem raises_readIntelClaims : Raises Raised.Typed (readIntelClaims py token audience) ↔
    LoadsTyped py.depth token := by
  rw [readIntelClaims, raises_bind, raises_decodeJwt]
  refine and_iff_left ?_
  intro pair _
  exact raises_validateOidcClaims _ _

theorem raises_wrapJwt {α : Type} {x : Except Raised α} :
    Raises TokenError.Typed (wrapJwt x) ↔ Raises Raised.Typed x := by
  cases x with
  | ok a => exact iff_of_true raises_ok raises_ok
  | error e =>
    rw [raises_error]
    cases e with
    | jwt e => exact raises_error
    | valueError => exact raises_error
    | recursionError => exact raises_error

theorem raises_wrapJwtIntel {α : Type} {x : Except Raised α} :
    Raises IntelError.Typed (wrapJwtIntel x) ↔ Raises Raised.Typed x := by
  cases x with
  | ok a => exact iff_of_true raises_ok raises_ok
  | error e =>
    rw [raises_error]
    cases e with
    | jwt e => exact raises_error
    | valueError => exact raises_error
    | recursionError => exact raises_error

theorem raises_checkNonces (echoed : List Text) (expected : Option (List Text)) :
    Raises TokenError.Typed (checkNonces echoed expected) := by
  unfold checkNonces
  split
  · exact raises_ok
  · exact raises_ok
  · split
    · exact raises_ok
    · exact raises_error.mpr trivial

/-- A number that is the timestamp of a `datetime`. -/
def Dated (v : Value) : Prop := isNumber v → fromTimestamp v ≠ none

/-- `_ts` raises an error of its own kind just on the other numbers. -/
theorem timestamp_cases (v : Value) :
    (Dated v ∧ ∃ t, timestamp v = .ok t) ∨ (¬ Dated v ∧ timestamp v = .error .timestamp) := by
  have number (isNumber : isNumber v)
      (same : timestamp v = (fromTimestamp v).elim (.error .timestamp) fun t => .ok (some t)) :
      (Dated v ∧ ∃ t, timestamp v = .ok t) ∨ (¬ Dated v ∧ timestamp v = .error .timestamp) := by
    cases read : fromTimestamp v with
    | some t =>
      rw [read] at same
      exact Or.inl ⟨fun _ => by simp [read], some t, same⟩
    | none =>
      rw [read] at same
      exact Or.inr ⟨fun dated => dated isNumber read, same⟩
  cases v with
  | int n =>
    apply number rfl
    unfold timestamp
    cases fromTimestamp (.int n) <;> rfl
  | float x =>
    apply number rfl
    unfold timestamp
    cases fromTimestamp (.float x) <;> rfl
  | null | bool | str | arr | obj => exact Or.inl ⟨fun number => (by cases number), none, rfl⟩

theorem readClaims_ok {claims : Claims} {extracted : Extracted} :
    readClaims py token audience = .ok (claims, extracted) ↔
      (∃ header, decodeJwt py.depth token = .ok (header, claims)) ∧
        validateOidcClaims claims (oidcChecks audience) py.now = .ok claims ∧
        extractAttestationClaims claims = .ok extracted := by
  simp only [readClaims, except_bind_ok]
  constructor
  · intro h
    obtain ⟨⟨header, claims'⟩, decoded, claims'', validated, extracted', read, same⟩ := h
    cases same
    have unchanged : claims' = claims := (validateOidcClaims_iff.mp validated).2.2.2.2.2.2
    rw [unchanged] at decoded validated
    exact ⟨⟨header, decoded⟩, validated, read⟩
  · intro h
    obtain ⟨⟨header, decoded⟩, validated, read⟩ := h
    exact ⟨(header, claims), decoded, claims, validated, extracted, read, rfl⟩

theorem readIntelClaims_ok {claims : Claims} : readIntelClaims py token audience = .ok claims ↔
    (∃ header, decodeJwt py.depth token = .ok (header, claims)) ∧
      validateOidcClaims claims (intelChecks audience) py.now = .ok claims := by
  simp only [readIntelClaims, except_bind_ok]
  constructor
  · intro h
    obtain ⟨⟨header, claims'⟩, decoded, validated⟩ := h
    have unchanged : claims' = claims := (validateOidcClaims_iff.mp validated).2.2.2.2.2.2
    rw [unchanged] at decoded validated
    exact ⟨⟨header, decoded⟩, validated⟩
  · intro h
    obtain ⟨⟨header, decoded⟩, validated⟩ := h
    exact ⟨(header, claims), decoded, validated⟩

/-- Every check of `parse_token` before its timestamps passes. -/
structure OidcPassed (py : Interpreter) (token : Text) (audience : Option Text)
    (nonces : Option (List Text)) (claims : Claims) : Prop where
  decoded : ∃ header, decodeJwt py.depth token = .ok (header, claims)
  validated : validateOidcClaims claims (oidcChecks audience) py.now = .ok claims
  identity : ∃ extracted digest, extractAttestationClaims claims = .ok extracted ∧
    extracted.swname = some expectedSwname ∧ extracted.imageDigest = some digest ∧
    imageDigestRe digest
  echoed : checkNonces (py.asStrList (claims.get "eat_nonce")) nonces = .ok ()

/-- Every check of `parse_intel_token` before its timestamps passes. -/
structure IntelPassed (py : Interpreter) (token : Text) (audience : Option Text)
    (nonces : Option (List Text)) (claims : Claims) : Prop where
  decoded : ∃ header, decodeJwt py.depth token = .ok (header, claims)
  validated : validateOidcClaims claims (intelChecks audience) py.now = .ok claims
  swname : isString (claims.get "swname") expectedSwname
  hwmodel : isString (claims.get "hwmodel") expectedTdxHwmodel
  tcb : (py.asStrList (claims.get "attester_tcb")).any (expectedTdxTcb.contains ·)
  echoed : checkNonces (intelEcho py claims) nonces = .ok ()

theorem dated_iff {α : Type} {iat exp : Value} {f : Option Instant → Option Instant → α} :
    Raises TokenError.Typed (do
      let issuedAt ← timestamp iat
      let expiresAt ← timestamp exp
      return f issuedAt expiresAt) ↔ Dated iat ∧ Dated exp := by
  rcases timestamp_cases iat with ⟨dated, t, read⟩ | ⟨undated, failed⟩
  · rw [ok_bind read, and_iff_right dated]
    rcases timestamp_cases exp with ⟨dated', t', read'⟩ | ⟨undated', failed'⟩
    · rw [ok_bind read']
      exact iff_of_true raises_ok dated'
    · rw [error_bind failed']
      exact iff_of_false (fun typed => raises_error.mp typed) undated'
  · rw [error_bind failed]
    exact iff_of_false (fun typed => raises_error.mp typed) fun both => undated both.1

theorem raises_parseToken : Raises TokenError.Typed (parseToken py token audience nonces) ↔
    LoadsTyped py.depth token ∧
      ∀ claims, OidcPassed py token audience nonces claims →
        Dated (claims.get "iat") ∧ Dated (claims.get "exp") := by
  rw [parseToken, raises_bind, raises_wrapJwt, raises_readClaims]
  refine and_congr_right fun _ => ?_
  constructor
  · intro typed claims passed
    obtain ⟨extracted, digest, read, swname, image, form⟩ := passed.identity
    have here := typed (claims, extracted)
      (wrapJwt_ok.mpr (readClaims_ok.mpr ⟨passed.decoded, passed.validated, read⟩))
    simp only [swname, ne_eq, not_true_eq_false, if_false, image, form, if_true] at here
    rw [ok_bind passed.echoed] at here
    exact dated_iff.mp here
  · intro dated pair read
    obtain ⟨claims, extracted⟩ := pair
    obtain ⟨decoded, validated, extracts⟩ := readClaims_ok.mp (wrapJwt_ok.mp read)
    dsimp only
    split
    · exact raises_error.mpr trivial
    rename_i swname
    split
    · exact raises_error.mpr trivial
    rename_i digest image
    split
    · rename_i form
      rw [raises_bind]
      refine ⟨raises_checkNonces _ _, ?_⟩
      intro _ echoed
      exact dated_iff.mpr (dated claims ⟨decoded, validated,
        ⟨extracted, digest, extracts, not_not.mp swname, image, form⟩, echoed⟩)
    · exact raises_error.mpr trivial

theorem intel_dated_iff {α : Type} {iat exp : Value} {f : Option Instant → Option Instant → α} :
    Raises IntelError.Typed (do
      let issuedAt ← (timestamp iat).mapError fun _ => .timestamp
      let expiresAt ← (timestamp exp).mapError fun _ => .timestamp
      return f issuedAt expiresAt) ↔ Dated iat ∧ Dated exp := by
  rcases timestamp_cases iat with ⟨dated, t, read⟩ | ⟨undated, failed⟩
  · rw [mapError_ok_bind read, and_iff_right dated]
    rcases timestamp_cases exp with ⟨dated', t', read'⟩ | ⟨undated', failed'⟩
    · rw [mapError_ok_bind read']
      exact iff_of_true raises_ok dated'
    · rw [mapError_error_bind failed']
      exact iff_of_false (fun typed => raises_error.mp typed) undated'
  · rw [mapError_error_bind failed]
    exact iff_of_false (fun typed => raises_error.mp typed) fun both => undated both.1

theorem raises_parseIntelToken : Raises IntelError.Typed (parseIntelToken py token audience nonces) ↔
    LoadsTyped py.depth token ∧
      ∀ claims, IntelPassed py token audience nonces claims →
        Dated (claims.get "iat") ∧ Dated (claims.get "exp") := by
  rw [parseIntelToken, raises_bind, raises_wrapJwtIntel, raises_readIntelClaims]
  refine and_congr_right fun _ => ?_
  constructor
  · intro typed claims passed
    have here := typed claims
      (wrapJwtIntel_ok.mpr (readIntelClaims_ok.mpr ⟨passed.decoded, passed.validated⟩))
    simp only [passed.swname, passed.hwmodel, passed.tcb, if_true] at here
    rw [mapError_ok_bind passed.echoed] at here
    exact intel_dated_iff.mp here
  · intro dated claims read
    obtain ⟨decoded, validated⟩ := readIntelClaims_ok.mp (wrapJwtIntel_ok.mp read)
    split
    · rename_i swname
      split
      · rename_i hwmodel
        dsimp only
        split
        · rename_i tcb
          rw [raises_bind]
          refine ⟨raises_mapError.mpr fun _ _ => trivial, ?_⟩
          intro _ echoed
          exact intel_dated_iff.mpr (dated claims
            ⟨decoded, validated, swname, hwmodel, tcb, mapError_ok.mp echoed⟩)
        · exact raises_error.mpr trivial
      · exact raises_error.mpr trivial
    · exact raises_error.mpr trivial

end Parsing

/-- Both parsers raise nothing but subclasses of `AttestationError` just when `json.loads` raises
    what the JWT layer translates, and the times of a token that passes every check are times
    of a `datetime`. -/
theorem parse_typed_iff (py : Interpreter) (token : Text) (audience : Option Text)
    (nonces : Option (List Text)) :
    (Raises TokenError.Typed (parseToken py token audience nonces) ∧
      Raises IntelError.Typed (parseIntelToken py token audience nonces)) ↔
    LoadsTyped py.depth token ∧
      ∀ claims, OidcPassed py token audience nonces claims ∨
        IntelPassed py token audience nonces claims →
          Dated (claims.get "iat") ∧ Dated (claims.get "exp") := by
  rw [raises_parseToken, raises_parseIntelToken]
  constructor
  · intro h
    obtain ⟨⟨typed, oidc⟩, _, intel⟩ := h
    refine ⟨typed, ?_⟩
    intro claims passed
    rcases passed with first | second
    · exact oidc claims first
    · exact intel claims second
  · intro h
    obtain ⟨typed, dated⟩ := h
    exact ⟨⟨typed, fun claims first => dated claims (Or.inl first)⟩, typed,
      fun claims second => dated claims (Or.inr second)⟩

/-- Its payload passes every check and has an `exp` of 1e20. -/
def distantToken : Text := utf8 <| "eyJhbGciOiJSUzI1NiJ9." ++
  "eyJpc3MiOiJodHRwczovL2NvbmZpZGVudGlhbGNvbXB1dGluZy5nb29nbGVhcGlzLmNvbSIsImV4cCI6MWUyMCwic3du" ++
  "YW1lIjoiQ09ORklERU5USUFMX1NQQUNFIiwic3VibW9kcyI6eyJjb250YWluZXIiOnsiaW1hZ2VfZGlnZXN0Ijoic2hh" ++
  "MjU2OmFiYWJhYmFiYWJhYmFiYWJhYmFiYWJhYmFiYWJhYmFiYWJhYmFiYWJhYmFiYWJhYmFiYWJhYmFiYWJhYmFiYWIi" ++
  "fX19.c2ln"

theorem distant_token_untyped : ¬ Raises TokenError.Typed
    (parseToken ⟨ofRat 1786060800, 900, fun _ => []⟩ distantToken none none) := by
  decide +kernel

end Jwt
