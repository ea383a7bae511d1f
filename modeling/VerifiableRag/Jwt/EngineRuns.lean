import VerifiableRag.Jwt.Engine

/-!
Which raw tokens the fetches of one engine accept again. The nonces are drawn when the
engine is made, so the echo that a token carries stays good; only the clock ends it.
-/
namespace Jwt
open Bytes Json Float64 Results

/-- No raw token is accepted by a fetch and again by a later one. -/
def NoReplay (engine : AttestationEngine) (py : Interpreter) (fetches : List Fetch) : Prop :=
  fetches.Pairwise fun earlier later =>
    ∀ token ∈ engine.accepted py earlier, token ∉ engine.accepted py later

/-- The checks of the primary parser that do not look at the clock. -/
structure OidcSound (engine : AttestationEngine) (py : Interpreter) (claims : Claims) : Prop where
  issuer : checkIssuer claims (some oidcIssuer) = .ok ()
  audience : checkAudience claims (some engine.audience) = .ok ()
  identity : ∃ extracted imageDigest, extractAttestationClaims claims = .ok extracted ∧
    extracted.swname = some expectedSwname ∧ extracted.imageDigest = some imageDigest ∧
    imageDigestRe imageDigest = true
  echo : checkNonces (py.asStrList (claims.get "eat_nonce")) (some engine.nonces) = .ok ()
  issuedAt : ∃ t, timestamp (claims.get "iat") = .ok t
  expiresAt : ∃ t, timestamp (claims.get "exp") = .ok t

/-- The checks of the Intel parser that do not look at the clock. -/
structure ItaSound (engine : AttestationEngine) (py : Interpreter) (claims : Claims) : Prop where
  issuer : checkIssuer claims (some itaOidcIssuer) = .ok ()
  audience : checkAudience claims (some engine.audience) = .ok ()
  swname : isString (claims.get "swname") expectedSwname = true
  hwmodel : isString (claims.get "hwmodel") expectedTdxHwmodel = true
  tcb : (py.asStrList (claims.get "attester_tcb")).any (expectedTdxTcb.contains ·) = true
  echo : checkNonces (intelEcho py claims) (some engine.nonces) = .ok ()
  issuedAt : ∃ t, timestamp (claims.get "iat") = .ok t
  expiresAt : ∃ t, timestamp (claims.get "exp") = .ok t

def Sound (engine : AttestationEngine) (py : Interpreter) : Verifier → Claims → Prop
  | .oidc => OidcSound engine py
  | .ita => ItaSound engine py

structure InWindow (claims : Claims) (now : F64) : Prop where
  exp : ∃ date, validateExpiration claims clockSkew now = .ok date
  iat : checkPast claims "iat" false (now.add clockSkew) (.issuedInFuture · now clockSkew) = .ok ()
  nbf : checkPast claims "nbf" false (now.add clockSkew) (.notYetValid · now clockSkew) = .ok ()

def Answers (engine : AttestationEngine) (py : Interpreter) (exchange : Verifier × Reply)
    (token : Text) (claims : Claims) : Prop :=
  ∃ raw header, engine.fetchRaw py exchange.1 exchange.2 = .ok raw ∧ PyStr.strip raw = token ∧
    decodeJwt py.depth raw = .ok (header, claims)

/-- A token that is sound is offered again only outside its validity. -/
def Unreplayed (engine : AttestationEngine) (py : Interpreter) (fetches : List Fetch) : Prop :=
  fetches.Pairwise fun earlier later =>
    ∀ e ∈ engine.exchanges py earlier, ∀ e' ∈ engine.exchanges py later, e.1 = e'.1 →
      ∀ token claims, Answers engine py e token claims → Answers engine py e' token claims →
        Sound engine py e.1 claims → InWindow claims e.2.clock → ¬ InWindow claims e'.2.clock

section Accepting

variable {engine : AttestationEngine} {py : Interpreter}

/-- The two paths validate alike, each with its issuer. -/
theorem validated_iff {claims claims' : Claims} {now : F64} (issuer : Text) :
    validateOidcClaims claims
        { oidcChecks (some engine.audience) with expectedIssuer := some issuer } now = .ok claims' ↔
      checkIssuer claims (some issuer) = .ok () ∧
        checkAudience claims (some engine.audience) = .ok () ∧ InWindow claims now ∧
        claims = claims' := by
  rw [validateOidcClaims_iff]
  constructor
  · intro h
    obtain ⟨issued, _, audience, exp, iat, nbf, same⟩ := h
    exact ⟨issued, audience, ⟨exp, iat, nbf⟩, same⟩
  · intro h
    obtain ⟨issued, audience, ⟨exp, iat, nbf⟩, same⟩ := h
    exact ⟨issued, rfl, audience, exp, iat, nbf, same⟩

theorem parseToken_sound {raw : Text} {now : F64} {att : AttestationToken}
    (ok : parseToken { py with now := now } raw (some engine.audience) (some engine.nonces) =
      .ok att) :
    att.rawToken = PyStr.strip raw ∧ ∃ header claims,
      decodeJwt py.depth raw = .ok (header, claims) ∧ OidcSound engine py claims ∧
        InWindow claims now := by
  obtain ⟨stripped, header, claims, extracted, decoded, validated, read, swname, image, form, echo,
    issuedAt, expiresAt⟩ := parseToken_ok ok
  obtain ⟨issuer, audience, window, _⟩ := (validated_iff oidcIssuer).mp validated
  refine ⟨stripped, header, claims, decoded, ?_, window⟩
  exact ⟨issuer, audience, ⟨extracted, att.imageDigest, read, swname, image, form⟩, echo,
    ⟨_, issuedAt⟩, ⟨_, expiresAt⟩⟩

theorem parseToken_complete {raw : Text} {now : F64} {header claims : Claims}
    (decoded : decodeJwt py.depth raw = .ok (header, claims)) (sound : OidcSound engine py claims)
    (window : InWindow claims now) :
    ∃ att, parseToken { py with now := now } raw (some engine.audience) (some engine.nonces) =
      .ok att := by
  obtain ⟨extracted, imageDigest, read, swname, image, form⟩ := sound.identity
  obtain ⟨issuedAt, issued⟩ := sound.issuedAt
  obtain ⟨expiresAt, expires⟩ := sound.expiresAt
  have validated := (validated_iff oidcIssuer).mpr ⟨sound.issuer, sound.audience, window, rfl⟩
  have reading : readClaims { py with now := now } raw (some engine.audience) =
      .ok (claims, extracted) :=
    except_bind_ok.mpr ⟨_, decoded, except_bind_ok.mpr ⟨_, validated,
      except_bind_ok.mpr ⟨_, read, rfl⟩⟩⟩
  have echo : checkNonces (({ py with now := now } : Interpreter).asStrList
      (claims.get "eat_nonce")) (some engine.nonces) = .ok () := sound.echo
  simp only [parseToken, reading, wrapJwt, bind, Except.bind, swname, image, form, echo, issued,
    expires, ne_eq, not_true_eq_false, if_false, if_true]
  exact ⟨_, rfl⟩

theorem parseIntelToken_sound {raw : Text} {now : F64} {att : IntelAttestationToken}
    (ok : parseIntelToken { py with now := now } raw (some engine.audience)
      (some engine.nonces) = .ok att) :
    att.rawToken = PyStr.strip raw ∧ ∃ header claims,
      decodeJwt py.depth raw = .ok (header, claims) ∧ ItaSound engine py claims ∧
        InWindow claims now := by
  simp only [parseIntelToken, except_bind_ok, wrapJwtIntel_ok, readIntelClaims] at ok
  obtain ⟨claims, ⟨⟨header, claims'⟩, decoded, validated⟩, ok⟩ := ok
  obtain ⟨issuer, audience, window, rfl⟩ := (validated_iff itaOidcIssuer).mp validated
  split at ok
  next swname =>
    split at ok
    next hwmodel =>
      split at ok
      next tcb =>
        simp only [except_bind_ok, mapError_ok] at ok
        obtain ⟨_, echo, issuedAt, issued, expiresAt, expires, same⟩ := ok
        cases same
        exact ⟨rfl, header, claims', decoded, ⟨issuer, audience, swname, hwmodel, tcb, echo,
          ⟨issuedAt, issued⟩, ⟨expiresAt, expires⟩⟩, window⟩
      next => cases ok
    next => cases ok
  next => cases ok

theorem parseIntelToken_complete {raw : Text} {now : F64} {header claims : Claims}
    (decoded : decodeJwt py.depth raw = .ok (header, claims)) (sound : ItaSound engine py claims)
    (window : InWindow claims now) :
    ∃ att, parseIntelToken { py with now := now } raw (some engine.audience)
      (some engine.nonces) = .ok att := by
  obtain ⟨issuedAt, issued⟩ := sound.issuedAt
  obtain ⟨expiresAt, expires⟩ := sound.expiresAt
  have validated := (validated_iff itaOidcIssuer).mpr ⟨sound.issuer, sound.audience, window, rfl⟩
  have reading : readIntelClaims { py with now := now } raw (some engine.audience) = .ok claims :=
    except_bind_ok.mpr ⟨_, decoded, validated⟩
  have tcb : (({ py with now := now } : Interpreter).asStrList (claims.get "attester_tcb")).any
      (expectedTdxTcb.contains ·) = true := sound.tcb
  have echo : checkNonces (intelEcho { py with now := now } claims) (some engine.nonces) =
      .ok () := sound.echo
  simp only [parseIntelToken, reading, wrapJwtIntel, bind, Except.bind, sound.swname,
    sound.hwmodel, tcb, echo, issued, expires, Except.mapError, if_true]
  exact ⟨_, rfl⟩

/-- An exchange accepts a token that is sound and in its window, whenever it is offered. -/
theorem acceptedBy_iff {exchange : Verifier × Reply} {token : Text} :
    engine.acceptedBy py exchange = some token ↔ ∃ claims,
      Answers engine py exchange token claims ∧ Sound engine py exchange.1 claims ∧
        InWindow claims exchange.2.clock := by
  obtain ⟨verifier, reply⟩ := exchange
  cases verifier with
  | oidc =>
    constructor
    · intro accepted
      obtain ⟨att, fetched, rfl⟩ := Option.map_eq_some_iff.mp accepted
      obtain ⟨raw, received, parsed⟩ := except_bind_ok.mp (toOption_some.mp fetched)
      obtain ⟨same, header, claims, decoded, sound, window⟩ := parseToken_sound (mapError_ok.mp parsed)
      exact ⟨claims, ⟨raw, header, received, same.symm, decoded⟩, sound, window⟩
    · rintro ⟨claims, ⟨raw, header, received, rfl, decoded⟩, sound, window⟩
      obtain ⟨att, parsed⟩ := parseToken_complete decoded sound window
      have fetched : engine.fetchToken py reply = .ok att :=
        except_bind_ok.mpr ⟨raw, received, mapError_ok.mpr parsed⟩
      have same := (parseToken_sound parsed).1
      simp only [AttestationEngine.acceptedBy, fetched, Except.toOption, Option.map_some, same]
  | ita =>
    constructor
    · intro accepted
      obtain ⟨att, fetched, rfl⟩ := Option.map_eq_some_iff.mp accepted
      obtain ⟨raw, received, parsed⟩ := except_bind_ok.mp (toOption_some.mp fetched)
      obtain ⟨same, header, claims, decoded, sound, window⟩ :=
        parseIntelToken_sound (mapError_ok.mp parsed)
      exact ⟨claims, ⟨raw, header, received, same.symm, decoded⟩, sound, window⟩
    · rintro ⟨claims, ⟨raw, header, received, rfl, decoded⟩, sound, window⟩
      obtain ⟨att, parsed⟩ := parseIntelToken_complete decoded sound window
      have fetched : engine.fetchIntelAttestation py reply = .ok att :=
        except_bind_ok.mpr ⟨raw, received, mapError_ok.mpr parsed⟩
      have same := (parseIntelToken_sound parsed).1
      simp only [AttestationEngine.acceptedBy, fetched, Except.toOption, Option.map_some, same]

theorem answers_claims {e e' : Verifier × Reply} {token : Text} {claims claims' : Claims}
    (one : Answers engine py e token claims) (other : Answers engine py e' token claims') :
    claims = claims' := by
  obtain ⟨raw, header, _, stripped, decoded⟩ := one
  obtain ⟨raw', header', _, stripped', decoded'⟩ := other
  have same : decodeJwt py.depth raw = decodeJwt py.depth raw' := by
    simp only [decodeJwt, stripped, stripped']
  rw [same, decoded'] at decoded
  cases decoded
  rfl

theorem issuer_claim {claims : Claims} {expected : Text}
    (ok : checkIssuer claims (some expected) = .ok ()) : claims.get "iss" = .str expected := by
  rw [checkIssuer] at ok
  split at ok
  next named =>
    unfold isString at named
    split at named
    next s same => rw [same, of_decide_eq_true named]
    next => cases named
  next => cases ok

theorem sound_verifier {verifier verifier' : Verifier} {claims : Claims}
    (one : Sound engine py verifier claims) (other : Sound engine py verifier' claims) :
    verifier = verifier' := by
  have apart : oidcIssuer ≠ itaOidcIssuer := by decide +kernel
  cases verifier with
  | oidc =>
    cases verifier' with
    | oidc => rfl
    | ita =>
      have same := (issuer_claim one.issuer).symm.trans (issuer_claim other.issuer)
      exact absurd (Value.str.inj same) apart
  | ita =>
    cases verifier' with
    | ita => rfl
    | oidc =>
      have same := (issuer_claim other.issuer).symm.trans (issuer_claim one.issuer)
      exact absurd (Value.str.inj same) apart

/-- An engine accepts no raw token again exactly when no sound one is offered again, by
the same path, within its validity. -/
theorem no_replay_iff (engine : AttestationEngine) (py : Interpreter) (fetches : List Fetch) :
    NoReplay engine py fetches ↔ Unreplayed engine py fetches := by
  constructor
  · intro once
    apply once.imp
    intro earlier later fresh e performed e' performed' path token claims offered again sound
      window still
    have accepted : token ∈ engine.accepted py earlier :=
      List.mem_filterMap.mpr ⟨e, performed, acceptedBy_iff.mpr ⟨claims, offered, sound, window⟩⟩
    have accepted' : token ∈ engine.accepted py later :=
      List.mem_filterMap.mpr ⟨e', performed',
        acceptedBy_iff.mpr ⟨claims, again, path ▸ sound, still⟩⟩
    exact fresh token accepted accepted'
  · intro unreplayed
    apply unreplayed.imp
    intro earlier later fresh token accepted accepted'
    obtain ⟨e, performed, accepts⟩ := List.mem_filterMap.mp accepted
    obtain ⟨e', performed', accepts'⟩ := List.mem_filterMap.mp accepted'
    obtain ⟨claims, offered, sound, window⟩ := acceptedBy_iff.mp accepts
    obtain ⟨claims', again, sound', still⟩ := acceptedBy_iff.mp accepts'
    obtain rfl := answers_claims offered again
    exact fresh e performed e' performed' (sound_verifier sound sound') token claims offered again
      sound window still

end Accepting

section Sample

def sampleEngine : AttestationEngine :=
  .init (utf8 "http://localhost/v1/token") (utf8 "http://localhost/v1/intel/token") none none
    (utf8 "00112233445566778899aabbccddeeff")

/-- Good for an hour from second 1786060790 on, with the nonce of the sample engine. -/
def echoedSegment : Text := utf8 <|
  "eyJpc3MiOiJodHRwczovL2NvbmZpZGVudGlhbGNvbXB1dGluZy5nb29nbGVhcGlzLmNvbSIsImF1ZCI6ImZsYXJlLXZl" ++
  "cmlmaWFibGUtcmFnIiwiaWF0IjoxNzg2MDYwNzkwLCJleHAiOjE3ODYwNjQzOTAsInN3bmFtZSI6IkNPTkZJREVOVElB" ++
  "TF9TUEFDRSIsInN1Ym1vZHMiOnsiY29udGFpbmVyIjp7ImltYWdlX2RpZ2VzdCI6InNoYTI1NjphYmFiYWJhYmFiYWJh" ++
  "YmFiYWJhYmFiYWJhYmFiYWJhYmFiYWJhYmFiYWJhYmFiYWJhYmFiYWJhYmFiYWJhYmFiIn19LCJlYXRfbm9uY2UiOiIw" ++
  "MDExMjIzMzQ0NTU2Njc3ODg5OWFhYmJjY2RkZWVmZiJ9"

def echoedToken : Text := utf8 "eyJhbGciOiJSUzI1NiJ9." ++ echoedSegment ++ utf8 ".c2ln"

/-- An endpoint that answers every request with the same body. -/
def replayAt (second : Nat) : Fetch := .token ⟨ofRat second, fun _ => .body echoedToken⟩

def replayPython : Interpreter := ⟨ofRat 1786060800, 900, fun _ => []⟩

theorem replayed_token_accepted :
    ¬ NoReplay sampleEngine replayPython [replayAt 1786060800, replayAt 1786060860] := by
  have accepted : ∀ second ∈ [1786060800, 1786060860],
      sampleEngine.accepted replayPython (replayAt second) = [echoedToken] := by
    decide +kernel
  intro once
  have fresh := List.rel_of_pairwise_cons once List.mem_cons_self
  rw [accepted _ (by simp), accepted _ (by simp)] at fresh
  exact fresh echoedToken List.mem_cons_self List.mem_cons_self

end Sample

end Jwt
