import VerifiableRag.Jwt.WipAudience

/-!
Which time claims `validate_oidc_claims` enforces: its checks are refusals, and a NaN is
refused by none of them.
-/
namespace Jwt
open Bytes Json Float64 Results

section Numbers
variable {v : Value} {x : F64}

def isNumber : Value → Bool
  | .int _ | .float _ => true
  | _ => false

theorem numberLt_eq_not_le (number : isNumber v) (value : v ≠ .float .nan) (limit : x ≠ .nan) :
    numberLt x v = !numberLe v x := by
  cases v with
  | int n =>
    cases x with
    | nan => exact absurd rfl limit
    | infinite negative => cases negative <;> rfl
    | finite q _ =>
      rw [numberLt, numberLe, ← decide_not, decide_eq_decide]
      exact not_le.symm
  | float y =>
    have ordered : y ≠ .nan := fun same => value (same ▸ rfl)
    exact F64.lt_eq_not_le limit ordered
  | null | bool | str | arr | obj => cases number

/-- No comparison with a NaN holds. -/
theorem number_unordered (nan : v = .float .nan ∨ x = .nan) :
    numberLt x v = false ∧ numberLe v x = false := by
  rcases nan with rfl | rfl
  · obtain ⟨_, _, _, _⟩ := F64.nan_unordered x
    exact ⟨by assumption, by assumption⟩
  · cases v with
    | float y =>
      obtain ⟨_, _, _, _⟩ := F64.nan_unordered y
      exact ⟨by assumption, by assumption⟩
    | null | bool | int | str | arr | obj => exact ⟨rfl, rfl⟩

/-- Of a number that is not refused the opposite inequality holds unless there is a NaN. -/
theorem numberLt_iff (number : isNumber v) (passed : numberLe v x = false) :
    numberLt x v ↔ v ≠ .float .nan ∧ x ≠ .nan := by
  constructor
  · intro above
    rw [← not_or]
    intro nan
    rw [(number_unordered nan).1] at above
    cases above
  · intro h
    rw [numberLt_eq_not_le number h.1 h.2, passed]
    rfl

theorem numberLe_iff (number : isNumber v) (passed : numberLt x v = false) :
    numberLe v x ↔ v ≠ .float .nan ∧ x ≠ .nan := by
  constructor
  · intro below
    rw [← not_or]
    intro nan
    rw [(number_unordered nan).2] at below
    cases below
  · intro h
    rw [numberLt_eq_not_le number h.1 h.2, Bool.not_eq_false'] at passed
    exact passed

end Numbers

section Checks
variable {claims : Claims} {name : String}

theorem validateNumericDate_ok {required : Bool} {date : Option Value}
    (ok : validateNumericDate claims name required = .ok date) :
    (claims.get name = .null ∧ date = none) ∨
      (isNumber (claims.get name) ∧ date = some (claims.get name)) := by
  rw [validateNumericDate] at ok
  split at ok
  · rename_i absent
    split at ok
    · cases ok
    · cases ok
      exact Or.inl ⟨absent, rfl⟩
  · rename_i n found
    cases ok
    rw [found]
    exact Or.inr ⟨rfl, rfl⟩
  · rename_i x found
    cases ok
    rw [found]
    exact Or.inr ⟨rfl, rfl⟩
  · cases ok

theorem validateExpiration_ok {skew now : F64} {exp : Value}
    (ok : validateExpiration claims skew now = .ok exp) :
    isNumber (claims.get "exp") ∧ numberLe (claims.get "exp") (now.sub skew) = false := by
  rw [validateExpiration, except_bind_ok] at ok
  obtain ⟨date, read, ok⟩ := ok
  rcases validateNumericDate_ok read with ⟨_, rfl⟩ | ⟨number, rfl⟩
  · cases ok
  · dsimp only at ok
    split at ok
    · cases ok
    · rename_i passed
      exact ⟨number, Bool.eq_false_iff.mpr passed⟩

theorem checkPast_ok {required : Bool} {limit : F64} {fault : Value → JwtValidationError}
    (ok : checkPast claims name required limit fault = .ok ()) :
    claims.get name = .null ∨
      (isNumber (claims.get name) ∧ numberLt limit (claims.get name) = false) := by
  rw [checkPast, except_bind_ok] at ok
  obtain ⟨date, read, ok⟩ := ok
  rcases validateNumericDate_ok read with ⟨absent, rfl⟩ | ⟨number, rfl⟩
  · exact Or.inl absent
  · dsimp only at ok
    split at ok
    · cases ok
    · rename_i passed
      exact Or.inr ⟨number, Bool.eq_false_iff.mpr passed⟩

end Checks

/-- The time claims hold at a clock value; `absent` says which optional ones are not there. -/
structure Enforced (absent : String → Prop) (claims : Claims) (now skew : F64) : Prop where
  exp : numberLt (now.sub skew) (claims.get "exp")
  iat : absent "iat" ∨ numberLe (claims.get "iat") (now.add skew)
  nbf : absent "nbf" ∨ numberLe (claims.get "nbf") (now.add skew)

/-- No comparison of the time claims involves a NaN. -/
structure Ordered (claims : Claims) (now skew : F64) : Prop where
  exp : claims.get "exp" ≠ .float .nan ∧ now.sub skew ≠ .nan
  iat : claims.get "iat" = .null ∨ claims.get "iat" ≠ .float .nan ∧ now.add skew ≠ .nan
  nbf : claims.get "nbf" = .null ∨ claims.get "nbf" ≠ .float .nan ∧ now.add skew ≠ .nan

/-- What is known of the time claims that passed: with a null counted as no claim, and with a
    claim counted as present whatever its value. -/
structure TimeVerdict (claims : Claims) (now skew : F64) : Prop where
  enforced : Enforced (fun name => claims.get name = .null) claims now skew ↔
    Ordered claims now skew
  strictly : Enforced (fun name => lookup claims (utf8 name) = none) claims now skew ↔
    Ordered claims now skew ∧ lookup claims (utf8 "iat") ≠ some .null ∧
      lookup claims (utf8 "nbf") ≠ some .null

theorem get_null {claims : Claims} {name : String} : claims.get name = .null ↔
    lookup claims (utf8 name) = none ∨ lookup claims (utf8 name) = some .null := by
  rw [Claims.get]
  cases lookup claims (utf8 name) <;> simp

/-- An optional claim that passed: absent, or within the limit unless there is a NaN. -/
theorem past_enforced_iff {claims : Claims} {name : String} {limit : F64}
    (passed : claims.get name = .null ∨
      (isNumber (claims.get name) ∧ numberLt limit (claims.get name) = false)) :
    (claims.get name = .null ∨ numberLe (claims.get name) limit) ↔
      claims.get name = .null ∨ claims.get name ≠ .float .nan ∧ limit ≠ .nan := by
  rcases passed with absent | ⟨number, within⟩
  · exact iff_of_true (Or.inl absent) (Or.inl absent)
  · exact or_congr_right (numberLe_iff number within)

theorem past_strictly_iff {claims : Claims} {name : String} {limit : F64} :
    (lookup claims (utf8 name) = none ∨ numberLe (claims.get name) limit) ↔
      (claims.get name = .null ∨ numberLe (claims.get name) limit) ∧
        lookup claims (utf8 name) ≠ some .null := by
  rw [get_null]
  constructor
  · intro h
    rcases h with absent | within
    · exact ⟨Or.inl (Or.inl absent), by simp [absent]⟩
    · refine ⟨Or.inr within, ?_⟩
      intro null
      rw [Claims.get, null] at within
      cases within
  · intro h
    obtain ⟨(absent | null) | within, value⟩ := h
    · exact Or.inl absent
    · exact absurd null value
    · exact Or.inr within

theorem timeVerdict {claims claims' : Claims} {checks : AllChecks} {now : F64}
    (ok : validateAllClaims claims checks now = .ok claims') :
    TimeVerdict claims' now checks.clockSkew := by
  simp only [validateAllClaims, except_bind_ok] at ok
  obtain ⟨_, _, _, _, _, _, _, _, date, expiration, _, issued, _, valid, same⟩ := ok
  cases same
  obtain ⟨number, later⟩ := validateExpiration_ok expiration
  have exp := numberLt_iff number later
  have iat := past_enforced_iff (checkPast_ok issued)
  have nbf := past_enforced_iff (checkPast_ok valid)
  have enforced : Enforced (fun name => claims.get name = .null) claims now checks.clockSkew ↔
      Ordered claims now checks.clockSkew := by
    constructor
    · intro holds
      exact ⟨exp.mp holds.exp, iat.mp holds.iat, nbf.mp holds.nbf⟩
    · intro ordered
      exact ⟨exp.mpr ordered.exp, iat.mpr ordered.iat, nbf.mpr ordered.nbf⟩
  refine ⟨enforced, ?_⟩
  rw [← enforced]
  constructor
  · intro holds
    obtain ⟨iat, iat_value⟩ := past_strictly_iff.mp holds.iat
    obtain ⟨nbf, nbf_value⟩ := past_strictly_iff.mp holds.nbf
    exact ⟨⟨holds.exp, iat, nbf⟩, iat_value, nbf_value⟩
  · intro h
    obtain ⟨holds, iat_value, nbf_value⟩ := h
    exact ⟨holds.exp, past_strictly_iff.mpr ⟨holds.iat, iat_value⟩,
      past_strictly_iff.mpr ⟨holds.nbf, nbf_value⟩⟩

/-- Whatever the clock, the skew and the other checks, the time claims of what
    `validate_oidc_claims` and `decode_and_validate` return are enforced just when no NaN is
    among them. -/
theorem time_claims_enforced_iff (checks : AllChecks) (now : F64) :
    (∀ claims claims', validateAllClaims claims checks now = .ok claims' →
      TimeVerdict claims' now checks.clockSkew) ∧
    ∀ depth token header claims, decodeAndValidate depth token checks now = .ok (header, claims) →
      TimeVerdict claims now checks.clockSkew := by
  refine ⟨fun claims claims' => timeVerdict, ?_⟩
  intro depth token header claims done
  simp only [decodeAndValidate, except_bind_ok] at done
  obtain ⟨⟨header', decoded⟩, _, validated, ok, same⟩ := done
  cases same
  exact timeVerdict ok

/-- The defaults of the keyword arguments. -/
def defaultChecks : AllChecks :=
  ⟨⟨none, none, ofRat 5, false, false⟩, false⟩

/-- `{"alg":"RS256"}` and `{"exp":1786064390,"iat":1786060790}` -/
def timelyToken : Text :=
  utf8 "eyJhbGciOiJSUzI1NiJ9.eyJleHAiOjE3ODYwNjQzOTAsImlhdCI6MTc4NjA2MDc5MH0.c2ln"

/-- `{"alg":"RS256"}` and `{"exp":NaN}` -/
def timelessToken : Text := utf8 "eyJhbGciOiJSUzI1NiJ9.eyJleHAiOk5hTn0.c2ln"

def decoded (token : Text) : Claims × Claims :=
  ((decodeAndValidate 900 token defaultChecks (ofRat 1786060800)).toOption).getD ([], [])

theorem decoded_ok {token : Text}
    (accepted : (decodeAndValidate 900 token defaultChecks (ofRat 1786060800)).isOk) :
    decodeAndValidate 900 token defaultChecks (ofRat 1786060800) =
      .ok ((decoded token).1, (decoded token).2) := by
  rw [decoded]
  cases result : decodeAndValidate 900 token defaultChecks (ofRat 1786060800) with
  | error e =>
    rw [result] at accepted
    cases accepted
  | ok found => rfl

theorem time_claims_enforced_iff_timely :
    TimeVerdict (decoded timelyToken).2 (ofRat 1786060800) defaultChecks.clockSkew :=
  (time_claims_enforced_iff defaultChecks (ofRat 1786060800)).2 900 timelyToken
    (decoded timelyToken).1 (decoded timelyToken).2 (decoded_ok (by decide +kernel))

theorem nan_expiry_accepted :
    ∃ header claims, decodeAndValidate 900 timelessToken defaultChecks (ofRat 1786060800) =
        .ok (header, claims) ∧ claims.get "exp" = .float .nan ∧
      ¬ numberLt ((ofRat 1786060800).sub defaultChecks.clockSkew) (claims.get "exp") := by
  have exp : (decoded timelessToken).2.get "exp" = .float .nan := by rfl
  refine ⟨_, _, decoded_ok (by decide +kernel), exp, ?_⟩
  rw [exp]
  decide +kernel

end Jwt
