import VerifiableRag.Jwt.TimeClaims

/-!
A single audience has two spellings: the string, and the array of one string.
-/
namespace Jwt
open Bytes Json Float64 Results

section Mapping
variable {claims : Claims} {aud : Value}

/-- The mapping with its `aud` set. -/
def Claims.withAud (claims : Claims) (aud : Value) : Claims := claims ++ [(utf8 "aud", aud)]

theorem lookup_last (claims : Claims) (key name : Text) (value : Value) :
    lookup (claims ++ [(key, value)]) name =
      if key = name then some value else lookup claims name := by
  induction claims with
  | nil => rfl
  | cons entry rest ih =>
    obtain ⟨key', value'⟩ := entry
    rw [List.cons_append, lookup, ih, lookup]
    by_cases same : key = name
    · simp only [if_pos same]
    · simp only [if_neg same]

@[simp] theorem withAud_aud (claims : Claims) (aud : Value) :
    (claims.withAud aud).get "aud" = aud := by
  rw [Claims.get, Claims.withAud, lookup_last, if_pos rfl]
  rfl

theorem withAud_other {name : String} (other : "aud" ≠ name) :
    (claims.withAud aud).get name = claims.get name := by
  have kept : utf8 "aud" ≠ utf8 name := fun same => other (utf8_injective same)
  rw [Claims.get, Claims.withAud, lookup_last, if_neg kept]
  rfl

end Mapping

section Others
variable (claims : Claims) (aud : Value)

theorem checkIssuer_withAud (expected : Option Text) :
    checkIssuer (claims.withAud aud) expected = checkIssuer claims expected := by
  cases expected with
  | none => rfl
  | some expected => simp only [checkIssuer, withAud_other (show "aud" ≠ "iss" by decide)]

theorem checkSub_withAud (required : Bool) :
    checkSub (claims.withAud aud) required = checkSub claims required := by
  simp only [checkSub, withAud_other (show "aud" ≠ "sub" by decide)]

theorem validateNumericDate_withAud {name : String} (other : "aud" ≠ name) (required : Bool) :
    validateNumericDate (claims.withAud aud) name required =
      validateNumericDate claims name required := by
  simp only [validateNumericDate, withAud_other other]

theorem validateExpiration_withAud (skew now : F64) :
    validateExpiration (claims.withAud aud) skew now = validateExpiration claims skew now := by
  rw [validateExpiration, validateNumericDate_withAud claims aud (by decide), validateExpiration]

theorem checkIat_withAud (checks : OidcChecks) (now : F64) :
    checkIat (claims.withAud aud) checks now = checkIat claims checks now := by
  rw [checkIat, checkPast, validateNumericDate_withAud claims aud (by decide), checkIat, checkPast]

theorem checkNbf_withAud (checks : OidcChecks) (now : F64) :
    checkNbf (claims.withAud aud) checks now = checkNbf claims checks now := by
  rw [checkNbf, checkPast, validateNumericDate_withAud claims aud (by decide), checkNbf, checkPast]

end Others

section Audience
variable (claims : Claims) (x : Text)

/-- `azp` is there and is not the audience. -/
def AzpDiffers (expected : Text) : Prop :=
  claims.get "azp" ≠ .null ∧ isString (claims.get "azp") expected = false

theorem checkAudience_string (expected : Option Text) :
    checkAudience (claims.withAud (.str x)) expected = .ok () ↔
      ∀ audience, expected = some audience → x = audience ∧ ¬ AzpDiffers claims audience := by
  cases expected with
  | none => simp [checkAudience]
  | some expected =>
    simp only [checkAudience, withAud_aud, withAud_other (show "aud" ≠ "azp" by decide),
      AzpDiffers, audienceContains]
    by_cases same : x = expected
    · cases azp : claims.get "azp" <;> simp [same, invalid, isString]
    · simp [same, invalid]

theorem checkAudience_array (expected : Option Text) :
    checkAudience (claims.withAud (.arr [.str x])) expected = .ok () ↔
      ∀ audience, expected = some audience → x = audience := by
  cases expected with
  | none => simp [checkAudience]
  | some expected =>
    by_cases same : x = expected <;> simp [checkAudience, audienceContains, isString, same, invalid]

/-- The pool check takes both spellings alike. -/
theorem validateWipAudience_single {aud : Value} (single : aud = .str x ∨ aud = .arr [.str x])
    (expected : Option Text) :
    validateWipAudience (claims.withAud aud) expected = .ok () ↔
      wipAudienceRe x ∧ ∀ audience, expected = some audience → x = audience := by
  have contains : ∀ audience, audienceContains aud audience = decide (x = audience) := by
    intro audience
    rcases single with rfl | rfl <;> simp [audienceContains, isString]
  have member : validateWipAudience (claims.withAud aud) expected =
      if wipAudienceRe x then checkWipExpected (claims.withAud aud) expected
      else invalid (.wipMember x) := by
    cases pool : wipAudienceRe x <;>
      rcases single with rfl | rfl <;> simp [validateWipAudience, audiences, asString, pool]
  rw [member]
  by_cases pool : wipAudienceRe x
  · cases expected with
    | none => simp [pool, checkWipExpected]
    | some expected =>
      by_cases same : x = expected
      · subst same
        simp [pool, checkWipExpected, contains]
      · by_cases pinned : wipAudienceRe expected <;>
          simp [pool, checkWipExpected, contains, same, pinned, invalid]
  · simp [pool, invalid]

end Audience

section Verdict
variable (claims : Claims) (x : Text) (checks : AllChecks) (now : F64)

def Accepts (aud : Value) : Prop :=
  ∃ claims', validateAllClaims (claims.withAud aud) checks now = .ok claims'

/-- The checks that do not look at the audience. -/
structure Unrelated : Prop where
  issuer : checkIssuer claims checks.expectedIssuer = .ok ()
  sub : checkSub claims checks.requireSub = .ok ()
  exp : ∃ date, validateExpiration claims checks.clockSkew now = .ok date
  iat : checkIat claims checks.toOidcChecks now = .ok ()
  nbf : checkNbf claims checks.toOidcChecks now = .ok ()

theorem accepts_iff (aud : Value) :
    Accepts claims checks now aud ↔ Unrelated claims checks now ∧
      checkAudience (claims.withAud aud) checks.expectedAudience = .ok () ∧
      checkWip (claims.withAud aud) checks = .ok () := by
  simp only [Accepts, validateAllClaims, except_bind_ok, checkIssuer_withAud, checkSub_withAud,
    validateExpiration_withAud, checkIat_withAud, checkNbf_withAud]
  constructor
  · intro h
    obtain ⟨_, _, issuer, _, sub, _, audience, _, wip, date, exp, _, iat, _, nbf, _⟩ := h
    exact ⟨⟨issuer, sub, ⟨date, exp⟩, iat, nbf⟩, audience, wip⟩
  · intro h
    obtain ⟨⟨issuer, sub, ⟨date, exp⟩, iat, nbf⟩, audience, wip⟩ := h
    exact ⟨_, _, issuer, _, sub, _, audience, _, wip, date, exp, _, iat, _, nbf, rfl⟩

/-- The audience is the pinned one, and a pool's where that is asked for. -/
structure Admitted : Prop where
  pinned : ∀ audience, checks.expectedAudience = some audience → x = audience
  pool : checks.requireWipAudience → wipAudienceRe x

theorem checkWip_single {aud : Value} (single : aud = .str x ∨ aud = .arr [.str x])
    (pinned : ∀ audience, checks.expectedAudience = some audience → x = audience) :
    checkWip (claims.withAud aud) checks = .ok () ↔ (checks.requireWipAudience → wipAudienceRe x) := by
  unfold checkWip
  by_cases required : checks.requireWipAudience
  · rw [if_pos required, validateWipAudience_single claims x single]
    exact ⟨fun h _ => h.1, fun h => ⟨h required, pinned⟩⟩
  · simp [required]

theorem accepts_array : Accepts claims checks now (.arr [.str x]) ↔
    Unrelated claims checks now ∧ Admitted x checks := by
  rw [accepts_iff, checkAudience_array]
  apply and_congr_right
  intro _
  constructor
  · intro h
    exact ⟨h.1, (checkWip_single claims x checks (Or.inr rfl) h.1).mp h.2⟩
  · intro h
    exact ⟨h.pinned, (checkWip_single claims x checks (Or.inr rfl) h.pinned).mpr h.pool⟩

theorem accepts_string : Accepts claims checks now (.str x) ↔
    (Unrelated claims checks now ∧ Admitted x checks) ∧
      ∀ audience, checks.expectedAudience = some audience → ¬ AzpDiffers claims audience := by
  rw [accepts_iff, checkAudience_string, and_assoc]
  apply and_congr_right
  intro _
  constructor
  · intro h
    have pinned := fun audience given => (h.1 audience given).1
    exact ⟨⟨pinned, (checkWip_single claims x checks (Or.inl rfl) pinned).mp h.2⟩,
      fun audience given => (h.1 audience given).2⟩
  · intro h
    obtain ⟨admitted, azp⟩ := h
    exact ⟨fun audience given => ⟨admitted.pinned audience given, azp audience given⟩,
      (checkWip_single claims x checks (Or.inl rfl) admitted.pinned).mpr admitted.pool⟩

/-- The verdict does not depend on the spelling, and a foreign `azp` is refused in both. -/
structure SpellingBlind : Prop where
  verdict : Accepts claims checks now (.str x) ↔ Accepts claims checks now (.arr [.str x])
  deputy : ∀ audience, checks.expectedAudience = some audience → AzpDiffers claims audience →
    ¬ Accepts claims checks now (.str x) ∧ ¬ Accepts claims checks now (.arr [.str x])

/-- Only the `azp` stands against the token. -/
structure Deputy : Prop where
  azp : ∃ audience, checks.expectedAudience = some audience ∧ AzpDiffers claims audience
  unrelated : Unrelated claims checks now
  admitted : Admitted x checks

/-- The branch of an array asks for `azp` only where there are several members. -/
theorem spelling_blind_iff :
    SpellingBlind claims x checks now ↔ ¬ Deputy claims x checks now := by
  constructor
  · intro blind deputy
    obtain ⟨⟨audience, given, differs⟩, unrelated, admitted⟩ := deputy
    apply (blind.deputy audience given differs).2
    exact (accepts_array claims x checks now).mpr ⟨unrelated, admitted⟩
  · intro none
    have refused : ∀ audience, checks.expectedAudience = some audience →
        AzpDiffers claims audience → ¬ (Unrelated claims checks now ∧ Admitted x checks) := by
      intro audience given differs passed
      exact none ⟨⟨audience, given, differs⟩, passed.1, passed.2⟩
    constructor
    · rw [accepts_string, accepts_array]
      constructor
      · intro h
        exact h.1
      · intro passed
        exact ⟨passed, fun audience given differs => refused audience given differs passed⟩
    · intro audience given differs
      rw [accepts_string, accepts_array]
      exact ⟨fun h => refused audience given differs h.1, refused audience given differs⟩

end Verdict

/-- A token for the enclave that was given to another party. -/
def deputyClaims : Claims :=
  [(utf8 "exp", .int 1786064390), (utf8 "azp", .str (utf8 "another-client"))]

def enclaveAudience : Text := utf8 "https://enclave.example"

def enclaveChecks : AllChecks := ⟨⟨none, some enclaveAudience, ofRat 5, false, false⟩, false⟩

theorem deputy_array_accepted :
    ¬ SpellingBlind deputyClaims enclaveAudience enclaveChecks (ofRat 1786060800) := by
  have accepted : (validateAllClaims (deputyClaims.withAud (.arr [.str enclaveAudience]))
      enclaveChecks (ofRat 1786060800)).isOk := by decide +kernel
  have differs : AzpDiffers deputyClaims enclaveAudience := by
    refine ⟨?_, by decide +kernel⟩
    intro same
    cases same
  intro blind
  apply (blind.deputy enclaveAudience rfl differs).2
  cases result : validateAllClaims (deputyClaims.withAud (.arr [.str enclaveAudience]))
      enclaveChecks (ofRat 1786060800) with
  | error e =>
    rw [result] at accepted
    cases accepted
  | ok claims' => exact ⟨claims', result⟩

end Jwt
