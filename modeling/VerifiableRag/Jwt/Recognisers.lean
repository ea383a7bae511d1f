import VerifiableRag.Library.PyRegex
import VerifiableRag.Jwt.WipAudience
import VerifiableRag.Jwt.Attestation
import Mathlib.Data.List.TakeWhile

/-!
The languages of `_WIP_AUDIENCE_RE` and `_IMAGE_DIGEST_RE` against the forms that they are
documented to accept.
-/
namespace Jwt
open Bytes Json PyRegex

section Patterns

/-- `\d` -/
def decimalChars : List Nat := PyStr.decimalZeros.flatMap (List.range' · 10)

/-- `[a-z0-9-]` -/
def idChars : List Nat := List.range' 0x61 26 ++ List.range' 0x30 10 ++ [0x2D]

/-- `[0-9a-f]` -/
def lowerHexChars : List Nat := List.range' 0x30 10 ++ List.range' 0x61 6

/-- `(?!gcp-)[a-z0-9-]{4,32}` -/
def resourceIdPattern : Pattern :=
  .seq (.notAhead (.literal (utf8 "gcp-"))) (.repeated (.oneOf idChars) 4 (some 32))

def projectsPath : Text := utf8 "//iam.googleapis.com/projects/"
def poolsPath : Text := utf8 "/locations/global/workloadIdentityPools/"
def providersPath : Text := utf8 "/providers/"

/-- `_WIP_AUDIENCE_RE`; `re.match` starts where `^` holds. -/
def wipAudiencePattern : Pattern :=
  .seq (.optional (.literal (utf8 "https:"))) <| .seq (.literal projectsPath) <|
    .seq (.repeated (.oneOf decimalChars) 1 none) <| .seq (.literal poolsPath) <|
    .seq resourceIdPattern <| .seq (.literal providersPath) <| .seq resourceIdPattern .stop

/-- `_IMAGE_DIGEST_RE` -/
def imageDigestPattern : Pattern :=
  .seq (.literal (utf8 "sha256:")) <| .seq (.repeated (.oneOf lowerHexChars) 64 (some 64)) .stop

end Patterns

section Forms

/-- The id of a pool or of a provider. -/
structure ResourceId (id : Text) : Prop where
  least : 4 ≤ id.length
  most : id.length ≤ 32
  chars : ∀ c ∈ id, isIdChar c
  unreserved : ¬ utf8 "gcp-" <+: id

def AsciiNumber (number : Text) : Prop := number ≠ [] ∧ ∀ c ∈ number, 0x30 ≤ c ∧ c ≤ 0x39

/-- Decimal digits of any script. -/
def DecimalNumber (number : Text) : Prop :=
  ∃ digits : List Nat, digits ≠ [] ∧ (∀ c ∈ digits, c ∈ decimalChars) ∧ number = text digits

/-- The resource name of a provider, with or without the scheme, and nothing after it. -/
def ResourceName (Number : Text → Prop) (s : Text) : Prop :=
  ∃ scheme number pool provider, (scheme = [] ∨ scheme = utf8 "https:") ∧ Number number ∧
    ResourceId pool ∧ ResourceId provider ∧
    s = scheme ++ (projectsPath ++ (number ++ (poolsPath ++ (pool ++ (providersPath ++ provider)))))

/-- `sha256:` and 64 lowercase hexadecimal digits, and nothing after them. -/
def ImageDigest (s : Text) : Prop :=
  ∃ hex : Text, hex.length = 64 ∧ (∀ c ∈ hex, isLowerHex c) ∧ s = utf8 "sha256:" ++ hex

/-- The string itself, or without its final newline. -/
def Chomped (P : Text → Prop) (s : Text) : Prop := P s ∨ ∃ t, s = t ++ [0x0A] ∧ P t

end Forms

section Digits

theorem decimals_eq : PyStr.decimals = decimalChars.map Unicode.encode := rfl

theorem decimals_nonempty : ∀ f ∈ PyStr.decimals, f ≠ [] := by decide +kernel

/-- The bytes of a UTF-8 form, by its first byte. -/
def formWidth (b : UInt8) : Nat :=
  if b < 0x80 then 1 else if b < 0xE0 then 2 else if b < 0xF0 then 3 else 4

theorem decimals_separated : Separated PyStr.decimals :=
  separated_of_width (show ∀ f ∈ PyStr.decimals, f ≠ [] ∧ f.length = formWidth (f.headD 0) by
    decide +kernel)

theorem decimal_row {taken : List (List UInt8)} (inside : ∀ f ∈ taken, f ∈ PyStr.decimals) :
    ∃ digits : List Nat, digits.length = taken.length ∧ (∀ c ∈ digits, c ∈ decimalChars) ∧
      taken.flatten = text digits := by
  induction taken with
  | nil => exact ⟨[], rfl, nofun, rfl⟩
  | cons f taken ih =>
    rw [List.forall_mem_cons] at inside
    obtain ⟨digits, size, all, same⟩ := ih inside.2
    have first := inside.1
    rw [decimals_eq] at first
    obtain ⟨c, listed, rfl⟩ := List.mem_map.mp first
    refine ⟨c :: digits, congrArg (· + 1) size, List.forall_mem_cons.mpr ⟨listed, all⟩, ?_⟩
    rw [List.flatten_cons, same, text_cons]

theorem matchDigits_sound {s rest : Text} (found : matchDigits s = some rest) :
    ∃ number, DecimalNumber number ∧ s = number ++ rest := by
  obtain ⟨taken, inside, split⟩ := dropForms_row decimals_nonempty (Nat.zero_le s.length)
  rw [List.take_zero, List.nil_append] at split
  rw [matchDigits] at found
  split at found
  · rename_i shorter
    cases found
    obtain ⟨digits, size, all, same⟩ := decimal_row inside
    rw [same] at split
    refine ⟨text digits, ⟨digits, ?_, all, rfl⟩, split⟩
    rintro rfl
    rw [text, List.flatMap_nil, List.nil_append] at split
    rw [← split] at shorter
    exact absurd shorter (Nat.lt_irrefl _)
  · cases found

theorem matchDigits_complete {number rest : Text} (decimal : DecimalNumber number)
    (stops : ∀ f ∈ PyStr.decimals, ¬ f <+: rest) : matchDigits (number ++ rest) = some rest := by
  obtain ⟨digits, nonempty, all, rfl⟩ := decimal
  have dropped : PyStr.dropForms PyStr.decimals 0 (text digits ++ rest) = rest := by
    have inside : ∀ f ∈ digits.map Unicode.encode, f ∈ PyStr.decimals := by
      intro f member
      obtain ⟨c, listed, rfl⟩ := List.mem_map.mp member
      rw [decimals_eq]
      exact List.mem_map_of_mem (all c listed)
    have row := dropForms_flatten decimals_separated inside stops
    rwa [← List.flatMap_def] at row
  have longer : 0 < (text digits).length := by
    cases digits with
    | nil => exact absurd rfl nonempty
    | cons c digits =>
      have form : Unicode.encode c ≠ [] :=
        decimals_nonempty _ (by rw [decimals_eq]; exact List.mem_map_of_mem (all c List.mem_cons_self))
      have size := List.length_pos_iff.mpr form
      rw [text_cons, List.length_append]
      omega
  rw [matchDigits, dropped]
  apply if_pos
  rw [List.length_append]
  omega

theorem slash_stops (rest : Text) : ∀ f ∈ PyStr.decimals, ¬ f <+: (0x2F :: rest) := by
  have heads : ∀ f ∈ PyStr.decimals, f.head? ≠ some 0x2F ∧ f ≠ [] := by decide +kernel
  intro f listed start
  obtain ⟨other, nonempty⟩ := heads f listed
  obtain ⟨u, same⟩ := start
  cases f with
  | nil => exact nonempty rfl
  | cons b f =>
    cases same
    exact other rfl

end Digits

section Matchers

theorem matchLiteral_some {literal s rest : Text} :
    matchLiteral literal s = some rest ↔ s = literal ++ rest := by
  rw [matchLiteral]
  constructor
  · intro found
    split at found
    · rename_i start
      cases found
      obtain ⟨u, rfl⟩ := List.isPrefixOf_iff_prefix.mp start
      rw [List.drop_left]
    · cases found
  · rintro rfl
    rw [if_pos (List.isPrefixOf_iff_prefix.mpr (List.prefix_append _ _)), List.drop_left]

theorem unreserved_append {id rest : Text} (least : 4 ≤ id.length) :
    utf8 "gcp-" <+: id ++ rest ↔ utf8 "gcp-" <+: id := by
  constructor
  · intro start
    exact List.prefix_of_prefix_length_le start (List.prefix_append id rest) least
  · intro start
    exact start.trans (List.prefix_append id rest)

theorem matchId_sound {s rest : Text} (found : matchId s = some rest) :
    ∃ id, ResourceId id ∧ s = id ++ rest := by
  have split : s.takeWhile isIdChar ++ s.dropWhile isIdChar = s := List.takeWhile_append_dropWhile
  rw [matchId] at found
  split at found
  · cases found
  rename_i unreserved
  split at found
  · rename_i size
    cases found
    have free : ¬ utf8 "gcp-" <+: s.takeWhile isIdChar := by
      intro start
      apply unreserved
      rw [List.isPrefixOf_iff_prefix]
      exact start.trans (List.takeWhile_prefix _)
    refine ⟨s.takeWhile isIdChar, ⟨size.1, size.2, ?_, free⟩, ?_⟩
    · intro c member
      exact List.mem_takeWhile_imp member
    · have rest : (s.takeWhile isIdChar ++ s.dropWhile isIdChar).drop (s.takeWhile isIdChar).length =
          s.dropWhile isIdChar := List.drop_left
      rw [split] at rest
      rw [rest, split]
  · cases found

theorem matchId_complete {id rest : Text} (valid : ResourceId id)
    (stops : ∀ c ∈ rest.head?, isIdChar c = false) : matchId (id ++ rest) = some rest := by
  have taken : (id ++ rest).takeWhile isIdChar = id := by
    rw [List.takeWhile_append_of_pos valid.chars]
    cases rest with
    | nil => rw [List.takeWhile_nil, List.append_nil]
    | cons c rest =>
      rw [List.takeWhile_cons_of_neg, List.append_nil]
      simp [stops c rfl]
  have free : ¬ (utf8 "gcp-").isPrefixOf (id ++ rest) := by
    rw [List.isPrefixOf_iff_prefix, unreserved_append valid.least]
    exact valid.unreserved
  rw [matchId, taken]
  rw [if_neg free, if_pos ⟨valid.least, valid.most⟩, List.drop_left]

/-- What `_WIP_AUDIENCE_RE` matches after the scheme. -/
theorem matchWipPath_sound {s rest : Text} (found : matchWipPath s = some rest) :
    ∃ number pool provider, DecimalNumber number ∧ ResourceId pool ∧ ResourceId provider ∧
      s = projectsPath ++ (number ++ (poolsPath ++ (pool ++ (providersPath ++ (provider ++ rest))))) := by
  simp only [matchWipPath, Option.bind_eq_bind, Option.bind_eq_some_iff] at found
  obtain ⟨s1, projects, s2, digits, s3, pools, s4, pool_found, s5, providers, last⟩ := found
  obtain rfl := matchLiteral_some.mp projects
  obtain ⟨number, decimal, rfl⟩ := matchDigits_sound digits
  obtain rfl := matchLiteral_some.mp pools
  obtain ⟨pool, pool_id, rfl⟩ := matchId_sound pool_found
  obtain rfl := matchLiteral_some.mp providers
  obtain ⟨provider, provider_id, rfl⟩ := matchId_sound last
  exact ⟨number, pool, provider, decimal, pool_id, provider_id, rfl⟩

theorem matchWipPath_complete {number pool provider rest : Text} (decimal : DecimalNumber number)
    (pool_id : ResourceId pool) (provider_id : ResourceId provider)
    (stops : ∀ c ∈ rest.head?, isIdChar c = false) :
    matchWipPath (projectsPath ++
      (number ++ (poolsPath ++ (pool ++ (providersPath ++ (provider ++ rest)))))) = some rest := by
  have projects (s : Text) : matchLiteral projectsPath (projectsPath ++ s) = some s :=
    matchLiteral_some.mpr rfl
  have pools (s : Text) : matchLiteral poolsPath (poolsPath ++ s) = some s :=
    matchLiteral_some.mpr rfl
  have providers (s : Text) : matchLiteral providersPath (providersPath ++ s) = some s :=
    matchLiteral_some.mpr rfl
  have digits (s : Text) : matchDigits (number ++ (poolsPath ++ s)) = some (poolsPath ++ s) :=
    matchDigits_complete decimal (slash_stops _)
  have first (s : Text) : matchId (pool ++ (providersPath ++ s)) = some (providersPath ++ s) := by
    apply matchId_complete pool_id
    intro c start
    cases start
    decide
  rw [projectsPath, poolsPath, providersPath] at *
  rw [matchWipPath, projects]
  simp only [Option.bind_eq_bind, Option.bind_some, digits, pools, first, providers]
  exact matchId_complete provider_id stops

end Matchers

section Languages

theorem chomped_iff {P : Text → Prop} {s : Text} :
    Chomped P s ↔ ∃ t rest, P t ∧ (rest = [] ∨ rest = [0x0A]) ∧ s = t ++ rest := by
  constructor
  · intro h
    rcases h with whole | ⟨t, rfl, here⟩
    · exact ⟨s, [], whole, Or.inl rfl, (List.append_nil s).symm⟩
    · exact ⟨t, [0x0A], here, Or.inr rfl, rfl⟩
  · intro h
    obtain ⟨t, rest, here, rfl | rfl, rfl⟩ := h
    · exact Or.inl (by rwa [List.append_nil])
    · exact Or.inr ⟨t, rfl, here⟩

theorem no_scheme (s : Text) : matchLiteral (utf8 "https:") (projectsPath ++ s) = none := rfl

/-- The scheme is taken off where there is one. -/
theorem scheme_off {scheme : Text} (given : scheme = [] ∨ scheme = utf8 "https:") (s : Text) :
    (matchLiteral (utf8 "https:") (scheme ++ (projectsPath ++ s))).getD
      (scheme ++ (projectsPath ++ s)) = projectsPath ++ s := by
  rcases given with rfl | rfl
  · rw [List.nil_append, no_scheme]
    rfl
  · rw [matchLiteral_some.mpr rfl]
    rfl

theorem wipAudienceRe_iff (s : Text) :
    wipAudienceRe s = true ↔ Chomped (ResourceName DecimalNumber) s := by
  rw [chomped_iff, wipAudienceRe]
  constructor
  · intro accepted
    split at accepted
    · rename_i rest found
      rw [decide_eq_true_eq] at accepted
      obtain ⟨number, pool, provider, decimal, pool_id, provider_id, path⟩ :=
        matchWipPath_sound found
      cases scheme : matchLiteral (utf8 "https:") s with
      | none =>
        rw [scheme, Option.getD_none] at path
        refine ⟨_, rest, ⟨[], number, pool, provider, Or.inl rfl, decimal, pool_id, provider_id, rfl⟩,
          accepted, ?_⟩
        rw [path]
        simp only [List.append_assoc, List.nil_append]
      | some u =>
        rw [scheme, Option.getD_some] at path
        refine ⟨_, rest, ⟨_, number, pool, provider, Or.inr rfl, decimal, pool_id, provider_id, rfl⟩,
          accepted, ?_⟩
        rw [matchLiteral_some.mp scheme, path]
        simp only [List.append_assoc]
    · cases accepted
  · intro h
    obtain ⟨t, rest, name, ending, rfl⟩ := h
    obtain ⟨scheme, number, pool, provider, given, decimal, pool_id, provider_id, rfl⟩ := name
    have stops : ∀ c ∈ rest.head?, isIdChar c = false := by
      rcases ending with rfl | rfl
      · exact nofun
      · intro c newline
        cases newline
        rfl
    simp only [List.append_assoc]
    rw [scheme_off given, matchWipPath_complete decimal pool_id provider_id stops]
    exact decide_eq_true ending

theorem imageDigestRe_iff (s : Text) : imageDigestRe s = true ↔ Chomped ImageDigest s := by
  have size : (utf8 "sha256:").length = 7 := by decide
  rw [chomped_iff, imageDigestRe]
  simp only [Bool.and_eq_true, Bool.or_eq_true, beq_iff_eq, List.isPrefixOf_iff_prefix,
    List.all_eq_true]
  constructor
  · intro h
    obtain ⟨⟨⟨⟨u, rfl⟩, long⟩, digits⟩, ending⟩ := h
    rw [List.drop_left' size] at long digits
    have behind : (utf8 "sha256:" ++ u).drop 71 = u.drop 64 := by
      rw [show (71 : Nat) = 7 + 64 from rfl, ← List.drop_drop, List.drop_left' size]
    rw [behind] at ending
    refine ⟨_, u.drop 64, ⟨u.take 64, long, digits, rfl⟩, ending, ?_⟩
    rw [List.append_assoc, List.take_append_drop]
  · intro h
    obtain ⟨t, rest, ⟨hex, long, digits, rfl⟩, ending, rfl⟩ := h
    have behind : (utf8 "sha256:" ++ (hex ++ rest)).drop 71 = rest := by
      rw [show (71 : Nat) = 7 + 64 from rfl, ← List.drop_drop, List.drop_left' size,
        List.drop_left' long]
    rw [List.append_assoc, List.drop_left' size, List.take_left' long, behind]
    exact ⟨⟨⟨List.prefix_append _ _, long⟩, digits⟩, ending⟩

theorem idChars_ascii (c : Nat) (listed : c ∈ idChars) :
    Unicode.encode c = [UInt8.ofNat c] ∧ isIdChar (UInt8.ofNat c) := by
  revert c
  decide

theorem idChars_covered : ∀ b, isIdChar b → b.toNat ∈ idChars := forall_byte (by decide +kernel)

theorem lowerHexChars_ascii (c : Nat) (listed : c ∈ lowerHexChars) :
    Unicode.encode c = [UInt8.ofNat c] ∧ isLowerHex (UInt8.ofNat c) := by
  revert c
  decide

theorem lowerHexChars_covered : ∀ b, isLowerHex b → b.toNat ∈ lowerHexChars :=
  forall_byte (by decide +kernel)

theorem consumes_resourceId {s rest : Text} :
    Consumes resourceIdPattern s rest ↔ ∃ id, ResourceId id ∧ s = id ++ rest := by
  rw [resourceIdPattern, Consumes]
  simp only [consumes_repeated]
  constructor
  · intro h
    obtain ⟨_, ⟨rfl, free⟩, taken, least, most, inside, rfl⟩ := h
    obtain ⟨size, chars⟩ := (text_ascii idChars_ascii idChars_covered).mp ⟨taken, rfl, inside, rfl⟩
    refine ⟨text taken, ⟨size ▸ least, size ▸ most 32 rfl, chars, ?_⟩, rfl⟩
    intro start
    obtain ⟨u, same⟩ := start.trans (List.prefix_append (text taken) rest)
    exact free u same.symm
  · intro h
    obtain ⟨id, valid, rfl⟩ := h
    obtain ⟨taken, size, inside, rfl⟩ :=
      (text_ascii idChars_ascii idChars_covered).mpr ⟨@rfl _ id.length, valid.chars⟩
    have least := valid.least
    have most := valid.most
    rw [← size] at least most
    refine ⟨_, ⟨rfl, ?_⟩, taken, least, ?_, inside, rfl⟩
    · intro u same
      exact valid.unreserved ((unreserved_append valid.least).mp ⟨u, same.symm⟩)
    · intro m bound
      cases bound
      exact most

theorem consumes_digits {s rest : Text} :
    Consumes (.repeated (.oneOf decimalChars) 1 none) s rest ↔
      ∃ number, DecimalNumber number ∧ s = number ++ rest := by
  rw [consumes_repeated]
  constructor
  · intro h
    obtain ⟨taken, least, _, inside, rfl⟩ := h
    exact ⟨_, ⟨taken, List.ne_nil_of_length_pos least, inside, rfl⟩, rfl⟩
  · intro h
    obtain ⟨_, ⟨digits, nonempty, inside, rfl⟩, rfl⟩ := h
    exact ⟨digits, List.length_pos_iff.mpr nonempty, nofun, inside, rfl⟩

/-- The recogniser is the pattern. -/
theorem wipAudienceRe_pattern (s : Text) : wipAudienceRe s = true ↔ wipAudiencePattern.Matches s := by
  rw [wipAudienceRe_iff, chomped_iff, Pattern.Matches, wipAudiencePattern]
  simp only [Consumes.eq_3, Consumes.eq_4, Consumes.eq_1, Consumes.eq_7, consumes_resourceId,
    consumes_digits]
  constructor
  · intro h
    obtain ⟨_, rest, ⟨scheme, number, pool, provider, given, decimal, pool_id, provider_id, rfl⟩,
      ending, rfl⟩ := h
    simp only [List.append_assoc]
    refine ⟨rest, _, ?_, _, rfl, _, ⟨number, decimal, rfl⟩, _, rfl, _, ⟨pool, pool_id, rfl⟩, _, rfl,
      _, ⟨provider, provider_id, rfl⟩, rfl, ending⟩
    rcases given with rfl | rfl
    · exact Or.inl rfl
    · exact Or.inr rfl
  · intro h
    obtain ⟨rest, _, scheme, _, rfl, _, ⟨number, decimal, rfl⟩, _, rfl, _, ⟨pool, pool_id, rfl⟩, _, rfl,
      _, ⟨provider, provider_id, rfl⟩, rfl, ending⟩ := h
    rcases scheme with rfl | rfl
    · refine ⟨_, _, ⟨[], number, pool, provider, Or.inl rfl, decimal, pool_id, provider_id, rfl⟩,
        ending, ?_⟩
      simp only [List.append_assoc, List.nil_append]
    · refine ⟨_, _, ⟨_, number, pool, provider, Or.inr rfl, decimal, pool_id, provider_id, rfl⟩,
        ending, ?_⟩
      simp only [List.append_assoc]

theorem imageDigestRe_pattern (s : Text) :
    imageDigestRe s = true ↔ imageDigestPattern.Matches s := by
  rw [imageDigestRe_iff, chomped_iff, Pattern.Matches, imageDigestPattern]
  simp only [Consumes.eq_3, Consumes.eq_1, Consumes.eq_7, consumes_repeated]
  constructor
  · intro h
    obtain ⟨_, rest, ⟨hex, long, digits, rfl⟩, ending, rfl⟩ := h
    obtain ⟨taken, size, inside, rfl⟩ :=
      (text_ascii lowerHexChars_ascii lowerHexChars_covered).mpr ⟨long, digits⟩
    refine ⟨rest, _, List.append_assoc _ _ _, _, ⟨taken, Nat.le_of_eq size.symm, ?_, inside, rfl⟩, rfl,
      ending⟩
    intro m bound
    cases bound
    exact Nat.le_of_eq size
  · intro h
    obtain ⟨rest, _, rfl, _, ⟨taken, least, most, inside, rfl⟩, rfl, ending⟩ := h
    have size : taken.length = 64 := Nat.le_antisymm (most 64 rfl) least
    obtain ⟨long, digits⟩ := (text_ascii lowerHexChars_ascii lowerHexChars_covered).mp
      ⟨taken, size, inside, rfl⟩
    exact ⟨_, _, ⟨text taken, long, digits, rfl⟩, ending, (List.append_assoc _ _ _).symm⟩

end Languages

section Exactness

/-- What the recognisers are documented to accept. -/
structure Documented (s : Text) : Prop where
  audience : isWipAudience (.str s) = true ↔ ResourceName AsciiNumber s
  digest : imageDigestRe s = true ↔ ImageDigest s

/-- A string that would do, but for the newline behind it. -/
def NewlineEnded (s : Text) : Prop :=
  ∃ t, s = t ++ [0x0A] ∧ (ResourceName DecimalNumber t ∨ ImageDigest t)

/-- A project number with a digit outside ASCII. -/
def ForeignNumber (number : Text) : Prop := DecimalNumber number ∧ ∃ c ∈ number, 0x80 ≤ c

theorem ResourceName.imp {P Q : Text → Prop} (weaker : ∀ number, P number → Q number) {s : Text}
    (name : ResourceName P s) : ResourceName Q s := by
  obtain ⟨scheme, number, pool, provider, given, here, pool_id, provider_id, path⟩ := name
  exact ⟨scheme, number, pool, provider, given, weaker number here, pool_id, provider_id, path⟩

theorem AsciiNumber.decimal {number : Text} (ascii : AsciiNumber number) : DecimalNumber number := by
  have forms : ∀ c : UInt8, 0x30 ≤ c ∧ c ≤ 0x39 →
      Unicode.encode c.toNat = [c] ∧ c.toNat ∈ decimalChars := forall_byte (by decide +kernel)
  refine ⟨number.map UInt8.toNat, ?_, ?_, ?_⟩
  · intro empty
    exact ascii.1 (List.map_eq_nil_iff.mp empty)
  · intro c member
    obtain ⟨b, listed, rfl⟩ := List.mem_map.mp member
    exact (forms b (ascii.2 b listed)).2
  · have single : ∀ b ∈ number, Unicode.encode b.toNat = [b] := by
      intro b listed
      exact (forms b (ascii.2 b listed)).1
    rw [text, List.flatMap_map, List.flatMap_congr single, List.flatMap_singleton' number]

/-- A number with ASCII bytes alone has ASCII digits alone. -/
theorem DecimalNumber.ascii {number : Text} (decimal : DecimalNumber number)
    (plain : ∀ c ∈ number, ¬ 0x80 ≤ c) : AsciiNumber number := by
  have forms : ∀ c ∈ decimalChars, Unicode.encode c ≠ [] ∧
      ((Unicode.encode c).all (fun b => ¬ 0x80 ≤ b) →
        (Unicode.encode c).all fun b => 0x30 ≤ b ∧ b ≤ 0x39) := forall_listed (by decide +kernel)
  obtain ⟨digits, nonempty, inside, rfl⟩ := decimal
  constructor
  · cases digits with
    | nil => exact absurd rfl nonempty
    | cons c digits =>
      rw [text_cons]
      exact List.append_ne_nil_of_left_ne_nil (forms c (inside c List.mem_cons_self)).1 _
  · intro b member
    obtain ⟨c, listed, here⟩ := List.mem_flatMap.mp member
    have own : (Unicode.encode c).all fun b => ¬ 0x80 ≤ b := by
      apply List.all_eq_true.mpr
      intro b' here'
      exact decide_eq_true (plain b' (List.mem_flatMap.mpr ⟨c, listed, here'⟩))
    exact of_decide_eq_true (List.all_eq_true.mp ((forms c (inside c listed)).2 own) b here)

/-- The bytes of a resource name are those of its number and printable ASCII. -/
theorem ResourceName.bytes (Q : UInt8 → Prop) {Number : Text → Prop} {s : Text}
    (name : ResourceName Number s) (numbers : ∀ number, Number number → ∀ c ∈ number, Q c)
    (printable : ∀ c : UInt8, 0x20 ≤ c ∧ c < 0x80 → Q c) : ∀ c ∈ s, Q c := by
  have ids : ∀ c : UInt8, isIdChar c → 0x20 ≤ c ∧ c < 0x80 := forall_byte (by decide +kernel)
  have table : ∀ part ∈ [[], utf8 "https:", projectsPath, poolsPath, providersPath],
      part.all fun c => 0x20 ≤ c ∧ c < 0x80 := forall_listed (by decide +kernel)
  have literals : ∀ part ∈ [[], utf8 "https:", projectsPath, poolsPath, providersPath],
      ∀ c ∈ part, 0x20 ≤ c ∧ c < 0x80 := by
    intro part listed
    exact forall_listed (table part listed)
  obtain ⟨scheme, number, pool, provider, given, here, pool_id, provider_id, rfl⟩ := name
  have scheme_plain : ∀ c ∈ scheme, 0x20 ≤ c ∧ c < 0x80 := by
    rcases given with rfl | rfl
    · exact nofun
    · exact literals _ (by simp)
  intro c member
  simp only [List.mem_append] at member
  rcases member with first | projects | digits | pools | first_id | providers | second_id
  · exact printable c (scheme_plain c first)
  · exact printable c (literals projectsPath (by simp) c projects)
  · exact numbers number here c digits
  · exact printable c (literals poolsPath (by simp) c pools)
  · exact printable c (ids c (pool_id.chars c first_id))
  · exact printable c (literals providersPath (by simp) c providers)
  · exact printable c (ids c (provider_id.chars c second_id))

theorem ResourceName.one_line {s : Text} (name : ResourceName DecimalNumber s) :
    ∀ c ∈ s, c ≠ 0x0A := by
  have forms : ∀ c ∈ decimalChars, (Unicode.encode c).all fun b => b ≠ 0x0A :=
    forall_listed (by decide +kernel)
  apply name.bytes (· ≠ 0x0A)
  · intro number decimal b member
    obtain ⟨digits, _, inside, rfl⟩ := decimal
    obtain ⟨c, listed, here⟩ := List.mem_flatMap.mp member
    exact forall_listed (forms c (inside c listed)) b here
  · exact forall_byte (by decide +kernel)

theorem ResourceName.ascii {s : Text} (name : ResourceName AsciiNumber s) :
    ∀ c ∈ s, ¬ 0x80 ≤ c := by
  have digits : ∀ c : UInt8, 0x30 ≤ c ∧ c ≤ 0x39 → ¬ 0x80 ≤ c := forall_byte (by decide +kernel)
  apply name.bytes (¬ 0x80 ≤ ·)
  · intro number ascii c member
    exact digits c (ascii.2 c member)
  · exact forall_byte (by decide +kernel)

theorem ImageDigest.one_line {s : Text} (image : ImageDigest s) : ∀ c ∈ s, c ≠ 0x0A := by
  have prefix_plain : ∀ c ∈ utf8 "sha256:", c ≠ 0x0A := forall_listed (by decide)
  have hex_plain : ∀ c : UInt8, isLowerHex c → c ≠ 0x0A := forall_byte (by decide +kernel)
  obtain ⟨hex, _, digits, rfl⟩ := image
  intro c member
  rcases List.mem_append.mp member with start | digit
  · exact prefix_plain c start
  · exact hex_plain c (digits c digit)

/-- The recognisers accept their documented forms just on the strings that are not such a form
    with a newline behind it, nor a resource name with digits of another script. -/
theorem recognisers_exact_iff (s : Text) :
    Documented s ↔ ¬ NewlineEnded s ∧ ¬ ResourceName ForeignNumber s := by
  constructor
  · intro documented
    constructor
    · intro h
      obtain ⟨t, rfl, name | image⟩ := h
      · have accepted := (wipAudienceRe_iff _).mpr (Or.inr ⟨t, rfl, name⟩)
        have whole := (documented.audience.mp accepted).imp fun _ ascii => ascii.decimal
        exact whole.one_line 0x0A (by simp) rfl
      · have accepted := (imageDigestRe_iff _).mpr (Or.inr ⟨t, rfl, image⟩)
        exact (documented.digest.mp accepted).one_line 0x0A (by simp) rfl
    · intro foreign
      have accepted := (wipAudienceRe_iff s).mpr (Or.inl (foreign.imp fun _ here => here.1))
      have plain := (documented.audience.mp accepted).ascii
      obtain ⟨_, number, _, _, _, ⟨_, c, member, high⟩, _, _, rfl⟩ := foreign
      exact plain c (by simp [member]) high
  · intro h
    obtain ⟨one_line, plain⟩ := h
    constructor
    · rw [isWipAudience, wipAudienceRe_iff]
      constructor
      · intro accepted
        rcases accepted with name | ⟨t, rfl, name⟩
        · obtain ⟨scheme, number, pool, provider, given, decimal, pool_id, provider_id, path⟩ := name
          refine ⟨scheme, number, pool, provider, given, decimal.ascii ?_, pool_id, provider_id, path⟩
          intro c member high
          exact plain ⟨scheme, number, pool, provider, given, ⟨decimal, c, member, high⟩, pool_id,
            provider_id, path⟩
        · exact absurd ⟨t, rfl, Or.inl name⟩ one_line
      · intro name
        exact Or.inl (name.imp fun _ ascii => ascii.decimal)
    · rw [imageDigestRe_iff]
      constructor
      · intro accepted
        rcases accepted with image | ⟨t, rfl, image⟩
        · exact image
        · exact absurd ⟨t, rfl, Or.inr image⟩ one_line
      · exact Or.inl

/-- An image digest and a newline. -/
def newlineDigest : Text :=
  utf8 "sha256:abababababababababababababababababababababababababababababababab\n"

/-- A project number in Arabic-Indic digits. -/
def arabicName : Text := utf8 <| "//iam.googleapis.com/projects/٤٢/locations/global/" ++
  "workloadIdentityPools/flare-pool/providers/attestation"

theorem newline_accepted : imageDigestRe newlineDigest = true ∧
    isWipAudience (.str arabicName) = true ∧ ¬ Documented newlineDigest ∧ ¬ Documented arabicName := by
  have ended : imageDigestRe newlineDigest = true := by decide +kernel
  have foreign : isWipAudience (.str arabicName) = true := by decide +kernel
  refine ⟨ended, foreign, ?_, ?_⟩
  · intro documented
    exact (documented.digest.mp ended).one_line 0x0A (by decide +kernel) rfl
  · intro documented
    exact absurd ((documented.audience.mp foreign).ascii 0xD9 (by decide +kernel)) (by decide)

end Exactness

end Jwt
