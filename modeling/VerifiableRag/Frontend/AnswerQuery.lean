import Mathlib.Data.List.SplitBy
import VerifiableRag.Frontend.FdcSelector
import VerifiableRag.Library.RegexSearch

/-!
`answerQuery`: the rule engine of the copilot, and what of a query reaches the request that it
encodes. The knowledge base is a parameter; so is the case mapping of Unicode outside ASCII.
-/
namespace Frontend
open Bytes CodePoints Flare Regex

section LowerCase

def asciiLower (c : CodePoint) : CodePoint :=
  if upper : 0x41 ≤ c.val ∧ c.val ≤ 0x5A then ⟨c.val + 0x20, by omega⟩ else c

/-- What stands for a character outside ASCII depends on the texts before and behind it. -/
def lowerFrom (unicode : Str → CodePoint → Str → Str) (before : Str) : Str → Str
  | [] => []
  | c :: after => (if c.val < 0x80 then [asciiLower c] else unicode before c after) ++
      lowerFrom unicode (before ++ [c]) after

/-- A text that gets longer than a string may be is a `RangeError`. -/
def JsString.toLowerCase (unicode : Str → CodePoint → Str → Str) (s : JsString) :
    Except String JsString :=
  let lower := lowerFrom unicode [] s.chars
  if short : lower.length < 2 ^ 53 then .ok ⟨lower, short⟩ else .error "Invalid string length"

end LowerCase

section Search

/-- A string that is no longer than another. -/
def JsString.part (s : JsString) (part : Str) (within : part.length ≤ s.chars.length) : JsString :=
  ⟨part, Nat.lt_of_le_of_lt within s.short⟩

def JsString.includes (s : JsString) (text : String) : Bool := ofString text <:+: s.chars

/-- `s.match(r)`; at its place a match of the expressions below is as long as any. -/
def JsString.find (s : JsString) (r : Regex CodePoint) : Option JsString :=
  match found : Regex.find r s.chars with
  | none => none
  | some (_, word, _) => some (s.part word (find_length found))

/-- `s.replace(word, "")` -/
def JsString.without (s word : JsString) : JsString :=
  s.part (removeFirst word.chars s.chars) (removeFirst_length word.chars s.chars)

/-- `\w` -/
def isWordPart (c : CodePoint) : Bool := isNameStart c ∨ isJsDigit c

/-- The runs of letters that are all of words or all of none. -/
def runs (s : Str) : List Str := s.splitBy fun a b => isWordPart a == isWordPart b

/-- `s.match` of an expression of words between two `\b`. -/
def JsString.findWord (s : JsString) (r : Regex CodePoint) : Option JsString :=
  match found : (runs s.chars).find? r.test with
  | none => none
  | some word => some (s.part word (by
      have inside := (List.sublist_flatten_of_mem (List.mem_of_find?_eq_some found)).length_le
      rwa [runs, List.flatten_splitBy] at inside))

end Search

section Patterns

/-- A word whatever its letter case. -/
def anyCase (s : String) : Regex CodePoint :=
  (ofString s).foldr (fun c r => .seq (.char (asciiLower · = c)) r) .eps

/-- ``[^\s"'`,;)]`` -/
def isUrlPart (c : CodePoint) : Bool :=
  !isJsSpace c && c ∉ ([0x22, 0x27, 0x60, 0x2C, 0x3B, 0x29] : Str)

def urlPattern : Regex CodePoint :=
  .seq (anyCase "http") (.seq (optional (anyCase "s")) (.seq (word "://") (plus (.char isUrlPart))))

def jqStep : Regex CodePoint := .seq (word ".") (.seq fieldName (optional indexed))

def jqPattern : Regex CodePoint := .seq jqStep (.star jqStep)

def abiPattern : Regex CodePoint :=
  oneOf [
    .seq (optional (anyCase "u"))
      (.seq (anyCase "int") (oneOf (["8", "16", "24", "32", "64", "128", "256"].map word))),
    anyCase "bool",
    anyCase "address",
    anyCase "string",
    .seq (anyCase "bytes") (optional (oneOf (["1", "2", "4", "8", "16", "32"].map word)))]

/-- `/https?:\/\//` -/
def schemePattern : Regex CodePoint :=
  .seq (word "http") (.seq (optional (word "s")) (word "://"))

end Patterns

section Engine

inductive Intent where
  | fdcSelector
  | solidity
  | ftsoList
  | arch

def classifyIntent (q : JsString) : Intent :=
  if q.includes "fdc selector" || q.includes "web2json selector" || q.includes "build fdc" then
    .fdcSelector
  else if q.includes "boilerplate" || q.includes "contract code" || q.includes "solidity for" then
    .solidity
  else if (q.includes "ftso" || q.includes "feed") && (q.includes "list" || q.includes "ids") then
    .ftsoList
  else if (q.find schemePattern).isSome && (q.includes "jq" || q.includes "selector" ||
      q.includes "path" || q.includes "." || q.includes "with") then
    .fdcSelector
  else if q.includes "ftso" && (q.includes "feed id" || q.includes "list feed" ||
      q.includes "list ftso") then
    .ftsoList
  else .arch

structure ArchEntry where
  keywords : List String
  answer : String

def scoreEntry (q : JsString) (entry : ArchEntry) : Nat :=
  entry.keywords.foldl (fun score kw => if q.includes kw then score + (ofString kw).length else score) 0

def findBestArchAnswer (kb : List ArchEntry) (q : JsString) : Option String :=
  let best := kb.foldl (fun (best : Option ArchEntry × Nat) entry =>
    if best.2 < scoreEntry q entry then (some entry, scoreEntry q entry) else best) (none, 0)
  best.1.bind fun entry => if 3 ≤ best.2 then some entry.answer else none

inductive BoilerplateKind where
  | web2Json
  | ftsoV2

/-- The answers, without the texts that do not depend on the query. -/
inductive CopilotResponse where
  | fdcSelector (config : FdcWeb2JsonConfig)
  | solidity (kind : BoilerplateKind)
  | ftso
  | architecture (text : String)
  | help
  | error (text : String)

def completed : JsString := ⟨ofString ".completed", by decide⟩

def bool : JsString := ⟨ofString "bool", by decide⟩

def answerFdc (newUrl : Str → Option ParsedUrl) (q : JsString) : CopilotResponse :=
  let urlMatch := q.find urlPattern
  let remainder := urlMatch.elim q q.without
  let jq := (remainder.find jqPattern).getD completed
  let abi := (remainder.findWord abiPattern).getD bool
  match urlMatch with
  | none => .error ("I need the Web2 URL to build an FDC selector — paste it as an https:// URL " ++
      "(the FDC only attests HTTPS endpoints).")
  | some url =>
    match generateFdcSelector newUrl url jq abi with
    | .error text => .error text
    | .ok config => .fdcSelector config

/-- An error is what is thrown. -/
def answerQuery (newUrl : Str → Option ParsedUrl) (unicode : Str → CodePoint → Str → Str)
    (kb : List ArchEntry) (query : JsString) : Except String CopilotResponse := do
  let q ← query.trim.toLowerCase unicode
  if q.chars.length = 0 then return .help
  match classifyIntent q with
  | .ftsoList => return .ftso
  | .solidity =>
    return .solidity (if q.includes "ftso" || q.includes "price" then .ftsoV2 else .web2Json)
  | .fdcSelector => return answerFdc newUrl q
  | .arch => return (findBestArchAnswer kb q).elim .help .architecture

end Engine

section Letters

/-- A class that has both cases of every letter or none. -/
theorem blind_class {p : CodePoint → Bool}
    (table : (List.finRange 26).all (fun i => p ⟨i.val + 0x61, by omega⟩ == p ⟨i.val + 0x41, by omega⟩) =
      true) (c : CodePoint) : p (asciiLower c) = p c := by
  rw [asciiLower]
  split
  · rename_i upper
    have entry := List.all_eq_true.mp table ⟨c.val - 0x41, by omega⟩ (List.mem_finRange _)
    have low : (⟨c.val - 0x41 + 0x61, by omega⟩ : CodePoint) = ⟨c.val + 0x20, by omega⟩ :=
      Fin.ext (by simp only; omega)
    have high : (⟨c.val - 0x41 + 0x41, by omega⟩ : CodePoint) = c := Fin.ext (by simp only; omega)
    simp only [low, high] at entry
    exact beq_iff_eq.mp entry
  · rfl

theorem blind_word {s : String} (table : (ofString s).all (fun a => (List.finRange 26).all fun i =>
      decide ((⟨i.val + 0x61, by omega⟩ : CodePoint) = a) ==
        decide ((⟨i.val + 0x41, by omega⟩ : CodePoint) = a)) = true) :
    (word s).Blind asciiLower := by
  apply blind_literal
  intro a listed
  exact @blind_class (fun c => decide (c = a)) (List.all_eq_true.mp table a listed)

theorem asciiLower_idem (c : CodePoint) : asciiLower (asciiLower c) = asciiLower c := by
  by_cases upper : 0x41 ≤ c.val ∧ c.val ≤ 0x5A
  · have lower : asciiLower c = ⟨c.val + 0x20, by omega⟩ := dif_pos upper
    rw [lower]
    exact dif_neg (by simp only; omega)
  · have same : asciiLower c = c := dif_neg upper
    rw [same, same]

theorem anyCase_blind (s : String) : (anyCase s).Blind asciiLower := by
  rw [anyCase]
  induction ofString s with
  | nil => trivial
  | cons a w ih =>
    refine ⟨?_, ih⟩
    intro c
    exact congrArg (fun lower => decide (lower = a)) (asciiLower_idem c)

theorem urlPattern_blind : urlPattern.Blind asciiLower :=
  ⟨anyCase_blind _, ⟨anyCase_blind _, trivial⟩, blind_word (by decide),
    blind_class (by decide), blind_class (by decide)⟩

theorem jqStep_blind : jqStep.Blind asciiLower :=
  ⟨blind_word (by decide), ⟨blind_class (by decide), blind_class (by decide)⟩,
    ⟨blind_word (by decide), ⟨blind_class (by decide), blind_class (by decide)⟩,
      blind_word (by decide)⟩, trivial⟩

theorem jqPattern_blind : jqPattern.Blind asciiLower := ⟨jqStep_blind, jqStep_blind⟩

end Letters

section Matches
variable {s word : JsString} {r : Regex CodePoint}

theorem find_eq_some : s.find r = some word ↔
    ∃ before after, FirstMatch r s.chars before word.chars after := by
  rw [JsString.find]
  split
  · rename_i none
    refine iff_of_false nofun ?_
    rintro ⟨before, after, first⟩
    rw [find_iff.mpr first] at none
    cases none
  · rename_i before found after here
    rw [Option.some.injEq]
    constructor
    · rintro rfl
      exact ⟨before, after, find_iff.mp here⟩
    · rintro ⟨before', after', first⟩
      rw [find_iff.mpr first] at here
      cases here
      rfl

theorem find_eq_none : s.find r = none ↔ NoMatch r s.chars := by
  rw [← find_none, JsString.find]
  split
  · rename_i none
    exact iff_of_true rfl none
  · rename_i here
    refine iff_of_false nofun ?_
    intro none
    rw [here] at none
    cases none

theorem without_chars {before after : Str} (first : FirstMatch r s.chars before word.chars after) :
    (s.without word).chars = before ++ after := first.removeFirst

theorem trimChars_subset (text : Str) : trimChars text ⊆ text := by
  intro c listed
  have back := (List.dropWhile_suffix isJsSpace).subset (List.mem_reverse.mp listed)
  exact (List.dropWhile_suffix isJsSpace).subset (List.mem_reverse.mp back)

theorem dropWhile_solid {text : Str} (solid : ∀ c ∈ text, isJsSpace c = false) :
    text.dropWhile isJsSpace = text := by
  cases text with
  | nil => rfl
  | cons c text => simp [solid c List.mem_cons_self]

theorem trim_solid (solid : ∀ c ∈ word.chars, isJsSpace c = false) : word.trim = word := by
  have back : ∀ c ∈ word.chars.reverse, isJsSpace c = false := by
    intro c listed
    exact solid c (List.mem_reverse.mp listed)
  have chars : trimChars word.chars = word.chars := by
    rw [trimChars, dropWhile_solid solid, dropWhile_solid back, List.reverse_reverse]
  exact JsString.ext chars

/-- A match of classes without white space stays as it is when it is trimmed. -/
theorem find_trim (found : s.find r = some word) (solid : r.Within (isJsSpace · = false)) :
    word.trim = word := by
  obtain ⟨before, after, first⟩ := find_eq_some.mp found
  exact trim_solid (first.here.matched.within solid)

theorem visible_solid (c : CodePoint) (visible : IsVisible c) : isJsSpace c = false := by
  obtain ⟨low, high⟩ := visible
  have table : ∀ n ∈ List.range' 0x21 94, isJsSpace (Fin.ofNat 0x110000 n) = false :=
    forall_listed (by decide)
  have entry := table c.val (List.mem_range'_1.mpr ⟨low, by omega⟩)
  rwa [Fin.ofNat_val_eq_self] at entry

theorem anyCase_visible {w : String}
    (letters : (ofString w).all (fun a => 0x61 ≤ a.val ∧ a.val ≤ 0x7A) = true) :
    (anyCase w).Within IsVisible := by
  rw [anyCase]
  generalize ofString w = text at letters
  induction text with
  | nil => trivial
  | cons a text ih =>
    rw [List.all_cons, Bool.and_eq_true] at letters
    refine ⟨?_, ih letters.2⟩
    intro c same
    have letter := of_decide_eq_true letters.1
    have same := of_decide_eq_true same
    by_cases upper : 0x41 ≤ c.val ∧ c.val ≤ 0x5A
    · exact ⟨by omega, by omega⟩
    · have here : asciiLower c = c := dif_neg upper
      rw [← same, here] at letter
      exact ⟨by omega, by omega⟩

theorem isUrlPart_solid (c : CodePoint) (part : isUrlPart c = true) : isJsSpace c = false := by
  rw [isUrlPart, Bool.and_eq_true, Bool.not_eq_true'] at part
  exact part.1

theorem urlPattern_solid : urlPattern.Within (isJsSpace · = false) := by
  have anyCase {w : String}
      (letters : (ofString w).all (fun a => 0x61 ≤ a.val ∧ a.val ≤ 0x7A) = true) :=
    (anyCase_visible letters).mono visible_solid
  exact ⟨anyCase (by decide), ⟨anyCase (by decide), trivial⟩,
    (within_word (by decide)).mono visible_solid, isUrlPart_solid, isUrlPart_solid⟩

theorem jqStep_visible : jqStep.Within IsVisible :=
  ⟨within_word (by decide), fieldName_visible, indexed_visible, trivial⟩

theorem jqPattern_solid : jqPattern.Within (isJsSpace · = false) := by
  have step : jqStep.Within (isJsSpace · = false) := jqStep_visible.mono visible_solid
  exact ⟨step, step⟩

end Matches

section Answers
variable {newUrl : Str → Option ParsedUrl} {unicode : Str → CodePoint → Str → Str}
  {kb : List ArchEntry} {query q : JsString} {config : FdcWeb2JsonConfig}

theorem lower_chars (lowered : query.toLowerCase unicode = .ok q) :
    q.chars = lowerFrom unicode [] query.chars := by
  rw [JsString.toLowerCase] at lowered
  split at lowered
  · cases lowered
    rfl
  · cases lowered

theorem answerQuery_fdc (answered : answerQuery newUrl unicode kb query = .ok (.fdcSelector config)) :
    ∃ q, query.trim.toLowerCase unicode = .ok q ∧ answerFdc newUrl q = .fdcSelector config := by
  rw [answerQuery, Results.except_bind_ok] at answered
  obtain ⟨q, lowered, answered⟩ := answered
  refine ⟨q, lowered, ?_⟩
  split at answered
  · cases answered
  split at answered
  · cases answered
  · cases answered
  · exact Except.ok.inj answered
  · cases best : findBestArchAnswer kb q <;> rw [best] at answered <;> cases answered

theorem answerFdc_config (answered : answerFdc newUrl q = .fdcSelector config) :
    ∃ url jq abi, q.find urlPattern = some url ∧
      jq = ((q.without url).find jqPattern).getD completed ∧
      generateFdcSelector newUrl url jq abi = .ok config := by
  rw [answerFdc] at answered
  cases found : q.find urlPattern with
  | none =>
    rw [found] at answered
    cases answered
  | some url =>
    rw [found] at answered
    dsimp only at answered
    split at answered
    · cases answered
    · rename_i made
      cases answered
      exact ⟨url, _, _, rfl, rfl, made⟩

/-- The first URL of a text and the first path of the rest, or the default where there is none, are
    as they should. -/
def Named (right : Str → Prop) (text : Str) : Prop :=
  ∃ before url after, FirstMatch urlPattern text before url after ∧ right url ∧
    ((∃ b path a, FirstMatch jqPattern (before ++ after) b path a ∧ right path) ∨
      NoMatch jqPattern (before ++ after) ∧ right (ofString ".completed"))

/-- The request encodes the texts of the config, which are stretches of the query. -/
structure AsTyped (query : JsString) (config : FdcWeb2JsonConfig) : Prop where
  url : config.url.chars <:+: query.chars
  jq : config.postProcessJq.chars <:+: query.chars
  body : config.requestBody.url = config.url.text ∧
    config.requestBody.postProcessJq = config.postProcessJq.text
  encoded : encodeFdcWeb2JsonRequest config.requestBody = .ok config.abiEncodedRequest

/-- What the config of an answer is made of. -/
theorem config_texts (answered : answerFdc newUrl q = .fdcSelector config) :
    ∃ before after, FirstMatch urlPattern q.chars before config.url.chars after ∧
      ((∃ b a, FirstMatch jqPattern (before ++ after) b config.postProcessJq.chars a) ∨
        NoMatch jqPattern (before ++ after) ∧ config.postProcessJq = completed) := by
  obtain ⟨url, jq, abi, found, path, ok⟩ := answerFdc_config answered
  obtain ⟨before, after, first⟩ := find_eq_some.mp found
  obtain ⟨sameUrl, sameJq⟩ := (made_of ok).texts
  rw [find_trim found urlPattern_solid] at sameUrl
  rw [sameUrl, sameJq]
  refine ⟨before, after, first, ?_⟩
  rw [← without_chars first]
  cases named : (q.without url).find jqPattern with
  | none =>
    rw [named] at path
    have default : jq = completed := path
    rw [default]
    exact Or.inr ⟨find_eq_none.mp named, trim_solid (forall_listed (by decide))⟩
  | some word =>
    rw [named] at path
    have given : jq = word := path
    rw [given, find_trim named jqPattern_solid]
    exact Or.inl (find_eq_some.mp named)

theorem config_named (answered : answerFdc newUrl q = .fdcSelector config) (right : Str → Prop) :
    right config.url.chars ∧ right config.postProcessJq.chars ↔ Named right q.chars := by
  obtain ⟨before, after, first, path⟩ := config_texts answered
  constructor
  · rintro ⟨url, jq⟩
    refine ⟨before, _, after, first, url, ?_⟩
    rcases path with ⟨b, a, found⟩ | ⟨none, default⟩
    · exact Or.inl ⟨b, _, a, found, jq⟩
    · rw [default] at jq
      exact Or.inr ⟨none, jq⟩
  · rintro ⟨before', url', after', first', url, named⟩
    obtain ⟨rfl, rfl, rfl⟩ := first.unique first'
    refine ⟨url, ?_⟩
    rcases path with ⟨b, a, found⟩ | ⟨none, default⟩
    · rcases named with ⟨b', path', a', found', jq⟩ | ⟨none, _⟩
      · obtain ⟨_, rfl, _⟩ := found.unique found'
        exact jq
      · exact absurd found.here.matched (none _ _ _ found.split)
    · rw [default]
      rcases named with ⟨b', path', a', found', _⟩ | ⟨_, jq⟩
      · exact absurd found'.here.matched (none _ _ _ found'.split)
      · exact jq

theorem lowerFrom_ascii {s : Str} (ascii : ∀ c ∈ s, c.val < 0x80) (before : Str) :
    lowerFrom unicode before s = s.map asciiLower := by
  induction s generalizing before with
  | nil => rfl
  | cons c s ih =>
    rw [List.forall_mem_cons] at ascii
    rw [lowerFrom, if_pos ascii.1, ih ascii.2, List.map_cons, List.singleton_append]

/-- What is named in a text is named in its lower case. -/
theorem named_lower (right : Str → Prop) (text : Str) :
    Named right (text.map asciiLower) ↔ Named (fun word => right (word.map asciiLower)) text := by
  have default : (ofString ".completed").map asciiLower = ofString ".completed" := by decide
  unfold Named
  constructor
  · rintro ⟨_, _, _, first, url, named⟩
    obtain ⟨before, word, after, first', rfl, rfl, rfl⟩ := urlPattern_blind.firstMatch.mp first
    rw [← List.map_append] at named
    refine ⟨before, word, after, first', url, ?_⟩
    rcases named with ⟨_, _, _, found, jq⟩ | ⟨none, jq⟩
    · obtain ⟨b, path, a, found', rfl, rfl, rfl⟩ := jqPattern_blind.firstMatch.mp found
      exact Or.inl ⟨b, path, a, found', jq⟩
    · exact Or.inr ⟨jqPattern_blind.noMatch.mp none, default.symm ▸ jq⟩
  · rintro ⟨before, word, after, first, url, named⟩
    refine ⟨_, _, _, urlPattern_blind.firstMatch.mpr ⟨before, word, after, first, rfl, rfl, rfl⟩, url, ?_⟩
    rw [← List.map_append]
    rcases named with ⟨b, path, a, found, jq⟩ | ⟨none, jq⟩
    · exact Or.inl ⟨_, _, _, jqPattern_blind.firstMatch.mpr ⟨b, path, a, found, rfl, rfl, rfl⟩, jq⟩
    · exact Or.inr ⟨jqPattern_blind.noMatch.mpr none, default ▸ jq⟩

theorem as_typed_within (answered : answerFdc newUrl q = .fdcSelector config) :
    AsTyped query config ↔
      config.url.chars <:+: query.chars ∧ config.postProcessJq.chars <:+: query.chars := by
  obtain ⟨url, jq, abi, _, _, ok⟩ := answerFdc_config answered
  have made := made_of ok
  obtain ⟨sameUrl, sameJq⟩ := made.texts
  constructor
  · intro typed
    exact ⟨typed.url, typed.jq⟩
  · rintro ⟨inUrl, inJq⟩
    refine ⟨inUrl, inJq, ?_, made.encoded⟩
    rw [made.body, sameUrl, sameJq]
    exact ⟨rfl, rfl⟩

/-- The request is as typed exactly when the query has no capital letter in what it names: what its
    lower-case text names stands in it, or in ASCII, the lower case of what it names itself. -/
theorem as_typed_iff
    (answered : answerQuery newUrl unicode kb query = .ok (.fdcSelector config)) :
    (AsTyped query config ↔
      Named (· <:+: query.chars) (lowerFrom unicode [] query.trim.chars)) ∧
    ((∀ c ∈ query.chars, c.val < 0x80) → (AsTyped query config ↔
      Named (fun word => word.map asciiLower <:+: query.chars) query.trim.chars)) := by
  obtain ⟨q, lowered, answered⟩ := answerQuery_fdc answered
  have named : AsTyped query config ↔
      Named (· <:+: query.chars) (lowerFrom unicode [] query.trim.chars) := by
    rw [as_typed_within answered, ← lower_chars lowered]
    exact config_named answered (· <:+: query.chars)
  refine ⟨named, ?_⟩
  intro ascii
  have trimmed : ∀ c ∈ query.trim.chars, c.val < 0x80 := by
    intro c listed
    exact ascii c (trimChars_subset query.chars listed)
  rw [named, lowerFrom_ascii trimmed]
  exact named_lower _ _

end Answers

section Samples

/-- `new URL` at the two URLs below. -/
def quotedUrls (url : Str) : Option ParsedUrl :=
  if url = ofString "https://api.example.com/price" then
    some ⟨ofString "https:", ofString "api.example.com"⟩
  else none

/-- A query in ASCII meets no data of Unicode. -/
def noUnicode (_ : Str) (c : CodePoint) (_ : Str) : Str := [c]

def sampleAnswer (query : JsString) : Except String CopilotResponse :=
  answerQuery quotedUrls noUnicode [] query

def CopilotResponse.config : CopilotResponse → Option FdcWeb2JsonConfig
  | .fdcSelector config => some config
  | _ => none

theorem sampleAnswer_fdc {query : JsString}
    (answered : ((sampleAnswer query).toOption.bind CopilotResponse.config).isSome = true) :
    ∃ config, sampleAnswer query = .ok (.fdcSelector config) := by
  obtain ⟨config, found⟩ := Option.isSome_iff_exists.mp answered
  obtain ⟨response, answer, config'⟩ := Option.bind_eq_some_iff.mp found
  refine ⟨config, ?_⟩
  rw [Results.toOption_some.mp answer]
  cases response <;> cases config'
  rfl

def lowerQuery : JsString :=
  js "fdc selector for https://api.example.com/price with .data" (by decide)

def capitalQuery : JsString :=
  js "FDC selector for https://api.example.com/Price with .Data" (by decide)

theorem as_typed_iff_lower : ∃ config,
    sampleAnswer lowerQuery = .ok (.fdcSelector config) ∧ AsTyped lowerQuery config := by
  obtain ⟨config, answered⟩ := @sampleAnswer_fdc lowerQuery (by decide +kernel)
  refine ⟨config, answered, ?_⟩
  have url : find urlPattern lowerQuery.trim.chars = some (ofString "fdc selector for ",
      ofString "https://api.example.com/price", ofString " with .data") := by decide +kernel
  have path : find jqPattern (ofString "fdc selector for " ++ ofString " with .data") =
      some (ofString "fdc selector for  with ", ofString ".data", []) := by decide +kernel
  refine ((as_typed_iff answered).2 (forall_listed (by decide +kernel))).mpr ?_
  exact ⟨_, _, _, find_iff.mp url, by decide +kernel,
    Or.inl ⟨_, _, _, find_iff.mp path, by decide +kernel⟩⟩

/-- The path of the URL and the field are encoded in small letters. -/
theorem capitals_lost : ∃ config,
    sampleAnswer capitalQuery = .ok (.fdcSelector config) ∧ ¬ AsTyped capitalQuery config := by
  obtain ⟨config, answered⟩ := @sampleAnswer_fdc capitalQuery (by decide +kernel)
  refine ⟨config, answered, ?_⟩
  obtain ⟨q, lowered, answered⟩ := answerQuery_fdc answered
  obtain ⟨before, after, first, _⟩ := config_texts answered
  have url : find urlPattern (lowerFrom noUnicode [] capitalQuery.trim.chars) =
      some (ofString "fdc selector for ", ofString "https://api.example.com/price",
        ofString " with .data") := by decide +kernel
  rw [lower_chars lowered] at first
  obtain ⟨_, small, _⟩ := first.unique (find_iff.mp url)
  intro typed
  have inside := typed.url
  rw [small] at inside
  exact absurd inside (by decide +kernel)

end Samples

end Frontend
