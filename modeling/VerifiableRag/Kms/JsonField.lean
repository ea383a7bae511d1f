import VerifiableRag.Library.JsonAscii
import VerifiableRag.Library.Occurrence
import VerifiableRag.Library.PyStr

/-!
`json_str_field`: the substring scanner that takes the access token and the key shard out of the
answers of STS and KMS, against the grammar of flat JSON objects.
-/
namespace Kms
open Bytes Json Occurrence

section Scanner

/-- `char::is_whitespace`, in UTF-8. -/
def whiteSpace : List Text :=
  ([0x9, 0xA, 0xB, 0xC, 0xD, 0x20, 0x85, 0xA0, 0x1680] ++ List.range' 0x2000 11 ++
    [0x2028, 0x2029, 0x202F, 0x205F, 0x3000]).map Unicode.encode

def trimStart (s : Text) : Text := PyStr.dropForms whiteSpace 0 s

def fieldNeedle (key : Text) : Text := 0x22 :: (key ++ [0x22, 0x3A])

/-- What stands before the next quote. -/
def upToQuote (v : Text) : Option Text := if 0x22 ∈ v then some (v.takeWhile (· ≠ 0x22)) else none

def jsonStrField (body key : Text) : Option Text := do
  let rest ← behindFirst (fieldNeedle key) body
  match trimStart rest with
  | 0x22 :: v => upToQuote v
  | _ => none

end Scanner

section Objects

/-- White space of JSON. -/
abbrev Space := {s : Text // s.all isSpace = true}

inductive FlatValue where
  | str (s : Literal)
  | number (n : Number)
  | bool (b : Bool)
  | null

def FlatValue.source : FlatValue → Text
  | .str s => 0x22 :: (s.source ++ [0x22])
  | .number n => n.parts.source
  | .bool b => if b then utf8 "true" else utf8 "false"
  | .null => utf8 "null"

def FlatValue.value : FlatValue → Value
  | .str s => .str s.value
  | .number n => n.parts.value
  | .bool b => .bool b
  | .null => .null

structure Member where
  before : Space
  name : Literal
  beforeColon : Space
  afterColon : Space
  value : FlatValue
  after : Space

/-- The text behind the name of a member, from its closing quote on. -/
def Member.behindName (m : Member) (rest : Text) : Text :=
  m.beforeColon.val ++ 0x3A :: (m.afterColon.val ++ (m.value.source ++ (m.after.val ++ rest)))

def Member.source (m : Member) (rest : Text) : Text :=
  m.before.val ++ 0x22 :: (m.name.source ++ 0x22 :: m.behindName rest)

structure FlatObject where
  lead : Space
  inner : Space
  members : List Member
  trail : Space

/-- The members after one, and the end of the object. -/
def tailSource (trail : Text) : List Member → Text
  | [] => 0x7D :: trail
  | m :: members => 0x2C :: m.source (tailSource trail members)

namespace FlatObject

def source (object : FlatObject) : Text :=
  object.lead.val ++ 0x7B :: (match object.members with
    | [] => object.inner.val ++ 0x7D :: object.trail.val
    | m :: members => m.source (tailSource object.trail.val members))

def values (object : FlatObject) : List (Text × Value) :=
  object.members.map fun m => (m.name.value, m.value.value)

/-- The string value of a key, if it has one; the last member of a name counts. -/
def string (object : FlatObject) (key : Text) : Option Text :=
  match lookup object.values key with
  | some (.str v) => some v
  | _ => none

end FlatObject

/-- The scanner reads the object as JSON says. -/
def ReadsField (object : FlatObject) (key : Text) : Prop :=
  jsonStrField object.source key = object.string key

end Objects

section Reader
variable {rest : Text} {fuel depth : Nat}

theorem skip_space (ws : Space) : skip (ws.val ++ rest) = skip rest := by
  rw [skip, List.dropWhile_append_of_pos (List.all_eq_true.mp ws.property)]
  rfl

theorem skip_to (ws : Space) {b : UInt8} (solid : isSpace b = false) :
    skip (ws.val ++ b :: rest) = b :: rest := by
  rw [skip_space, skip_cons solid]

theorem value_start (value : FlatValue) : (∃ lit, value = .str lit) ∨ ∃ b s,
    value.source = b :: s ∧ (0x21 ≤ b ∧ b ≤ 0x7E) ∧ b ≠ 0x22 := by
  cases value with
  | str lit => exact Or.inl ⟨lit, rfl⟩
  | number n =>
    have digits : ∀ c : UInt8, isDigit c → (0x21 ≤ c ∧ c ≤ 0x7E) ∧ c ≠ 0x22 :=
      forall_byte (by decide +kernel)
    obtain ⟨d, s, digit, start | start⟩ := n.start
    · exact Or.inr ⟨d, s, start, digits d digit⟩
    · exact Or.inr ⟨0x2D, d :: s, start, by decide⟩
  | bool b => cases b <;> exact Or.inr ⟨_, _, rfl, by decide⟩
  | null => exact Or.inr ⟨_, _, rfl, by decide⟩

theorem skip_value (ws : Space) (value : FlatValue) :
    skip (ws.val ++ (value.source ++ rest)) = value.source ++ rest := by
  have visible : ∀ b : UInt8, 0x21 ≤ b ∧ b ≤ 0x7E → isSpace b = false := forall_byte (by decide +kernel)
  rcases value_start value with ⟨lit, rfl⟩ | ⟨b, s, start, solid, _⟩
  · exact skip_to ws (by decide)
  · rw [start, List.cons_append, skip_to ws (visible b solid)]

/-- What follows a value: white space, a comma or the end. -/
theorem stops_behind (ws : Space) {b : UInt8} (mark : b = 0x2C ∨ b = 0x7D) :
    Stops (ws.val ++ b :: rest) := by
  have space : ∀ c : UInt8, isSpace c = true → ¬ NumberChar c := forall_byte (by decide +kernel)
  obtain ⟨ws, spaces⟩ := ws
  intro c head
  cases ws with
  | nil =>
    cases head
    rcases mark with rfl | rfl <;> decide
  | cons c' ws =>
    cases head
    rw [List.all_cons, Bool.and_eq_true] at spaces
    exact space c spaces.1

theorem scanValue_flat (value : FlatValue) (stops : Stops rest) :
    Yields (value.value, rest) (scanValue (fuel + 1) depth (value.source ++ rest)) := by
  have constant : ∀ c : Constant, scanValue (fuel + 1) depth (c.source ++ rest) =
      .ok (c.value, rest) := by
    intro c
    rw [← scanScalar_constant]
    cases c <;> exact scanValue_scalar (by decide) (by decide) (by decide)
  cases value with
  | str lit =>
    have text : (FlatValue.str lit).source ++ rest = 0x22 :: (lit.source ++ 0x22 :: rest) := by
      simp [FlatValue.source]
    rw [text, scanValue, scanString_source]
    exact .value
  | number n =>
    have other : ∀ c : UInt8, isDigit c → c ≠ 0x22 ∧ c ≠ 0x5B ∧ c ≠ 0x7B :=
      forall_byte (by decide +kernel)
    have start : scanValue (fuel + 1) depth (n.parts.source ++ rest) =
        scanScalar (n.parts.source ++ rest) := by
      obtain ⟨c, t, digit, start | start⟩ := n.start
      · obtain ⟨quote, arr, obj⟩ := other c digit
        rw [start]
        exact scanValue_scalar quote arr obj
      · rw [start]
        exact scanValue_scalar (by decide) (by decide) (by decide)
    rw [FlatValue.source, start]
    exact scanScalar_number n stops
  | bool b =>
    cases b with
    | false => exact constant .false ▸ .value
    | true => exact constant .true ▸ .value
  | null => exact constant .null ▸ .value

theorem scanMembers_flat (m : Member) (members : List Member) (trail : Space)
    (enough : members.length + 2 ≤ fuel) :
    Yields ((m :: members).map (fun m => (m.name.value, m.value.value)), trail.val)
      (scanMembers fuel depth (0x22 :: (m.name.source ++ 0x22 ::
        m.behindName (tailSource trail.val members)))) := by
  induction members generalizing m fuel with
  | nil =>
    obtain ⟨fuel, rfl⟩ : ∃ n, fuel = n + 2 := ⟨fuel - 2, by simp at enough; omega⟩
    rw [scanMembers, scanString_source]
    refine Yields.value.bind ?_
    simp only [Member.behindName, skip_to m.beforeColon (show isSpace 0x3A = false by decide),
      skip_value]
    refine (scanValue_flat m.value (stops_behind m.after (Or.inr rfl))).bind ?_
    simp only [skip_to m.after (show isSpace 0x7D = false by decide)]
    exact .value
  | cons m' members ih =>
    obtain ⟨fuel, rfl⟩ : ∃ n, fuel = n + 2 := ⟨fuel - 2, by simp at enough; omega⟩
    have next := @ih (fuel + 1) m' (by simp at enough; omega)
    rw [scanMembers, scanString_source]
    refine Yields.value.bind ?_
    simp only [Member.behindName, skip_to m.beforeColon (show isSpace 0x3A = false by decide),
      skip_value]
    refine (scanValue_flat m.value (stops_behind m.after (Or.inl rfl))).bind ?_
    simp only [skip_to m.after (show isSpace 0x2C = false by decide), Member.source,
      skip_to m'.before (show isSpace 0x22 = false by decide)]
    exact next.bind .value

theorem tailSource_length (trail : Text) (members : List Member) :
    members.length < (tailSource trail members).length := by
  induction members with
  | nil => exact Nat.succ_pos _
  | cons m members ih =>
    rw [tailSource, List.length_cons, List.length_cons, Member.source, Member.behindName]
    simp only [List.length_append, List.length_cons]
    omega

theorem members_length (object : FlatObject) : object.members.length ≤ object.source.length := by
  rw [FlatObject.source, List.length_append, List.length_cons]
  cases object.members with
  | nil => exact Nat.zero_le _
  | cons m members =>
    have tail := tailSource_length object.trail.val members
    dsimp only
    rw [Member.source, Member.behindName]
    simp only [List.length_append, List.length_cons]
    omega

/-- The text of an object is JSON, and a reader within its limits finds these members. -/
theorem decodeJson_object (object : FlatObject) (depth : Nat) :
    Yields (.obj object.values) (decodeJson depth object.source) := by
  have enough := members_length object
  have done : skip object.trail.val = [] := by
    have skipped := @skip_space [] object.trail
    rwa [List.append_nil] at skipped
  have closed : ∀ v : Value, Yields v (if skip object.trail.val = [] then pure v else .error .decode) := by
    intro v
    rw [if_pos done]
    exact .value
  rw [decodeJson]
  generalize object.source.length = size at enough
  rw [FlatObject.source, skip_to object.lead (show isSpace 0x7B = false by decide)]
  cases depth with
  | zero => exact .limit (Or.inr rfl)
  | succ depth =>
    rw [FlatObject.values]
    cases listed : object.members with
    | nil =>
      rw [scanValue]
      simp only [skip_to object.inner (show isSpace 0x7D = false by decide)]
      exact Yields.value.bind (closed _)
    | cons m members =>
      have opened := @skip_to (m.name.source ++ 0x22 :: m.behindName (tailSource object.trail.val members))
        m.before 0x22 (by decide)
      have scanned := @scanMembers_flat (2 * size + 1) depth m members object.trail (by
        rw [listed, List.length_cons] at enough
        omega)
      have read := @Yields.bind _ _ _ (Value.obj _, object.trail.val) _
        (fun found => .ok (.obj found.1, found.2)) scanned .value
      dsimp only
      rw [Member.source, scanValue_opened _ _ opened]
      exact read.bind (closed _)

end Reader

section Places
variable {body key rest v : Text}

/-- Behind white space stands a text in quotes, up to the next quote. -/
def Quoted (rest v : Text) : Prop := ∃ after, trimStart rest = 0x22 :: (v ++ 0x22 :: after) ∧ 0x22 ∉ v

theorem upToQuote_quote {after : Text} (free : 0x22 ∉ v) :
    upToQuote (v ++ 0x22 :: after) = some v := by
  have inside : 0x22 ∈ v ++ 0x22 :: after := List.mem_append_right _ List.mem_cons_self
  have plain : ∀ b ∈ v, decide (b ≠ 0x22) = true := by
    intro b listed
    rw [decide_eq_true_iff]
    rintro rfl
    exact free listed
  rw [upToQuote, if_pos inside, List.takeWhile_append_of_pos plain]
  simp

theorem upToQuote_iff {s : Text} :
    upToQuote s = some v ↔ ∃ after, s = v ++ 0x22 :: after ∧ 0x22 ∉ v := by
  constructor
  · intro found
    have inside : 0x22 ∈ s := by
      by_contra outside
      rw [upToQuote, if_neg outside] at found
      cases found
    obtain ⟨w, after, rfl, free⟩ := List.eq_append_cons_of_mem inside
    rw [upToQuote_quote free] at found
    cases found
    exact ⟨after, rfl, free⟩
  · rintro ⟨after, rfl, free⟩
    exact upToQuote_quote free

theorem jsonStrField_behind (found : behindFirst (fieldNeedle key) body = some rest) :
    jsonStrField body key = some v ↔ Quoted rest v := by
  rw [jsonStrField, found, Quoted]
  dsimp only [Option.bind_eq_bind, Option.bind_some]
  split
  · rename_i text trimmed
    rw [upToQuote_iff]
    simp only [trimmed, List.cons.injEq, true_and]
  · rename_i other
    refine iff_of_false (by simp) ?_
    rintro ⟨after, trimmed, _⟩
    exact other _ trimmed

theorem jsonStrField_some : jsonStrField body key = some v ↔
    ∃ before rest, FirstAt (fieldNeedle key) body before rest ∧ Quoted rest v := by
  constructor
  · intro read
    obtain ⟨rest, found, _⟩ := Option.bind_eq_some_iff.mp read
    obtain ⟨before, first⟩ := behindFirst_iff.mp found
    exact ⟨before, rest, first, (jsonStrField_behind found).mp read⟩
  · rintro ⟨before, rest, first, quoted⟩
    exact (jsonStrField_behind (behindFirst_iff.mpr ⟨before, first⟩)).mpr quoted

/-- What the raw text has to say of a key: behind the first place with the key in quotes and a colon
    stands the value, spelled letter for letter in quotes, or no text in quotes. -/
structure Spelled (object : FlatObject) (key : Text) : Prop where
  present : ∀ v, object.string key = some v →
    ∃ before rest, FirstAt (fieldNeedle key) object.source before rest ∧ Quoted rest v
  absent : object.string key = none →
    ∀ before rest v, FirstAt (fieldNeedle key) object.source before rest → ¬ Quoted rest v

theorem readsField_iff_spelled {object : FlatObject} : ReadsField object key ↔ Spelled object key := by
  rw [ReadsField]
  constructor
  · intro reads
    refine ⟨?_, ?_⟩
    · intro v given
      exact jsonStrField_some.mp (reads.trans given)
    · intro missing before rest v first quoted
      have found := jsonStrField_some.mpr ⟨before, rest, first, quoted⟩
      rw [reads, missing] at found
      cases found
  · intro spelled
    cases value : object.string key with
    | some v => exact jsonStrField_some.mpr (spelled.present v value)
    | none =>
      cases found : jsonStrField object.source key with
      | none => rfl
      | some v =>
        obtain ⟨before, rest, first, quoted⟩ := jsonStrField_some.mp found
        exact absurd quoted (spelled.absent value before rest v first)

end Places

section Words
variable {key rest s t : Text}

/-- No quote, backslash, colon or comma, as in the names of fields. -/
def IsWord (key : Text) : Prop := ∀ b ∈ key, b ≠ 0x22 ∧ b ≠ 0x5C ∧ b ≠ 0x3A ∧ b ≠ 0x2C

instance (key : Text) : Decidable (IsWord key) := inferInstanceAs (Decidable (∀ b ∈ key, _))

def Free (s : Text) : Prop := ∀ b ∈ s, b ≠ 0x22

theorem space_free (ws : Space) : Free ws.val := by
  intro b listed same
  have space := List.all_eq_true.mp ws.property b listed
  rw [same] at space
  cases space

theorem space_colon {ws : Space} (colon : (ws.val ++ s).head? = some 0x3A) : ws.val = [] := by
  obtain ⟨ws, spaces⟩ := ws
  cases ws with
  | nil => rfl
  | cons b ws =>
    cases colon
    cases spaces

theorem needle_here : fieldNeedle key <+: 0x22 :: s ↔ key ++ [0x22, 0x3A] <+: s := by
  rw [fieldNeedle, List.cons_prefix_cons, and_iff_right rfl]

theorem needle_skip (free : Free t) :
    behindFirst (fieldNeedle key) (t ++ s) = behindFirst (fieldNeedle key) s := by
  apply behindFirst_skip
  · intro b listed same
    injection same with same
    exact free b listed same.symm
  · exact List.cons_ne_nil _ _

/-- A word in quotes does not start in text without quotes. -/
theorem no_cross_free (free : Free s) : ¬ key ++ [0x22, 0x3A] <+: s := by
  rintro ⟨tail, rfl⟩
  exact free 0x22 (by simp) rfl

/-- Nor does it start before a colon or a comma. -/
theorem no_cross_mark (word : IsWord key) (free : Free t) {mark : UInt8}
    (known : mark = 0x3A ∨ mark = 0x2C) : ¬ key ++ [0x22, 0x3A] <+: t ++ mark :: s := by
  rintro ⟨tail, same⟩
  rw [List.append_assoc] at same
  rcases List.append_eq_append_iff.mp same with ⟨more, longer, left⟩ | ⟨more, longer, left⟩
  · cases more with
    | nil =>
      injection left with here _
      rcases known with rfl | rfl <;> cases here
    | cons b more =>
      injection left with here _
      exact free 0x22 (by rw [longer, ← here]; simp) rfl
  · cases more with
    | nil =>
      injection left with here _
      rcases known with rfl | rfl <;> cases here
    | cons b more =>
      injection left with here _
      have apart := word b (by rw [longer]; simp)
      rcases known with rfl | rfl
      · exact apart.2.2.1 here.symm
      · exact apart.2.2.2 here.symm

/-- A quote in a literal stands behind a backslash. -/
theorem literal_word (lit : Literal) (word : IsWord key) (more : Text) :
    lit.source ≠ key ++ 0x22 :: more := by
  induction lit generalizing key with
  | nil =>
    intro same
    exact absurd same.symm (by simp [Literal.source])
  | cons item lit ih =>
    rw [Literal.source, List.flatMap_cons]
    intro same
    cases key with
    | nil =>
      cases item with
      | plain b plain =>
        injection same with here _
        exact plain.2.1 here
      | escape c value known => cases (List.cons.inj same).1
      | unicode a b c d => cases (List.cons.inj same).1
    | cons k key =>
      rw [IsWord, List.forall_mem_cons] at word
      cases item with
      | plain b plain =>
        injection same with _ later
        exact ih word.2 later
      | escape c value known => exact word.1.2.1 (List.cons.inj same).1.symm
      | unicode a b c d => exact word.1.2.1 (List.cons.inj same).1.symm

theorem word_in_literal (lit : Literal) (word : IsWord key) :
    key ++ [0x22, 0x3A] <+: lit.source ++ 0x22 :: rest ↔
      lit.source = key ∧ rest.head? = some 0x3A := by
  constructor
  · rintro ⟨tail, same⟩
    rw [List.append_assoc] at same
    rcases List.append_eq_append_iff.mp same with ⟨more, longer, left⟩ | ⟨more, longer, left⟩
    · cases more with
      | nil =>
        injection left with _ later
        rw [List.append_nil] at longer
        rw [← later]
        exact ⟨longer, rfl⟩
      | cons b more =>
        injection left with here _
        rw [← here] at longer
        exact absurd longer (literal_word lit word more)
    · cases more with
      | nil =>
        injection left with _ later
        rw [List.append_nil] at longer
        rw [later]
        exact ⟨longer.symm, rfl⟩
      | cons b more =>
        injection left with here _
        exact absurd here.symm (word b (by rw [longer]; simp)).1
  · rintro ⟨rfl, colon⟩
    cases rest with
    | nil => cases colon
    | cons b rest =>
      cases colon
      exact ⟨rest, by simp⟩

theorem needle_drop (colon : rest.head? = some 0x3A) :
    (0x22 :: (key ++ 0x22 :: rest)).drop (fieldNeedle key).length = rest.tail := by
  cases rest with
  | nil => cases colon
  | cons b rest =>
    cases colon
    have whole : 0x22 :: (key ++ 0x22 :: 0x3A :: rest) = fieldNeedle key ++ rest := by
      simp [fieldNeedle]
    rw [whole, List.drop_left, List.tail_cons]

/-- The search from a quote on: it stops at the word, or goes on behind the quote. -/
theorem behindFirst_quote (lit : Literal) (word : IsWord key) :
    behindFirst (fieldNeedle key) (0x22 :: (lit.source ++ 0x22 :: rest)) =
      if lit.source = key ∧ rest.head? = some 0x3A then some rest.tail
      else behindFirst (fieldNeedle key) (lit.source ++ 0x22 :: rest) := by
  by_cases here : lit.source = key ∧ rest.head? = some 0x3A
  · have found := needle_here.mpr ((word_in_literal lit word).mpr here)
    rw [behindFirst_here found, if_pos here, here.1, needle_drop here.2]
  · have other : ¬ fieldNeedle key <+: 0x22 :: (lit.source ++ 0x22 :: rest) := by
      rw [needle_here, word_in_literal lit word]
      exact here
    rw [behindFirst_later other, if_neg here]

theorem if_either {α : Type} {p q r : Prop} [Decidable p] [Decidable q] [Decidable r] (x y : α) :
    (if p ∧ r then x else if q ∧ r then x else y) = if (p ∨ q) ∧ r then x else y := by
  by_cases first : p ∧ r
  · rw [if_pos first, if_pos ⟨Or.inl first.1, first.2⟩]
  · rw [if_neg first]
    have other : q ∧ r ↔ (p ∨ q) ∧ r := by tauto
    simp only [other]

theorem suffix_skip (free : Free t) : 0x22 :: key <:+ t ++ s ↔ 0x22 :: key <:+ s := by
  induction t with
  | nil => rfl
  | cons b t ih =>
    rw [Free, List.forall_mem_cons] at free
    rw [List.cons_append, List.suffix_cons_iff, ih free.2]
    refine or_iff_right ?_
    intro same
    injection same with here _
    exact free.1 here.symm

/-- An item is free of quotes, or is the escape of one. -/
theorem item_free (item : Item) : Free item.text ∨ item.text = [0x5C, 0x22] := by
  cases item with
  | plain b plain => exact Or.inl (List.forall_mem_singleton.mpr plain.2.1)
  | escape c value known =>
    by_cases quote : c = 0x22
    · subst quote
      exact Or.inr rfl
    · exact Or.inl (List.forall_mem_cons.mpr ⟨by decide, List.forall_mem_singleton.mpr quote⟩)
  | unicode a b c d =>
    left
    simp only [Free, Item.text, List.forall_mem_cons]
    exact ⟨by decide, by decide, a.unquoted, b.unquoted, c.unquoted, d.unquoted,
      List.forall_mem_nil _⟩

/-- The search inside a literal, from any item on: it stops behind an escaped quote and the word, or
    goes on behind the literal. -/
theorem behindFirst_literal (lit : Literal) (word : IsWord key)
    (apart : ¬ key ++ [0x22, 0x3A] <+: rest) :
    behindFirst (fieldNeedle key) (lit.source ++ 0x22 :: rest) =
      if 0x22 :: key <:+ lit.source ∧ rest.head? = some 0x3A then some rest.tail
      else behindFirst (fieldNeedle key) rest := by
  induction lit with
  | nil =>
    have other : ¬ fieldNeedle key <+: 0x22 :: rest := by
      rw [needle_here]
      exact apart
    have none : ¬ 0x22 :: key <:+ Literal.source [] := by
      intro ends
      cases List.suffix_nil.mp ends
    rw [if_neg (fun h => none h.1)]
    exact behindFirst_later other
  | cons item lit ih =>
    have cons : Literal.source (item :: lit) = item.text ++ Literal.source lit := List.flatMap_cons
    rw [cons, List.append_assoc]
    rcases item_free item with free | quote
    · rw [needle_skip free, ih]
      simp only [suffix_skip free]
    · have slash : Free [0x5C] := List.forall_mem_singleton.mpr (by decide)
      have text : ∀ more, item.text ++ more = [0x5C] ++ 0x22 :: more := by
        intro more
        rw [quote]
        rfl
      rw [text, text, needle_skip slash, behindFirst_quote lit word, ih, if_either]
      simp only [suffix_skip slash, List.suffix_cons_iff, List.cons.injEq, true_and, eq_comm]

theorem behindFirst_string (lit : Literal) (word : IsWord key)
    (apart : ¬ key ++ [0x22, 0x3A] <+: rest) :
    behindFirst (fieldNeedle key) (0x22 :: (lit.source ++ 0x22 :: rest)) =
      if (lit.source = key ∨ 0x22 :: key <:+ lit.source) ∧ rest.head? = some 0x3A then some rest.tail
      else behindFirst (fieldNeedle key) rest := by
  rw [behindFirst_quote lit word, behindFirst_literal lit word apart, if_either]

end Words

section Members
variable {key rest : Text}

/-- The scanner takes a member for the key when its name ends in the key behind a quote, its own or an
    escaped one, and the colon is directly behind. -/
def Seen (key : Text) (m : Member) : Prop :=
  (m.name.source = key ∨ 0x22 :: key <:+ m.name.source) ∧ m.beforeColon.val = []

instance (key : Text) (m : Member) : Decidable (Seen key m) := inferInstanceAs (Decidable (_ ∧ _))

/-- What stands behind a value: a comma or the end, and no word in quotes at once. -/
structure Closes (key rest : Text) : Prop where
  mark : rest.head? = some 0x2C ∨ rest.head? = some 0x7D
  apart : ∀ ws : Space, ¬ key ++ [0x22, 0x3A] <+: ws.val ++ rest

theorem tail_closes (word : IsWord key) (trail : Space) (members : List Member) :
    Closes key (tailSource trail.val members) := by
  cases members with
  | nil =>
    refine ⟨Or.inr rfl, ?_⟩
    intro ws
    apply no_cross_free
    rw [Free, List.forall_mem_append, tailSource, List.forall_mem_cons]
    exact ⟨space_free ws, by decide, space_free trail⟩
  | cons m members => exact ⟨Or.inl rfl, fun ws => no_cross_mark word (space_free ws) (Or.inr rfl)⟩

/-- A value is passed over, whatever stands in it. -/
theorem behindFirst_value (word : IsWord key) (value : FlatValue) (after : Space)
    (closes : Closes key rest) :
    behindFirst (fieldNeedle key) (value.source ++ (after.val ++ rest)) =
      behindFirst (fieldNeedle key) rest := by
  have spaces : behindFirst (fieldNeedle key) (after.val ++ rest) =
      behindFirst (fieldNeedle key) rest := needle_skip (space_free after)
  cases value with
  | str lit =>
    have apart := closes.apart after
    have colon : (after.val ++ rest).head? ≠ some 0x3A := by
      intro here
      rw [space_colon here, List.nil_append] at here
      rcases closes.mark with mark | mark <;>
      · rw [here] at mark
        cases mark
    have text : (FlatValue.str lit).source ++ (after.val ++ rest) =
        0x22 :: (lit.source ++ 0x22 :: (after.val ++ rest)) := by simp [FlatValue.source]
    rw [text, behindFirst_string lit word apart, if_neg (fun h => colon h.2), spaces]
  | number n =>
    have free : Free n.parts.source := fun b listed => (n.bare b listed).2
    rw [FlatValue.source, needle_skip free, spaces]
  | bool b =>
    have free : Free (FlatValue.bool b).source := by
      cases b <;> exact forall_listed (by decide)
    rw [needle_skip free, spaces]
  | null =>
    have free : Free FlatValue.null.source := forall_listed (by decide)
    rw [needle_skip free, spaces]

theorem behindFirst_member (word : IsWord key) (m : Member) (closes : Closes key rest) :
    behindFirst (fieldNeedle key) (m.source rest) =
      if Seen key m then some (m.afterColon.val ++ (m.value.source ++ (m.after.val ++ rest)))
      else behindFirst (fieldNeedle key) rest := by
  have apart : ¬ key ++ [0x22, 0x3A] <+: m.behindName rest :=
    no_cross_mark word (space_free m.beforeColon) (Or.inl rfl)
  rw [Member.source, needle_skip (space_free m.before), behindFirst_string m.name word apart]
  by_cases seen : Seen key m
  · have head : (m.behindName rest).head? = some 0x3A := by
      rw [Member.behindName, seen.2]
      rfl
    rw [if_pos ⟨seen.1, head⟩, if_pos seen, Member.behindName, seen.2]
    rfl
  · have later : behindFirst (fieldNeedle key) (m.behindName rest) =
        behindFirst (fieldNeedle key) rest := by
      have colon : Free (0x3A :: m.afterColon.val) :=
        List.forall_mem_cons.mpr ⟨by decide, space_free m.afterColon⟩
      rw [Member.behindName, needle_skip (space_free m.beforeColon), ← List.cons_append,
        needle_skip colon, behindFirst_value word m.value m.after closes]
    have other : ¬ ((m.name.source = key ∨ 0x22 :: key <:+ m.name.source) ∧
        (m.behindName rest).head? = some 0x3A) := by
      rintro ⟨ends, head⟩
      exact seen ⟨ends, space_colon head⟩
    rw [if_neg other, if_neg seen, later]

/-- A search lands behind the colon of a member, or nowhere. -/
def Lands (result : Option Text) : Option Member → Prop
  | some m => ∃ rest, result = some (m.afterColon.val ++ (m.value.source ++ rest))
  | none => result = none

theorem behindFirst_tail (word : IsWord key) (trail : Space) (members : List Member) :
    Lands (behindFirst (fieldNeedle key) (tailSource trail.val members))
      (members.find? (Seen key ·)) := by
  induction members with
  | nil =>
    have free : Free (0x7D :: trail.val) := List.forall_mem_cons.mpr ⟨by decide, space_free trail⟩
    have skipped := @needle_skip key [] _ free
    rw [List.append_nil] at skipped
    exact skipped
  | cons m members ih =>
    have comma : Free [0x2C] := List.forall_mem_singleton.mpr (by decide)
    have member := behindFirst_member word m (tail_closes word trail members)
    have skipped := @needle_skip key (m.source (tailSource trail.val members)) _ comma
    rw [List.singleton_append] at skipped
    rw [tailSource, skipped, member]
    by_cases seen : Seen key m
    · rw [if_pos seen, List.find?_cons_of_pos (by simpa using seen)]
      exact ⟨_, rfl⟩
    · rw [if_neg seen, List.find?_cons_of_neg (by simpa using seen)]
      exact ih

theorem behindFirst_object (word : IsWord key) (object : FlatObject) :
    Lands (behindFirst (fieldNeedle key) object.source) (object.members.find? (Seen key ·)) := by
  have tail := behindFirst_tail word object.trail object.members
  have brace : Free [0x7B] := List.forall_mem_singleton.mpr (by decide)
  have comma : Free [0x2C] := List.forall_mem_singleton.mpr (by decide)
  have skipped : ∀ body, behindFirst (fieldNeedle key) (object.lead.val ++ 0x7B :: body) =
      behindFirst (fieldNeedle key) body := by
    intro body
    rw [needle_skip (space_free object.lead), ← List.singleton_append, needle_skip brace]
  rw [FlatObject.source, skipped]
  cases listed : object.members with
  | nil =>
    rw [listed] at tail
    dsimp only
    rw [needle_skip (space_free object.inner)]
    exact tail
  | cons m members =>
    rw [listed, tailSource, ← List.singleton_append, needle_skip comma] at tail
    exact tail

end Members

section Extraction
variable {rest : Text}

/-- What the scanner takes for the text of a value. -/
def FlatValue.raw : FlatValue → Option Text
  | .str s => some (s.source.takeWhile (· ≠ 0x22))
  | _ => none

theorem trimStart_space (ws : Space) : trimStart (ws.val ++ rest) = trimStart rest := by
  obtain ⟨ws, spaces⟩ := ws
  induction ws with
  | nil => rfl
  | cons b ws ih =>
    rw [List.all_cons, Bool.and_eq_true] at spaces
    refine Eq.trans ?_ (ih spaces.2)
    rcases of_decide_eq_true spaces.1 with rfl | rfl | rfl | rfl <;> rfl

theorem trimStart_solid {b : UInt8} (solid : 0x21 ≤ b ∧ b ≤ 0x7E) :
    trimStart (b :: rest) = b :: rest := by
  have forms : ∀ form ∈ whiteSpace, form ≠ [] ∧ form.all (fun c => ¬ (0x21 ≤ c ∧ c ≤ 0x7E)) :=
    forall_listed (by decide +kernel)
  have none : whiteSpace.find? (·.isPrefixOf (b :: rest)) = none := by
    rw [List.find?_eq_none]
    intro form listed here
    obtain ⟨given, outside⟩ := forms form listed
    cases form with
    | nil => exact given rfl
    | cons c form =>
      rw [List.isPrefixOf_cons_cons, Bool.and_eq_true, beq_iff_eq] at here
      rw [List.all_cons, Bool.and_eq_true, here.1] at outside
      exact of_decide_eq_true outside.1 solid
  rw [trimStart, PyStr.dropForms, none]

theorem upToQuote_literal (lit : Literal) : upToQuote (lit.source ++ 0x22 :: rest) =
    some (lit.source.takeWhile (· ≠ 0x22)) := by
  rw [upToQuote, if_pos (List.mem_append_right _ List.mem_cons_self)]
  induction lit.source with
  | nil => simp
  | cons b s ih =>
    rw [List.cons_append, List.takeWhile_cons, List.takeWhile_cons]
    split
    · rw [Option.some.injEq] at ih ⊢
      rw [ih]
    · rfl

theorem value_raw (value : FlatValue) (ws : Space) :
    (match trimStart (ws.val ++ (value.source ++ rest)) with
      | 0x22 :: v => upToQuote v
      | _ => none) = value.raw := by
  rw [trimStart_space]
  rcases value_start value with ⟨lit, rfl⟩ | ⟨b, s, start, solid, other⟩
  · have text : (FlatValue.str lit).source ++ rest = 0x22 :: (lit.source ++ 0x22 :: rest) := by
      simp [FlatValue.source]
    rw [text, trimStart_solid (by decide)]
    exact upToQuote_literal lit
  · rw [start, List.cons_append, trimStart_solid solid]
    have raw : value.raw = none := by
      cases value with
      | str lit =>
        cases start
        exact absurd rfl other
      | _ => rfl
    rw [raw]
    split
    · rename_i same
      cases same
      exact absurd rfl other
    · rfl

end Extraction

section Fields
variable {key : Text} {object : FlatObject}

/-- For a word, the scanner takes the first member that it sees, and nothing but the names of members
    and the value of this one matters. -/
theorem jsonStrField_word (word : IsWord key) : jsonStrField object.source key =
    (object.members.find? (Seen key ·)).bind fun m => m.value.raw := by
  have lands := behindFirst_object word object
  rw [jsonStrField]
  cases found : object.members.find? (Seen key ·) with
  | none =>
    rw [found] at lands
    rw [show behindFirst (fieldNeedle key) object.source = none from lands]
    rfl
  | some m =>
    rw [found] at lands
    obtain ⟨rest, landed⟩ := lands
    rw [landed]
    exact value_raw m.value m.afterColon

/-- The first member that the scanner sees says of the key what the object says. -/
structure Legible (object : FlatObject) (key : Text) : Prop where
  present : ∀ v, object.string key = some v →
    ∃ m, object.members.find? (Seen key ·) = some m ∧ m.value.raw = some v
  absent : object.string key = none →
    ∀ m, object.members.find? (Seen key ·) = some m → m.value.raw = none

theorem readsField_iff_legible (word : IsWord key) : ReadsField object key ↔ Legible object key := by
  rw [ReadsField, jsonStrField_word word]
  constructor
  · intro reads
    refine ⟨?_, ?_⟩
    · intro v given
      exact Option.bind_eq_some_iff.mp (reads.trans given)
    · intro missing m seen
      rw [missing, seen] at reads
      exact reads
  · intro legible
    cases value : object.string key with
    | some v => exact Option.bind_eq_some_iff.mpr (legible.present v value)
    | none =>
      cases seen : object.members.find? (Seen key ·) with
      | none => rfl
      | some m => exact legible.absent value m seen

/-- The scanner reads a flat object right exactly when its raw text spells the value out; for a word,
    exactly when the first member that it sees does. -/
theorem reads_field_iff (object : FlatObject) (key : Text) :
    (ReadsField object key ↔ Spelled object key) ∧
      (IsWord key → (ReadsField object key ↔ Legible object key)) :=
  ⟨readsField_iff_spelled, readsField_iff_legible⟩

end Fields

section Samples

def literal (s : String) : Literal :=
  match scanString (utf8 s ++ [0x22]) with
  | .ok (lit, _) => lit
  | .error _ => []

def spaces (n : Nat) : Space := ⟨List.replicate n 0x20, by
  rw [List.all_replicate]
  cases n <;> rfl⟩

def textMember (name value : String) (gap : Nat) : Member :=
  ⟨spaces 0, literal name, spaces gap, spaces gap, .str (literal value), spaces 0⟩

def textObject (members : List Member) : FlatObject := ⟨spaces 0, spaces 0, members, spaces 0⟩

example : (textObject [textMember "access_token" "abc" 1]).source =
    utf8 "\x7b\"access_token\" : \"abc\"\x7d" := by decide +kernel

theorem reads_field_compact :
    ReadsField (textObject [textMember "access_token" "abc123" 0]) (utf8 "access_token") := by
  have word : IsWord (utf8 "access_token") := forall_listed (by decide +kernel)
  have given : (textObject [textMember "access_token" "abc123" 0]).string (utf8 "access_token") =
      some (utf8 "abc123") := by decide +kernel
  refine ((reads_field_iff _ _).2 word).mpr ⟨?_, ?_⟩
  · intro v value
    have seen : Seen (utf8 "access_token") (textMember "access_token" "abc123" 0) := by decide +kernel
    have raw : (textMember "access_token" "abc123" 0).value.raw = some (utf8 "abc123") := by
      decide +kernel
    exact ⟨_, List.find?_cons_of_pos (decide_eq_true seen), raw.trans (given.symm.trans value)⟩
  · intro missing
    rw [given] at missing
    cases missing

/-- A space before the colon hides the token, and a name that ends in the key takes its place. -/
theorem token_misread :
    ¬ ReadsField (textObject [textMember "access_token" "abc" 1]) (utf8 "access_token") ∧
    jsonStrField (textObject [textMember "x\\\"access_token" "evil" 0,
      textMember "access_token" "good" 0]).source (utf8 "access_token") = some (utf8 "evil") := by
  have hidden : jsonStrField (textObject [textMember "access_token" "abc" 1]).source
      (utf8 "access_token") = none := by decide +kernel
  have given : (textObject [textMember "access_token" "abc" 1]).string (utf8 "access_token") =
      some (utf8 "abc") := by decide +kernel
  refine ⟨?_, by decide +kernel⟩
  intro reads
  have same : none = some (utf8 "abc") := hidden.symm.trans (reads.trans given)
  cases same

end Samples

end Kms
