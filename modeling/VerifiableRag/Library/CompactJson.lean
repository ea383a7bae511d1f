import VerifiableRag.Library.Json
import Mathlib.Data.List.TakeWhile

/-!
Compact JSON documents: their syntax, the tokens of their text, and that `loads`
reads them as the values they denote.
-/
namespace Json
open Bytes

section Numbers

def NumberChar (c : UInt8) : Prop :=
  isDigit c ∨ c = 0x2B ∨ c = 0x2D ∨ c = 0x2E ∨ c = 0x65 ∨ c = 0x45

instance (c : UInt8) : Decidable (NumberChar c) := inferInstanceAs (Decidable (_ ∨ _))

/-- What follows does not go on with a number. -/
def Stops (rest : Text) : Prop := ∀ c, rest.head? = some c → ¬ NumberChar c

theorem Stops.head {c : UInt8} {rest : Text} (stops : Stops (c :: rest)) : ¬ NumberChar c :=
  stops c rfl

theorem digits_append {s rest : Text} (stops : Stops rest) :
    (s ++ rest).takeWhile isDigit = s.takeWhile isDigit ∧
      (s ++ rest).dropWhile isDigit = s.dropWhile isDigit ++ rest := by
  induction s with
  | nil =>
    cases rest with
    | nil => exact ⟨rfl, rfl⟩
    | cons c rest =>
      have other : isDigit c = false := by
        have := stops.head
        simp_all [NumberChar]
      simp [other]
  | cons c s ih =>
    cases digit : isDigit c with
    | false => simp [digit]
    | true => simp [digit, ih]

theorem minus_char : ∀ c ∈ ([0x2D] : Text), NumberChar c := List.forall_mem_singleton.mpr (by decide)

theorem sign_chars : ∀ c ∈ ([0x2B, 0x2D] : Text), NumberChar c :=
  List.forall_mem_cons.mpr ⟨by decide, minus_char⟩

theorem scanSign_append {signs s rest : Text} (chars : ∀ c ∈ signs, NumberChar c)
    (stops : Stops rest) :
    scanSign signs (s ++ rest) = ((scanSign signs s).1, (scanSign signs s).2 ++ rest) := by
  cases s with
  | nil =>
    cases rest with
    | nil => rfl
    | cons c rest => simp [scanSign, mt (chars c) stops.head]
  | cons c s =>
    by_cases sign : c ∈ signs
    · simp [scanSign, sign]
    · simp [scanSign, sign]

theorem scanWhole_append {s rest a r : Text} (stops : Stops rest) (ok : scanWhole s = some (a, r)) :
    scanWhole (s ++ rest) = some (a, r ++ rest) := by
  cases s with
  | nil => cases ok
  | cons c s =>
    obtain ⟨take, drop⟩ := @digits_append s rest stops
    simp only [scanWhole, List.cons_append] at ok ⊢
    split at ok
    · cases ok
      rw [if_pos ‹_›]
    · rw [if_neg ‹_›]
      split at ok
      · cases ok
        rw [if_pos ‹_›, take, drop]
      · cases ok

theorem scanFraction_append {s rest : Text} (stops : Stops rest) :
    scanFraction (s ++ rest) = ((scanFraction s).1, (scanFraction s).2 ++ rest) := by
  match s, rest, stops with
  | [], [], _ => rfl
  | [], [c], _ => rfl
  | [], c :: d :: rest, stops =>
    have point : c ≠ 0x2E := by
      rintro rfl
      exact stops.head (by decide)
    simp [scanFraction, point]
  | [c], [], _ => rfl
  | [c], d :: rest, stops =>
    have other : isDigit d = false := by
      have := stops.head
      simp_all [NumberChar]
    simp [scanFraction, other]
  | c :: d :: s, rest, stops =>
    obtain ⟨take, drop⟩ := @digits_append s rest stops
    simp only [scanFraction, List.cons_append, take, drop]
    split <;> rfl

theorem scanExponent_append {s rest : Text} (stops : Stops rest) :
    scanExponent (s ++ rest) = ((scanExponent s).1, (scanExponent s).2 ++ rest) := by
  cases s with
  | nil =>
    cases rest with
    | nil => rfl
    | cons c rest =>
      have letter : ¬ (c = 0x65 ∨ c = 0x45) := by
        rintro (rfl | rfl) <;> exact stops.head (by decide)
      simp [scanExponent, letter]
  | cons c s =>
    have sign := @scanSign_append [0x2B, 0x2D] s rest sign_chars stops
    obtain ⟨take, drop⟩ := @digits_append (scanSign [0x2B, 0x2D] s).2 rest stops
    simp only [scanExponent, List.cons_append, sign, take, drop]
    split <;> rfl

theorem scanNumber_append {s rest r : Text} {n : NumberText} (stops : Stops rest)
    (ok : scanNumber s = some (n, r)) : scanNumber (s ++ rest) = some (n, r ++ rest) := by
  simp only [scanNumber, Option.bind_eq_bind, Option.bind_eq_some_iff, Option.pure_def,
    Option.some.injEq, Prod.mk.injEq] at ok
  obtain ⟨⟨whole, s'⟩, found, rfl, rfl⟩ := ok
  have sign := @scanSign_append [0x2D] s rest minus_char stops
  simp only [scanNumber, sign, scanWhole_append stops found, scanFraction_append stops,
    scanExponent_append stops, Option.bind_eq_bind, Option.bind_some, Option.pure_def]

theorem scanNumber_start {s r : Text} {n : NumberText} (ok : scanNumber s = some (n, r)) :
    (n.sign = [] ∨ n.sign = [0x2D]) ∧ ∃ d digits, n.whole = d :: digits ∧ isDigit d := by
  simp only [scanNumber, Option.bind_eq_bind, Option.bind_eq_some_iff, Option.pure_def,
    Option.some.injEq, Prod.mk.injEq] at ok
  obtain ⟨⟨whole, s'⟩, found, rfl, rfl⟩ := ok
  constructor
  · cases s with
    | nil => exact .inl rfl
    | cons c s =>
      by_cases sign : c = 0x2D
      · simp [scanSign, sign]
      · simp [scanSign, sign]
  · cases after : (scanSign [0x2D] s).2 with
    | nil =>
      rw [after] at found
      cases found
    | cons c rest =>
      rw [after, scanWhole] at found
      split at found
      · cases found
        exact ⟨c, [], rfl, by simp_all [isDigit]⟩
      · split at found
        · cases found
          exact ⟨c, _, rfl, ‹_›⟩
        · cases found

theorem digits_chars {s : Text} : ∀ c ∈ s.takeWhile isDigit, NumberChar c := by
  intro c member
  exact .inl (List.mem_takeWhile_imp member)

theorem scanSign_chars {signs s : Text} (chars : ∀ c ∈ signs, NumberChar c) :
    ∀ c ∈ (scanSign signs s).1, NumberChar c := by
  unfold scanSign
  split
  · split
    · rename_i sign
      simpa using chars _ sign
    · simp
  · simp

theorem scanWhole_chars {s a r : Text} (ok : scanWhole s = some (a, r)) :
    ∀ c ∈ a, NumberChar c := by
  unfold scanWhole at ok
  split at ok
  · split at ok
    · rename_i zero
      cases ok
      intro c member
      rw [List.mem_singleton.mp member, zero]
      decide
    · split at ok
      · rename_i digit
        cases ok
        rw [List.forall_mem_cons]
        exact ⟨.inl digit, digits_chars⟩
      · cases ok
  · cases ok

theorem scanFraction_chars {s : Text} : ∀ c ∈ (scanFraction s).1, NumberChar c := by
  unfold scanFraction
  split
  · split
    · rename_i point
      rw [List.forall_mem_cons, List.forall_mem_cons, point.1]
      exact ⟨by decide, .inl point.2, digits_chars⟩
    · simp
  · simp

theorem scanExponent_chars {s : Text} : ∀ c ∈ (scanExponent s).1, NumberChar c := by
  unfold scanExponent
  split
  · rename_i c rest
    have sign := @scanSign_chars [0x2B, 0x2D] rest sign_chars
    dsimp only
    split
    · rename_i letter
      rw [List.cons_append, List.forall_mem_cons, List.forall_mem_append]
      refine ⟨?_, sign, digits_chars⟩
      rcases letter.1 with rfl | rfl <;> decide
    · simp
  · simp

theorem scanNumber_chars {s r : Text} {n : NumberText} (ok : scanNumber s = some (n, r)) :
    ∀ c ∈ n.source, NumberChar c := by
  simp only [scanNumber, Option.bind_eq_bind, Option.bind_eq_some_iff, Option.pure_def,
    Option.some.injEq, Prod.mk.injEq] at ok
  obtain ⟨⟨whole, s'⟩, found, rfl, rfl⟩ := ok
  simp only [NumberText.source, List.forall_mem_append]
  exact ⟨scanSign_chars minus_char, scanWhole_chars found, scanFraction_chars, scanExponent_chars⟩

/-- A number literal: text the scanner takes as one number to its end. -/
structure Number where
  parts : NumberText
  scans : scanNumber parts.source = some (parts, [])

end Numbers

section Documents

mutual

inductive Doc where
  | constant (c : Constant)
  | number (n : Number)
  | str (s : Literal)
  | emptyArr
  | arr (items : Items)
  | emptyObj
  | obj (members : Members)

inductive Items where
  | last (d : Doc)
  | more (d : Doc) (rest : Items)

inductive Members where
  | last (name : Literal) (d : Doc)
  | more (name : Literal) (d : Doc) (rest : Members)

end

mutual

def Doc.value : Doc → Value
  | .constant c => c.value
  | .number n => n.parts.value
  | .str s => .str s.value
  | .emptyArr => .arr []
  | .arr items => .arr items.values
  | .emptyObj => .obj []
  | .obj members => .obj members.values

def Items.values : Items → List Value
  | .last d => [d.value]
  | .more d rest => d.value :: rest.values

def Members.values : Members → List (Text × Value)
  | .last name d => [(name.value, d.value)]
  | .more name d rest => (name.value, d.value) :: rest.values

end

def Members.find (name : Text) : Members → Option Doc
  | .last key d => if key.value = name then some d else none
  | .more key d rest =>
    match rest.find name with
    | some later => some later
    | none => if key.value = name then some d else none

def Doc.at : List Text → Doc → Option Doc
  | [], d => some d
  | name :: path, .obj members => (members.find name).bind (Doc.at path)
  | _ :: _, _ => none

def Doc.textAt (path : List Text) (d : Doc) : Option Text :=
  match d.at path with
  | some (.str s) => some s.value
  | _ => none

theorem lookup_values (name : Text) (members : Members) :
    lookup members.values name = (members.find name).map Doc.value := by
  cases members with
  | last key d =>
    rw [Members.values, Members.find, lookup, lookup]
    dsimp only
    split <;> rfl
  | more key d rest =>
    rw [Members.values, Members.find, lookup, lookup_values name rest]
    cases rest.find name with
    | some later => rfl
    | none =>
      dsimp only [Option.map_none]
      split <;> rfl

theorem Doc.value_str {d : Doc} {t : Text} (text : d.value = .str t) : ∃ s, d = .str s ∧ s.value = t := by
  cases d with
  | str s => exact ⟨s, rfl, Value.str.inj text⟩
  | constant c => cases c <;> cases text
  | number n =>
    rw [Doc.value, NumberText.value] at text
    split at text <;> cases text
  | _ => cases text

theorem Doc.value_obj {d : Doc} {members : List (Text × Value)} (object : d.value = .obj members)
    (name : Text) : lookup members name = (d.at [name]).map Doc.value := by
  cases d with
  | emptyObj =>
    cases object
    rfl
  | obj members =>
    cases object
    rw [lookup_values, Doc.at]
    cases members.find name <;> rfl
  | constant c => cases c <;> cases object
  | number n =>
    rw [Doc.value, NumberText.value] at object
    split at object <;> cases object
  | _ => cases object

end Documents

section Tokens

theorem Number.chars (n : Number) : ∀ c ∈ n.parts.source, NumberChar c := scanNumber_chars n.scans

/-- A byte that may stand outside a string literal, and is no quote. -/
def Bare (c : UInt8) : Prop := 0x20 ≤ c ∧ c ≠ 0x22

instance (c : UInt8) : Decidable (Bare c) := inferInstanceAs (Decidable (_ ∧ _))

theorem NumberChar.bare {c : UInt8} (char : NumberChar c) : Bare c := by
  have table : ∀ c : UInt8, NumberChar c → Bare c := forall_byte (by decide +kernel)
  exact table c char

theorem Number.bare (n : Number) : ∀ c ∈ n.parts.source, Bare c :=
  fun c member => (n.chars c member).bare

theorem Constant.bare (c : Constant) : ∀ b ∈ c.source, Bare b := by
  have table : c.source.all fun b => decide (Bare b) := by
    cases c <;> decide
  simpa using table

inductive Token where
  | str (s : Literal)
  | text (t : Text) (bare : ∀ c ∈ t, Bare c)

def Token.source : Token → Text
  | .str s => 0x22 :: (s.source ++ [0x22])
  | .text t _ => t

def render (tokens : List Token) : Text := tokens.flatMap Token.source

@[simp] theorem render_nil : render [] = [] := rfl

@[simp] theorem render_str (s : Literal) (ts : List Token) :
    render (.str s :: ts) = 0x22 :: (s.source ++ 0x22 :: render ts) := by
  simp [render, Token.source]

@[simp] theorem render_text (t : Text) (bare : ∀ c ∈ t, Bare c) (ts : List Token) :
    render (.text t bare :: ts) = t ++ render ts := rfl

@[simp] theorem render_append (ts us : List Token) : render (ts ++ us) = render ts ++ render us :=
  List.flatMap_append

def Token.comma : Token := .text [0x2C] (List.forall_mem_singleton.mpr (by decide))
def Token.colon : Token := .text [0x3A] (List.forall_mem_singleton.mpr (by decide))
def Token.openArr : Token := .text [0x5B] (List.forall_mem_singleton.mpr (by decide))
def Token.closeArr : Token := .text [0x5D] (List.forall_mem_singleton.mpr (by decide))
def Token.openObj : Token := .text [0x7B] (List.forall_mem_singleton.mpr (by decide))
def Token.closeObj : Token := .text [0x7D] (List.forall_mem_singleton.mpr (by decide))

mutual

def Doc.tokens : Doc → List Token
  | .constant c => [.text c.source c.bare]
  | .number n => [.text n.parts.source n.bare]
  | .str s => [.str s]
  | .emptyArr => [.openArr, .closeArr]
  | .arr items => .openArr :: items.tokens
  | .emptyObj => [.openObj, .closeObj]
  | .obj members => .openObj :: members.tokens

def Items.tokens : Items → List Token
  | .last d => d.tokens ++ [.closeArr]
  | .more d rest => d.tokens ++ .comma :: rest.tokens

def Members.tokens : Members → List Token
  | .last name d => .str name :: .colon :: (d.tokens ++ [.closeObj])
  | .more name d rest => .str name :: .colon :: (d.tokens ++ .comma :: rest.tokens)

end

/-- The compact text of a document. -/
def Doc.source (d : Doc) : Text := render d.tokens
def Items.source (items : Items) : Text := render items.tokens
def Members.source (members : Members) : Text := render members.tokens

@[simp] theorem Doc.source_constant (c : Constant) : (Doc.constant c).source = c.source := by
  simp [source, tokens]

@[simp] theorem Doc.source_number (n : Number) : (Doc.number n).source = n.parts.source := by
  simp [source, tokens]

@[simp] theorem Doc.source_str (s : Literal) :
    (Doc.str s).source = 0x22 :: (Literal.source s ++ [0x22]) := by
  simp [source, tokens]

@[simp] theorem Doc.source_emptyArr : Doc.emptyArr.source = [0x5B, 0x5D] := rfl

@[simp] theorem Doc.source_arr (items : Items) : (Doc.arr items).source = 0x5B :: items.source := rfl

@[simp] theorem Doc.source_emptyObj : Doc.emptyObj.source = [0x7B, 0x7D] := rfl

@[simp] theorem Doc.source_obj (members : Members) :
    (Doc.obj members).source = 0x7B :: members.source := rfl

@[simp] theorem Items.source_last (d : Doc) : (Items.last d).source = d.source ++ [0x5D] := by
  simp [source, tokens, Doc.source, Token.closeArr]

@[simp] theorem Items.source_more (d : Doc) (rest : Items) :
    (Items.more d rest).source = d.source ++ 0x2C :: rest.source := by
  simp [source, tokens, Doc.source, Token.comma]

@[simp] theorem Members.source_last (name : Literal) (d : Doc) :
    (Members.last name d).source = 0x22 :: (Literal.source name ++ 0x22 :: 0x3A :: (d.source ++ [0x7D])) := by
  simp [source, tokens, Doc.source, Token.colon, Token.closeObj]

@[simp] theorem Members.source_more (name : Literal) (d : Doc) (rest : Members) :
    (Members.more name d rest).source =
      0x22 :: (Literal.source name ++ 0x22 :: 0x3A :: (d.source ++ 0x2C :: rest.source)) := by
  simp [source, tokens, Doc.source, Token.colon, Token.comma]

end Tokens

section Separation

/-- In compact text a string literal ends the text or comes before a mark. -/
def Mark (c : UInt8) : Prop := c = 0x2C ∨ c = 0x3A ∨ c = 0x5D ∨ c = 0x7D

instance (c : UInt8) : Decidable (Mark c) := inferInstanceAs (Decidable (_ ∨ _))

def Delimited (rest : Text) : Prop := ∀ c, rest.head? = some c → Mark c

def Separated : List Token → Prop
  | [] => True
  | .str _ :: rest => Delimited (render rest) ∧ Separated rest
  | .text _ _ :: rest => Separated rest

theorem delimited_nil : Delimited [] := nofun

theorem delimited_cons {c : UInt8} {rest : Text} (mark : Mark c) : Delimited (c :: rest) := by
  intro c' head
  cases head
  exact mark

mutual

theorem Doc.separated (d : Doc) {rest : List Token} (delimited : Delimited (render rest))
    (separated : Separated rest) : Separated (d.tokens ++ rest) := by
  cases d with
  | constant c => exact separated
  | number n => exact separated
  | str s => exact ⟨delimited, separated⟩
  | emptyArr => exact separated
  | arr items => exact items.separated separated
  | emptyObj => exact separated
  | obj members => exact members.separated separated

theorem Items.separated (items : Items) {rest : List Token} (separated : Separated rest) :
    Separated (items.tokens ++ rest) := by
  cases items with
  | last d =>
    rw [Items.tokens, List.append_assoc]
    exact d.separated (delimited_cons (by decide)) separated
  | more d items =>
    rw [Items.tokens, List.append_assoc]
    exact d.separated (delimited_cons (by decide)) (items.separated separated)

theorem Members.separated (members : Members) {rest : List Token} (separated : Separated rest) :
    Separated (members.tokens ++ rest) := by
  cases members with
  | last name d =>
    simp only [Members.tokens, List.cons_append, List.append_assoc]
    refine ⟨delimited_cons (by decide), ?_⟩
    exact d.separated (delimited_cons (by decide)) separated
  | more name d members =>
    simp only [Members.tokens, List.cons_append, List.append_assoc]
    refine ⟨delimited_cons (by decide), ?_⟩
    exact d.separated (delimited_cons (by decide)) (members.separated separated)

end

theorem Doc.tokens_separated (d : Doc) : Separated d.tokens := by
  have := @Doc.separated d [] delimited_nil trivial
  rwa [List.append_nil] at this

end Separation

section RoundTrip

theorem hex?_char (h : Hex) : hex? h.char = some h := by
  obtain ⟨c, value, reads⟩ := h
  unfold hex?
  split
  · rename_i value' reads'
    cases reads.symm.trans reads'
    rfl
  · rename_i reads'
    cases reads.symm.trans reads'

theorem escape?_known {c value : UInt8} (known : escaped c = some value) :
    escape? c = some (.escape c value known) := by
  unfold escape?
  split
  · rename_i value' known'
    cases known.symm.trans known'
    rfl
  · rename_i known'
    cases known.symm.trans known'

theorem scanString_source (s : Literal) (rest : Text) :
    scanString (Literal.source s ++ 0x22 :: rest) = .ok (s, rest) := by
  induction s with
  | nil => rw [Literal.source, List.flatMap_nil, List.nil_append, scanString.eq_def]; rfl
  | cons item s ih =>
    have split : Literal.source (item :: s) ++ 0x22 :: rest =
        item.text ++ (Literal.source s ++ 0x22 :: rest) := by
      simp [Literal.source]
    rw [split, scanString.eq_def]
    cases item with
    | plain b plain =>
      simp [Item.text, plain.2.1, plain.2.2, plain?, plain, consItem, ih, Except.map]
    | escape c value known =>
      have letter : c ≠ 0x75 := by
        rintro rfl
        cases known
      simp [Item.text, letter, escape?_known known, consItem, ih, Except.map]
    | unicode a b c d =>
      simp [Item.text, unicode?, hex?_char, consItem, ih, Except.map]

theorem scanConstant_source (c : Constant) (rest : Text) :
    scanConstant (c.source ++ rest) = some (c, rest) := by
  cases c <;> rfl

theorem Number.start (n : Number) : ∃ d t, isDigit d ∧
    (n.parts.source = d :: t ∨ n.parts.source = 0x2D :: d :: t) := by
  obtain ⟨sign, d, digits, whole, digit⟩ := scanNumber_start n.scans
  refine ⟨d, digits ++ (n.parts.fraction ++ n.parts.exponent), digit, ?_⟩
  rw [NumberText.source, whole]
  rcases sign with sign | sign
  · exact .inl (by rw [sign]; rfl)
  · exact .inr (by rw [sign]; rfl)

theorem Constant.start (c : Constant) : ∃ b t, c.source = b :: t ∧ ¬ isDigit b ∧
    (b = 0x2D → ∃ b' t', t = b' :: t' ∧ ¬ isDigit b') := by
  cases c with
  | minusInfinity => exact ⟨_, _, rfl, by decide, fun _ => ⟨_, _, rfl, by decide⟩⟩
  | _ => exact ⟨_, _, rfl, by decide, fun minus => absurd minus (by decide)⟩

theorem scanConstant_number (n : Number) (rest : Text) :
    scanConstant (n.parts.source ++ rest) = none := by
  have differ : ∀ c : Constant, ¬ c.source.isPrefixOf (n.parts.source ++ rest) = true := by
    intro c here
    obtain ⟨b, t, source, letter, minus⟩ := c.start
    obtain ⟨d, t', digit, start⟩ := n.start
    rcases start with start | start
    · rw [source, start, List.cons_append, List.isPrefixOf_cons_cons, Bool.and_eq_true, beq_iff_eq] at here
      exact letter (here.1 ▸ digit)
    · rw [source, start, List.cons_append, List.isPrefixOf_cons_cons, Bool.and_eq_true, beq_iff_eq] at here
      obtain ⟨b', t', rfl, letter'⟩ := minus here.1
      rw [List.cons_append, List.isPrefixOf_cons_cons, Bool.and_eq_true, beq_iff_eq] at here
      exact letter' (here.2.1 ▸ digit)
  simp [scanConstant, differ]

/-- A reading that ends in `a`, unless a limit of the interpreter stops it. -/
inductive Yields {α : Type} (a : α) : Except LoadError α → Prop
  | value : Yields a (.ok a)
  | limit {e : LoadError} (stopped : e = .digits ∨ e = .recursion) : Yields a (.error e)

theorem Yields.bind {α β : Type} {a : α} {b : β} {x : Except LoadError α}
    {f : α → Except LoadError β} (first : Yields a x) (next : Yields b (f a)) :
    Yields b (x >>= f) := by
  cases first with
  | value => exact next
  | limit stopped => exact .limit stopped

theorem Yields.unique {α : Type} {a b : α} (yields : Yields a (.ok b)) : b = a := by
  cases yields
  rfl

theorem scanScalar_constant (c : Constant) (rest : Text) :
    scanScalar (c.source ++ rest) = .ok (c.value, rest) := by
  rw [scanScalar, scanConstant_source]

theorem scanScalar_number (n : Number) {rest : Text} (stops : Stops rest) :
    Yields (n.parts.value, rest) (scanScalar (n.parts.source ++ rest)) := by
  simp only [scanScalar, scanConstant_number, scanNumber_append stops n.scans, convert,
    List.nil_append]
  split
  · exact .limit (.inl rfl)
  · exact .value

theorem scanValue_scalar {fuel depth : Nat} {c : UInt8} {rest : Text} (quote : c ≠ 0x22)
    (arr : c ≠ 0x5B) (obj : c ≠ 0x7B) :
    scanValue (fuel + 1) depth (c :: rest) = scanScalar (c :: rest) := by
  rw [scanValue]
  all_goals
    intro rest' same
    cases same
    contradiction

theorem Delimited.stops {rest : Text} (delimited : Delimited rest) : Stops rest := by
  intro c head
  rcases delimited c head with rfl | rfl | rfl | rfl <;> decide

theorem skip_cons {c : UInt8} {rest : Text} (solid : isSpace c = false) :
    skip (c :: rest) = c :: rest := by
  simp [skip, solid]

theorem Doc.start (d : Doc) :
    ∃ c t, d.source = c :: t ∧ isSpace c = false ∧ c ≠ 0x5D ∧ c < 0x80 := by
  have digit_start : ∀ c : UInt8, isDigit c → isSpace c = false ∧ c ≠ 0x5D ∧ c < 0x80 :=
    forall_byte (by decide +kernel)
  cases d with
  | constant c => cases c <;> exact ⟨_, _, source_constant _, by decide⟩
  | number n =>
    rw [source_number]
    obtain ⟨c, t, digit, start | start⟩ := n.start
    · exact ⟨c, t, start, digit_start c digit⟩
    · exact ⟨_, _, start, by decide⟩
  | str s => exact ⟨_, _, source_str s, by decide⟩
  | emptyArr => exact ⟨_, _, rfl, by decide⟩
  | arr items => exact ⟨_, _, rfl, by decide⟩
  | emptyObj => exact ⟨_, _, rfl, by decide⟩
  | obj members => exact ⟨_, _, rfl, by decide⟩

theorem Items.start (items : Items) :
    ∃ c t, items.source = c :: t ∧ isSpace c = false ∧ c ≠ 0x5D := by
  cases items with
  | last d =>
    obtain ⟨c, t, start, solid, opened, _⟩ := d.start
    exact ⟨c, t ++ [0x5D], by rw [source_last, start]; rfl, solid, opened⟩
  | more d rest =>
    obtain ⟨c, t, start, solid, opened, _⟩ := d.start
    exact ⟨c, t ++ 0x2C :: rest.source, by rw [source_more, start]; rfl, solid, opened⟩

theorem Members.start (members : Members) : ∃ t, members.source = 0x22 :: t := by
  cases members with
  | last name d => exact ⟨_, source_last name d⟩
  | more name d rest => exact ⟨_, source_more name d rest⟩

theorem scanValue_arr {fuel depth : Nat} {c : UInt8} {rest : Text} (solid : isSpace c = false)
    (opened : c ≠ 0x5D) : scanValue (fuel + 1) (depth + 1) (0x5B :: c :: rest) =
      (scanItems fuel depth (c :: rest) >>= fun (items, rest) => pure (.arr items, rest)) := by
  rw [scanValue]
  dsimp only
  rw [skip_cons solid]
  split
  · rename_i same
    cases same
    contradiction
  · rfl

mutual

/-- Twice the length of the text is fuel enough. -/
theorem scanValue_source : ∀ (d : Doc) {fuel depth : Nat} {rest : Text},
    2 * d.source.length ≤ fuel → Delimited rest →
    Yields (d.value, rest) (scanValue fuel depth (d.source ++ rest))
  | d, 0, _, _, enough, _ => by
    obtain ⟨c, t, start, _⟩ := d.start
    simp [start] at enough
  | .constant c, fuel + 1, depth, rest, _, _ => by
    have start : scanValue (fuel + 1) depth (c.source ++ rest) = scanScalar (c.source ++ rest) := by
      cases c <;> exact scanValue_scalar (by decide) (by decide) (by decide)
    rw [Doc.source_constant, start, scanScalar_constant]
    exact .value
  | .number n, fuel + 1, depth, rest, _, delimited => by
    have other : ∀ c : UInt8, isDigit c → c ≠ 0x22 ∧ c ≠ 0x5B ∧ c ≠ 0x7B :=
      forall_byte (by decide +kernel)
    have start : scanValue (fuel + 1) depth (n.parts.source ++ rest) =
        scanScalar (n.parts.source ++ rest) := by
      obtain ⟨c, t, digit, start | start⟩ := n.start
      · obtain ⟨quote, arr, obj⟩ := other c digit
        rw [start]
        exact scanValue_scalar quote arr obj
      · rw [start]
        exact scanValue_scalar (by decide) (by decide) (by decide)
    rw [Doc.source_number, start]
    exact scanScalar_number n delimited.stops
  | .str s, fuel + 1, depth, rest, _, _ => by
    simp only [Doc.source_str, List.cons_append, List.append_assoc, List.nil_append, scanValue,
      scanString_source, Doc.value]
    exact .value
  | .emptyArr, fuel + 1, 0, rest, _, _ => .limit (.inr rfl)
  | .emptyArr, fuel + 1, depth + 1, rest, _, _ => .value
  | .arr items, fuel + 1, 0, rest, _, _ => .limit (.inr rfl)
  | .arr items, fuel + 1, depth + 1, rest, enough, _ => by
    obtain ⟨c, t, start, solid, opened⟩ := items.start
    have inner := @scanItems_source items fuel depth rest (by
      rw [Doc.source_arr, List.length_cons] at enough
      omega)
    rw [start] at inner
    rw [Doc.source_arr, start, List.cons_append, List.cons_append, scanValue_arr solid opened]
    exact inner.bind .value
  | .emptyObj, fuel + 1, 0, rest, _, _ => .limit (.inr rfl)
  | .emptyObj, fuel + 1, depth + 1, rest, _, _ => .value
  | .obj members, fuel + 1, 0, rest, _, _ => .limit (.inr rfl)
  | .obj members, fuel + 1, depth + 1, rest, enough, _ => by
    obtain ⟨t, start⟩ := members.start
    have inner := @scanMembers_source members fuel depth rest (by
      rw [Doc.source_obj, List.length_cons] at enough
      omega)
    rw [start] at inner
    rw [Doc.source_obj, start]
    exact inner.bind .value

theorem scanItems_source : ∀ (items : Items) {fuel depth : Nat} {rest : Text},
    2 * items.source.length ≤ fuel →
    Yields (items.values, rest) (scanItems fuel depth (items.source ++ rest))
  | items, 0, _, _, enough => by
    obtain ⟨c, t, start, _⟩ := items.start
    simp [start] at enough
  | .last d, fuel + 1, depth, rest, enough => by
    rw [Items.source_last, List.length_append, List.length_singleton] at enough
    rw [Items.source_last, List.append_assoc, scanItems]
    refine (scanValue_source d (by omega) (delimited_cons (by decide))).bind ?_
    exact .value
  | .more d items, fuel + 1, depth, rest, enough => by
    rw [Items.source_more, List.length_append, List.length_cons] at enough
    rw [Items.source_more, List.append_assoc, List.cons_append, scanItems]
    refine (scanValue_source d (by omega) (delimited_cons (by decide))).bind ?_
    obtain ⟨c, t, start, solid, _⟩ := items.start
    have next := @scanItems_source items fuel depth rest (by omega)
    rw [start] at next ⊢
    rw [List.cons_append] at next ⊢
    simp only [skip_cons (show isSpace 0x2C = false by decide), skip_cons solid]
    exact next.bind .value

theorem scanMembers_source : ∀ (members : Members) {fuel depth : Nat} {rest : Text},
    2 * members.source.length ≤ fuel →
    Yields (members.values, rest) (scanMembers fuel depth (members.source ++ rest))
  | .last name d, 0, _, _, enough => by simp at enough
  | .more name d members, 0, _, _, enough => by simp at enough
  | .last name d, fuel + 1, depth, rest, enough => by
    simp only [Members.source_last, List.length_cons, List.length_append] at enough
    have first := @scanValue_source d fuel depth (0x7D :: rest) (by omega)
      (delimited_cons (by decide))
    obtain ⟨c, t, start, solid, _⟩ := d.start
    simp only [Members.source_last, List.cons_append, List.append_assoc, List.nil_append, start]
      at first ⊢
    rw [scanMembers, scanString_source]
    refine Yields.value.bind ?_
    simp only [skip_cons (show isSpace 0x3A = false by decide), skip_cons solid]
    refine first.bind ?_
    exact .value
  | .more name d members, fuel + 1, depth, rest, enough => by
    simp only [Members.source_more, List.length_cons, List.length_append] at enough
    have first := @scanValue_source d fuel depth (0x2C :: (members.source ++ rest)) (by omega)
      (delimited_cons (by decide))
    have next := @scanMembers_source members fuel depth rest (by omega)
    obtain ⟨c, t, start, solid, _⟩ := d.start
    obtain ⟨t', start'⟩ := members.start
    simp only [Members.source_more, List.cons_append, List.append_assoc, start, start']
      at first next ⊢
    rw [scanMembers, scanString_source]
    refine Yields.value.bind ?_
    simp only [skip_cons (show isSpace 0x3A = false by decide), skip_cons solid]
    refine first.bind ?_
    simp only [skip_cons (show isSpace 0x2C = false by decide),
      skip_cons (show isSpace 0x22 = false by decide)]
    exact next.bind .value

end

theorem Item.visible (item : Item) : ∀ c ∈ item.text, 0x20 ≤ c := by
  have hex : ∀ h : Hex, 0x20 ≤ h.char := by
    have table : ∀ c : UInt8, (hexDigit c).isSome → 0x20 ≤ c := forall_byte (by decide +kernel)
    intro h
    exact table h.char (by rw [h.reads]; rfl)
  have letter : ∀ c : UInt8, (escaped c).isSome → 0x20 ≤ c := forall_byte (by decide +kernel)
  cases item with
  | plain b plain => simpa [text] using plain.1
  | escape c value known => simpa [text] using letter c (by rw [known]; rfl)
  | unicode a b c d => simp [text, hex]

theorem render_visible (ts : List Token) : ∀ c ∈ render ts, 0x20 ≤ c := by
  intro c member
  obtain ⟨t, _, inside⟩ := List.mem_flatMap.mp member
  cases t with
  | text t bare => exact (bare c inside).1
  | str s =>
    rw [Token.source, List.mem_cons, List.mem_append, List.mem_singleton] at inside
    rcases inside with rfl | inside | rfl
    · decide
    · obtain ⟨item, _, inside⟩ := List.mem_flatMap.mp inside
      exact item.visible c inside
    · decide

theorem decodeJson_source (d : Doc) (depth : Nat) : Yields d.value (decodeJson depth d.source) := by
  obtain ⟨c, t, start, solid, _⟩ := d.start
  have scanned := @scanValue_source d (2 * d.source.length + 2) depth [] (by omega) delimited_nil
  have whole : skip d.source = d.source := by rw [start, skip_cons solid]
  rw [List.append_nil] at scanned
  rw [decodeJson, whole]
  exact scanned.bind .value

/-- `loads` reads the compact text of a document as its value, if it is text at all. -/
theorem loads_source (d : Doc) (depth : Nat) :
    Yields d.value (loads depth d.source) ∨ loads depth d.source = .error .unicode := by
  obtain ⟨c, t, start, _, _, ascii⟩ := d.start
  have utf8 : Unicode.decodeText d.source =
      if Unicode.wellFormed d.source then some d.source else none := by
    apply Unicode.decodeText_utf8
    · intro c' head
      rw [start] at head
      cases head
      exact ascii
    · rintro c' member rfl
      exact absurd (render_visible d.tokens 0 member) (by decide)
  rw [loads, utf8]
  split
  · rename_i garbled
    exact .inr rfl
  · rename_i s text
    split at text
    · cases text
      exact .inl (decodeJson_source d depth)
    · cases text

end RoundTrip

end Json
