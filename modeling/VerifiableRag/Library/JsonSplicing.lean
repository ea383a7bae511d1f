import VerifiableRag.Library.JsonStrings
import VerifiableRag.Library.JsonWriting
import Mathlib.Data.List.Chain

/-!
Objects written by a template that puts texts between quotes as they stand: a reader finds the
texts exactly when none of them needs an escape.
-/
namespace Json
open Bytes (forall_byte forall_listed)
open Results

section Quotes

def PlainText (t : Text) : Prop := ∀ b ∈ t, Plain b

instance (t : Text) : Decidable (PlainText t) := inferInstanceAs (Decidable (∀ b ∈ t, Plain b))

theorem writeText_plain {t : Text} (plain : PlainText t) : (writeText t).source = t := by
  have items : ∀ b : UInt8, Plain b → (writeItem b).text = [b] := forall_byte (by decide +kernel)
  induction t with
  | nil => rfl
  | cons b t ih =>
    have rest := ih (fun c inside => plain c (List.mem_cons_of_mem b inside))
    rw [writeText, List.map_cons, Literal.source, List.flatMap_cons,
      items b (plain b List.mem_cons_self), ← writeText, ← Literal.source, rest]
    rfl

theorem scanString_plain {t : Text} (plain : PlainText t) (rest : Text) :
    scanString (t ++ 0x22 :: rest) = .ok (writeText t, rest) := by
  have scanned := scanString_source (writeText t) rest
  rwa [writeText_plain plain] at scanned

/-- A literal that denotes as many bytes as it has is free of escapes. -/
theorem Literal.plain_of_length (lit : Literal) (long : lit.source.length ≤ lit.value.length) :
    PlainText lit.source := by
  have shorter (rest : Literal) := rest.value_length_le
  fun_induction Literal.value lit with
  | case1 => exact List.forall_mem_nil _
  | case2 b plain rest ih =>
    simp only [Literal.source, List.flatMap_cons, Item.text, List.singleton_append,
      List.length_cons] at long ih ⊢
    exact List.forall_mem_cons.mpr ⟨plain, ih (by omega)⟩
  | case3 c b _ rest ih =>
    have rest_shorter := shorter rest
    simp only [Literal.source, List.flatMap_cons, Item.text, List.length_cons, List.length_append,
      List.length_nil] at long rest_shorter
    omega
  | case4 a b c d a' b' c' d' rest _ ih =>
    have rest_shorter := shorter rest
    have four := encode_length_le (Unicode.join (codeUnit a b c d) (codeUnit a' b' c' d'))
    simp only [Literal.source, List.flatMap_cons, Item.text, List.length_cons, List.length_append,
      List.length_nil] at long rest_shorter
    omega
  | case5 a b c d a' b' c' d' rest _ ih =>
    have rest_shorter := shorter (.unicode a' b' c' d' :: rest)
    have four := encode_length_le (codeUnit a b c d)
    simp only [Literal.source, List.flatMap_cons, Item.text, List.length_cons, List.length_append,
      List.length_nil] at long rest_shorter
    omega
  | case6 a b c d rest _ ih =>
    have rest_shorter := shorter rest
    have four := encode_length_le (codeUnit a b c d)
    simp only [Literal.source, List.flatMap_cons, Item.text, List.length_cons, List.length_append,
      List.length_nil] at long rest_shorter
    omega

/-- A quote inside a literal follows a backslash. -/
def Guarded (a b : UInt8) : Prop := b = 0x22 → a = 0x5C

theorem source_guarded (lit : Literal) :
    lit.source.IsChain Guarded ∧ ∀ b ∈ lit.source.head?, b ≠ 0x22 := by
  induction lit with
  | nil => exact ⟨.nil, by simp [Literal.source]⟩
  | cons item lit ih =>
    obtain ⟨chain, head⟩ := ih
    rw [Literal.source, List.flatMap_cons, ← Literal.source, List.isChain_append]
    have cross : ∀ a ∈ item.text.getLast?, ∀ b ∈ (Literal.source lit).head?, Guarded a b :=
      fun _ _ b first quote => absurd quote (head b first)
    cases item with
    | plain b plain =>
      refine ⟨⟨.singleton b, chain, cross⟩, ?_⟩
      intro c first
      cases first
      exact plain.2.1
    | escape c value known =>
      refine ⟨⟨?_, chain, cross⟩, ?_⟩
      · exact .cons_cons (fun _ => rfl) (.singleton c)
      · intro b first
        cases first
        decide
    | unicode a b c d =>
      refine ⟨⟨?_, chain, cross⟩, ?_⟩
      · have other (x : UInt8) (h : Hex) : Guarded x h.char := fun quote => absurd quote h.unquoted
        exact .cons_cons (fun _ => rfl) (.cons_cons (other _ a) (.cons_cons (other _ b)
          (.cons_cons (other _ c) (.cons_cons (other _ d) (.singleton d.char)))))
      · intro b first
        cases first
        decide

/-- A text between quotes is read back as it stands, or its end swallows the quote. -/
theorem scanString_spliced {t rest rest' : Text} {lit : Literal}
    (ok : scanString (t ++ 0x22 :: rest) = .ok (lit, rest')) (value : lit.value = t) :
    PlainText t ∧ rest' = rest ∨
      ∃ more, lit.source = t ++ 0x22 :: more ∧ rest = more ++ 0x22 :: rest' := by
  have whole := scanString_exact ok
  have shorter := lit.value_length_le
  rw [value] at shorter
  have same (source : lit.source = t) : PlainText t := by
    have plain := lit.plain_of_length (by rw [value, source])
    rwa [source] at plain
  rcases List.append_eq_append_iff.mp whole with ⟨more, source, tail⟩ | ⟨more, split, tail⟩
  · cases more with
    | nil =>
      rw [List.append_nil] at source
      exact Or.inl ⟨same source, (List.cons.inj tail).2.symm⟩
    | cons b more =>
      obtain ⟨rfl, rest⟩ := List.cons.inj tail
      exact Or.inr ⟨more, source, rest⟩
  · cases more with
    | nil =>
      rw [List.append_nil] at split
      exact Or.inl ⟨same split.symm, (List.cons.inj tail).2⟩
    | cons b more =>
      have sizes := congrArg List.length split
      rw [List.length_append, List.length_cons] at sizes
      omega

end Quotes

section Objects

def IsLetter (b : UInt8) : Prop := 0x41 ≤ b ∧ b ≤ 0x5A ∨ 0x61 ≤ b ∧ b ≤ 0x7A

instance (b : UInt8) : Decidable (IsLetter b) := inferInstanceAs (Decidable (_ ∨ _))

/-- A name in a template. -/
def FieldName (name : Text) : Prop := name ≠ [] ∧ ∀ b ∈ name, IsLetter b

instance (name : Text) : Decidable (FieldName name) := inferInstanceAs (Decidable (_ ∧ ∀ b ∈ name, _))

structure TextField where
  name : Text
  word : FieldName name
  text : Text

def TextField.source (f : TextField) : Text :=
  0x22 :: (f.name ++ 0x22 :: 0x3A :: 0x22 :: (f.text ++ [0x22]))

def TextField.member (f : TextField) : Text × Value := (f.name, .str f.text)

def splicedRest : List TextField → Text
  | [] => [0x7D]
  | f :: fields => 0x2C :: (f.source ++ splicedRest fields)

/-- The object of some fields, with their texts as they stand. -/
def spliced (f : TextField) (fields : List TextField) : Text :=
  0x7B :: (f.source ++ splicedRest fields)

theorem TextField.name_plain (f : TextField) : PlainText f.name := by
  have plain : ∀ b : UInt8, IsLetter b → Plain b := forall_byte (by decide +kernel)
  exact fun b inside => plain b (f.word.2 b inside)

/-- Where a name starts, neither a space nor the end of a member stands. -/
theorem skip_name (f : TextField) (rest : Text) :
    (skip (f.name ++ rest)).head? ≠ some 0x7D ∧ (skip (f.name ++ rest)).head? ≠ some 0x2C := by
  have letter : ∀ b : UInt8, IsLetter b → isSpace b = false ∧ b ≠ 0x7D ∧ b ≠ 0x2C :=
    forall_byte (by decide +kernel)
  obtain ⟨b, name, start⟩ := List.exists_cons_of_ne_nil f.word.1
  obtain ⟨solid, brace, comma⟩ := letter b (f.word.2 b (by rw [start]; exact List.mem_cons_self))
  rw [start, List.cons_append, skip_cons solid]
  exact ⟨fun same => brace (Option.some.inj same), fun same => comma (Option.some.inj same)⟩

theorem scanMembers_field {fuel depth : Nat} {f : TextField} {rest tail : Text}
    {members : List (Text × Value)} :
    scanMembers (fuel + 2) depth (f.source ++ rest) = .ok (members, tail) ↔
      ∃ lit rest', scanString (f.text ++ 0x22 :: rest) = .ok (lit, rest') ∧
        (skip rest' = 0x7D :: tail ∧ members = [(f.name, .str lit.value)] ∨
          ∃ behind more, skip rest' = 0x2C :: behind ∧
            scanMembers (fuel + 1) depth (skip behind) = .ok (more, tail) ∧
            members = (f.name, .str lit.value) :: more) := by
  have source : f.source ++ rest =
      0x22 :: (f.name ++ 0x22 :: (0x3A :: 0x22 :: (f.text ++ 0x22 :: rest))) := by
    simp only [TextField.source, List.cons_append, List.append_assoc, List.nil_append]
  rw [source, scanMembers, scanString_plain f.name_plain]
  simp only [except_bind_ok, Except.ok.injEq, skip_cons (show isSpace 0x3A = false by decide),
    skip_cons (show isSpace 0x22 = false by decide), exists_eq_left', scanValue, writeText_value]
  constructor
  · rintro ⟨v, ⟨⟨lit, rest'⟩, scanned, same⟩, ends⟩
    cases same
    refine ⟨lit, rest', scanned, ?_⟩
    dsimp only at ends
    split at ends
    · rename_i behind skipped
      cases ends
      exact Or.inl ⟨skipped, rfl⟩
    · rename_i behind skipped
      obtain ⟨⟨more, tail'⟩, next, same⟩ := except_bind_ok.mp ends
      cases same
      exact Or.inr ⟨behind, more, skipped, next, rfl⟩
    · cases ends
  · rintro ⟨lit, rest', scanned, ends⟩
    refine ⟨_, ⟨_, scanned, rfl⟩, ?_⟩
    dsimp only
    rcases ends with ⟨skipped, rfl⟩ | ⟨behind, more, skipped, next, rfl⟩
    · rw [skipped]
      rfl
    · rw [skipped]
      exact except_bind_ok.mpr ⟨_, next, rfl⟩

/-- After a field that is read as written, no quote of the next field ends it. -/
theorem scanned_text {f : TextField} {fields : List TextField} {rest' : Text} {lit : Literal}
    (scanned : scanString (f.text ++ 0x22 :: splicedRest fields) = .ok (lit, rest'))
    (value : lit.value = f.text)
    (ends : (skip rest').head? = some 0x7D ∨ (skip rest').head? = some 0x2C) :
    PlainText f.text ∧ rest' = splicedRest fields := by
  rcases scanString_spliced scanned value with plain | ⟨more, source, split⟩
  · exact plain
  exfalso
  cases fields with
  | nil =>
    have brace := congrArg List.length split
    simp only [splicedRest, List.length_append, List.length_cons, List.length_nil] at brace
    cases more with
    | nil =>
      rw [splicedRest, List.nil_append] at split
      cases (List.cons.inj split).1
    | cons b more =>
      rw [List.length_cons] at brace
      omega
  | cons g fields =>
    rw [splicedRest, TextField.source, List.cons_append] at split
    rcases more with _ | ⟨c, _ | ⟨d, more⟩⟩
    · cases (List.cons.inj split).1
    · rw [List.singleton_append] at split
      obtain ⟨_, split⟩ := List.cons.inj split
      obtain ⟨_, behind⟩ := List.cons.inj split
      rw [List.append_assoc] at behind
      rw [← behind] at ends
      exact ends.elim (skip_name g _).1 (skip_name g _).2
    · obtain ⟨rfl, behind⟩ := List.cons.inj split
      obtain ⟨rfl, _⟩ := List.cons.inj behind
      have chain := (source_guarded lit).1
      rw [source, ← List.singleton_append, ← List.append_assoc,
        List.isChain_append_cons_cons] at chain
      cases chain.2.1 rfl

theorem scanMembers_spliced {fuel depth : Nat} {f : TextField} {fields : List TextField} {tail : Text}
    (enough : fields.length + 2 ≤ fuel) :
    scanMembers fuel depth (f.source ++ splicedRest fields) =
        .ok ((f :: fields).map TextField.member, tail) ↔
      tail = [] ∧ ∀ g ∈ f :: fields, PlainText g.text := by
  induction fields generalizing f fuel with
  | nil =>
    obtain ⟨fuel, rfl⟩ : ∃ n, fuel = n + 2 := ⟨fuel - 2, by simp at enough; omega⟩
    rw [scanMembers_field, List.forall_mem_singleton]
    constructor
    · rintro ⟨lit, rest', scanned, ⟨skipped, same⟩ | ⟨behind, more, skipped, next, same⟩⟩
      · have value : f.text = lit.value := by
          simpa [TextField.member] using same
        obtain ⟨plain, rfl⟩ := scanned_text scanned value.symm (Or.inl (by rw [skipped]; rfl))
        rw [splicedRest, skip_cons (by decide)] at skipped
        exact ⟨(List.cons.inj skipped).2.symm, plain⟩
      · have value : f.text = lit.value := by
          simpa [TextField.member] using (List.cons.inj same).1
        obtain ⟨plain, rfl⟩ := scanned_text scanned value.symm (Or.inr (by rw [skipped]; rfl))
        rw [splicedRest, skip_cons (by decide)] at skipped
        cases (List.cons.inj skipped).1
    · rintro ⟨rfl, plain⟩
      refine ⟨_, _, scanString_plain plain _, Or.inl ⟨skip_cons (by decide), ?_⟩⟩
      rw [writeText_value]
      rfl
  | cons g fields ih =>
    obtain ⟨fuel, rfl⟩ : ∃ n, fuel = n + 2 := ⟨fuel - 2, by simp at enough; omega⟩
    have next := @ih (fuel + 1) g (by simp at enough; omega)
    have comma : skip (splicedRest (g :: fields)) = 0x2C :: (g.source ++ splicedRest fields) :=
      skip_cons (by decide)
    have quote : skip (g.source ++ splicedRest fields) = g.source ++ splicedRest fields :=
      skip_cons (by decide)
    rw [scanMembers_field, List.forall_mem_cons]
    constructor
    · rintro ⟨lit, rest', scanned, ⟨skipped, same⟩ | ⟨behind, more, skipped, later, same⟩⟩
      · cases (List.cons.inj same).2
      · have value : f.text = lit.value := by
          simpa [TextField.member] using (List.cons.inj same).1
        obtain ⟨plain, rfl⟩ := scanned_text scanned value.symm (Or.inr (by rw [skipped]; rfl))
        obtain ⟨_, rfl⟩ := List.cons.inj (comma.symm.trans skipped)
        rw [quote, ← (List.cons.inj same).2] at later
        obtain ⟨done, plains⟩ := next.mp later
        exact ⟨done, plain, plains⟩
    · rintro ⟨done, plain, plains⟩
      refine ⟨_, _, scanString_plain plain _,
        Or.inr ⟨_, (g :: fields).map TextField.member, comma, ?_, ?_⟩⟩
      · rw [quote]
        exact next.mpr ⟨done, plains⟩
      · rw [writeText_value]
        rfl

theorem splicedRest_length (fields : List TextField) :
    fields.length < (splicedRest fields).length := by
  induction fields with
  | nil => exact Nat.one_pos
  | cons f fields ih =>
    rw [splicedRest, List.length_cons, List.length_cons, List.length_append]
    omega

/-- A reader finds the texts of the template in the object exactly when none needs an escape. -/
theorem decodeJson_spliced (f : TextField) (fields : List TextField) (depth : Nat) :
    decodeJson (depth + 1) (spliced f fields) = .ok (.obj ((f :: fields).map TextField.member)) ↔
      ∀ g ∈ f :: fields, PlainText g.text := by
  have enough := splicedRest_length fields
  have quote : skip (f.source ++ splicedRest fields) = f.source ++ splicedRest fields :=
    skip_cons (by decide)
  have brace : skip (spliced f fields) = spliced f fields := skip_cons (by decide)
  rw [decodeJson, brace]
  generalize fuel : 2 * (spliced f fields).length + 2 = size
  obtain ⟨size, rfl⟩ : ∃ n, size = n + 1 := ⟨size - 1, by omega⟩
  have whole : fields.length + 2 ≤ size := by
    rw [spliced, List.length_cons, List.length_append] at fuel
    omega
  have opened : scanValue (size + 1) (depth + 1) (spliced f fields) =
      (scanMembers size depth (f.source ++ splicedRest fields)).bind
        fun found => .ok (.obj found.1, found.2) :=
    scanValue_opened size depth quote
  rw [opened]
  constructor
  · intro read
    obtain ⟨⟨v, rest⟩, scanned, closed⟩ := except_bind_ok.mp read
    obtain ⟨⟨members, rest'⟩, found, same⟩ := except_bind_ok.mp scanned
    cases same
    dsimp only at closed
    split at closed
    · cases closed
      exact ((scanMembers_spliced whole).mp found).2
    · cases closed
  · intro plain
    rw [(scanMembers_spliced whole).mpr ⟨rfl, plain⟩]
    rfl

end Objects

end Json
