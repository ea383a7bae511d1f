import VerifiableRag.Document.Structure
import VerifiableRag.Library.SerdeJson

/-!
Which documents share an AST, and with it a `content_digest`.
-/
namespace RagEngine
open Bytes Splitting SerdeJson

section Serialization

/-- A lexeme is ASCII. -/
def lexemeText (lexeme : List UInt8) : String := String.ofList (lexeme.map fun b => Char.ofNat b.toNat)

theorem lexemeText_injective : Function.Injective lexemeText := by
  have code : ∀ b : UInt8, (Char.ofNat b.toNat).toNat = b.toNat := by decide +kernel
  have char : Function.Injective fun b : UInt8 => Char.ofNat b.toNat := by
    intro b c same
    have codes := congrArg Char.toNat same
    rw [code, code] at codes
    exact UInt8.toNat_inj.mp codes
  intro a b same
  rw [lexemeText, lexemeText, String.ofList_inj] at same
  exact char.list_map same

/-- `rename_all = "snake_case"` -/
def TokenKind.name : TokenKind → String
  | .word => "word"
  | .number => "number"
  | .punctuation => "punctuation"
  | .symbol => "symbol"
  | .whitespace => "whitespace"

def Token.toJson (t : Token) : Value :=
  .object [("kind", .string t.kind.name), ("lexeme", .string (lexemeText t.lexeme)),
    ("start", natural.serialize t.start), ("end", natural.serialize t.stop)]

def Span.toJson (span : Span) : Value :=
  .object [("start", natural.serialize span.start), ("end", natural.serialize span.stop)]

/-- `AstNode::Term` -/
def termJson (t : Token) : Value := .object [("type", .string "term"), ("token", t.toJson)]

def Sentence.toJson (s : Sentence) : Value :=
  .object [("type", .string "sentence"), ("span", s.span.toJson),
    ("terms", .array (s.terms.map termJson))]

def Section.toJson (s : Section) : Value :=
  .object [("type", .string "section"), ("span", s.span.toJson),
    ("sentences", .array (s.sentences.map Sentence.toJson))]

def Document.toJson (d : Document) : Value :=
  .object [("type", .string "document"), ("sections", .array (d.sections.map Section.toJson))]

/-- `content_digest`: the JSON text and its SHA-256 are one function of the serialized AST. -/
def contentDigest {Digest : Type} (sha256 : Value → Digest) (ast : Document) : Digest :=
  sha256 ast.toJson

theorem natural_injective {m n : Nat} (same : natural.serialize m = natural.serialize n) : m = n :=
  Nat.cast_injective (Value.number.inj same)

theorem TokenKind.name_injective : Function.Injective TokenKind.name := by
  intro a b same
  cases a <;> cases b <;> first | rfl | exact absurd same (by decide)

theorem Token.toJson_injective : Function.Injective Token.toJson := by
  intro a b same
  simp only [Token.toJson, Value.object.injEq, List.cons.injEq, Prod.mk.injEq, Value.string.injEq,
    true_and, and_true] at same
  obtain ⟨kind, lexeme, start, stop⟩ := same
  cases a
  cases b
  simp only [Token.mk.injEq]
  exact ⟨TokenKind.name_injective kind, lexemeText_injective lexeme, natural_injective start,
    natural_injective stop⟩

theorem Span.toJson_injective : Function.Injective Span.toJson := by
  intro a b same
  simp only [Span.toJson, Value.object.injEq, List.cons.injEq, Prod.mk.injEq, true_and, and_true]
    at same
  cases a
  cases b
  simp only [Span.mk.injEq]
  exact ⟨natural_injective same.1, natural_injective same.2⟩

theorem termJson_injective : Function.Injective termJson := by
  intro a b same
  simp only [termJson, Value.object.injEq, List.cons.injEq, Prod.mk.injEq, true_and, and_true]
    at same
  exact Token.toJson_injective same

theorem Sentence.toJson_injective : Function.Injective Sentence.toJson := by
  intro a b same
  simp only [Sentence.toJson, Value.object.injEq, List.cons.injEq, Prod.mk.injEq, true_and, and_true,
    Value.array.injEq] at same
  cases a
  cases b
  simp only [Sentence.mk.injEq]
  exact ⟨Span.toJson_injective same.1, termJson_injective.list_map same.2⟩

theorem Section.toJson_injective : Function.Injective Section.toJson := by
  intro a b same
  simp only [Section.toJson, Value.object.injEq, List.cons.injEq, Prod.mk.injEq, true_and, and_true,
    Value.array.injEq] at same
  cases a
  cases b
  simp only [Section.mk.injEq]
  exact ⟨Span.toJson_injective same.1, Sentence.toJson_injective.list_map same.2⟩

theorem Document.toJson_injective : Function.Injective Document.toJson := by
  intro a b same
  simp only [Document.toJson, Value.object.injEq, List.cons.injEq, Prod.mk.injEq, true_and, and_true,
    Value.array.injEq] at same
  cases a
  cases b
  simp only [Document.mk.injEq]
  exact Section.toJson_injective.list_map same

end Serialization

section Outlines

theorem Sentence.Spanned.ext {a b : Sentence} (left : a.Spanned) (right : b.Spanned)
    (terms : a.terms = b.terms) : a = b := by
  cases a
  cases b
  cases terms
  simp only [Sentence.Spanned] at left right
  rw [Sentence.mk.injEq]
  exact ⟨left.trans right.symm, rfl⟩

/-- Items that are told apart by their images form equal lists when the images do. -/
theorem map_ext {α β : Type} {f : α → β} {xs ys : List α}
    (apart : ∀ x ∈ xs, ∀ y ∈ ys, f x = f y → x = y) (same : xs.map f = ys.map f) : xs = ys := by
  induction xs generalizing ys with
  | nil =>
    cases ys with
    | nil => rfl
    | cons y ys => cases same
  | cons x xs ih =>
    cases ys with
    | nil => cases same
    | cons y ys =>
      rw [List.map_cons, List.map_cons, List.cons.injEq] at same
      rw [apart x List.mem_cons_self y List.mem_cons_self same.1,
        ih (fun a left b right => apart a (List.mem_cons_of_mem x left) b
          (List.mem_cons_of_mem y right)) same.2]

theorem Section.Spanned.ext {a b : Section} (left : a.Spanned) (right : b.Spanned)
    (outlines : a.outline = b.outline) : a = b := by
  have sentences : a.sentences = b.sentences :=
    map_ext (fun s first t second => (left.sentences s first).ext (right.sentences t second)) outlines
  have spans : a.span = b.span := by
    rw [left.span, right.span]
    simp only [sentences]
  cases a
  cases b
  rw [Section.mk.injEq]
  exact ⟨spans, sentences⟩

/-- A parsed document is its outline. -/
theorem Document.ext_outline {d d' : Document} (spanned : ∀ s ∈ d.sections, s.Spanned)
    (spanned' : ∀ s ∈ d'.sections, s.Spanned) (outlines : d.outline = d'.outline) : d = d' := by
  have sections : d.sections = d'.sections :=
    map_ext (fun s first t second => (spanned s first).ext (spanned' t second)) outlines
  cases d
  cases d'
  rw [Document.mk.injEq]
  exact sections

end Outlines

section Extending

theorem Munch.unique {s lexeme lexeme' : List UInt8} {kind kind' : TokenKind}
    (munch : Munch s kind lexeme) (munch' : Munch s kind' lexeme') :
    kind = kind' ∧ lexeme = lexeme' := by
  obtain ⟨same, short⟩ := munch'.longest kind lexeme munch.inClass munch.starts
  obtain ⟨_, long⟩ := munch.longest kind' lexeme' munch'.inClass munch'.starts
  exact ⟨same, List.prefix_of_prefix_length_le munch.starts munch'.starts short |>.eq_of_length
    (Nat.le_antisymm short long)⟩

theorem Stream.unique {i : Nat} {s : List UInt8} {tokens tokens' : List Token}
    (stream : Stream i s tokens) (stream' : Stream i s tokens') : tokens = tokens' := by
  induction stream generalizing tokens' with
  | nil =>
    generalize empty : ([] : List UInt8) = s at stream'
    cases stream' with
    | nil => rfl
    | cons munch nonempty tail => simp [nonempty] at empty
  | @cons i kind lexeme rest tokens munch nonempty tail ih =>
    generalize whole : lexeme ++ rest = s at stream'
    cases stream' with
    | nil => simp [nonempty] at whole
    | @cons _ kind' lexeme' rest' _ munch' nonempty' tail' =>
      rw [← whole] at munch'
      obtain ⟨rfl, rfl⟩ := munch.unique munch'
      rw [List.append_cancel_left_eq] at whole
      rw [← whole] at tail'
      rw [ih tail']

/-- An equals sign is a lexeme of its own. -/
theorem sign_alone {kind : TokenKind} {lexeme : List UInt8} (inClass : InClass kind lexeme)
    (sign : 0x3D ∈ lexeme) : lexeme.length = 1 := by
  cases kind with
  | word =>
    obtain ⟨b, rest, rfl, letter, inside⟩ := inClass
    rcases List.mem_cons.mp sign with rfl | later
    · exact absurd (isWordByte_start letter) (by decide)
    · exact absurd (inside _ later) (by decide)
  | number =>
    obtain ⟨whole, _, digits, form⟩ := inClass
    rcases form with rfl | ⟨fraction, _, digits', rfl⟩
    · exact absurd (digits _ sign) (by decide)
    · rcases List.mem_append.mp sign with left | right
      · exact absurd (digits _ left) (by decide)
      · exact absurd (digits' _ (List.mem_of_ne_of_mem (by decide) right)) (by decide)
  | punctuation | symbol =>
    obtain ⟨b, _, rfl⟩ := inClass
    rfl
  | whitespace => exact absurd (inClass.2 _ sign) (by decide)

/-- A sign that no longer lexeme holds leaves the lexemes before it as they are. -/
theorem Munch.before_sign {s lexeme : List UInt8} {kind : TokenKind} (munch : Munch s kind lexeme)
    (nonempty : lexeme ≠ []) : Munch (s ++ [0x3D]) kind lexeme where
  inClass := munch.inClass
  starts := munch.starts.trans (List.prefix_append s [0x3D])
  longest kind' other inClass starts := by
    by_cases fits : other.length ≤ s.length
    · exact munch.longest kind' other inClass
        (List.prefix_of_prefix_length_le starts (List.prefix_append s [0x3D]) fits)
    · have bound := starts.length_le
      have long := munch.starts.length_le
      have more := List.length_pos_iff.mpr nonempty
      rw [List.length_append, List.length_singleton] at bound
      have whole := starts.eq_of_length (by
        rw [List.length_append, List.length_singleton]
        omega)
      have alone := sign_alone inClass (by simp [whole])
      omega

/-- The document with an equals sign behind it. -/
theorem Stream.append_sign {i : Nat} {s : List UInt8} {tokens : List Token}
    (stream : Stream i s tokens) :
    Stream i (s ++ [0x3D]) (tokens ++ [⟨.symbol, [0x3D], i + s.length, i + s.length + 1⟩]) := by
  induction stream with
  | @nil i =>
    have sign : InClass .symbol [0x3D] := ⟨0x3D, by decide +kernel, rfl⟩
    have munch : Munch ([0x3D] ++ []) .symbol [0x3D] := by
      apply longest_mark sign
      intro other inClass
      obtain ⟨_, _, rfl⟩ := inClass
      rfl
    exact .cons munch (by simp) .nil
  | @cons i kind lexeme rest tokens munch nonempty tail ih =>
    rw [List.length_append, ← Nat.add_assoc, List.append_assoc]
    refine .cons ?_ nonempty ih
    rw [← List.append_assoc]
    exact munch.before_sign nonempty

theorem outline_append {tokens : List Token} {tok : Token} (symbol : tok.kind = .symbol) :
    outline (tokens ++ [tok]) = outline tokens := by
  obtain ⟨blocks, block, cut⟩ := splitOnP_last Token.blankLine tokens
  obtain ⟨parts, part, cut'⟩ := splitOnP_last Token.endsSentence block
  have same_block : tok.blankLine = false := by simp [Token.blankLine, symbol]
  have within : tok.endsSentence = false := by simp [Token.endsSentence, symbol]
  have term : tok.isTerm = false := by simp [Token.isTerm, symbol]
  have same : sentenceTerms (block ++ [tok]) = sentenceTerms block := by
    rw [sentenceTerms, sentenceTerms, splitOnP_snoc within cut', cut', List.map_append,
      List.map_append, List.map_singleton, List.map_singleton, List.filter_append,
      List.filter_singleton, term]
    simp
  rw [outline, outline, splitOnP_snoc same_block cut, cut, List.map_append, List.map_append,
    List.map_singleton, List.map_singleton, same]

end Extending

/-- Two documents that are parsed have one AST, and one digest, just when they have the same
    words and numbers at the same places, grouped alike; and every AST stands for several
    documents. -/
theorem ast_identifies_iff {Digest : Type} {sha256 : Value → Digest}
    (injective : Function.Injective sha256) {input other : List UInt8} {tokens tokens' : List Token}
    {ast ast' : Document} (done : tokenize input = .ok tokens) (parsed : parse tokens = .ok ast)
    (done' : tokenize other = .ok tokens') (parsed' : parse tokens' = .ok ast') :
    ((ast = ast' → input = other) ↔ input = other ∨ outline tokens ≠ outline tokens') ∧
    ((contentDigest sha256 ast = contentDigest sha256 ast' → input = other) ↔
      input = other ∨ outline tokens ≠ outline tokens') ∧
    ∃ third ≠ input, ∃ tokens'', tokenize third = .ok tokens'' ∧ parse tokens'' = .ok ast := by
  have stream := tokenize_stream done
  obtain ⟨outlined, spanned⟩ := parse_outline stream parsed
  obtain ⟨outlined', spanned'⟩ := parse_outline (tokenize_stream done') parsed'
  have same : ast = ast' ↔ outline tokens = outline tokens' := by
    rw [← outlined, ← outlined']
    exact ⟨congrArg Document.outline, Document.ext_outline spanned spanned'⟩
  have digests : contentDigest sha256 ast = contentDigest sha256 ast' ↔ ast = ast' :=
    (injective.comp Document.toJson_injective).eq_iff
  refine ⟨?_, ?_, input ++ [0x3D], by simp, ?_⟩
  · rw [same]
    tauto
  · rw [digests, same]
    tauto
  · have plain : ∀ b ∈ input ++ [0x3D], classifiable b := by
      intro b member
      rcases List.mem_append.mp member with inside | last
      · exact tokenize_ok_iff.mp ⟨tokens, done⟩ b inside
      · rw [List.mem_singleton.mp last]
        decide +kernel
    obtain ⟨tokens'', done''⟩ := tokenize_ok_iff.mpr plain
    have stream'' := tokenize_stream done''
    refine ⟨tokens'', done'', ?_⟩
    have appended : outline tokens'' = outline tokens := by
      rw [← stream.append_sign.unique stream'', outline_append rfl]
    rcases parse_cases stream''.alternates with ⟨_, empty⟩ | ⟨ast'', parsed'', outlined'', spanned''⟩
    · rw [appended, ← outlined] at empty
      exact absurd (List.map_eq_nil_iff.mp empty) ast.nonempty
    · rw [parsed'', Document.ext_outline spanned'' spanned
        (outlined''.trans (appended.trans outlined.symm))]

def spaced : List UInt8 := utf8 "Alpha beta"
def listed : List UInt8 := utf8 "Alpha,beta"

def alpha : Token := ⟨.word, utf8 "Alpha", 0, 5⟩
def beta : Token := ⟨.word, utf8 "beta", 6, 10⟩

/-- The AST of both. -/
def alphaBeta : Document :=
  ⟨[⟨⟨0, 10⟩, [⟨⟨0, 10⟩, [alpha, beta], by simp⟩], by simp⟩], by simp⟩

theorem ast_identifies_iff_comma :
    ((alphaBeta = alphaBeta → spaced = listed) ↔ spaced = listed ∨
      outline [alpha, ⟨.whitespace, [0x20], 5, 6⟩, beta] ≠
        outline [alpha, ⟨.punctuation, [0x2C], 5, 6⟩, beta]) ∧
    ((contentDigest id alphaBeta = contentDigest id alphaBeta → spaced = listed) ↔
      spaced = listed ∨ outline [alpha, ⟨.whitespace, [0x20], 5, 6⟩, beta] ≠
        outline [alpha, ⟨.punctuation, [0x2C], 5, 6⟩, beta]) ∧
    ∃ third ≠ spaced, ∃ tokens, tokenize third = .ok tokens ∧ parse tokens = .ok alphaBeta :=
  ast_identifies_iff Function.injective_id (by decide +kernel) (by decide +kernel)
    (by decide +kernel) (by decide +kernel)

/-- What a document is parsed to. -/
def astOf (input : List UInt8) : Except IndexerError Document := (tokenize input).bind parse

theorem comma_lost : spaced ≠ listed ∧ (astOf spaced).isOk ∧ astOf spaced = astOf listed := by
  decide +kernel

end RagEngine
