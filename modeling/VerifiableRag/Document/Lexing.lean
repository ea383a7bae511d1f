import VerifiableRag.Document.Tokens
import VerifiableRag.Library.Results
import VerifiableRag.Library.Unicode
import Mathlib

/-!
The tokenizer against the documented lexical classes: its tokens tile the document, each is
the longest lexeme at its place, and it stops at the first byte of no class.
-/
namespace RagEngine
open Bytes CodePoints

section Classes

/-- The lexemes of a class. -/
def InClass : TokenKind → List UInt8 → Prop
  | .word, lexeme =>
    ∃ b rest, lexeme = b :: rest ∧ (isAsciiAlphabetic b ∨ b = 0x5F) ∧ ∀ c ∈ rest, isWordByte c
  | .number, lexeme =>
    ∃ whole ≠ [], (∀ c ∈ whole, isAsciiDigit c) ∧ (lexeme = whole ∨
      ∃ fraction ≠ [], (∀ c ∈ fraction, isAsciiDigit c) ∧ lexeme = whole ++ 0x2E :: fraction)
  | .punctuation, lexeme => ∃ b ∈ punctuationBytes, lexeme = [b]
  | .symbol, lexeme => ∃ b ∈ symbolBytes, lexeme = [b]
  | .whitespace, lexeme => lexeme ≠ [] ∧ ∀ c ∈ lexeme, isAsciiWhitespace c

/-- The lexeme at the start of `s`: of all lexemes there, whatever their class, the longest. -/
structure Munch (s : List UInt8) (kind : TokenKind) (lexeme : List UInt8) : Prop where
  inClass : InClass kind lexeme
  starts : lexeme <+: s
  longest : ∀ kind' other, InClass kind' other → other <+: s →
    kind' = kind ∧ other.length ≤ lexeme.length

/-- The class that a byte opens. -/
def opens (b : UInt8) : Option TokenKind :=
  if isAsciiAlphabetic b ∨ b = 0x5F then some .word
  else if isAsciiDigit b then some .number
  else if isAsciiWhitespace b then some .whitespace
  else if b ∈ punctuationBytes then some .punctuation
  else if b ∈ symbolBytes then some .symbol
  else none

theorem opens_digit : ∀ b, isAsciiDigit b → opens b = some .number := by decide +kernel

theorem opens_whitespace : ∀ b, isAsciiWhitespace b → opens b = some .whitespace := by
  decide +kernel

theorem opens_punctuation : ∀ b ∈ punctuationBytes, opens b = some .punctuation := by decide +kernel

theorem opens_symbol : ∀ b ∈ symbolBytes, opens b = some .symbol := by decide +kernel

theorem opens_inClass {kind : TokenKind} {lexeme : List UInt8} (inClass : InClass kind lexeme) :
    ∃ b rest, lexeme = b :: rest ∧ opens b = some kind := by
  cases kind with
  | word =>
    obtain ⟨b, rest, rfl, letter, _⟩ := inClass
    exact ⟨b, rest, rfl, if_pos letter⟩
  | number =>
    obtain ⟨whole, nonempty, digits, form⟩ := inClass
    obtain ⟨b, rest, rfl⟩ := List.exists_cons_of_ne_nil nonempty
    have number := opens_digit b (digits b List.mem_cons_self)
    rcases form with rfl | ⟨fraction, _, _, rfl⟩
    · exact ⟨b, rest, rfl, number⟩
    · exact ⟨b, rest ++ 0x2E :: fraction, rfl, number⟩
  | punctuation =>
    obtain ⟨b, mark, rfl⟩ := inClass
    exact ⟨b, [], rfl, opens_punctuation b mark⟩
  | symbol =>
    obtain ⟨b, mark, rfl⟩ := inClass
    exact ⟨b, [], rfl, opens_symbol b mark⟩
  | whitespace =>
    obtain ⟨nonempty, spaces⟩ := inClass
    obtain ⟨b, rest, rfl⟩ := List.exists_cons_of_ne_nil nonempty
    exact ⟨b, rest, rfl, opens_whitespace b (spaces b List.mem_cons_self)⟩

/-- Two lexemes at one place are of one class. -/
theorem inClass_unique {kind kind' : TokenKind} {lexeme other s : List UInt8}
    (inClass : InClass kind lexeme) (inClass' : InClass kind' other) (starts : lexeme <+: s)
    (starts' : other <+: s) : kind' = kind := by
  obtain ⟨b, rest, rfl, opened⟩ := opens_inClass inClass
  obtain ⟨b', rest', rfl, opened'⟩ := opens_inClass inClass'
  obtain ⟨t, rfl⟩ := starts
  obtain ⟨t', same⟩ := starts'
  rw [List.cons_append, List.cons_append, List.cons.injEq] at same
  rw [same.1, opened, Option.some.injEq] at opened'
  exact opened'.symm

end Classes

section Runs

theorem run_longest {p : UInt8 → Bool} {other s : List UInt8} (run : ∀ c ∈ other, p c)
    (starts : other <+: s) : other.length ≤ (s.takeWhile p).length := by
  obtain ⟨t, rfl⟩ := starts
  rw [List.takeWhile_append_of_pos run, List.length_append]
  exact Nat.le_add_right _ _

theorem digits_before_point {whole : List UInt8} (digits : ∀ c ∈ whole, isAsciiDigit c)
    (tail : List UInt8) :
    (whole ++ 0x2E :: tail).takeWhile isAsciiDigit = whole ∧
      (whole ++ 0x2E :: tail).dropWhile isAsciiDigit = 0x2E :: tail := by
  have point : isAsciiDigit 0x2E = false := by decide
  rw [List.takeWhile_append_of_pos digits, List.dropWhile_append_of_pos digits]
  simp [point]

theorem scanNumber_longest {other s : List UInt8} (inClass : InClass .number other)
    (starts : other <+: s) : other.length ≤ (scanNumber s).1.length := by
  obtain ⟨whole, _, digits, form⟩ := inClass
  rcases form with rfl | ⟨fraction, nonempty, digits', rfl⟩
  · have run := run_longest digits starts
    unfold scanNumber
    split
    · split
      · rw [List.length_append]
        omega
      · exact run
    · exact run
  · obtain ⟨t, rfl⟩ := starts
    obtain ⟨d, rest, rfl⟩ := List.exists_cons_of_ne_nil nonempty
    obtain ⟨taken, dropped⟩ := digits_before_point digits (d :: rest ++ t)
    rw [List.append_assoc, List.cons_append, scanNumber, dropped, taken]
    have digit : isAsciiDigit d = true := digits' d List.mem_cons_self
    have run := run_longest digits' (List.prefix_append (d :: rest) t)
    rw [List.cons_append] at run ⊢
    simp only [digit, if_true, List.length_append, List.length_cons] at run ⊢
    omega

theorem scanNumber_inClass {b : UInt8} {rest : List UInt8} (starts : isAsciiDigit b) :
    InClass .number (scanNumber (b :: rest)).1 := by
  have digits (s : List UInt8) : ∀ c ∈ s.takeWhile isAsciiDigit, isAsciiDigit c :=
    fun c member => List.mem_takeWhile_imp member
  have run (d : UInt8) (tail : List UInt8) (digit : isAsciiDigit d) :
      (d :: tail).takeWhile isAsciiDigit ≠ [] := by
    simp [digit]
  refine ⟨(b :: rest).takeWhile isAsciiDigit, run b rest starts, digits _, ?_⟩
  unfold scanNumber
  split
  · rename_i d tail _
    split
    · rename_i digit
      exact Or.inr ⟨_, run d tail digit, digits _, rfl⟩
    · exact Or.inl rfl
  · exact Or.inl rfl

theorem longest_run {kind : TokenKind} {p : UInt8 → Bool} {s : List UInt8}
    (inClass : InClass kind (s.takeWhile p)) (run : ∀ other, InClass kind other → ∀ c ∈ other, p c) :
    Munch s kind (s.takeWhile p) where
  inClass := inClass
  starts := List.takeWhile_prefix p
  longest kind' other inClass' starts := by
    have same := inClass_unique inClass inClass' (List.takeWhile_prefix p) starts
    rw [same] at inClass'
    exact ⟨same, run_longest (run other inClass') starts⟩

theorem longest_mark {kind : TokenKind} {b : UInt8} {rest : List UInt8} (inClass : InClass kind [b])
    (single : ∀ other, InClass kind other → other.length = 1) : Munch (b :: rest) kind [b] where
  inClass := inClass
  starts := ⟨rest, rfl⟩
  longest kind' other inClass' starts := by
    have same := inClass_unique inClass inClass' ⟨rest, rfl⟩ starts
    rw [same] at inClass'
    exact ⟨same, Nat.le_of_eq (single other inClass')⟩

theorem scanToken_munch {s lexeme rest : List UInt8} {kind : TokenKind}
    (scanned : scanToken s = some (kind, lexeme, rest)) : Munch s kind lexeme := by
  cases s with
  | nil => cases scanned
  | cons b tail =>
    simp only [scanToken] at scanned
    split at scanned
    · rename_i letter
      cases scanned
      apply longest_run
      · rw [List.takeWhile_cons_of_pos (isWordByte_start letter)]
        exact ⟨b, _, rfl, letter, fun c member => List.mem_takeWhile_imp member⟩
      · intro other inClass c member
        obtain ⟨b', rest', rfl, letter', inside⟩ := inClass
        rcases List.mem_cons.mp member with rfl | later
        · exact isWordByte_start letter'
        · exact inside c later
    split at scanned
    · rename_i digit
      rw [Option.some.injEq, Prod.mk.injEq] at scanned
      obtain ⟨rfl, scanned⟩ := scanned
      have inClass : InClass .number (scanNumber (b :: tail)).1 := scanNumber_inClass digit
      have starts : (scanNumber (b :: tail)).1 <+: b :: tail :=
        ⟨_, (lexeme_number digit).splits⟩
      rw [scanned] at inClass starts
      refine ⟨inClass, starts, ?_⟩
      intro kind' other inClass' starts'
      have same := inClass_unique inClass inClass' starts starts'
      rw [same] at inClass'
      have longest := scanNumber_longest inClass' starts'
      rw [scanned] at longest
      exact ⟨same, longest⟩
    split at scanned
    · rename_i space
      cases scanned
      apply longest_run
      · exact ⟨by simp [space], fun c member => List.mem_takeWhile_imp member⟩
      · intro other inClass
        exact inClass.2
    split at scanned
    · rename_i mark
      cases scanned
      apply longest_mark
      · exact ⟨b, mark, rfl⟩
      · intro other inClass
        obtain ⟨_, _, rfl⟩ := inClass
        rfl
    split at scanned
    · rename_i mark
      cases scanned
      apply longest_mark
      · exact ⟨b, mark, rfl⟩
      · intro other inClass
        obtain ⟨_, _, rfl⟩ := inClass
        rfl
    · cases scanned

end Runs

section Stream

/-- Lexemes one behind the other from offset `i` on to the end of the input. -/
inductive Stream : Nat → List UInt8 → List Token → Prop where
  | nil {i : Nat} : Stream i [] []
  | cons {i : Nat} {kind : TokenKind} {lexeme rest : List UInt8} {tokens : List Token}
      (munch : Munch (lexeme ++ rest) kind lexeme) (nonempty : lexeme ≠ [])
      (tail : Stream (i + lexeme.length) rest tokens) :
      Stream i (lexeme ++ rest) (⟨kind, lexeme, i, i + lexeme.length⟩ :: tokens)

theorem tokenizeFrom_stream {fuel i : Nat} {s : List UInt8} {tokens : List Token}
    (enough : s.length ≤ fuel) (done : tokenizeFrom fuel i s = .ok tokens) : Stream i s tokens := by
  induction fuel generalizing i s tokens with
  | zero =>
    rw [List.length_eq_zero_iff.mp (Nat.le_zero.mp enough)] at done ⊢
    cases done
    exact .nil
  | succ fuel ih =>
    cases s with
    | nil =>
      cases done
      exact .nil
    | cons b rest =>
      rw [tokenizeFrom] at done
      split at done
      · cases done
      · rename_i kind lexeme rest' scanned
        have here := scanToken_some scanned
        have shorter := here.shorter
        rw [Results.except_bind_ok] at done
        obtain ⟨tail, later, same⟩ := done
        cases same
        have munch := scanToken_munch scanned
        rw [← here.splits] at munch ⊢
        exact .cons munch here.nonempty (ih (by omega) later)

theorem tokenize_stream {input : List UInt8} {tokens : List Token}
    (done : tokenize input = .ok tokens) : Stream 0 input tokens :=
  tokenizeFrom_stream (Nat.le_refl _) done

namespace Stream
variable {i : Nat} {s : List UInt8} {tokens : List Token}

theorem joined (stream : Stream i s tokens) : tokens.flatMap Token.lexeme = s := by
  induction stream with
  | nil => rfl
  | cons munch nonempty tail ih => rw [List.flatMap_cons, ih]

theorem first (stream : Stream i s tokens) : ∀ t ∈ tokens.head?, t.start = i := by
  cases stream with
  | nil => exact nofun
  | cons munch nonempty tail =>
    intro t member
    cases member
    rfl

theorem contiguous (stream : Stream i s tokens) :
    tokens.IsChain fun a b => a.stop = b.start := by
  induction stream with
  | nil => exact .nil
  | cons munch nonempty tail ih =>
    rw [List.isChain_cons]
    exact ⟨fun t member => (tail.first t member).symm, ih⟩

theorem last (stream : Stream i s tokens) : ∀ t ∈ tokens.getLast?, t.stop = i + s.length := by
  induction stream with
  | nil => exact nofun
  | @cons i kind lexeme rest tokens munch nonempty tail ih =>
    intro t member
    cases tail with
    | nil =>
      rw [List.getLast?_singleton, Option.mem_some] at member
      rw [← member, List.append_nil]
    | cons munch' nonempty' tail' =>
      rw [List.getLast?_cons_cons] at member
      rw [ih t member, Nat.add_assoc, ← List.length_append]

/-- Every token lies in the input where it says. -/
theorem placed (stream : Stream i s tokens) {t : Token} (member : t ∈ tokens) :
    ∃ front back, s = front ++ t.lexeme ++ back ∧ t.start = i + front.length ∧
      t.stop = t.start + t.lexeme.length ∧ t.lexeme ≠ [] ∧ Munch (t.lexeme ++ back) t.kind t.lexeme := by
  induction stream with
  | nil => cases member
  | @cons i kind lexeme rest tokens munch nonempty tail ih =>
    rcases List.mem_cons.mp member with rfl | later
    · exact ⟨[], rest, rfl, rfl, rfl, nonempty, munch⟩
    · obtain ⟨front, back, split, start, stop, nonempty', munch'⟩ := ih later
      refine ⟨lexeme ++ front, back, ?_, ?_, stop, nonempty', munch'⟩
      · rw [split, List.append_assoc, List.append_assoc, List.append_assoc]
      · rw [start, List.length_append, Nat.add_assoc]

end Stream

end Stream

section Boundaries

/-- `str::is_char_boundary` -/
def isCharBoundary (s : List UInt8) (i : Nat) : Bool :=
  match s[i]? with
  | some b => i == 0 || !Unicode.isContinuation b
  | none => i == s.length

theorem classifiable_ascii : ∀ b, classifiable b → b < 0x80 := by decide +kernel

theorem ascii_not_continuation : ∀ b, b < 0x80 → Unicode.isContinuation b = false := by
  decide +kernel

/-- Text does not go on with a continuation byte where a character has ended. -/
theorem wellFormed_after_ascii {front back : List UInt8} {b : UInt8}
    (ascii : ∀ c ∈ front, c < 0x80) (text : Unicode.wellFormed (front ++ b :: back)) :
    Unicode.isContinuation b = false := by
  induction front with
  | nil =>
    have lead : ∀ c : UInt8, Unicode.isContinuation c → ¬ c < 0x80 ∧ ¬ (0xC2 ≤ c ∧ c ≤ 0xDF) ∧
        ¬ (0xE0 ≤ c ∧ c ≤ 0xEF) ∧ ¬ (0xF0 ≤ c ∧ c ≤ 0xF4) := by
      decide +kernel
    rw [Bool.eq_false_iff]
    intro continuation
    obtain ⟨one, two, three, four⟩ := lead b continuation
    rw [List.nil_append] at text
    unfold Unicode.wellFormed at text
    rw [if_neg one, if_neg two, if_neg three, if_neg four] at text
    cases text
  | cons c front ih =>
    obtain ⟨here, later⟩ := List.forall_mem_cons.mp ascii
    rw [List.cons_append] at text
    unfold Unicode.wellFormed at text
    rw [if_pos here] at text
    exact ih later text

/-- Up to the first byte that is not ASCII every offset is a boundary. -/
theorem boundary_of_ascii {input front back : List UInt8} (split : input = front ++ back)
    (ascii : ∀ c ∈ front, c < 0x80) (text : Unicode.wellFormed input) {i : Nat}
    (bound : i ≤ front.length) : isCharBoundary input i := by
  rw [isCharBoundary]
  split
  · rename_i b found
    rw [Bool.or_eq_true, Bool.not_eq_true']
    refine Or.inr ?_
    by_cases inside : i < front.length
    · rw [split, List.getElem?_append_left inside] at found
      exact ascii_not_continuation b (ascii b (List.mem_of_getElem? found))
    · have at_end : i = front.length := by omega
      rw [split, at_end, List.getElem?_append_right (Nat.le_refl _), Nat.sub_self] at found
      cases back with
      | nil => cases found
      | cons c back =>
        cases found
        rw [split] at text
        exact wellFormed_after_ascii ascii text
  · rename_i beyond
    rw [List.getElem?_eq_none_iff, split, List.length_append] at beyond
    rw [beq_iff_eq, split, List.length_append]
    omega

theorem firstUnclassifiable_none {i : Nat} {s : List UInt8} :
    firstUnclassifiable i s = none ↔ ∀ b ∈ s, classifiable b := by
  induction s generalizing i with
  | nil => simp [firstUnclassifiable]
  | cons b rest ih =>
    rw [firstUnclassifiable, List.forall_mem_cons]
    split
    · rename_i here
      rw [ih, and_iff_right here]
    · rename_i here
      simp [here]

theorem firstUnclassifiable_some {i j : Nat} {s : List UInt8} {b : UInt8}
    (found : firstUnclassifiable i s = some (j, b)) :
    ∃ front back, s = front ++ b :: back ∧ j = i + front.length ∧ classifiable b = false ∧
      ∀ c ∈ front, classifiable c := by
  induction s generalizing i with
  | nil => cases found
  | cons c rest ih =>
    rw [firstUnclassifiable] at found
    split at found
    · rename_i here
      obtain ⟨front, back, split, offset, foreign, plain⟩ := ih found
      refine ⟨c :: front, back, by rw [split, List.cons_append], ?_, foreign, ?_⟩
      · rw [offset, List.length_cons]
        omega
      · exact List.forall_mem_cons.mpr ⟨here, plain⟩
    · rename_i here
      cases found
      refine ⟨[], rest, rfl, rfl, Bool.eq_false_iff.mpr here, ?_⟩
      intro c member
      cases member

theorem tokenize_ok_iff {input : List UInt8} :
    (∃ tokens, tokenize input = .ok tokens) ↔ ∀ b ∈ input, classifiable b := by
  constructor
  · intro ok
    obtain ⟨tokens, done⟩ := ok
    cases found : firstUnclassifiable 0 input with
    | none => exact firstUnclassifiable_none.mp found
    | some stray =>
      rw [tokenize, tokenizeFrom_error (Nat.le_refl _) found] at done
      cases done
  · intro plain
    obtain ⟨tokens, done, _⟩ :=
      tokenizeFrom_ok (Nat.le_refl _) (firstUnclassifiable_none.mpr plain)
    exact ⟨tokens, done⟩

end Boundaries

/-- `&input[start..stop]` -/
def slice (input : List UInt8) (start stop : Nat) : List UInt8 := (input.take stop).drop start

theorem slice_placed {front lexeme back : List UInt8} :
    slice (front ++ lexeme ++ back) front.length (front.length + lexeme.length) = lexeme := by
  rw [slice, ← List.length_append, List.take_left, List.drop_left]

/-- The tokens are the document, cut into its lexemes. -/
structure Lossless (input : List UInt8) (tokens : List Token) : Prop where
  first : ∀ t ∈ tokens.head?, t.start = 0
  contiguous : tokens.IsChain fun a b => a.stop = b.start
  last : ∀ t ∈ tokens.getLast?, t.stop = input.length
  nonempty : ∀ t ∈ tokens, t.start < t.stop ∧ t.stop ≤ input.length
  sliced : ∀ t ∈ tokens, t.lexeme = slice input t.start t.stop
  boundaries : ∀ t ∈ tokens, isCharBoundary input t.start ∧ isCharBoundary input t.stop
  munch : ∀ t ∈ tokens, Munch (input.drop t.start) t.kind t.lexeme
  joined : tokens.flatMap Token.lexeme = input

theorem tokenize_ok {input : List UInt8} {tokens : List Token} (text : Unicode.wellFormed input)
    (done : tokenize input = .ok tokens) : Lossless input tokens := by
  have stream := tokenize_stream done
  have ascii : ∀ c ∈ input, c < 0x80 :=
    fun c member => classifiable_ascii c (tokenize_ok_iff.mp ⟨tokens, done⟩ c member)
  have boundary {i : Nat} (bound : i ≤ input.length) : isCharBoundary input i :=
    boundary_of_ascii (List.append_nil input).symm ascii text bound
  have inside : ∀ t ∈ tokens, t.start < t.stop ∧ t.stop ≤ input.length := by
    intro t member
    obtain ⟨front, back, split, start, stop, nonempty, _⟩ := stream.placed member
    have long := List.length_pos_iff.mpr nonempty
    have total := congrArg List.length split
    rw [List.length_append, List.length_append] at total
    omega
  refine ⟨stream.first, stream.contiguous, ?_, inside, ?_, ?_, ?_, stream.joined⟩
  · intro t member
    rw [stream.last t member, Nat.zero_add]
  · intro t member
    obtain ⟨front, back, split, start, stop, _⟩ := stream.placed member
    rw [Nat.zero_add] at start
    rw [stop, start, split, slice_placed]
  · intro t member
    have bounds := inside t member
    exact ⟨boundary (by omega), boundary bounds.2⟩
  · intro t member
    obtain ⟨front, back, split, start, _, _, munch⟩ := stream.placed member
    rw [Nat.zero_add] at start
    rw [start, split, List.append_assoc, List.drop_left]
    exact munch

/-- The tokenizer succeeds just on the documents whose bytes all have a class and then loses
    nothing; it fails at the first byte of no class, where a character starts. -/
theorem tokenize_lossless (input : List UInt8) (text : Unicode.isUtf8 input) :
    ((∃ tokens, tokenize input = .ok tokens) ↔ ∀ b ∈ input, classifiable b) ∧
    (∀ tokens, tokenize input = .ok tokens → Lossless input tokens) ∧
    (∀ other tokens, tokenize input = .ok tokens → tokenize other = .ok tokens → input = other) ∧
    ∀ e, tokenize input = .error e → ∃ j b, input[j]? = some b ∧ classifiable b = false ∧
      (∀ c ∈ input.take j, classifiable c) ∧ e = .tokenize j (notClassifiable b) ∧
      ∀ i ≤ j, isCharBoundary input i := by
  have wellFormed : Unicode.wellFormed input = true := (Bool.and_eq_true_iff.mp text).1
  refine ⟨tokenize_ok_iff, fun tokens => tokenize_ok wellFormed, ?_, ?_⟩
  · intro other tokens done done'
    rw [← (tokenize_stream done).joined, (tokenize_stream done').joined]
  · intro e failed
    obtain ⟨j, b, found, rfl⟩ := tokenize_error failed
    obtain ⟨front, back, split, offset, foreign, plain⟩ := firstUnclassifiable_some found
    rw [Nat.zero_add] at offset
    refine ⟨j, b, ?_, foreign, ?_, rfl, ?_⟩
    · rw [split, offset, List.getElem?_append_right (Nat.le_refl _), Nat.sub_self]
      rfl
    · rw [split, offset, List.take_left]
      exact plain
    · intro i bound
      rw [offset] at bound
      exact boundary_of_ascii split (fun c member => classifiable_ascii c (plain c member))
        wellFormed bound

theorem tokenize_lossless_accent :
    ((∃ tokens, tokenize (utf8 "1.5 é") = .ok tokens) ↔ ∀ b ∈ utf8 "1.5 é", classifiable b) ∧
    (∀ tokens, tokenize (utf8 "1.5 é") = .ok tokens → Lossless (utf8 "1.5 é") tokens) :=
  have lossless := tokenize_lossless (utf8 "1.5 é") (by decide +kernel)
  ⟨lossless.1, lossless.2.1⟩

end RagEngine
