import VerifiableRag.Library.CodePoints
import VerifiableRag.Library.Bytes
import Mathlib.Data.List.TakeWhile

/-!
The tokenizer of the symbolic engine.
-/
namespace RagEngine
open Bytes CodePoints

inductive IndexerError where
  | tokenize (offset : Nat) (message : Str)
  | parse (index : Nat) (message : Str)
  | invalidPattern (text : Str)
  | emptyGraph (text : Str)
  deriving DecidableEq

/-- Its `Display`. -/
def IndexerError.display : IndexerError → Str
  | tokenize offset message =>
    ofString "tokenization failed at byte offset " ++ decimal offset ++ ofString ": " ++ message
  | parse index message =>
    ofString "parse failed at token index " ++ decimal index ++ ofString ": " ++ message
  | invalidPattern text => ofString "invalid pattern: " ++ text
  | emptyGraph text => ofString "graph is empty: " ++ text

inductive TokenKind where
  | word | number | punctuation | symbol | whitespace
  deriving DecidableEq

/-- `start` and `stop` are byte offsets into the document. -/
structure Token where
  kind : TokenKind
  lexeme : List UInt8
  start : Nat
  stop : Nat
  deriving DecidableEq

section Classes

def isAsciiAlphabetic (b : UInt8) : Bool := (0x41 ≤ b ∧ b ≤ 0x5A) ∨ (0x61 ≤ b ∧ b ≤ 0x7A)
def isAsciiDigit (b : UInt8) : Bool := 0x30 ≤ b ∧ b ≤ 0x39

/-- No vertical tab among them. -/
def isAsciiWhitespace (b : UInt8) : Bool :=
  b = 0x20 ∨ b = 0x09 ∨ b = 0x0A ∨ b = 0x0C ∨ b = 0x0D

def isWordByte (b : UInt8) : Bool := isAsciiAlphabetic b || isAsciiDigit b || b == 0x5F

def punctuationBytes : List UInt8 := utf8 ".,;:!?\"'()[]\x7b\x7d"
def symbolBytes : List UInt8 := utf8 "=+-*/><&|%^~#"

end Classes

/-- Digits, and one point with digits behind it; what was read and what follows. -/
def scanNumber (s : List UInt8) : List UInt8 × List UInt8 :=
  match s.dropWhile isAsciiDigit with
  | 0x2E :: d :: rest =>
    if isAsciiDigit d then
      (s.takeWhile isAsciiDigit ++ 0x2E :: (d :: rest).takeWhile isAsciiDigit,
        (d :: rest).dropWhile isAsciiDigit)
    else (s.takeWhile isAsciiDigit, 0x2E :: d :: rest)
  | rest => (s.takeWhile isAsciiDigit, rest)

/-- One turn of the loop: the class, the lexeme and the remaining input. -/
def scanToken : List UInt8 → Option (TokenKind × List UInt8 × List UInt8)
  | [] => none
  | b :: rest =>
    if isAsciiAlphabetic b ∨ b = 0x5F then
      some (.word, (b :: rest).takeWhile isWordByte, (b :: rest).dropWhile isWordByte)
    else if isAsciiDigit b then some (.number, scanNumber (b :: rest))
    else if isAsciiWhitespace b then
      some (.whitespace, (b :: rest).takeWhile isAsciiWhitespace,
        (b :: rest).dropWhile isAsciiWhitespace)
    else if b ∈ punctuationBytes then some (.punctuation, [b], rest)
    else if b ∈ symbolBytes then some (.symbol, [b], rest)
    else none

def notClassifiable (b : UInt8) : Str :=
  ofString "byte 0x" ++ hexDigits 2 b.toNat ++ ofString " is not classifiable"

/-- The loop from offset `i` on; every token takes a byte, so the fuel does not run out
    (`tokenizeFrom_ok`, `tokenizeFrom_error`). -/
def tokenizeFrom (fuel i : Nat) (s : List UInt8) : Except IndexerError (List Token) :=
  match s with
  | [] => .ok []
  | b :: rest =>
    match fuel with
    | 0 => .ok []
    | fuel + 1 =>
      match scanToken (b :: rest) with
      | none => .error (.tokenize i (notClassifiable b))
      | some (kind, lexeme, rest) => do
        let tokens ← tokenizeFrom fuel (i + lexeme.length) rest
        return ⟨kind, lexeme, i, i + lexeme.length⟩ :: tokens

/-- `tokenize` of the UTF-8 bytes of a document. -/
def tokenize (input : List UInt8) : Except IndexerError (List Token) :=
  tokenizeFrom input.length 0 input

section Classifiable

def classifiable (b : UInt8) : Bool :=
  isWordByte b || isAsciiWhitespace b || b ∈ punctuationBytes || b ∈ symbolBytes

/-- The first byte that no class takes, with its offset. -/
def firstUnclassifiable : Nat → List UInt8 → Option (Nat × UInt8)
  | _, [] => none
  | i, b :: rest => if classifiable b then firstUnclassifiable (i + 1) rest else some (i, b)

theorem firstUnclassifiable_append {i : Nat} {s t : List UInt8} (plain : ∀ b ∈ s, classifiable b) :
    firstUnclassifiable i (s ++ t) = firstUnclassifiable (i + s.length) t := by
  induction s generalizing i with
  | nil => rfl
  | cons b s ih =>
    rw [List.forall_mem_cons] at plain
    rw [List.cons_append, firstUnclassifiable, if_pos plain.1, ih plain.2, List.length_cons]
    congr 1
    omega

/-- A lexeme is a piece of the input that starts it. -/
structure Lexeme (s lexeme rest : List UInt8) : Prop where
  splits : lexeme ++ rest = s
  nonempty : lexeme ≠ []
  plain : ∀ b ∈ lexeme, classifiable b

theorem isWordByte_start {b : UInt8} (starts : isAsciiAlphabetic b ∨ b = 0x5F) : isWordByte b := by
  rcases starts with letter | rfl
  · simp [isWordByte, letter]
  · decide

theorem classifiable_word {b : UInt8} (word : isWordByte b) : classifiable b := by
  simp [classifiable, word]

theorem classifiable_digit {b : UInt8} (digit : isAsciiDigit b) : classifiable b :=
  classifiable_word (by simp [isWordByte, digit])

theorem lexeme_takeWhile {p : UInt8 → Bool} {b : UInt8} {rest : List UInt8} (starts : p b)
    (inside : ∀ {c}, p c → classifiable c) :
    Lexeme (b :: rest) ((b :: rest).takeWhile p) ((b :: rest).dropWhile p) where
  splits := List.takeWhile_append_dropWhile
  nonempty := by simp [starts]
  plain c member := inside (List.mem_takeWhile_imp member)

theorem lexeme_number {b : UInt8} {rest : List UInt8} (starts : isAsciiDigit b) :
    Lexeme (b :: rest) (scanNumber (b :: rest)).1 (scanNumber (b :: rest)).2 := by
  obtain ⟨splits, nonempty, plain⟩ :
      Lexeme (b :: rest) ((b :: rest).takeWhile isAsciiDigit) ((b :: rest).dropWhile isAsciiDigit) :=
    lexeme_takeWhile starts classifiable_digit
  unfold scanNumber
  split
  · rename_i d tail point
    split
    · rename_i digit
      obtain ⟨splits', _, plain'⟩ :
          Lexeme (d :: tail) ((d :: tail).takeWhile isAsciiDigit) ((d :: tail).dropWhile isAsciiDigit) :=
        lexeme_takeWhile digit classifiable_digit
      refine ⟨?_, by simp, ?_⟩
      · rw [List.append_assoc, List.cons_append, splits', ← point, splits]
      · intro c member
        rw [List.mem_append, List.mem_cons] at member
        rcases member with whole | rfl | fraction
        · exact plain c whole
        · decide +kernel
        · exact plain' c fraction
    · exact ⟨by rw [← point, splits], nonempty, plain⟩
  · exact ⟨splits, nonempty, plain⟩

theorem scanToken_some {s lexeme rest : List UInt8} {kind : TokenKind}
    (scanned : scanToken s = some (kind, lexeme, rest)) : Lexeme s lexeme rest := by
  cases s with
  | nil => cases scanned
  | cons b tail =>
    simp only [scanToken] at scanned
    split at scanned
    · rename_i starts
      cases scanned
      exact lexeme_takeWhile (isWordByte_start starts) classifiable_word
    split at scanned
    · rename_i starts
      rw [Option.some.injEq, Prod.mk.injEq] at scanned
      have lexeme : Lexeme (b :: tail) (scanNumber (b :: tail)).1 (scanNumber (b :: tail)).2 :=
        lexeme_number starts
      rw [scanned.2] at lexeme
      exact lexeme
    split at scanned
    · rename_i starts
      cases scanned
      exact lexeme_takeWhile starts fun space => by simp [classifiable, space]
    split at scanned
    · rename_i mark
      cases scanned
      exact ⟨rfl, by simp, List.forall_mem_singleton.mpr (by simp [classifiable, mark])⟩
    split at scanned
    · rename_i mark
      cases scanned
      exact ⟨rfl, by simp, List.forall_mem_singleton.mpr (by simp [classifiable, mark])⟩
    · cases scanned

theorem scanToken_none {b : UInt8} {rest : List UInt8} :
    scanToken (b :: rest) = none ↔ classifiable b = false := by
  simp only [scanToken, classifiable, isWordByte]
  split
  · rename_i starts
    rcases starts with letter | rfl
    · simp [letter]
    · simp
  split
  · rename_i starts
    simp [starts]
  split
  · rename_i starts
    simp [starts]
  split
  · rename_i mark
    simp [mark]
  split
  · rename_i mark
    simp [mark]
  · rename_i word digit space mark mark'
    rw [not_or] at word
    simp [word, digit, space, mark, mark']

end Classifiable

section Failures

/-- What one token leaves to look at. -/
theorem Lexeme.firstUnclassifiable {i : Nat} {s lexeme rest : List UInt8}
    (here : Lexeme s lexeme rest) :
    RagEngine.firstUnclassifiable i s = RagEngine.firstUnclassifiable (i + lexeme.length) rest := by
  rw [← here.splits, firstUnclassifiable_append here.plain]

theorem Lexeme.shorter {s lexeme rest : List UInt8} (here : Lexeme s lexeme rest) :
    rest.length < s.length := by
  have taken := List.length_pos_iff.mpr here.nonempty
  rw [← here.splits, List.length_append]
  omega

theorem tokenizeFrom_error {fuel i j : Nat} {s : List UInt8} {b : UInt8} (enough : s.length ≤ fuel)
    (found : firstUnclassifiable i s = some (j, b)) :
    tokenizeFrom fuel i s = .error (.tokenize j (notClassifiable b)) := by
  induction fuel generalizing i s with
  | zero =>
    rw [List.length_eq_zero_iff.mp (Nat.le_zero.mp enough)] at found
    cases found
  | succ fuel ih =>
    cases s with
    | nil => cases found
    | cons c rest =>
      rw [tokenizeFrom]
      split
      · rename_i stuck
        rw [scanToken_none] at stuck
        rw [firstUnclassifiable, if_neg (by simp [stuck])] at found
        cases found
        rfl
      · rename_i kind lexeme rest' scanned
        have here := scanToken_some scanned
        have shorter := here.shorter
        rw [here.firstUnclassifiable] at found
        rw [ih (by omega) found]
        rfl

theorem tokenizeFrom_ok {fuel i : Nat} {s : List UInt8} (enough : s.length ≤ fuel)
    (clean : firstUnclassifiable i s = none) :
    ∃ tokens, tokenizeFrom fuel i s = .ok tokens ∧ (s ≠ [] → tokens ≠ []) := by
  induction fuel generalizing i s with
  | zero =>
    rw [List.length_eq_zero_iff.mp (Nat.le_zero.mp enough)]
    exact ⟨[], rfl, fun h => absurd rfl h⟩
  | succ fuel ih =>
    cases s with
    | nil => exact ⟨[], rfl, fun h => absurd rfl h⟩
    | cons c rest =>
      rw [tokenizeFrom]
      split
      · rename_i stuck
        rw [scanToken_none] at stuck
        rw [firstUnclassifiable, if_neg (by simp [stuck])] at clean
        cases clean
      · rename_i kind lexeme rest' scanned
        have here := scanToken_some scanned
        have shorter := here.shorter
        rw [here.firstUnclassifiable] at clean
        obtain ⟨tokens, done, _⟩ := ih (by omega) clean
        rw [done]
        exact ⟨_, rfl, fun _ => List.cons_ne_nil _ _⟩

/-- Tokenization fails just at the first byte that no class takes. -/
theorem tokenize_error {input : List UInt8} {e : IndexerError} (failed : tokenize input = .error e) :
    ∃ j b, firstUnclassifiable 0 input = some (j, b) ∧ e = .tokenize j (notClassifiable b) := by
  cases found : firstUnclassifiable 0 input with
  | none =>
    obtain ⟨tokens, done, _⟩ := tokenizeFrom_ok (Nat.le_refl _) found
    rw [tokenize, done] at failed
    cases failed
  | some at_byte =>
    rw [tokenize, tokenizeFrom_error (Nat.le_refl _) found] at failed
    cases failed
    exact ⟨at_byte.1, at_byte.2, rfl, rfl⟩

theorem tokenize_nonempty {input : List UInt8} {tokens : List Token} (nonempty : input ≠ [])
    (done : tokenize input = .ok tokens) : tokens ≠ [] := by
  cases found : firstUnclassifiable 0 input with
  | none =>
    obtain ⟨tokens', done', more⟩ := tokenizeFrom_ok (Nat.le_refl _) found
    rw [tokenize, done'] at done
    cases done
    exact more nonempty
  | some at_byte =>
    rw [tokenize, tokenizeFrom_error (Nat.le_refl _) found] at done
    cases done

theorem notClassifiable_length (b c : UInt8) :
    (notClassifiable b).length = (notClassifiable c).length := by
  simp only [notClassifiable, List.length_append, hexDigits_length]

/-- The message gives away the offset and the byte. -/
theorem tokenize_display_inj {i j : Nat} {b c : UInt8}
    (same : (IndexerError.tokenize i (notClassifiable b)).display =
      (IndexerError.tokenize j (notClassifiable c)).display) : i = j ∧ b = c := by
  rw [IndexerError.display, IndexerError.display] at same
  obtain ⟨front, bytes⟩ := List.append_inj' same (notClassifiable_length b c)
  have offsets := decimal_injective (List.append_cancel_left (List.append_cancel_right front))
  have digits := List.append_cancel_left (List.append_cancel_right bytes)
  have values := congrArg unhex digits
  rw [unhex_hexDigits (by have := b.toNat_lt; omega), unhex_hexDigits (by have := c.toNat_lt; omega)]
    at values
  exact ⟨offsets, UInt8.toNat_inj.mp values⟩

end Failures

end RagEngine
