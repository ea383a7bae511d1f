import VerifiableRag.Document.Tokens

/-!
The document tree: sections of sentences of terms.
-/
namespace RagEngine
open Bytes CodePoints

structure Span where
  start : Nat
  stop : Nat
  deriving DecidableEq

/-- `AstNode::Sentence`; its terms are `AstNode::Term`s, and there is always one. -/
structure Sentence where
  span : Span
  terms : List Token
  nonempty : terms ≠ []
  deriving DecidableEq

/-- `AstNode::Section`. -/
structure Section where
  span : Span
  sentences : List Sentence
  nonempty : sentences ≠ []
  deriving DecidableEq

/-- `AstNode::Document`. -/
structure Document where
  sections : List Section
  nonempty : sections ≠ []
  deriving DecidableEq

/-- The pending parts of `parse`, in source order. -/
structure ParseState where
  sections : List Section
  sentences : List Sentence
  terms : List Token
  newlineRun : Nat

namespace ParseState
variable (st : ParseState)

def flushSentence : ParseState :=
  match terms : st.terms with
  | [] => st
  | first :: rest =>
    { st with
      sentences := st.sentences ++
        [⟨⟨first.start, ((first :: rest).getLast (by simp)).stop⟩, st.terms, by simp [terms]⟩]
      terms := [] }

def flushSection : ParseState :=
  match sentences : st.sentences with
  | [] => st
  | first :: rest =>
    { st with
      sections := st.sections ++
        [⟨⟨first.span.start, ((first :: rest).getLast (by simp)).span.stop⟩, st.sentences,
          by simp [sentences]⟩]
      sentences := [] }

def sentenceEnds : List (List UInt8) := [utf8 ".", utf8 "!", utf8 "?"]

/-- One token of the loop. -/
def push (tok : Token) : ParseState :=
  match tok.kind with
  | .word | .number => { st with terms := st.terms ++ [tok], newlineRun := 0 }
  | .punctuation =>
    if tok.lexeme ∈ sentenceEnds then { st.flushSentence with newlineRun := 0 }
    else { st with newlineRun := 0 }
  | .symbol => { st with newlineRun := 0 }
  | .whitespace =>
    if 2 ≤ st.newlineRun + tok.lexeme.count 0x0A then
      { st.flushSentence.flushSection with newlineRun := 0 }
    else { st with newlineRun := st.newlineRun + tok.lexeme.count 0x0A }

end ParseState

def Token.endsSentence (t : Token) : Bool :=
  t.kind = .punctuation ∧ t.lexeme ∈ ParseState.sentenceEnds

def parse (tokens : List Token) : Except IndexerError Document :=
  if tokens = [] then .error (.parse 0 (ofString "document contains no significant tokens"))
  else
    let final := (tokens.foldl ParseState.push ⟨[], [], [], 0⟩).flushSentence.flushSection
    if sections : final.sections = [] then
      .error (.parse 0 (ofString "no sentences could be derived from the token stream"))
    else .ok ⟨final.sections, sections⟩

def Document.sentences (ast : Document) : List Sentence := ast.sections.flatMap Section.sentences

theorem Document.sentences_nonempty (ast : Document) : ast.sentences ≠ [] := by
  obtain ⟨sections, nonempty⟩ := ast
  cases sections with
  | nil => exact absurd rfl nonempty
  | cons first rest => simp [Document.sentences, first.nonempty]

/-- A stream with tokens fails to parse in one way. -/
theorem parse_error {tokens : List Token} {e : IndexerError} (nonempty : tokens ≠ [])
    (failed : parse tokens = .error e) :
    e = .parse 0 (ofString "no sentences could be derived from the token stream") := by
  rw [parse, if_neg nonempty] at failed
  dsimp only at failed
  split at failed
  · cases failed
    rfl
  · cases failed

end RagEngine
