import VerifiableRag.Document.Ast
import VerifiableRag.Library.PyStr

/-!
The token graph of a document and the patterns that are matched against it.
-/
namespace RagEngine
open Bytes CodePoints

inductive SymbolType where
  | word | number | symbol | punctuation
  deriving DecidableEq

def SymbolType.fromTokenKind : TokenKind → Option SymbolType
  | .word => some .word
  | .number => some .number
  | .symbol => some .symbol
  | .punctuation => some .punctuation
  | .whitespace => none

structure Node where
  id : Nat
  text : List UInt8
  symbolType : SymbolType
  span : Span
  deriving DecidableEq

structure Edge where
  predicate : List UInt8
  subject : Nat
  object : Nat
  span : Span
  deriving DecidableEq

structure DocumentAST where
  nodes : List Node
  edges : List Edge
  deriving DecidableEq

/-- `to_lowercase`, on the ASCII that lexemes consist of. -/
def lowercase (text : List UInt8) : List UInt8 := PyStr.asciiLower text

def relatedTo : List UInt8 := utf8 "related_to"

/-- The locals of `from_ast`; `index` is the map from texts to nodes. -/
structure GraphBuilder where
  nodes : List Node
  index : List (List UInt8 × Nat)
  edges : List Edge

namespace GraphBuilder
variable (b : GraphBuilder)

def ensureNode (term : Token) : Nat × GraphBuilder :=
  let key := lowercase term.lexeme
  match b.index.lookup key with
  | some idx => (idx, b)
  | none =>
    (b.nodes.length,
      { b with
        nodes := b.nodes ++
          [⟨b.nodes.length, key, (SymbolType.fromTokenKind term.kind).getD .word,
            ⟨term.start, term.stop⟩⟩]
        index := (key, b.nodes.length) :: b.index })

/-- The edge from a subject to the term `k` places behind its neighbour. -/
def link (subj : Nat) (between : List Token) (objTerm : Token) (k : Nat) : GraphBuilder :=
  let (obj, b) := b.ensureNode objTerm
  if subj = obj then b
  else
    let predicate :=
      match between with
      | next :: _ => if k = 1 then lowercase next.lexeme else relatedTo
      | [] => relatedTo
    match b.nodes[subj]? with
    | some node => { b with edges := b.edges ++ [⟨predicate, subj, obj, node.span⟩] }
    | none => b

/-- The two loops over the terms of a sentence. -/
def addTerms : List Token → GraphBuilder → GraphBuilder
  | [], b => b
  | term :: rest, b =>
    let (subj, b) := b.ensureNode term
    addTerms rest (rest.zipIdx.foldl (fun b entry => b.link subj rest entry.1 entry.2) b)

end GraphBuilder

def DocumentAST.fromAst (ast : Document) : DocumentAST :=
  let b := ast.sentences.foldl (fun b sentence => GraphBuilder.addTerms sentence.terms b) ⟨[], [], []⟩
  ⟨b.nodes, b.edges⟩

/-- A text of `*` is a wildcard. -/
structure Pattern where
  triples : List (List UInt8 × List UInt8 × List UInt8)

def wildcard : List UInt8 := utf8 "*"

def Pattern.single (subject predicate object : List UInt8) : Pattern :=
  ⟨[(subject, predicate, object)]⟩

structure GraphMatch where
  subject : Nat
  object : Nat
  predicate : List UInt8
  span : Span
  deriving DecidableEq

/-- The match of one triple on one edge. -/
def matchEdge (graph : DocumentAST) (triple : List UInt8 × List UInt8 × List UInt8) (edge : Edge) :
    Option GraphMatch :=
  match graph.nodes[edge.subject]?, graph.nodes[edge.object]? with
  | some subj, some obj =>
    if (triple.1 = wildcard ∨ subj.text = triple.1) ∧
        (triple.2.1 = wildcard ∨ edge.predicate = triple.2.1) ∧
        (triple.2.2 = wildcard ∨ obj.text = triple.2.2) then
      some ⟨edge.subject, edge.object, edge.predicate, subj.span⟩
    else none
  | _, _ => none

def matchGraph (graph : DocumentAST) (pattern : Pattern) : Except IndexerError (List GraphMatch) :=
  if graph.nodes = [] then
    .error (.emptyGraph (ofString "cannot match a pattern against an empty graph"))
  else .ok (pattern.triples.flatMap fun triple => graph.edges.filterMap (matchEdge graph triple))

section Nodes

theorem foldl_grows {α : Type} {f : GraphBuilder → α → GraphBuilder} (b : GraphBuilder) (xs : List α)
    (grows : ∀ b x, b.nodes.length ≤ (f b x).nodes.length) :
    b.nodes.length ≤ (xs.foldl f b).nodes.length := by
  induction xs generalizing b with
  | nil => exact Nat.le_refl _
  | cons x xs ih => exact Nat.le_trans (grows b x) (ih (f b x))

namespace GraphBuilder
variable (b : GraphBuilder)

theorem ensureNode_grows (term : Token) :
    b.nodes.length ≤ (b.ensureNode term).2.nodes.length := by
  simp only [ensureNode]
  split
  · exact Nat.le_refl _
  · simp

theorem link_grows (subj : Nat) (between : List Token) (objTerm : Token) (k : Nat) :
    b.nodes.length ≤ (b.link subj between objTerm k).nodes.length := by
  have ensured := b.ensureNode_grows objTerm
  simp only [link]
  split
  · exact ensured
  · split <;> exact ensured

theorem links_grow (subj : Nat) (rest : List Token) :
    b.nodes.length ≤
      (rest.zipIdx.foldl (fun b entry => b.link subj rest entry.1 entry.2) b).nodes.length :=
  foldl_grows b _ fun b entry => b.link_grows subj rest entry.1 entry.2

theorem addTerms_grows (terms : List Token) :
    b.nodes.length ≤ (addTerms terms b).nodes.length := by
  induction terms generalizing b with
  | nil => exact Nat.le_refl _
  | cons term rest ih =>
    exact Nat.le_trans (b.ensureNode_grows term) (Nat.le_trans (links_grow _ _ rest) (ih _))

theorem addTerms_first (term : Token) (rest : List Token) :
    (b.ensureNode term).2.nodes.length ≤ (addTerms (term :: rest) b).nodes.length :=
  Nat.le_trans (links_grow _ _ rest) (addTerms_grows _ rest)

end GraphBuilder

/-- The graph of a document is never empty. -/
theorem fromAst_nodes (ast : Document) : (DocumentAST.fromAst ast).nodes ≠ [] := by
  apply List.ne_nil_of_length_pos
  cases sentences : ast.sentences with
  | nil => exact absurd sentences ast.sentences_nonempty
  | cons sentence rest =>
    rw [DocumentAST.fromAst, sentences, List.foldl_cons]
    refine Nat.lt_of_lt_of_le ?_ (foldl_grows _ _ fun b s => b.addTerms_grows s.terms)
    cases terms : sentence.terms with
    | nil => exact absurd terms sentence.nonempty
    | cons term more =>
      exact Nat.lt_of_lt_of_le Nat.zero_lt_one (GraphBuilder.addTerms_first ⟨[], [], []⟩ term more)

theorem matchGraph_ok (ast : Document) (pattern : Pattern) :
    ∃ found, matchGraph (DocumentAST.fromAst ast) pattern = .ok found :=
  ⟨_, if_neg (fromAst_nodes ast)⟩

end Nodes

end RagEngine
