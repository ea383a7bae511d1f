import VerifiableRag.Document.Structure
import VerifiableRag.Document.TokenGraph

/-!
Where the nodes, edges and matches of the token graph of a document come from.
-/
namespace RagEngine
open Bytes

/-- The deterministic lexer entry point. -/
def lex (input : List UInt8) : Except IndexerError DocumentAST := do
  let tokens ← tokenize input
  let ast ← parse tokens
  return DocumentAST.fromAst ast

def Span.slice (span : Span) (input : List UInt8) : List UInt8 :=
  RagEngine.slice input span.start span.stop

/-- Two different nodes, the first of which gives the edge its span. -/
structure Edge.Joins (nodes : List Node) (e : Edge) : Prop where
  different : e.subject ≠ e.object
  object : e.object < nodes.length
  subject : ∃ n, nodes[e.subject]? = some n ∧ e.span = n.span

theorem Edge.Joins.append {nodes more : List Node} {e : Edge} (joins : e.Joins nodes) :
    e.Joins (nodes ++ more) where
  different := joins.different
  object := by
    have object := joins.object
    rw [List.length_append]
    omega
  subject := by
    obtain ⟨n, found, span⟩ := joins.subject
    obtain ⟨inside, _⟩ := List.getElem?_eq_some_iff.mp found
    exact ⟨n, (List.getElem?_append_left inside).trans found, span⟩

/-- The node that a term gives rise to, when the terms before it are of other texts. -/
structure Node.FirstIn (seen : List Token) (n : Node) : Prop where
  first : ∃ front t back, seen = front ++ t :: back ∧ n.text = lowercase t.lexeme ∧
    n.span = ⟨t.start, t.stop⟩ ∧ ∀ u ∈ front, lowercase u.lexeme ≠ n.text

theorem Node.FirstIn.append {seen more : List Token} {n : Node} (first : n.FirstIn seen) :
    n.FirstIn (seen ++ more) := by
  obtain ⟨front, t, back, split, text, span, others⟩ := first
  refine ⟨front, t, back ++ more, ?_, text, span, others⟩
  rw [split, List.append_assoc, List.cons_append]

theorem getElem?_snoc {α : Type} {xs : List α} {last x : α} {i : Nat} :
    (xs ++ [last])[i]? = some x ↔ xs[i]? = some x ∨ i = xs.length ∧ last = x := by
  rw [List.getElem?_append]
  split
  · rename_i inside
    simp [Nat.ne_of_lt inside]
  · rename_i outside
    rw [List.getElem?_singleton, List.getElem?_eq_none (by omega)]
    simp only [reduceCtorEq, false_or]
    split
    · rename_i at_end
      have same : i = xs.length := by omega
      simp [same]
    · have beyond : i ≠ xs.length := by omega
      simp [beyond]

namespace GraphBuilder
variable {b : GraphBuilder} {seen : List Token}

/-- The locals of `from_ast` after the terms `seen`, in the order of their first visits. -/
structure Recorded (seen : List Token) (b : GraphBuilder) : Prop where
  ids : ∀ i (n : Node), b.nodes[i]? = some n → n.id = i
  index : ∀ key i, b.index.lookup key = some i ↔ ∃ n, b.nodes[i]? = some n ∧ n.text = key
  named : ∀ t ∈ seen, ∃ n ∈ b.nodes, n.text = lowercase t.lexeme
  first : ∀ n ∈ b.nodes, n.FirstIn seen
  edges : ∀ e ∈ b.edges, e.Joins b.nodes

theorem recorded_start : Recorded [] ⟨[], [], []⟩ where
  ids i n found := by cases found
  index key i := by simp
  named t member := by cases member
  first n member := by cases member
  edges e member := by cases member

section Nodes

theorem Recorded.lookup_none (recorded : Recorded seen b) {key : List UInt8}
    (unknown : b.index.lookup key = none) : ∀ n ∈ b.nodes, n.text ≠ key := by
  intro n member same
  obtain ⟨i, found⟩ := List.mem_iff_getElem?.mp member
  have known := (recorded.index key i).mpr ⟨n, found, same⟩
  rw [unknown] at known
  cases known

/-- A term whose text has a node is not entered again. -/
theorem Recorded.known (recorded : Recorded seen b) {t : Token} (member : t ∈ seen) :
    (b.ensureNode t).2 = b := by
  obtain ⟨n, listed, text⟩ := recorded.named t member
  rw [ensureNode]
  split
  · rfl
  · rename_i unknown
    exact absurd text (recorded.lookup_none unknown n listed)

theorem Recorded.ensure (recorded : Recorded seen b) (t : Token) :
    Recorded (seen ++ [t]) (b.ensureNode t).2 := by
  rw [ensureNode]
  split
  · rename_i i known
    obtain ⟨n, found, text⟩ := (recorded.index _ i).mp known
    refine ⟨recorded.ids, recorded.index, ?_, ?_, recorded.edges⟩
    · intro u member
      rcases List.mem_append.mp member with earlier | last
      · exact recorded.named u earlier
      · rw [List.mem_singleton.mp last]
        exact ⟨n, List.mem_of_getElem? found, text⟩
    · intro m member
      exact (recorded.first m member).append
  · rename_i unknown
    have fresh := recorded.lookup_none unknown
    have others : ∀ u ∈ seen, lowercase u.lexeme ≠ lowercase t.lexeme := by
      intro u member same
      obtain ⟨n, listed, text⟩ := recorded.named u member
      exact fresh n listed (text.trans same)
    refine ⟨?_, ?_, ?_, ?_, ?_⟩
    · intro i n found
      rcases getElem?_snoc.mp found with old | ⟨rfl, rfl⟩
      · exact recorded.ids i n old
      · rfl
    · intro key i
      rw [List.lookup_cons]
      simp only [getElem?_snoc]
      split
      · rename_i same
        rw [beq_iff_eq] at same
        constructor
        · intro found
          cases found
          exact ⟨_, Or.inr ⟨rfl, rfl⟩, same.symm⟩
        · intro h
          obtain ⟨n, old | ⟨rfl, _⟩, text⟩ := h
          · exact absurd (text.trans same) (fresh n (List.mem_of_getElem? old))
          · rfl
      · rename_i other
        rw [recorded.index]
        constructor
        · intro h
          obtain ⟨n, old, text⟩ := h
          exact ⟨n, Or.inl old, text⟩
        · intro h
          obtain ⟨n, old | ⟨_, rfl⟩, text⟩ := h
          · exact ⟨n, old, text⟩
          · simp [← text] at other
    · intro u member
      rcases List.mem_append.mp member with earlier | last
      · obtain ⟨n, listed, text⟩ := recorded.named u earlier
        exact ⟨n, List.mem_append_left _ listed, text⟩
      · rw [List.mem_singleton.mp last]
        exact ⟨_, List.mem_append_right _ List.mem_cons_self, rfl⟩
    · intro n member
      rcases List.mem_append.mp member with old | new
      · exact (recorded.first n old).append
      · rw [List.mem_singleton.mp new]
        exact ⟨seen, t, [], rfl, rfl, rfl, others⟩
    · intro e member
      exact (recorded.edges e member).append

theorem Recorded.ensured (recorded : Recorded seen b) (t : Token) :
    (b.ensureNode t).1 < (b.ensureNode t).2.nodes.length := by
  rw [ensureNode]
  split
  · rename_i i known
    obtain ⟨n, found, _⟩ := (recorded.index _ i).mp known
    exact (List.getElem?_eq_some_iff.mp found).1
  · simp

end Nodes

section Edges
variable {subj : Nat} {between : List Token}

/-- An edge is drawn between nodes that there are. -/
theorem Recorded.link {t : Token} (recorded : Recorded seen (b.ensureNode t).2)
    (ensured : (b.ensureNode t).1 < (b.ensureNode t).2.nodes.length) (k : Nat) :
    Recorded seen (b.link subj between t k) := by
  simp only [GraphBuilder.link]
  split
  · exact recorded
  rename_i different
  split
  · rename_i n found
    refine ⟨recorded.ids, recorded.index, recorded.named, recorded.first, ?_⟩
    intro e member
    rcases List.mem_append.mp member with old | new
    · exact recorded.edges e old
    · rw [List.mem_singleton.mp new]
      exact ⟨different, ensured, n, found, rfl⟩
  · exact recorded

/-- The inner loop visits the terms behind the subject in their order. -/
theorem Recorded.links (recorded : Recorded seen b) (subj : Nat) (between : List Token)
    (entries : List (Token × Nat)) : Recorded (seen ++ entries.map Prod.fst)
      (entries.foldl (fun b entry => b.link subj between entry.1 entry.2) b) := by
  induction entries generalizing seen b with
  | nil =>
    rw [List.map_nil, List.append_nil]
    exact recorded
  | cons entry entries ih =>
    rw [List.map_cons, List.append_cons]
    exact ih ((recorded.ensure entry.1).link (recorded.ensured entry.1) entry.2)

theorem addTerms_cons (term : Token) (rest : List Token) (b : GraphBuilder) :
    addTerms (term :: rest) b = addTerms rest (rest.zipIdx.foldl
      (fun later entry => later.link (b.ensureNode term).1 rest entry.1 entry.2)
      (b.ensureNode term).2) :=
  rfl

theorem Recorded.links_known (recorded : Recorded seen b) {entries : List (Token × Nat)}
    (known : ∀ entry ∈ entries, entry.1 ∈ seen) :
    Recorded seen (entries.foldl (fun b entry => b.link subj between entry.1 entry.2) b) := by
  induction entries generalizing b with
  | nil => exact recorded
  | cons entry entries ih =>
    rw [List.forall_mem_cons] at known
    have same : Recorded seen (b.ensureNode entry.1).2 := by
      rw [recorded.known known.1]
      exact recorded
    exact ih (same.link (recorded.ensured entry.1) entry.2) known.2

theorem Recorded.addTerms_known (recorded : Recorded seen b) {terms : List Token}
    (known : ∀ t ∈ terms, t ∈ seen) : Recorded seen (addTerms terms b) := by
  induction terms generalizing b with
  | nil => exact recorded
  | cons term rest ih =>
    rw [List.forall_mem_cons] at known
    rw [addTerms_cons, recorded.known known.1]
    apply ih _ known.2
    apply recorded.links_known
    intro entry member
    exact known.2 _ (List.fst_mem_of_mem_zipIdx member)

/-- The turn of the first term visits all terms, the later turns only old ones. -/
theorem Recorded.addTerms (recorded : Recorded seen b) (terms : List Token) :
    Recorded (seen ++ terms) (addTerms terms b) := by
  cases terms with
  | nil =>
    rw [List.append_nil]
    exact recorded
  | cons term rest =>
    have visited := (recorded.ensure term).links (b.ensureNode term).1 rest rest.zipIdx
    rw [List.zipIdx_map_fst, ← List.append_cons] at visited
    apply visited.addTerms_known
    intro t member
    exact List.mem_append_right seen (List.mem_cons_of_mem term member)

theorem Recorded.sentences (recorded : Recorded seen b) (sentences : List Sentence) :
    Recorded (seen ++ sentences.flatMap Sentence.terms)
      (sentences.foldl (fun b sentence => GraphBuilder.addTerms sentence.terms b) b) := by
  induction sentences generalizing seen b with
  | nil =>
    rw [List.flatMap_nil, List.append_nil]
    exact recorded
  | cons sentence rest ih =>
    rw [List.flatMap_cons, ← List.append_assoc]
    exact ih (recorded.addTerms sentence.terms)

end Edges

theorem Recorded.texts (recorded : Recorded seen b) : (b.nodes.map Node.text).Nodup := by
  rw [List.Nodup, List.pairwise_map, List.pairwise_iff_getElem]
  intro i j left right before same
  have first := (recorded.index _ i).mpr ⟨_, List.getElem?_eq_getElem left, same⟩
  have second := (recorded.index _ j).mpr ⟨_, List.getElem?_eq_getElem right, rfl⟩
  rw [first, Option.some.injEq] at second
  omega

end GraphBuilder

theorem fromAst_recorded (ast : Document) : GraphBuilder.Recorded ast.terms
    (ast.sentences.foldl (fun b sentence => GraphBuilder.addTerms sentence.terms b) ⟨[], [], []⟩) :=
  GraphBuilder.recorded_start.sentences ast.sentences

/-- What a graph says of the document that it was extracted from. -/
structure Provenance (input : List UInt8) (tokens : List Token) (graph : DocumentAST) : Prop where
  ids : ∀ i (n : Node), graph.nodes[i]? = some n → n.id = i
  distinct : (graph.nodes.map Node.text).Nodup
  sliced : ∀ n ∈ graph.nodes, n.text = lowercase (n.span.slice input)
  first : ∀ n ∈ graph.nodes, ∃ t ∈ tokens, t.isTerm ∧ n.span = ⟨t.start, t.stop⟩ ∧
    ∀ u ∈ tokens, u.isTerm → lowercase u.lexeme = n.text → t.start ≤ u.start
  edges : ∀ e ∈ graph.edges, e.Joins graph.nodes

/-- A match is an edge of the graph, under the span of its subject. -/
structure GraphMatch.Sound (input : List UInt8) (graph : DocumentAST) (m : GraphMatch) : Prop where
  edge : ⟨m.predicate, m.subject, m.object, m.span⟩ ∈ graph.edges
  sliced : ∃ subj, graph.nodes[m.subject]? = some subj ∧ subj.text = lowercase (m.span.slice input)

theorem Stream.sliced {input : List UInt8} {tokens : List Token} (stream : Stream 0 input tokens)
    {t : Token} (member : t ∈ tokens) : slice input t.start t.stop = t.lexeme ∧ t.start ≤ t.stop := by
  obtain ⟨front, back, split, start, stop, _⟩ := stream.placed member
  rw [Nat.zero_add] at start
  rw [stop, start, split, slice_placed]
  exact ⟨rfl, Nat.le_add_right _ _⟩

theorem Node.FirstIn.provenance {input : List UInt8} {tokens : List Token} {n : Node}
    (stream : Stream 0 input tokens) (first : n.FirstIn (tokens.filter Token.isTerm)) :
    n.text = lowercase (n.span.slice input) ∧
      ∃ t ∈ tokens, t.isTerm ∧ n.span = ⟨t.start, t.stop⟩ ∧
        ∀ u ∈ tokens, u.isTerm → lowercase u.lexeme = n.text → t.start ≤ u.start := by
  obtain ⟨front, t, back, split, text, span, others⟩ := first
  have member : t ∈ tokens.filter Token.isTerm := by
    rw [split]
    exact List.mem_append_right _ List.mem_cons_self
  obtain ⟨listed, term⟩ := List.mem_filter.mp member
  obtain ⟨sliced, extent⟩ := stream.sliced listed
  refine ⟨?_, t, listed, term, span, ?_⟩
  · rw [text, span, Span.slice, sliced]
  · intro u there term' same
    have ordered := stream.ordered.filter Token.isTerm
    have member' : u ∈ front ++ t :: back := by
      rw [← split]
      exact List.mem_filter.mpr ⟨there, term'⟩
    rw [split, List.pairwise_append, List.pairwise_cons] at ordered
    rcases List.mem_append.mp member' with before | here
    · exact absurd same (others u before)
    rcases List.mem_cons.mp here with rfl | behind
    · exact Nat.le_refl _
    · have later := ordered.2.1.1 u behind
      omega

theorem matchEdge_sound {input : List UInt8} {tokens : List Token} {graph : DocumentAST}
    (sound : Provenance input tokens graph) {triple : List UInt8 × List UInt8 × List UInt8}
    {e : Edge} (member : e ∈ graph.edges) {m : GraphMatch}
    (matched : matchEdge graph triple e = some m) : m.Sound input graph := by
  obtain ⟨n, found, span⟩ := (sound.edges e member).subject
  rw [matchEdge] at matched
  split at matched
  · rename_i subj obj here there
    split at matched
    · cases matched
      rw [found, Option.some.injEq] at here
      rw [here] at span found
      refine ⟨?_, subj, found, sound.sliced subj (List.mem_of_getElem? found)⟩
      rw [← span]
      exact member
    · cases matched
  · cases matched

/-- Every node, edge and match of a document's graph names the place in the document that its
    subject is first found at. -/
theorem lex_provenance {input : List UInt8} {graph : DocumentAST} (done : lex input = .ok graph) :
    ∃ tokens, tokenize input = .ok tokens ∧ Provenance input tokens graph ∧
      ∀ pattern, ∃ found, matchGraph graph pattern = .ok found ∧
        ∀ m ∈ found, m.Sound input graph := by
  rw [lex, Results.except_bind_ok] at done
  obtain ⟨tokens, tokenized, done⟩ := done
  rw [Results.except_bind_ok] at done
  obtain ⟨ast, parsed, done⟩ := done
  cases done
  have stream := tokenize_stream tokenized
  have terms : ast.terms = tokens.filter Token.isTerm :=
    Document.terms_eq (parse_outline stream parsed).1
  have recorded := fromAst_recorded ast
  rw [terms] at recorded
  have sound : Provenance input tokens (DocumentAST.fromAst ast) :=
    ⟨recorded.ids, recorded.texts, fun n member => ((recorded.first n member).provenance stream).1,
      fun n member => ((recorded.first n member).provenance stream).2, recorded.edges⟩
  refine ⟨tokens, tokenized, sound, ?_⟩
  intro pattern
  refine ⟨_, if_neg (fromAst_nodes ast), ?_⟩
  intro m listed
  obtain ⟨triple, _, listed⟩ := List.mem_flatMap.mp listed
  obtain ⟨e, member, matched⟩ := List.mem_filterMap.mp listed
  exact matchEdge_sound sound member matched

/-- A document whose second word is first met behind another subject. -/
def echo : List UInt8 := utf8 "Alpha BETA. beta"

def echoGraph : DocumentAST :=
  ⟨[⟨0, utf8 "alpha", .word, ⟨0, 5⟩⟩, ⟨1, utf8 "beta", .word, ⟨6, 10⟩⟩],
    [⟨relatedTo, 0, 1, ⟨0, 5⟩⟩]⟩

theorem lex_provenance_echo :
    ∃ tokens, tokenize echo = .ok tokens ∧ Provenance echo tokens echoGraph ∧
      ∀ pattern, ∃ found, matchGraph echoGraph pattern = .ok found ∧
        ∀ m ∈ found, m.Sound echo echoGraph :=
  lex_provenance (by decide +kernel : lex echo = .ok echoGraph)

end RagEngine
