import VerifiableRag.Document.Provenance

/-!
The edges of the token graph, one for each pair of terms of a sentence with different texts.
-/
namespace RagEngine
open Bytes

/-- The positions `i < j < n` in lexicographic order. -/
def pairs (n : Nat) : List (Nat × Nat) :=
  (List.range n).flatMap fun i => (List.range' (i + 1) (n - (i + 1))).map fun j => (i, j)

/-- The terms at two positions have different lowercased texts. -/
def differ (terms : List Token) (p : Nat × Nat) : Bool :=
  (terms[p.1]?.map fun t => lowercase t.lexeme) ≠ (terms[p.2]?.map fun t => lowercase t.lexeme)

def differingPairs (terms : List Token) : List (Nat × Nat) :=
  (pairs terms.length).filter (differ terms)

/-- The node of a term is the one with its lowercased text. -/
def NodeOf (nodes : List Node) (t : Token) (i : Nat) : Prop :=
  ∃ n, nodes[i]? = some n ∧ n.text = lowercase t.lexeme

/-- The edge for two positions of a sentence. -/
structure Edge.Between (nodes : List Node) (terms : List Token) (p : Nat × Nat) (e : Edge) :
    Prop where
  subject : ∃ t, terms[p.1]? = some t ∧ NodeOf nodes t e.subject
  object : ∃ t, terms[p.2]? = some t ∧ NodeOf nodes t e.object
  next_but_one : p.2 = p.1 + 2 → ∃ t, terms[p.1 + 1]? = some t ∧ e.predicate = lowercase t.lexeme
  elsewhere : p.2 ≠ p.1 + 2 → e.predicate = relatedTo
  span : ∃ n, nodes[e.subject]? = some n ∧ e.span = n.span

section Pairs

theorem pairs_succ (n : Nat) : pairs (n + 1) =
    ((List.range' 1 n).map fun j => (0, j)) ++ (pairs n).map fun p => (p.1 + 1, p.2 + 1) := by
  have later (i : Nat) : ((List.range' (i + 1 + 1) (n + 1 - (i + 1 + 1))).map fun j => (i + 1, j)) =
      (List.range' (i + 1) (n - (i + 1))).map fun j => (i + 1, j + 1) := by
    have size : n + 1 - (i + 1 + 1) = n - (i + 1) := by omega
    have shift := @List.map_add_range' 1 (i + 1) (n - (i + 1)) 1
    rw [Nat.add_comm 1 (i + 1)] at shift
    rw [size, ← shift, List.map_map]
    apply List.map_congr_left
    intro j _
    rw [Function.comp_apply, Nat.add_comm 1 j]
  rw [pairs, List.range_succ_eq_map, List.flatMap_cons, List.flatMap_map, pairs, List.map_flatMap]
  congr 1
  apply List.flatMap_congr
  intro i _
  rw [later, List.map_map]
  rfl

/-- The pairs with the first term, then those of the other terms. -/
theorem differingPairs_cons (term : Token) (rest : List Token) :
    differingPairs (term :: rest) =
      ((rest.zipIdx.filter fun entry => lowercase term.lexeme ≠ lowercase entry.1.lexeme).map
          fun entry => (0, entry.2 + 1)) ++
        (differingPairs rest).map fun p => (p.1 + 1, p.2 + 1) := by
  have first : (List.range' 1 rest.length).map (fun j => (0, j)) =
      rest.zipIdx.map fun entry => (0, entry.2 + 1) := by
    have places : List.range' 1 rest.length = rest.zipIdx.map fun entry => entry.2 + 1 := by
      rw [← List.zipIdx_map_snd 1 rest, List.zipIdx_succ, List.map_map]
      rfl
    rw [places, List.map_map]
    rfl
  rw [differingPairs, List.length_cons, pairs_succ, List.filter_append, first, List.filter_map,
    List.filter_map, differingPairs]
  congr 1
  congr 1
  apply List.filter_congr
  intro entry member
  have found : rest[entry.2]? = some entry.1 := List.mk_mem_zipIdx_iff_getElem?.mp member
  simp only [Function.comp_apply, differ, List.getElem?_cons_zero, List.getElem?_cons_succ, found,
    Option.map_some, ne_eq, Option.some.injEq]

end Pairs

section Nodes
variable {nodes nodes' : List Node}

theorem kept_getElem? {i : Nat} {n : Node} (kept : nodes <+: nodes') (found : nodes[i]? = some n) :
    nodes'[i]? = some n := by
  obtain ⟨more, rfl⟩ := kept
  obtain ⟨inside, _⟩ := List.getElem?_eq_some_iff.mp found
  rw [List.getElem?_append_left inside, found]

theorem NodeOf.kept {t : Token} {i : Nat} (kept : nodes <+: nodes') (of_term : NodeOf nodes t i) :
    NodeOf nodes' t i := by
  obtain ⟨n, found, text⟩ := of_term
  exact ⟨n, kept_getElem? kept found, text⟩

theorem Edge.Between.kept {terms : List Token} {p : Nat × Nat} {e : Edge} (kept : nodes <+: nodes')
    (between : e.Between nodes terms p) : e.Between nodes' terms p where
  subject := by
    obtain ⟨t, found, of_term⟩ := between.subject
    exact ⟨t, found, of_term.kept kept⟩
  object := by
    obtain ⟨t, found, of_term⟩ := between.object
    exact ⟨t, found, of_term.kept kept⟩
  next_but_one := between.next_but_one
  elsewhere := between.elsewhere
  span := by
    obtain ⟨n, found, span⟩ := between.span
    exact ⟨n, kept_getElem? kept found, span⟩

theorem Edge.Between.shift {term : Token} {rest : List Token} {p : Nat × Nat} {e : Edge}
    (between : e.Between nodes rest p) : e.Between nodes (term :: rest) (p.1 + 1, p.2 + 1) where
  subject := between.subject
  object := between.object
  next_but_one := by
    intro adjacent
    exact between.next_but_one (by omega)
  elsewhere := by
    intro apart
    exact between.elsewhere (by omega)
  span := between.span

end Nodes

namespace GraphBuilder
variable {b : GraphBuilder} {seen : List Token}

section Kept

theorem ensureNode_kept (b : GraphBuilder) (t : Token) : b.nodes <+: (b.ensureNode t).2.nodes := by
  rw [ensureNode]
  split
  · exact List.prefix_rfl
  · exact List.prefix_append _ _

theorem link_nodes (b : GraphBuilder) (subj : Nat) (between : List Token) (t : Token) (k : Nat) :
    (b.link subj between t k).nodes = (b.ensureNode t).2.nodes := by
  simp only [link]
  split
  · rfl
  · split <;> rfl

theorem ensureNode_edges (b : GraphBuilder) (t : Token) : (b.ensureNode t).2.edges = b.edges := by
  rw [ensureNode]
  split <;> rfl

theorem Recorded.ensured_node (recorded : Recorded seen b) (t : Token) :
    NodeOf (b.ensureNode t).2.nodes t (b.ensureNode t).1 := by
  rw [ensureNode]
  split
  · rename_i i known
    exact (recorded.index _ i).mp known
  · exact ⟨_, List.getElem?_concat_length, rfl⟩

/-- Nodes are the same exactly if the texts of the terms are. -/
theorem Recorded.same_node_iff (recorded : Recorded seen b) {t u : Token} {i j : Nat}
    (of_first : NodeOf b.nodes t i) (of_second : NodeOf b.nodes u j) :
    i = j ↔ lowercase t.lexeme = lowercase u.lexeme := by
  have first := (recorded.index _ i).mpr of_first
  have second := (recorded.index _ j).mpr of_second
  constructor
  · rintro rfl
    obtain ⟨n, found, text⟩ := of_first
    obtain ⟨n', found', text'⟩ := of_second
    rw [found, Option.some.injEq] at found'
    rw [← text, ← text', found']
  · intro same
    rw [same, second, Option.some.injEq] at first
    exact first.symm

end Kept

section Loops
variable {term : Token} {rest : List Token} {subj : Nat}

theorem Recorded.link_none (recorded : Recorded seen b) (of_subject : NodeOf b.nodes term subj)
    {t : Token} (same : lowercase term.lexeme = lowercase t.lexeme) (k : Nat) :
    (b.link subj rest t k).edges = b.edges := by
  have subject := of_subject.kept (b.ensureNode_kept t)
  have equal := ((recorded.ensure t).same_node_iff subject (recorded.ensured_node t)).mpr same
  simp only [GraphBuilder.link]
  rw [if_pos equal, ensureNode_edges]

theorem Recorded.link_edge (recorded : Recorded seen b) (of_subject : NodeOf b.nodes term subj)
    {t : Token} {k : Nat} (place : rest[k]? = some t)
    (other : lowercase term.lexeme ≠ lowercase t.lexeme) :
    ∃ e : Edge, (b.link subj rest t k).edges = b.edges ++ [e] ∧
      e.Between (b.link subj rest t k).nodes (term :: rest) (0, k + 1) := by
  have subject := of_subject.kept (b.ensureNode_kept t)
  have object := recorded.ensured_node t
  have different := mt ((recorded.ensure t).same_node_iff subject object).mp other
  obtain ⟨n, found, text⟩ := subject
  rw [link_nodes]
  simp only [GraphBuilder.link]
  rw [if_neg different, found]
  refine ⟨_, by rw [ensureNode_edges], ?_⟩
  cases rest with
  | nil => cases place
  | cons next more =>
    constructor
    · exact ⟨term, rfl, n, found, text⟩
    · exact ⟨t, place, object⟩
    · intro adjacent
      have one : k = 1 := by omega
      exact ⟨next, rfl, if_pos one⟩
    · intro apart
      have not_one : k ≠ 1 := by omega
      exact if_neg not_one
    · exact ⟨n, found, rfl⟩

/-- The inner loop, over the terms behind the subject. -/
theorem Recorded.links_edges (recorded : Recorded seen b) (of_subject : NodeOf b.nodes term subj)
    {entries : List (Token × Nat)} (places : ∀ entry ∈ entries, rest[entry.2]? = some entry.1)
    {final : GraphBuilder}
    (run : entries.foldl (fun b entry => b.link subj rest entry.1 entry.2) b = final) :
    b.nodes <+: final.nodes ∧ ∃ es, final.edges = b.edges ++ es ∧
      List.Forall₂ (fun entry e => Edge.Between final.nodes (term :: rest) (0, entry.2 + 1) e)
        (entries.filter fun entry => lowercase term.lexeme ≠ lowercase entry.1.lexeme) es := by
  induction entries generalizing seen b with
  | nil =>
    cases run
    exact ⟨List.prefix_rfl, [], (List.append_nil _).symm, .nil⟩
  | cons entry entries ih =>
    rw [List.forall_mem_cons] at places
    have kept : b.nodes <+: (b.link subj rest entry.1 entry.2).nodes := by
      rw [link_nodes]
      exact b.ensureNode_kept entry.1
    have linked : Recorded (seen ++ [entry.1]) (b.link subj rest entry.1 entry.2) :=
      (recorded.ensure entry.1).link (recorded.ensured entry.1) entry.2
    obtain ⟨later, es, edges, matched⟩ := ih linked (of_subject.kept kept) places.2 run
    refine ⟨kept.trans later, ?_⟩
    by_cases same : lowercase term.lexeme = lowercase entry.1.lexeme
    · rw [recorded.link_none of_subject same] at edges
      rw [List.filter_cons_of_neg (by simp [same])]
      exact ⟨es, edges, matched⟩
    · obtain ⟨e, drawn, between⟩ := recorded.link_edge of_subject places.1 same
      rw [drawn, List.append_assoc] at edges
      rw [List.filter_cons_of_pos (by simp [same])]
      exact ⟨e :: es, edges, .cons (between.kept later) matched⟩

/-- The two loops over the terms of a sentence. -/
theorem Recorded.addTerms_edges (recorded : Recorded seen b) (terms : List Token) :
    b.nodes <+: (GraphBuilder.addTerms terms b).nodes ∧
      ∃ es, (GraphBuilder.addTerms terms b).edges = b.edges ++ es ∧
        List.Forall₂ (Edge.Between (GraphBuilder.addTerms terms b).nodes terms)
          (differingPairs terms) es := by
  induction terms generalizing seen b with
  | nil => exact ⟨List.prefix_rfl, [], (List.append_nil _).symm, .nil⟩
  | cons term rest ih =>
    have ensured := recorded.ensure term
    have places : ∀ entry ∈ rest.zipIdx, rest[entry.2]? = some entry.1 := by
      intro entry member
      exact List.mk_mem_zipIdx_iff_getElem?.mp member
    rw [addTerms_cons]
    generalize run : rest.zipIdx.foldl
      (fun later entry => later.link (b.ensureNode term).1 rest entry.1 entry.2)
      (b.ensureNode term).2 = linked
    obtain ⟨kept, es, edges, matched⟩ :=
      ensured.links_edges (recorded.ensured_node term) places run
    have visited : Recorded (seen ++ [term] ++ rest.zipIdx.map Prod.fst) linked := by
      rw [← run]
      exact ensured.links _ rest rest.zipIdx
    obtain ⟨later, es', edges', matched'⟩ := ih visited
    refine ⟨((b.ensureNode_kept term).trans kept).trans later, es ++ es', ?_, ?_⟩
    · rw [edges', edges, ensureNode_edges, List.append_assoc]
    · rw [differingPairs_cons]
      apply List.rel_append
      · rw [List.forall₂_map_left_iff]
        exact matched.imp fun _ _ between => between.kept later
      · rw [List.forall₂_map_left_iff]
        exact matched'.imp fun _ _ between => between.shift

end Loops

end GraphBuilder

/-- The pairs of the sentences, each with the terms of its sentence. -/
def Document.pairs (ast : Document) : List (List Token × Nat × Nat) :=
  ast.sentences.flatMap fun sentence =>
    (differingPairs sentence.terms).map fun p => (sentence.terms, p)

theorem sentences_edges {seen : List Token} {b : GraphBuilder} (recorded : b.Recorded seen)
    (sentences : List Sentence) {final : GraphBuilder}
    (run : sentences.foldl (fun b sentence => GraphBuilder.addTerms sentence.terms b) b = final) :
    b.nodes <+: final.nodes ∧ ∃ es, final.edges = b.edges ++ es ∧
      List.Forall₂ (fun entry e => Edge.Between final.nodes entry.1 entry.2 e)
        (sentences.flatMap fun sentence =>
          (differingPairs sentence.terms).map fun p => (sentence.terms, p)) es := by
  induction sentences generalizing seen b with
  | nil =>
    cases run
    exact ⟨List.prefix_rfl, [], (List.append_nil _).symm, .nil⟩
  | cons sentence sentences ih =>
    obtain ⟨kept, es, edges, matched⟩ := recorded.addTerms_edges sentence.terms
    obtain ⟨later, es', edges', matched'⟩ := ih (recorded.addTerms sentence.terms) run
    refine ⟨kept.trans later, es ++ es', ?_, ?_⟩
    · rw [edges', edges, List.append_assoc]
    · rw [List.flatMap_cons]
      apply List.rel_append _ matched'
      rw [List.forall₂_map_left_iff]
      exact matched.imp fun _ _ between => between.kept later

/-- One edge for each pair of terms of a sentence with different texts, sentence by sentence in
    lexicographic order of their positions. -/
theorem fromAst_edges (ast : Document) :
    List.Forall₂ (fun entry e => Edge.Between (DocumentAST.fromAst ast).nodes entry.1 entry.2 e)
      ast.pairs (DocumentAST.fromAst ast).edges := by
  obtain ⟨_, es, edges, matched⟩ :=
    sentences_edges GraphBuilder.recorded_start ast.sentences rfl
  rw [List.nil_append] at edges
  rw [← edges] at matched
  exact matched

end RagEngine
