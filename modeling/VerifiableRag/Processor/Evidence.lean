import VerifiableRag.Document.EdgeList
import VerifiableRag.Processor.Query

/-!
The documents whose evidence is proved.
-/
namespace Processor
open Bytes CodePoints RagEngine Results

/-- `parse_and_prove_core` goes on to the commitments and the proof, whatever these return. -/
def ReachesProof (document prompt : List UInt8) : Prop :=
  ∃ found, ∀ (ρ : Type) (prove : List UInt8 → List UInt8 → List GraphMatch → Except Str ρ),
    parseAndProveCore prove document prompt = prove document prompt found

theorem reachesProof_iff {document prompt : List UInt8} :
    ReachesProof document prompt ↔ ∃ found, Evidence document found := by
  constructor
  · intro reaches
    obtain ⟨found, reached⟩ := reaches
    obtain ⟨found', evidence, _⟩ :=
      parseAndProveCore_ok (reached Unit fun _ _ _ => .ok ())
    exact ⟨found', evidence⟩
  · intro h
    obtain ⟨found, evidence⟩ := h
    exact ⟨found, fun _ _ => evidence.proves prompt⟩

section Pairs

theorem mem_pairs {n i j : Nat} : (i, j) ∈ pairs n ↔ i < j ∧ j < n := by
  simp only [pairs, List.mem_flatMap, List.mem_range, List.mem_map, List.mem_range'_1,
    Prod.mk.injEq]
  constructor
  · rintro ⟨_, first, _, second, rfl, rfl⟩
    omega
  · intro h
    exact ⟨i, by omega, j, by omega, rfl, rfl⟩

theorem differingPairs_nonempty {terms : List Token} : differingPairs terms ≠ [] ↔
    ∃ t ∈ terms, ∃ u ∈ terms, lowercase t.lexeme ≠ lowercase u.lexeme := by
  constructor
  · intro some_pair
    obtain ⟨p, member⟩ := List.exists_mem_of_ne_nil _ some_pair
    obtain ⟨inside, different⟩ := List.mem_filter.mp member
    have bounds : p.1 < p.2 ∧ p.2 < terms.length := mem_pairs.mp inside
    have first := List.getElem?_eq_getElem (lt_trans bounds.1 bounds.2)
    have second := List.getElem?_eq_getElem bounds.2
    simp only [differ, first, second, Option.map_some, ne_eq, Option.some.injEq,
      decide_eq_true_eq] at different
    exact ⟨_, List.getElem_mem _, _, List.getElem_mem _, different⟩
  · intro h
    obtain ⟨t, here, u, there, different⟩ := h
    obtain ⟨i, first⟩ := List.mem_iff_getElem?.mp here
    obtain ⟨j, second⟩ := List.mem_iff_getElem?.mp there
    obtain ⟨inside, _⟩ := List.getElem?_eq_some_iff.mp first
    obtain ⟨inside', _⟩ := List.getElem?_eq_some_iff.mp second
    have apart : i ≠ j := by
      rintro rfl
      rw [first, Option.some.injEq] at second
      exact different (congrArg (fun t => lowercase t.lexeme) second)
    -- The pair has the smaller position in front.
    rcases Nat.lt_or_gt_of_ne apart with before | behind
    · apply List.ne_nil_of_mem (a := (i, j))
      exact List.mem_filter.mpr ⟨mem_pairs.mpr ⟨before, inside'⟩, by simp [differ, first, second, different]⟩
    · apply List.ne_nil_of_mem (a := (j, i))
      exact List.mem_filter.mpr ⟨mem_pairs.mpr ⟨behind, inside⟩, by simp [differ, first, second, Ne.symm different]⟩

end Pairs

section Matching
variable {ast : Document}

/-- Every edge of the graph matches the wildcards. -/
theorem matchEdge_wildcard {e : Edge} (member : e ∈ (DocumentAST.fromAst ast).edges) :
    ∃ m, matchEdge (DocumentAST.fromAst ast) (wildcard, wildcard, wildcard) e = some m := by
  have joins : e.Joins (DocumentAST.fromAst ast).nodes := (fromAst_recorded ast).edges e member
  obtain ⟨n, subject, _⟩ := joins.subject
  have object := List.getElem?_eq_getElem joins.object
  simp only [matchEdge, subject, object]
  exact ⟨_, if_pos ⟨Or.inl trivial, Or.inl trivial, Or.inl trivial⟩⟩

theorem wildcard_found {found : List GraphMatch}
    (matched : matchGraph (DocumentAST.fromAst ast) wildcardPattern = .ok found) :
    found ≠ [] ↔ (DocumentAST.fromAst ast).edges ≠ [] := by
  rw [matchGraph, if_neg (fromAst_nodes ast), Except.ok.injEq] at matched
  have single : found = (DocumentAST.fromAst ast).edges.filterMap
      (matchEdge (DocumentAST.fromAst ast) (wildcard, wildcard, wildcard)) := by
    rw [← matched]
    exact List.flatMap_singleton _ _
  rw [single]
  constructor
  · intro some_match none_drawn
    rw [none_drawn] at some_match
    exact some_match rfl
  · intro some_edge
    obtain ⟨e, member⟩ := List.exists_mem_of_ne_nil _ some_edge
    obtain ⟨m, reported⟩ := matchEdge_wildcard member
    exact List.ne_nil_of_mem (List.mem_filterMap.mpr ⟨e, member, reported⟩)

theorem edges_nonempty : (DocumentAST.fromAst ast).edges ≠ [] ↔
    ∃ terms ∈ ast.sentences.map Sentence.terms, ∃ t ∈ terms, ∃ u ∈ terms,
      lowercase t.lexeme ≠ lowercase u.lexeme := by
  have sizes := (fromAst_edges ast).length_eq
  have same : (DocumentAST.fromAst ast).edges ≠ [] ↔ ast.pairs ≠ [] := by
    rw [← List.length_pos_iff, ← List.length_pos_iff, sizes]
  rw [same]
  simp only [← differingPairs_nonempty, List.mem_map, exists_exists_and_eq_and, Document.pairs, ne_eq,
    List.flatMap_eq_nil_iff, List.map_eq_nil_iff, not_forall, exists_prop]

/-- A document has evidence if some sentence of its text has two terms with different texts. -/
theorem evidence_iff {document : List UInt8} : (∃ found, Evidence document found) ↔
    ∃ tokens, tokenize document = .ok tokens ∧ (∃ t ∈ tokens, t.isTerm) ∧
      ∃ terms ∈ (outline tokens).flatten, ∃ t ∈ terms, ∃ u ∈ terms,
        lowercase t.lexeme ≠ lowercase u.lexeme := by
  constructor
  · intro h
    obtain ⟨found, nonempty, tokens, ast, tokenized, parsed, matched⟩ := h
    have outlined := (parse_outline (tokenize_stream tokenized) parsed).1
    have drawn := edges_nonempty.mp ((wildcard_found matched).mp nonempty)
    have listed := Document.terms_eq outlined
    obtain ⟨t, member⟩ := List.exists_mem_of_ne_nil _ ast.terms_nonempty
    rw [listed] at member
    rw [ast.sentences_terms, outlined] at drawn
    exact ⟨tokens, tokenized, ⟨t, List.mem_filter.mp member⟩, drawn⟩
  · intro h
    obtain ⟨tokens, tokenized, ⟨t, member, term⟩, differing⟩ := h
    rcases parse_cases (tokenize_stream tokenized).alternates with
      ⟨failed, _⟩ | ⟨ast, parsed, outlined, _⟩
    · have none_kept := (parse_structure tokenized).1.mp failed t member
      rw [term] at none_kept
      cases none_kept
    · obtain ⟨found, matched⟩ := matchGraph_ok ast wildcardPattern
      rw [← outlined, ← ast.sentences_terms] at differing
      have nonempty := (wildcard_found matched).mpr (edges_nonempty.mpr differing)
      exact ⟨found, nonempty, tokens, ast, tokenized, parsed, matched⟩

end Matching

/-- The edges of a document's graph are those of its pairs of terms, and a proof is reached just
    for a document with such a pair. -/
theorem edges_and_proof (ast : Document) (document prompt : List UInt8) :
    (((DocumentAST.fromAst ast).nodes.map Node.text).Nodup ∧
      List.Forall₂ (fun entry e => Edge.Between (DocumentAST.fromAst ast).nodes entry.1 entry.2 e)
        ast.pairs (DocumentAST.fromAst ast).edges) ∧
    (ReachesProof document prompt ↔ ∃ tokens, tokenize document = .ok tokens ∧
      (∃ t ∈ tokens, t.isTerm) ∧ ∃ terms ∈ (outline tokens).flatten, ∃ t ∈ terms, ∃ u ∈ terms,
        lowercase t.lexeme ≠ lowercase u.lexeme) := by
  refine ⟨⟨(fromAst_recorded ast).texts, fromAst_edges ast⟩, ?_⟩
  rw [reachesProof_iff, evidence_iff]

end Processor
