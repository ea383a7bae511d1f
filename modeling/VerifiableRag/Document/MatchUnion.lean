import VerifiableRag.Document.Provenance
import VerifiableRag.Library.FilterUnion

/-!
When the matches of a pattern are the edges with any of its triples, in the order of the graph.
-/
namespace RagEngine
open Bytes CodePoints FilterUnion

abbrev Triple := List UInt8 × List UInt8 × List UInt8

/-- Both ends of every edge are nodes. -/
def DocumentAST.Resolves (graph : DocumentAST) : Prop :=
  ∀ edge ∈ graph.edges, edge.subject < graph.nodes.length ∧ edge.object < graph.nodes.length

def asks (wanted text : List UInt8) : Bool := wanted = wildcard ∨ text = wanted

/-- A triple on two nodes and a predicate. -/
def DocumentAST.satisfies (graph : DocumentAST) (subject object : Nat) (predicate : List UInt8)
    (triple : Triple) : Bool :=
  match graph.nodes[subject]?, graph.nodes[object]? with
  | some subj, some obj =>
    asks triple.1 subj.text && asks triple.2.1 predicate && asks triple.2.2 obj.text
  | _, _ => false

def Edge.satisfies (graph : DocumentAST) (edge : Edge) (triple : Triple) : Bool :=
  graph.satisfies edge.subject edge.object edge.predicate triple

def GraphMatch.satisfies (graph : DocumentAST) (m : GraphMatch) (triple : Triple) : Bool :=
  graph.satisfies m.subject m.object m.predicate triple

/-- The match of an edge; its span is that of the subject node. -/
def Edge.reported (graph : DocumentAST) (edge : Edge) : GraphMatch where
  subject := edge.subject
  object := edge.object
  predicate := edge.predicate
  span := (graph.nodes[edge.subject]?).elim edge.span Node.span

/-- One match for each edge with any of the triples, in the order of the graph. -/
def matchUnion (graph : DocumentAST) (pattern : Pattern) :
    Except IndexerError (List GraphMatch) :=
  if graph.nodes = [] then
    .error (.emptyGraph (ofString "cannot match a pattern against an empty graph"))
  else
    .ok ((graph.edges.filter fun edge => pattern.triples.any (edge.satisfies graph)).map
      (Edge.reported graph))

section Union
variable {graph : DocumentAST} {pattern : Pattern}

theorem matchEdge_reported (resolves : graph.Resolves) {edge : Edge} (member : edge ∈ graph.edges)
    (triple : Triple) :
    matchEdge graph triple edge =
      if edge.satisfies graph triple then some (edge.reported graph) else none := by
  obtain ⟨subject, object⟩ := resolves edge member
  have subj := List.getElem?_eq_getElem subject
  have obj := List.getElem?_eq_getElem object
  simp only [matchEdge, Edge.satisfies, DocumentAST.satisfies, Edge.reported, subj, obj,
    Option.elim_some, asks, Bool.and_eq_true, decide_eq_true_eq, and_assoc]

/-- The matches of one triple are those of the edges that satisfy it. -/
theorem filterMap_matchEdge (resolves : graph.Resolves) (triple : Triple) :
    graph.edges.filterMap (matchEdge graph triple) =
      (graph.edges.map (Edge.reported graph)).filter (GraphMatch.satisfies graph · triple) := by
  rw [filterMap_if fun edge member => matchEdge_reported resolves member triple, List.filter_map]
  rfl

theorem matchGraph_eq_union (resolves : graph.Resolves) (triples : List Triple) :
    matchGraph graph ⟨triples⟩ = matchUnion graph pattern ↔
      (triples.flatMap fun triple =>
          (graph.edges.map (Edge.reported graph)).filter (GraphMatch.satisfies graph · triple)) =
        (graph.edges.map (Edge.reported graph)).filter fun m =>
          pattern.triples.any (GraphMatch.satisfies graph m) := by
  have listed : (triples.flatMap fun triple => graph.edges.filterMap (matchEdge graph triple)) =
      triples.flatMap fun triple =>
        (graph.edges.map (Edge.reported graph)).filter (GraphMatch.satisfies graph · triple) := by
    simp only [filterMap_matchEdge resolves]
  have union : ((graph.edges.filter fun edge => pattern.triples.any (edge.satisfies graph)).map
      (Edge.reported graph)) =
      (graph.edges.map (Edge.reported graph)).filter fun m =>
        pattern.triples.any (GraphMatch.satisfies graph m) := by
    rw [List.filter_map]
    rfl
  by_cases empty : graph.nodes = []
  · have no_edges : graph.edges = [] := by
      rw [List.eq_nil_iff_forall_not_mem]
      intro edge member
      have inside := (resolves edge member).1
      rw [empty] at inside
      exact absurd inside (Nat.not_lt_zero _)
    rw [matchGraph, matchUnion, if_pos empty, if_pos empty, no_edges]
    simp
  · rw [matchGraph, matchUnion, if_neg empty, if_neg empty, listed, union, Except.ok.injEq]

/-- No edge satisfies two triples of the pattern, and the edges of an earlier triple come before
    those of a later one. -/
def Pattern.InEdgeOrder (graph : DocumentAST) (pattern : Pattern) : Prop :=
  pattern.triples.Pairwise fun earlier later =>
    Before (Edge.satisfies graph · earlier) (Edge.satisfies graph · later) graph.edges

/-- At most one triple of the pattern is satisfied by any edge. -/
def Pattern.OneSatisfied (graph : DocumentAST) (pattern : Pattern) : Prop :=
  pattern.triples.Pairwise fun earlier later =>
    Idle (Edge.satisfies graph · earlier) (Edge.satisfies graph · later) graph.edges

/-- The list is the union exactly if the triples are in the order of their edges, and for every
    order of the triples exactly if at most one of them has edges. -/
theorem match_graph_union_iff (resolves : graph.Resolves) :
    (matchGraph graph pattern = matchUnion graph pattern ↔ pattern.InEdgeOrder graph) ∧
      ((∀ triples : List Triple, triples.Perm pattern.triples →
          matchGraph graph ⟨triples⟩ = matchUnion graph pattern) ↔
        pattern.OneSatisfied graph) := by
  constructor
  · rw [matchGraph_eq_union resolves, flatMap_filter_iff]
    simp only [before_map]
    rfl
  · simp only [matchGraph_eq_union resolves, flatMap_filter_perm_iff, idle_map]
    rfl

/-- One edge and two triples that it satisfies. -/
def overlapping : Pattern :=
  ⟨[(wildcard, wildcard, wildcard), (utf8 "alpha", wildcard, wildcard)]⟩

theorem match_graph_union_iff_echo :
    (matchGraph echoGraph overlapping = matchUnion echoGraph overlapping ↔
        overlapping.InEdgeOrder echoGraph) ∧
      ((∀ triples : List Triple, triples.Perm overlapping.triples →
          matchGraph echoGraph ⟨triples⟩ = matchUnion echoGraph overlapping) ↔
        overlapping.OneSatisfied echoGraph) :=
  match_graph_union_iff (by unfold DocumentAST.Resolves; decide)

/-- The edge is reported twice. -/
theorem overlapping_twice :
    lex echo = .ok echoGraph ∧ echoGraph.Resolves ∧
      matchGraph echoGraph overlapping = .ok [⟨0, 1, relatedTo, ⟨0, 5⟩⟩, ⟨0, 1, relatedTo, ⟨0, 5⟩⟩] ∧
      matchUnion echoGraph overlapping = .ok [⟨0, 1, relatedTo, ⟨0, 5⟩⟩] ∧
      matchGraph echoGraph overlapping ≠ matchUnion echoGraph overlapping := by
  unfold DocumentAST.Resolves
  decide +kernel

end Union

end RagEngine
