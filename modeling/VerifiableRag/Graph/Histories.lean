import VerifiableRag.Graph.Representation
import VerifiableRag.Library.Results

/-!
Histories of the knowledge graph: any sequence of `add_entity` and
`add_relation` calls, failed ones included, from the empty graph or from an
accepted payload. The caches stay consistent throughout, so the rank fast path
decides the same question as the reachability search it skips.
-/
open Relation (TransGen ReflTransGen)

namespace RagEngine
open Std (TreeMap TreeSet)
open AcyclicRelation
open Results

namespace KnowledgeGraph

section Search
variable {g : KnowledgeGraph}

theorem mem_targets (tables : Tables g) (a b : Nat) : b ∈ g.targets a ↔ g.Edge a b := by
  rw [targets, TreeMap.mem_keys]
  constructor
  · exact tables.out_lively.cells a b
  · rintro ⟨p, stored⟩
    exact (g.out.mem_row stored).2

theorem targets_bound (tables : Tables g) : ∀ a < g.len, ∀ o ∈ g.targets a, o < g.len := by
  intro a _ o member
  obtain ⟨p, stored⟩ := (mem_targets tables a o).mp member
  exact (tables.endpoints a p o stored).2.1

theorem step_targets (tables : Tables g) : BreadthFirst.Step g.targets = g.Edge := by
  funext a b
  exact propext (mem_targets tables a b)

/-- The early exit of the search only shortens the traversal. -/
theorem canReachLoop_eq (g : KnowledgeGraph) (target fuel : Nat) (visited : List Bool)
    (queue : List (Nat × Nat)) :
    g.canReachLoop target fuel visited (queue.map Prod.fst) =
      decide (target ∈ (BreadthFirst.traverse g.targets fuel visited queue).map Prod.fst) := by
  induction fuel generalizing visited queue with
  | zero => simp [canReachLoop, BreadthFirst.traverse]
  | succ fuel ih =>
    cases queue with
    | nil => simp [canReachLoop, BreadthFirst.traverse]
    | cons entry queue =>
      obtain ⟨v, d⟩ := entry
      have pending : queue.map Prod.fst ++ (BreadthFirst.discover (g.targets v) visited).2 =
          (queue ++ (BreadthFirst.discover (g.targets v) visited).2.map (·, d + 1)).map
            Prod.fst := by
        rw [List.map_append, BreadthFirst.fresh_pairs]
      simp only [List.map_cons, canReachLoop, BreadthFirst.traverse]
      rw [pending, ih]
      by_cases here : v = target
      · simp [here]
      · simp [here, Ne.symm here]

theorem canReach_iff (tables : Tables g) {source : Nat} (valid : source < g.len) (target : Nat) :
    g.canReach source target = true ↔ ReflTransGen g.Edge source target := by
  have loop := canReachLoop_eq g target g.len (BreadthFirst.markStart g.len source) [(source, 0)]
  have start : [source] = [(source, 0)].map Prod.fst := rfl
  rw [canReach, start, loop, decide_eq_true_eq, ← step_targets tables]
  exact BreadthFirst.bfs_reaches (targets_bound tables) valid target

end Search

/-- When `add_relation` has to accept, in terms of the stored edges alone. -/
structure Admissible (g : KnowledgeGraph) (s : Nat) (p : String) (o : Nat) : Prop where
  subject : s < g.len
  object : o < g.len
  apart : s ≠ o
  nonempty : 1 ≤ p.utf8ByteSize
  short : p.utf8ByteSize ≤ maxSymbolLen
  safe : g.Stored s p o ∨ ¬ TransGen g.Edge o s

section Operations
variable {g : KnowledgeGraph}

theorem path_apart {r : Nat → Nat → Prop} {a b : Nat} (apart : a ≠ b) :
    ReflTransGen r a b ↔ TransGen r a b := by
  rw [Relation.reflTransGen_iff_eq_or_transGen]
  exact ⟨fun h => h.resolve_left fun eq => apart eq.symm, Or.inr⟩

theorem fast_path_sound (inv : Consistent g) {s o : Nat} (ranked : g.rank s < g.rank o) :
    ¬ TransGen g.Edge o s := by
  intro path
  have back := path_rank_lt (fun a b ⟨p, stored⟩ => inv.increasing a p b stored) path
  omega

theorem acyclic_insertEdge (inv : Consistent g) {s o : Nat} (p : String)
    (open_end : ¬ ReflTransGen g.Edge o s) : Acyclic (g.insertEdge s p o).Edge := by
  have same : (g.insertEdge s p o).Edge = fun a b => g.Edge a b ∨ (a = s ∧ b = o) := by
    funext a b
    exact propext (edge_insertEdge g s p o a b)
  rw [same]
  exact acyclic_insert inv.acyclic open_end

/-- The three outcomes of `add_relation` on a consistent graph: a refusal that
    leaves the graph alone, a triple already present, or an insertion. -/
theorem addRelation_spec (inv : Consistent g) (s : Nat) (p : String) (o : Nat) :
    (¬ g.Admissible s p o ∧ ∃ e, g.addRelation s p o = .error e g ∧ e ≠ .cyclicPayload) ∨
    (g.Admissible s p o ∧ g.Stored s p o ∧ g.addRelation s p o = .ok () g) ∨
    (g.Admissible s p o ∧ ¬ g.Stored s p o ∧ ∃ topo,
      g.addRelation s p o = .ok () { g.insertEdge s p o with topo := topo } ∧
      Consistent { g.insertEdge s p o with topo := topo }) := by
  unfold addRelation
  by_cases hs : s ≥ g.entities.length
  · rw [if_pos hs]
    exact Or.inl ⟨fun ok => by have := ok.subject; simp only [len] at this; omega,
      _, rfl, by simp⟩
  by_cases ho : o ≥ g.entities.length
  · rw [if_neg hs, if_pos ho]
    exact Or.inl ⟨fun ok => by have := ok.object; simp only [len] at this; omega,
      _, rfl, by simp⟩
  by_cases same : s = o
  · rw [if_neg hs, if_neg ho, if_pos same]
    exact Or.inl ⟨fun ok => ok.apart same, _, rfl, by simp⟩
  by_cases empty : p.isEmpty
  · rw [if_neg hs, if_neg ho, if_neg same, if_pos empty]
    exact Or.inl ⟨fun ok => by have := ok.nonempty; have := (isEmpty_iff p).mp empty; omega,
      _, rfl, by simp⟩
  by_cases long : p.utf8ByteSize > maxSymbolLen
  · rw [if_neg hs, if_neg ho, if_neg same, if_neg empty, if_pos long]
    exact Or.inl ⟨fun ok => by have := ok.short; omega, _, rfl, by simp⟩
  have subject : s < g.len := Nat.lt_of_not_le hs
  have object : o < g.len := Nat.lt_of_not_le ho
  have nonempty : 1 ≤ p.utf8ByteSize := by
    rw [isEmpty_iff] at empty
    omega
  have short : p.utf8ByteSize ≤ maxSymbolLen := Nat.le_of_not_lt long
  rw [if_neg hs, if_neg ho, if_neg same, if_neg empty, if_neg long]
  by_cases present : g.hasRelation s p o
  · have stored := (hasRelation_iff g s p o).mp present
    rw [if_pos present]
    exact Or.inr (Or.inl ⟨⟨subject, object, same, nonempty, short, Or.inl stored⟩, stored, rfl⟩)
  have absent : ¬ g.Stored s p o := fun stored => present ((hasRelation_iff g s p o).mpr stored)
  rw [if_neg present]
  by_cases ranked : g.rank s < g.rank o
  · rw [if_pos ranked]
    have next : Consistent (g.insertEdge s p o) :=
      consistent_insertEdge inv subject object nonempty short ranked
    exact Or.inr (Or.inr ⟨⟨subject, object, same, nonempty, short,
      Or.inr (fast_path_sound inv ranked)⟩, absent, g.topo, rfl, next⟩)
  rw [if_neg ranked]
  have search := canReach_iff inv.toTables object s
  by_cases back : g.canReach o s
  · rw [if_pos back]
    have path := (path_apart (Ne.symm same)).mp (search.mp back)
    refine Or.inl ⟨fun ok => ?_, _, rfl, by simp⟩
    exact ok.safe.elim absent fun none => none path
  rw [if_neg back]
  have open_end : ¬ ReflTransGen g.Edge o s := fun path => back (search.mpr path)
  have tables := tables_insertEdge inv.toTables subject object same nonempty short
  obtain ⟨topo, ranks, ranked⟩ := (rebuildRanks_spec tables).1 (acyclic_insertEdge inv p open_end)
  refine Or.inr (Or.inr ⟨⟨subject, object, same, nonempty, short, Or.inr fun path => ?_⟩,
    absent, topo, ranks, ranked⟩)
  exact open_end path.to_reflTransGen

theorem addRelation_consistent (inv : Consistent g) (s : Nat) (p : String) (o : Nat) :
    Consistent (g.addRelation s p o).after := by
  rcases addRelation_spec inv s p o with ⟨_, e, run, _⟩ | ⟨_, _, run⟩ | ⟨_, _, topo, run, next⟩
  · rw [run]; exact inv
  · rw [run]; exact inv
  · rw [run]; exact next

theorem addEntity_consistent (inv : Consistent g) (text : String) :
    Consistent (g.addEntity text).after := by
  unfold addEntity
  split
  · exact inv
  · rename_i nonempty
    split
    · exact inv
    · rename_i long
      split
      · exact inv
      · rename_i fresh
        refine consistent_pushEntity inv fresh ?_ (Nat.le_of_not_lt long)
        rw [isEmpty_iff] at nonempty
        omega

end Operations

section Loading
variable {g g' : KnowledgeGraph}

/-- What the loader asks of one node. -/
structure Enters (g : KnowledgeGraph) (e : Entity) : Prop where
  dense : e.id = g.len
  nonempty : 1 ≤ e.text.utf8ByteSize
  short : e.text.utf8ByteSize ≤ maxSymbolLen
  fresh : g.byText[e.text]? = none

theorem loadNode_iff {e : Entity} :
    g.loadNode g.len e = .ok g' ↔ g.Enters e ∧ g' = g.pushEntity e.text := by
  unfold loadNode
  by_cases sparse : e.id ≠ g.len
  · rw [if_pos sparse]
    exact iff_of_false (by simp) fun h => sparse h.1.dense
  rw [if_neg sparse]
  by_cases empty : e.text.isEmpty
  · rw [if_pos empty]
    refine iff_of_false (by simp) fun h => ?_
    have := (isEmpty_iff e.text).mp empty
    have := h.1.nonempty
    omega
  rw [if_neg empty]
  by_cases long : e.text.utf8ByteSize > maxSymbolLen
  · rw [if_pos long]
    exact iff_of_false (by simp) fun h => Nat.not_le_of_lt long h.1.short
  rw [if_neg long]
  by_cases known : g.byText.contains e.text
  · rw [if_pos known]
    refine iff_of_false (by simp) fun h => ?_
    rw [TreeMap.contains_eq_isSome_getElem?, h.1.fresh] at known
    simp at known
  rw [if_neg known]
  have entity : e = ⟨g.len, e.text⟩ := by
    have id : e.id = g.len := not_not.mp sparse
    rw [← id]
  have enters : g.Enters e := by
    refine ⟨not_not.mp sparse, ?_, Nat.le_of_not_lt long, ?_⟩
    · rw [isEmpty_iff] at empty
      omega
    · exact TreeMap.getElem?_eq_none_of_contains_eq_false (Bool.not_eq_true _ ▸ known)
  simp only [Except.ok.injEq, enters, true_and, pushEntity, ← entity]
  exact eq_comm

theorem len_pushEntity (g : KnowledgeGraph) (text : String) :
    (g.pushEntity text).len = g.len + 1 := by simp [len, pushEntity]

theorem Enters.tables {e : Entity} (tables : Tables g) (enters : g.Enters e) :
    Tables (g.pushEntity e.text) :=
  tables_pushEntity tables enters.fresh enters.nonempty enters.short

theorem loadNodes_tables (nodes : List Entity) (tables : Tables g)
    (loaded : loadNodes g.len nodes g = .ok g') : Tables g' := by
  induction nodes generalizing g with
  | nil =>
    simp only [loadNodes, Except.ok.injEq] at loaded
    exact loaded ▸ tables
  | cons e rest ih =>
    obtain ⟨middle, head, tail⟩ := except_bind_ok.mp loaded
    obtain ⟨enters, rfl⟩ := loadNode_iff.mp head
    rw [← len_pushEntity] at tail
    exact ih (enters.tables tables) tail

/-- What the loader asks of one edge. -/
structure Joins (size : Nat) (r : Relation) : Prop where
  subject : r.subject < size
  object : r.object < size
  apart : r.subject ≠ r.object
  nonempty : 1 ≤ r.predicate.utf8ByteSize
  short : r.predicate.utf8ByteSize ≤ maxSymbolLen

theorem loadEdge_iff {r : Relation} :
    g.loadEdge r = .ok g' ↔ Joins g.len r ∧ g' = g.insertEdge r.subject r.predicate r.object := by
  unfold loadEdge
  by_cases unknown : r.subject ≥ g.entities.length ∨ r.object ≥ g.entities.length
  · rw [if_pos unknown]
    refine iff_of_false (by simp) fun h => ?_
    exact unknown.elim (Nat.not_le_of_lt h.1.subject) (Nat.not_le_of_lt h.1.object)
  rw [if_neg unknown]
  by_cases same : r.subject = r.object
  · rw [if_pos same]
    exact iff_of_false (by simp) fun h => h.1.apart same
  rw [if_neg same]
  by_cases empty : r.predicate.isEmpty
  · rw [if_pos empty]
    refine iff_of_false (by simp) fun h => ?_
    have := (isEmpty_iff r.predicate).mp empty
    have := h.1.nonempty
    omega
  rw [if_neg empty]
  by_cases long : r.predicate.utf8ByteSize > maxSymbolLen
  · rw [if_pos long]
    exact iff_of_false (by simp) fun h => Nat.not_le_of_lt long h.1.short
  rw [if_neg long]
  simp only [not_or, ge_iff_le, not_le] at unknown
  have joins : Joins g.len r := by
    refine ⟨unknown.1, unknown.2, same, ?_, Nat.le_of_not_lt long⟩
    rw [isEmpty_iff] at empty
    omega
  simp only [Except.ok.injEq, joins, true_and, insertEdge]
  exact eq_comm

theorem Joins.tables {r : Relation} (tables : Tables g) (joins : Joins g.len r) :
    Tables (g.insertEdge r.subject r.predicate r.object) :=
  tables_insertEdge tables joins.subject joins.object joins.apart joins.nonempty joins.short

theorem loadEdges_tables (edges : List Relation) (tables : Tables g)
    (loaded : loadEdges edges g = .ok g') : Tables g' := by
  induction edges generalizing g with
  | nil =>
    simp only [loadEdges, Except.ok.injEq] at loaded
    exact loaded ▸ tables
  | cons r rest ih =>
    obtain ⟨middle, head, tail⟩ := except_bind_ok.mp loaded
    obtain ⟨joins, rfl⟩ := loadEdge_iff.mp head
    exact ih (joins.tables tables) tail

/-- A payload is accepted when both arrays load and the edges they list have no cycle. -/
theorem deserialize_ok {nodes : List Entity} {edges : List Relation} :
    deserialize nodes edges = .ok g ↔ ∃ listed bulk, loadNodes 0 nodes new = .ok listed ∧
      loadEdges edges listed = .ok bulk ∧ bulk.rebuildRanks = .ok () g := by
  unfold deserialize
  constructor
  · intro loaded
    cases bulk_loaded : (loadNodes 0 nodes new).bind (loadEdges edges) with
    | error e => simp [bulk_loaded] at loaded
    | ok bulk =>
      obtain ⟨listed, first, second⟩ := except_bind_ok.mp bulk_loaded
      refine ⟨listed, bulk, first, second, ?_⟩
      rw [bulk_loaded] at loaded
      cases ranks : bulk.rebuildRanks with
      | error e left => simp [ranks] at loaded
      | ok _ ranked =>
        simp only [ranks, Except.ok.injEq] at loaded
        rw [loaded]
  · intro h
    obtain ⟨listed, bulk, first, second, ranks⟩ := h
    have both : (loadNodes 0 nodes new).bind (loadEdges edges) = .ok bulk :=
      except_bind_ok.mpr ⟨listed, first, second⟩
    simp only [both, ranks]

theorem deserialize_consistent {nodes : List Entity} {edges : List Relation}
    (loaded : deserialize nodes edges = .ok g) : Consistent g := by
  obtain ⟨listed, bulk, first, second, ranks⟩ := deserialize_ok.mp loaded
  have tables : Tables bulk :=
    loadEdges_tables edges (loadNodes_tables nodes tables_new first) second
  by_cases acyclic : Acyclic bulk.Edge
  · obtain ⟨topo, run, ranked⟩ := (rebuildRanks_spec tables).1 acyclic
    rw [run, EStateM.Result.ok.injEq] at ranks
    exact ranks.2 ▸ ranked
  · rw [(rebuildRanks_spec tables).2 acyclic] at ranks
    simp at ranks

end Loading

inductive Reachable : KnowledgeGraph → Prop where
  | new : Reachable new
  | deserialized {g : KnowledgeGraph} {nodes : List Entity} {edges : List Relation}
      (loaded : deserialize nodes edges = .ok g) : Reachable g
  | addEntity {g : KnowledgeGraph} (history : Reachable g) (text : String) :
      Reachable (g.addEntity text).after
  | addRelation {g : KnowledgeGraph} (history : Reachable g) (s : Nat) (p : String) (o : Nat) :
      Reachable (g.addRelation s p o).after

theorem reachable_consistent {g : KnowledgeGraph} (history : Reachable g) : Consistent g := by
  induction history with
  | new => exact consistent_new
  | deserialized loaded => exact deserialize_consistent loaded
  | addEntity history text ih => exact addEntity_consistent ih text
  | addRelation history s p o ih => exact addRelation_consistent ih s p o

/-- `add_relation` accepts exactly what plain reachability over the stored edges
    admits, adds that one triple, and leaves the graph unchanged when it refuses. -/
theorem add_relation_refines_reachability {g : KnowledgeGraph} (history : Reachable g)
    (s : Nat) (p : String) (o : Nat) :
    ((∃ g', g.addRelation s p o = .ok () g') ↔
      s < g.len ∧ o < g.len ∧ s ≠ o ∧ 1 ≤ p.utf8ByteSize ∧ p.utf8ByteSize ≤ 512 ∧
        (g.Stored s p o ∨ ¬ TransGen g.Edge o s)) ∧
    (g.rank s < g.rank o → ¬ TransGen g.Edge o s) ∧
    (∀ g', g.addRelation s p o = .ok () g' →
      (∀ a q b, g'.Stored a q b ↔ g.Stored a q b ∨ (a = s ∧ q = p ∧ b = o)) ∧
      (g.Stored s p o → g' = g) ∧ g'.entities = g.entities) ∧
    (∀ e g', g.addRelation s p o = .error e g' → g' = g ∧ e ≠ .cyclicPayload) := by
  have inv := reachable_consistent history
  have conditions : g.Admissible s p o ↔ s < g.len ∧ o < g.len ∧ s ≠ o ∧ 1 ≤ p.utf8ByteSize ∧
      p.utf8ByteSize ≤ 512 ∧ (g.Stored s p o ∨ ¬ TransGen g.Edge o s) :=
    ⟨fun h => ⟨h.subject, h.object, h.apart, h.nonempty, h.short, h.safe⟩,
      fun h => ⟨h.1, h.2.1, h.2.2.1, h.2.2.2.1, h.2.2.2.2.1, h.2.2.2.2.2⟩⟩
  rw [← conditions]
  refine ⟨?_, fast_path_sound inv, ?_⟩
  · rcases addRelation_spec inv s p o with ⟨no, e, run, _⟩ | ⟨yes, _, run⟩ | ⟨yes, _, topo, run, _⟩
    · simp [run, no]
    · exact iff_of_true ⟨_, run⟩ yes
    · exact iff_of_true ⟨_, run⟩ yes
  · rcases addRelation_spec inv s p o with ⟨_, e, run, plain⟩ | ⟨_, stored, run⟩ |
      ⟨_, absent, topo, run, _⟩
    · rw [run]
      refine ⟨by simp, ?_⟩
      rintro e' g' same
      simp only [EStateM.Result.error.injEq] at same
      obtain ⟨rfl, rfl⟩ := same
      exact ⟨rfl, plain⟩
    · rw [run]
      refine ⟨?_, by simp⟩
      rintro g' same
      simp only [EStateM.Result.ok.injEq, true_and] at same
      subst g'
      refine ⟨fun a q b => ⟨Or.inl, ?_⟩, fun _ => rfl, rfl⟩
      rintro (old | ⟨rfl, rfl, rfl⟩)
      · exact old
      · exact stored
    · rw [run]
      refine ⟨?_, by simp⟩
      rintro g' same
      simp only [EStateM.Result.ok.injEq, true_and] at same
      subst g'
      exact ⟨stored_insertEdge g s p o, fun stored => absurd stored absent, rfl⟩

/-- Two entities and an edge against id order, so that the insertion re-ranks. -/
def crossed : KnowledgeGraph :=
  (((new.addEntity "a").after.addEntity "b").after.addRelation 1 "p" 0).after

theorem crossed_reachable : Reachable crossed :=
  .addRelation (.addEntity (.addEntity .new "a") "b") 1 "p" 0

theorem add_relation_refines_reachability_crossed :
    ¬ ∃ g' : KnowledgeGraph, crossed.addRelation 0 "p" 1 = .ok () g' := by
  rw [(add_relation_refines_reachability crossed_reachable 0 "p" 1).1]
  rintro ⟨_, _, _, _, _, stored | none⟩
  · exact absurd stored (by decide)
  · exact none (.single ⟨"p", by decide⟩)

section TopologicalOrder
variable {g : KnowledgeGraph}

instance : Std.Total g.RankOrder := ⟨fun a b => by simp only [RankOrder]; omega⟩

instance : IsTrans Nat g.RankOrder := ⟨fun a b c hab hbc => by simp only [RankOrder] at *; omega⟩

theorem topologicalOrder_perm (g : KnowledgeGraph) :
    g.topologicalOrder.Perm (List.range g.len) := List.perm_insertionSort _ _

theorem position_lt_of_rank_lt {a b : Nat} (ha : a < g.len) (hb : b < g.len)
    (ranked : g.rank a < g.rank b) :
    g.topologicalOrder.idxOf a < g.topologicalOrder.idxOf b := by
  have member : ∀ x < g.len, g.topologicalOrder.idxOf x < g.topologicalOrder.length := by
    intro x hx
    exact List.idxOf_lt_length_iff.mpr ((topologicalOrder_perm g).mem_iff.mpr (List.mem_range.mpr hx))
  have sorted := List.pairwise_insertionSort g.RankOrder (List.range g.len)
  have apart : a ≠ b := fun eq => Nat.lt_irrefl _ (eq ▸ ranked)
  by_contra late
  rcases Nat.lt_or_eq_of_le (Nat.le_of_not_lt late) with before | same
  · have order : g.RankOrder (g.topologicalOrder.get ⟨_, member b hb⟩)
        (g.topologicalOrder.get ⟨_, member a ha⟩) :=
      List.pairwise_iff_getElem.mp sorted _ _ (member b hb) (member a ha) before
    rw [List.get_eq_getElem, List.get_eq_getElem, List.getElem_idxOf, List.getElem_idxOf] at order
    simp only [RankOrder] at order
    omega
  · exact apart ((List.idxOf_inj (List.idxOf_lt_length_iff.mp (member a ha))).mp same.symm)

end TopologicalOrder

theorem texts_nodup {g : KnowledgeGraph} (tables : Tables g) :
    (g.entities.map Entity.text).Nodup := by
  rw [List.nodup_iff_getElem?_ne_getElem?]
  intro i j lt bound same
  rw [List.getElem?_map, List.getElem?_map] at same
  obtain ⟨e, found⟩ : ∃ e, g.entities[j]? = some e :=
    ⟨_, List.getElem?_eq_getElem (by simpa using bound)⟩
  have at_j := (tables.texts e.text j).mpr (by rw [found]; rfl)
  have at_i := (tables.texts e.text i).mpr (by rw [same, found]; rfl)
  rw [at_i] at at_j
  exact Nat.ne_of_lt lt (Option.some.inj at_j)

/-- The representation invariant: an acyclic edge set with valid endpoints, two
    adjacency maps that mirror each other, a text index inverse to the arena, and
    ranks that order every edge. -/
theorem representation_invariant {g : KnowledgeGraph} (history : Reachable g) :
    (Acyclic g.Edge ∧ ∀ a p b, g.Stored a p b → a < g.len ∧ b < g.len ∧ a ≠ b) ∧
    ((∀ a p b, p ∈ g.out.preds a b ↔ p ∈ g.in_.preds b a) ∧
      (∀ a b, b ∈ g.out.row a ↔ a ∈ g.in_.row b) ∧
      (∀ a, a ∈ g.out ↔ ∃ b, a ∈ g.in_.row b) ∧ (∀ b, b ∈ g.in_ ↔ ∃ a, b ∈ g.out.row a)) ∧
    ((∀ i (e : Entity), g.entities[i]? = some e → e.id = i) ∧
      (∀ t i, g.byText[t]? = some i ↔ g.entities[i]?.map Entity.text = some t) ∧
      (g.entities.map Entity.text).Nodup) ∧
    (∀ a p b, g.Stored a p b → g.rank a < g.rank b) ∧
    g.topologicalOrder.Perm (List.range g.len) ∧
    (∀ a p b, g.Stored a p b → g.topologicalOrder.idxOf a < g.topologicalOrder.idxOf b) := by
  have inv := reachable_consistent history
  have mirror' : ∀ b p a, p ∈ g.in_.preds b a ↔ p ∈ g.out.preds a b :=
    fun b p a => (inv.mirror a p b).symm
  have cell : ∀ a b, b ∈ g.out.row a ↔ a ∈ g.in_.row b := by
    intro a b
    constructor
    · exact inv.out_lively.mem_row_mirror inv.mirror
    · exact inv.in_lively.mem_row_mirror mirror'
  have out_keys : ∀ a, a ∈ g.out ↔ ∃ b, a ∈ g.in_.row b :=
    inv.out_lively.mem_iff_mirror inv.in_lively inv.mirror
  have in_keys : ∀ b, b ∈ g.in_ ↔ ∃ a, b ∈ g.out.row a :=
    inv.in_lively.mem_iff_mirror inv.out_lively mirror'
  refine ⟨⟨inv.acyclic, inv.endpoints⟩, ⟨inv.mirror, cell, out_keys, in_keys⟩,
    ⟨inv.ids, inv.texts, texts_nodup inv.toTables⟩, inv.increasing, topologicalOrder_perm g, ?_⟩
  intro a p b stored
  obtain ⟨ha, hb, _⟩ := inv.endpoints a p b stored
  exact position_lt_of_rank_lt ha hb (inv.increasing a p b stored)

theorem representation_invariant_crossed :
    crossed.topologicalOrder.idxOf 1 < crossed.topologicalOrder.idxOf 0 :=
  (representation_invariant crossed_reachable).2.2.2.2.2 1 "p" 0 (by decide)

end KnowledgeGraph

end RagEngine
