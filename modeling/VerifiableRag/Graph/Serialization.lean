import VerifiableRag.Graph.PathSearch

/-!
The flat serialization of a graph and its loader. The loader skips the checks of
the mutators and ranks once at the end, yet it accepts exactly the payloads the
mutators could have built, and rebuilds the caches of the graph it came from.
-/
open Relation (TransGen)

namespace RagEngine
open Std (TreeMap TreeSet)
open AcyclicRelation
open Results

namespace KnowledgeGraph

/-- The two arrays `nodes` and `edges`. -/
def serialize (g : KnowledgeGraph) : List Entity × List Relation := (g.entities, g.relations)

/-- The order in which `relations` lists the triples. -/
def FlatOrder (r r' : Relation) : Prop :=
  r.subject < r'.subject ∨ (r.subject = r'.subject ∧
    (r.object < r'.object ∨ (r.object = r'.object ∧ r.predicate < r'.predicate)))

theorem flatOrder_asymm {r r' : Relation} (before : FlatOrder r r') : ¬ FlatOrder r' r := by
  intro after
  rcases before with lt | ⟨eq, lt | ⟨eq', lt⟩⟩ <;> rcases after with gt | ⟨_, gt | ⟨_, gt⟩⟩
  all_goals first | omega | exact lt_asymm lt gt

theorem relations_sorted (g : KnowledgeGraph) : g.relations.Pairwise FlatOrder := by
  rw [relations, List.pairwise_flatMap]
  constructor
  · intro entry _
    rw [List.pairwise_flatMap]
    constructor
    · intro cell _
      rw [List.pairwise_map]
      refine TreeSet.ordered_toList.imp ?_
      intro p q less
      exact Or.inr ⟨rfl, Or.inr ⟨rfl, compare_lt_iff_lt.mp less⟩⟩
    · refine TreeMap.ordered_keys_toList.imp ?_
      intro cell cell' less r hr r' hr'
      obtain ⟨p, _, rfl⟩ := List.mem_map.mp hr
      obtain ⟨p', _, rfl⟩ := List.mem_map.mp hr'
      exact Or.inr ⟨rfl, Or.inl (Nat.compare_eq_lt.mp less)⟩
  · refine TreeMap.ordered_keys_toList.imp ?_
    intro entry entry' less r hr r' hr'
    simp only [List.mem_flatMap, List.mem_map] at hr hr'
    obtain ⟨cell, _, p, _, rfl⟩ := hr
    obtain ⟨cell', _, p', _, rfl⟩ := hr'
    exact Or.inl (Nat.compare_eq_lt.mp less)

theorem relations_nodup (g : KnowledgeGraph) : g.relations.Nodup := by
  refine (relations_sorted g).imp ?_
  intro r r' before same
  exact flatOrder_asymm before (same ▸ before)

/-- Graphs with the same triples list them in the same order. -/
theorem relations_eq {g h : KnowledgeGraph}
    (same : ∀ a p b, g.Stored a p b ↔ h.Stored a p b) : g.relations = h.relations := by
  have perm : g.relations.Perm h.relations := by
    refine (List.perm_ext_iff_of_nodup (relations_nodup g) (relations_nodup h)).mpr ?_
    intro r
    rw [mem_relations, mem_relations, same]
  refine perm.eq_of_pairwise ?_ (relations_sorted g) (relations_sorted h)
  intro r r' _ _ before after
  exact absurd after (flatOrder_asymm before)

/-- When a list of nodes loads after the entities of `g`. -/
structure Listable (g : KnowledgeGraph) (nodes : List Entity) : Prop where
  dense : ∀ i (e : Entity), nodes[i]? = some e → e.id = g.len + i
  symbols : ∀ e ∈ nodes, 1 ≤ e.text.utf8ByteSize ∧ e.text.utf8ByteSize ≤ maxSymbolLen
  distinct : ((g.entities ++ nodes).map Entity.text).Nodup

section Loading
variable {g g' : KnowledgeGraph}

theorem fresh_iff (tables : Tables g) (text : String) :
    g.byText[text]? = none ↔ text ∉ g.entities.map Entity.text := by
  rw [entity_of_text tables]
  simp only [List.mem_map, not_exists, not_and, ne_eq]

theorem listable_nil (tables : Tables g) : g.Listable [] :=
  ⟨by simp, by simp, by simpa using texts_nodup tables⟩

theorem listable_cons (tables : Tables g) (e : Entity) (rest : List Entity) :
    g.Listable (e :: rest) ↔ g.Enters e ∧ (g.pushEntity e.text).Listable rest := by
  have texts : ((g.pushEntity e.text).entities ++ rest).map Entity.text =
      (g.entities ++ e :: rest).map Entity.text := by simp [pushEntity]
  constructor
  · intro listable
    have apart := listable.distinct
    rw [List.map_append, List.nodup_append'] at apart
    refine ⟨⟨listable.dense 0 e rfl, (listable.symbols e List.mem_cons_self).1,
      (listable.symbols e List.mem_cons_self).2, ?_⟩, ?_, ?_, ?_⟩
    · rw [fresh_iff tables]
      exact fun old => apart.2.2 old (by simp)
    · intro i e' found
      have := listable.dense (i + 1) e' found
      rw [len_pushEntity]
      omega
    · exact fun e' member => listable.symbols e' (List.mem_cons_of_mem e member)
    · rw [texts]
      exact listable.distinct
  · intro h
    obtain ⟨enters, listable⟩ := h
    refine ⟨?_, ?_, ?_⟩
    · intro i e' found
      cases i with
      | zero =>
        rw [List.getElem?_cons_zero, Option.some.injEq] at found
        exact found ▸ enters.dense
      | succ i =>
        have := listable.dense i e' found
        rw [len_pushEntity] at this
        omega
    · intro e' member
      rcases List.mem_cons.mp member with rfl | later
      · exact ⟨enters.nonempty, enters.short⟩
      · exact listable.symbols e' later
    · rw [← texts]
      exact listable.distinct

theorem loadNodes_iff (nodes : List Entity) (tables : Tables g) :
    loadNodes g.len nodes g = .ok g' ↔
      g.Listable nodes ∧ g' = nodes.foldl (fun g e => g.pushEntity e.text) g := by
  induction nodes generalizing g with
  | nil =>
    simp only [loadNodes, Except.ok.injEq, listable_nil tables, true_and, List.foldl_nil]
    exact eq_comm
  | cons e rest ih =>
    rw [listable_cons tables, List.foldl_cons]
    constructor
    · intro loaded
      obtain ⟨middle, head, tail⟩ := except_bind_ok.mp loaded
      obtain ⟨enters, rfl⟩ := loadNode_iff.mp head
      rw [← len_pushEntity, ih (enters.tables tables)] at tail
      exact ⟨⟨enters, tail.1⟩, tail.2⟩
    · intro h
      obtain ⟨⟨enters, listable⟩, same⟩ := h
      refine except_bind_ok.mpr ⟨_, loadNode_iff.mpr ⟨enters, rfl⟩, ?_⟩
      rw [← len_pushEntity, ih (enters.tables tables)]
      exact ⟨listable, same⟩

/-- Loading nodes appends them and touches no edge. -/
theorem pushAll_frame (nodes : List Entity) (dense : ∀ i (e : Entity), nodes[i]? = some e →
    e.id = g.len + i) :
    (nodes.foldl (fun g e => g.pushEntity e.text) g).entities = g.entities ++ nodes ∧
      (nodes.foldl (fun g e => g.pushEntity e.text) g).out = g.out := by
  induction nodes generalizing g with
  | nil => simp
  | cons e rest ih =>
    have next : ∀ i (e' : Entity), rest[i]? = some e' → e'.id = (g.pushEntity e.text).len + i := by
      intro i e' found
      have := dense (i + 1) e' found
      rw [len_pushEntity]
      omega
    obtain ⟨entities, out⟩ := ih next
    have head : (⟨g.len, e.text⟩ : Entity) = e := by
      have id : e.id = g.len := dense 0 e rfl
      rw [← id]
    rw [List.foldl_cons, entities, out]
    simp [pushEntity, head]

def insertAll (g : KnowledgeGraph) (edges : List Relation) : KnowledgeGraph :=
  edges.foldl (fun g r => g.insertEdge r.subject r.predicate r.object) g

theorem loadEdges_iff (edges : List Relation) :
    loadEdges edges g = .ok g' ↔ (∀ r ∈ edges, Joins g.len r) ∧ g' = g.insertAll edges := by
  induction edges generalizing g with
  | nil =>
    simp only [loadEdges, Except.ok.injEq, List.not_mem_nil, false_implies, implies_true, true_and,
      insertAll, List.foldl_nil]
    exact eq_comm
  | cons r rest ih =>
    rw [List.forall_mem_cons]
    constructor
    · intro loaded
      obtain ⟨middle, head, tail⟩ := except_bind_ok.mp loaded
      obtain ⟨joins, rfl⟩ := loadEdge_iff.mp head
      obtain ⟨others, same⟩ := ih.mp tail
      exact ⟨⟨joins, others⟩, same⟩
    · intro h
      obtain ⟨⟨joins, others⟩, same⟩ := h
      exact except_bind_ok.mpr ⟨_, loadEdge_iff.mpr ⟨joins, rfl⟩, ih.mpr ⟨others, same⟩⟩

theorem insertAll_entities (g : KnowledgeGraph) (edges : List Relation) :
    (g.insertAll edges).entities = g.entities := by
  induction edges generalizing g with
  | nil => rfl
  | cons r rest ih => exact ih _

theorem stored_insertAll (g : KnowledgeGraph) (edges : List Relation) (a : Nat) (p : String)
    (b : Nat) : (g.insertAll edges).Stored a p b ↔ g.Stored a p b ∨ ⟨a, p, b⟩ ∈ edges := by
  induction edges generalizing g with
  | nil => simp [insertAll]
  | cons r rest ih =>
    obtain ⟨s, q, o⟩ := r
    have step : g.insertAll (⟨s, q, o⟩ :: rest) = (g.insertEdge s q o).insertAll rest := rfl
    rw [step, ih, stored_insertEdge, List.mem_cons, Relation.mk.injEq]
    tauto

end Loading

/-- What the two loading loops ask of a payload. -/
structure Shaped (nodes : List Entity) (edges : List Relation) : Prop where
  dense : ∀ i (e : Entity), nodes[i]? = some e → e.id = i
  distinct : (nodes.map Entity.text).Nodup
  symbols : ∀ e ∈ nodes, 1 ≤ e.text.utf8ByteSize ∧ e.text.utf8ByteSize ≤ 512
  endpoints : ∀ r ∈ edges,
    r.subject < nodes.length ∧ r.object < nodes.length ∧ r.subject ≠ r.object
  labels : ∀ r ∈ edges, 1 ≤ r.predicate.utf8ByteSize ∧ r.predicate.utf8ByteSize ≤ 512

/-- The graph of a payload before ranking. -/
def bulk (nodes : List Entity) (edges : List Relation) : KnowledgeGraph :=
  (nodes.foldl (fun g e => g.pushEntity e.text) new).insertAll edges

section Payloads
variable {nodes : List Entity} {edges : List Relation} {g : KnowledgeGraph}

theorem listable_new : new.Listable nodes ↔ (∀ i (e : Entity), nodes[i]? = some e → e.id = i) ∧
    (∀ e ∈ nodes, 1 ≤ e.text.utf8ByteSize ∧ e.text.utf8ByteSize ≤ 512) ∧
    (nodes.map Entity.text).Nodup := by
  have start : ∀ i, new.len + i = i := Nat.zero_add
  constructor
  · intro listable
    refine ⟨?_, listable.symbols, listable.distinct⟩
    intro i e found
    rw [← start i]
    exact listable.dense i e found
  · intro h
    refine ⟨?_, h.2.1, h.2.2⟩
    intro i e found
    rw [start]
    exact h.1 i e found

theorem pushAll_new (listable : new.Listable nodes) :
    (nodes.foldl (fun g e => g.pushEntity e.text) new).entities = nodes ∧
      (nodes.foldl (fun g e => g.pushEntity e.text) new).out = ∅ :=
  pushAll_frame nodes listable.dense

theorem bulk_iff {heap : KnowledgeGraph} :
    (∃ listed, loadNodes 0 nodes new = .ok listed ∧ loadEdges edges listed = .ok heap) ↔
      Shaped nodes edges ∧ heap = bulk nodes edges := by
  have first (listed : KnowledgeGraph) : loadNodes 0 nodes new = .ok listed ↔
      new.Listable nodes ∧ listed = nodes.foldl (fun g e => g.pushEntity e.text) new :=
    loadNodes_iff nodes tables_new
  have size (listable : new.Listable nodes) :
      (nodes.foldl (fun g e => g.pushEntity e.text) new).len = nodes.length := by
    rw [len, (pushAll_new listable).1]
  constructor
  · intro h
    obtain ⟨listed, nodes_loaded, edges_loaded⟩ := h
    obtain ⟨listable, rfl⟩ := (first listed).mp nodes_loaded
    obtain ⟨joins, rfl⟩ := (loadEdges_iff edges).mp edges_loaded
    obtain ⟨dense, symbols, distinct⟩ := listable_new.mp listable
    rw [size listable] at joins
    refine ⟨⟨dense, distinct, symbols, ?_, ?_⟩, rfl⟩
    · exact fun r member => ⟨(joins r member).subject, (joins r member).object,
        (joins r member).apart⟩
    · exact fun r member => ⟨(joins r member).nonempty, (joins r member).short⟩
  · intro h
    obtain ⟨shaped, rfl⟩ := h
    have listable := listable_new.mpr ⟨shaped.dense, shaped.symbols, shaped.distinct⟩
    refine ⟨_, (first _).mpr ⟨listable, rfl⟩, (loadEdges_iff edges).mpr ⟨?_, rfl⟩⟩
    intro r member
    rw [size listable]
    obtain ⟨subject, object, apart⟩ := shaped.endpoints r member
    obtain ⟨nonempty, short⟩ := shaped.labels r member
    exact ⟨subject, object, apart, nonempty, short⟩

theorem bulk_tables (shaped : Shaped nodes edges) : Tables (bulk nodes edges) := by
  obtain ⟨listed, nodes_loaded, edges_loaded⟩ := bulk_iff.mpr ⟨shaped, rfl⟩
  exact loadEdges_tables edges (loadNodes_tables nodes tables_new nodes_loaded) edges_loaded

theorem bulk_entities (shaped : Shaped nodes edges) : (bulk nodes edges).entities = nodes := by
  have listable := listable_new.mpr ⟨shaped.dense, shaped.symbols, shaped.distinct⟩
  rw [bulk, insertAll_entities, (pushAll_new listable).1]

theorem stored_bulk (shaped : Shaped nodes edges) (a : Nat) (p : String) (b : Nat) :
    (bulk nodes edges).Stored a p b ↔ ⟨a, p, b⟩ ∈ edges := by
  have listable := listable_new.mpr ⟨shaped.dense, shaped.symbols, shaped.distinct⟩
  have none_yet : ¬ (nodes.foldl (fun g e => g.pushEntity e.text) new).Stored a p b := by
    rw [Stored, (pushAll_new listable).2]
    exact Adjacency.stores_not_empty a p b
  rw [bulk, stored_insertAll]
  simp only [none_yet, false_or]

theorem deserialize_iff : deserialize nodes edges = .ok g ↔
    Shaped nodes edges ∧ (bulk nodes edges).rebuildRanks = .ok () g := by
  rw [deserialize_ok]
  constructor
  · intro h
    obtain ⟨listed, heap, nodes_loaded, edges_loaded, ranks⟩ := h
    obtain ⟨shaped, rfl⟩ := bulk_iff.mp ⟨listed, nodes_loaded, edges_loaded⟩
    exact ⟨shaped, ranks⟩
  · intro h
    obtain ⟨shaped, ranks⟩ := h
    obtain ⟨listed, nodes_loaded, edges_loaded⟩ := bulk_iff.mpr ⟨shaped, rfl⟩
    exact ⟨listed, _, nodes_loaded, edges_loaded, ranks⟩

theorem deserialize_shape (loaded : deserialize nodes edges = .ok g) :
    ∃ topo, g = { bulk nodes edges with topo := topo } := by
  obtain ⟨shaped, ranks⟩ := deserialize_iff.mp loaded
  by_cases acyclic : Acyclic (bulk nodes edges).Edge
  · obtain ⟨topo, run, _⟩ := (rebuildRanks_spec (bulk_tables shaped)).1 acyclic
    rw [run, EStateM.Result.ok.injEq] at ranks
    exact ⟨topo, ranks.2.symm⟩
  · rw [(rebuildRanks_spec (bulk_tables shaped)).2 acyclic] at ranks
    simp at ranks

theorem deserialize_contents (loaded : deserialize nodes edges = .ok g) :
    g.entities = nodes ∧ ∀ a p b, g.Stored a p b ↔ ⟨a, p, b⟩ ∈ edges := by
  have shaped := (deserialize_iff.mp loaded).1
  obtain ⟨topo, rfl⟩ := deserialize_shape loaded
  exact ⟨bulk_entities shaped, stored_bulk shaped⟩

/-- The arcs of a list of triples. -/
def Joined (edges : List Relation) (a b : Nat) : Prop := ∃ p, ⟨a, p, b⟩ ∈ edges

/-- A payload loads exactly when it is shaped and its arcs have no cycle. -/
theorem deserialize_accepts :
    (∃ g, deserialize nodes edges = .ok g) ↔ Shaped nodes edges ∧ Acyclic (Joined edges) := by
  have arcs (shaped : Shaped nodes edges) : (bulk nodes edges).Edge = Joined edges := by
    funext a b
    simp only [Edge, Joined, stored_bulk shaped]
  constructor
  · intro h
    obtain ⟨g, loaded⟩ := h
    have shaped := (deserialize_iff.mp loaded).1
    refine ⟨shaped, ?_⟩
    have acyclic := (deserialize_consistent loaded).acyclic
    obtain ⟨topo, rfl⟩ := deserialize_shape loaded
    exact arcs shaped ▸ acyclic
  · intro h
    obtain ⟨shaped, acyclic⟩ := h
    rw [← arcs shaped] at acyclic
    obtain ⟨topo, run, _⟩ := (rebuildRanks_spec (bulk_tables shaped)).1 acyclic
    exact ⟨_, deserialize_iff.mpr ⟨shaped, run⟩⟩

end Payloads

section RoundTrip
variable {g h : KnowledgeGraph}

theorem shaped_serialize (tables : Tables g) : Shaped g.entities g.relations where
  dense := tables.ids
  distinct := texts_nodup tables
  symbols := tables.symbols
  endpoints := fun r member => tables.endpoints _ _ _ ((mem_relations g r).mp member)
  labels := fun r member => tables.labels _ _ _ ((mem_relations g r).mp member)

theorem joined_relations (g : KnowledgeGraph) : Joined g.relations = g.Edge := by
  funext a b
  simp only [Joined, Edge, mem_relations]

/-- Two adjacency maps with the same keys at both levels and the same label sets. -/
def SameMap (m m' : Adjacency) : Prop :=
  (∀ a, a ∈ m ↔ a ∈ m') ∧ (∀ a b, b ∈ m.row a ↔ b ∈ m'.row a) ∧
    ∀ a p b, m.Stores a p b ↔ m'.Stores a p b

theorem same_map {m m' : Adjacency} (lively : m.Lively) (lively' : m'.Lively)
    (same : ∀ a p b, m.Stores a p b ↔ m'.Stores a p b) : SameMap m m' := by
  have cells : ∀ a b, b ∈ m.row a ↔ b ∈ m'.row a := by
    intro a b
    constructor
    · intro cell
      obtain ⟨p, stored⟩ := lively.cells a b cell
      exact (m'.mem_row ((same a p b).mp stored)).2
    · intro cell
      obtain ⟨p, stored⟩ := lively'.cells a b cell
      exact (m.mem_row ((same a p b).mpr stored)).2
  refine ⟨?_, cells, same⟩
  intro a
  constructor
  · intro key
    obtain ⟨b, cell⟩ := lively.rows a key
    obtain ⟨p, stored⟩ := lively.cells a b cell
    exact (m'.mem_row ((same a p b).mp stored)).1
  · intro key
    obtain ⟨b, cell⟩ := lively'.rows a key
    obtain ⟨p, stored⟩ := lively'.cells a b cell
    exact (m.mem_row ((same a p b).mpr stored)).1

/-- Equal graphs agree on every cache but the ranks. -/
theorem caches_congr (hg : Tables g) (hh : Tables h) (same : (g == h) = true) :
    SameMap g.out h.out ∧ SameMap g.in_ h.in_ ∧ ∀ t : String, g.byText[t]? = h.byText[t]? := by
  obtain ⟨entities, relations⟩ := beq_iff.mp same
  refine ⟨same_map hg.out_lively hh.out_lively (stored_congr relations),
    same_map hg.in_lively hh.in_lively ?_, ?_⟩
  · intro b p a
    rw [← hg.mirror, ← hh.mirror]
    exact stored_congr relations a p b
  · intro t
    refine Option.ext fun i => ?_
    rw [hg.texts, hh.texts, entities]

theorem round_trip (consistent : Consistent g) :
    ∃ h, deserialize g.serialize.1 g.serialize.2 = .ok h ∧ (g == h) = true := by
  have acyclic : Acyclic (Joined g.relations) := joined_relations g ▸ consistent.acyclic
  obtain ⟨h, loaded⟩ :=
    deserialize_accepts.mpr ⟨shaped_serialize consistent.toTables, acyclic⟩
  obtain ⟨entities, stored⟩ := deserialize_contents loaded
  refine ⟨h, loaded, beq_iff.mpr ⟨entities.symm, relations_eq fun a p b => ?_⟩⟩
  rw [stored, mem_relations]

end RoundTrip

/-- A payload is accepted exactly when it describes a bounded acyclic graph with
    dense ids; its duplicate edges collapse, and every reachable graph comes back
    from its own serialization with all caches rebuilt. -/
theorem serialization_exact :
    (∀ nodes edges, (∃ g, deserialize nodes edges = .ok g) ↔
      (∀ i (e : Entity), nodes[i]? = some e → e.id = i) ∧
      ((nodes.map Entity.text).Nodup ∧
        ∀ e ∈ nodes, e.text ≠ "" ∧ e.text.utf8ByteSize ≤ 512) ∧
      (∀ r ∈ edges, r.subject < nodes.length ∧ r.object < nodes.length ∧
        r.subject ≠ r.object ∧ 1 ≤ r.predicate.utf8ByteSize ∧ r.predicate.utf8ByteSize ≤ 512) ∧
      ∀ v, ¬ TransGen (fun a b => ∃ p, ⟨a, p, b⟩ ∈ edges) v v) ∧
    (∀ nodes edges g, deserialize nodes edges = .ok g →
      g.entities = nodes ∧ (∀ r, r ∈ g.relations ↔ r ∈ edges) ∧ g.relations.Nodup) ∧
    (∀ g, Reachable g → ∃ h, deserialize g.serialize.1 g.serialize.2 = .ok h ∧ (g == h) = true ∧
      SameMap g.out h.out ∧ SameMap g.in_ h.in_ ∧ (∀ t : String, g.byText[t]? = h.byText[t]?) ∧
      h.topo.length = h.len ∧ ∀ a p b, h.Stored a p b → h.rank a < h.rank b) := by
  refine ⟨?_, ?_, ?_⟩
  · intro nodes edges
    rw [deserialize_accepts]
    have nonempty : ∀ t : String, 1 ≤ t.utf8ByteSize ↔ t ≠ "" := by
      intro t
      rw [Nat.one_le_iff_ne_zero, ne_eq, String.utf8ByteSize_eq_zero_iff]
    constructor
    · intro h
      obtain ⟨shaped, acyclic⟩ := h
      refine ⟨shaped.dense, ⟨shaped.distinct, ?_⟩, ?_, acyclic⟩
      · intro e member
        exact ⟨(nonempty e.text).mp (shaped.symbols e member).1, (shaped.symbols e member).2⟩
      · intro r member
        obtain ⟨subject, object, apart⟩ := shaped.endpoints r member
        exact ⟨subject, object, apart, shaped.labels r member⟩
    · intro h
      obtain ⟨dense, ⟨distinct, symbols⟩, ends, acyclic⟩ := h
      refine ⟨⟨dense, distinct, ?_, ?_, fun r member => (ends r member).2.2.2⟩, acyclic⟩
      · intro e member
        exact ⟨(nonempty e.text).mpr (symbols e member).1, (symbols e member).2⟩
      · intro r member
        obtain ⟨subject, object, apart, _⟩ := ends r member
        exact ⟨subject, object, apart⟩
  · intro nodes edges g loaded
    obtain ⟨entities, stored⟩ := deserialize_contents loaded
    refine ⟨entities, ?_, relations_nodup g⟩
    intro r
    rw [mem_relations, stored]
  · intro g history
    have consistent := reachable_consistent history
    obtain ⟨h, loaded, same⟩ := round_trip consistent
    have rebuilt := deserialize_consistent loaded
    obtain ⟨out, in_, index⟩ := caches_congr consistent.toTables rebuilt.toTables same
    exact ⟨h, loaded, same, out, in_, index, rebuilt.ranks, rebuilt.increasing⟩

theorem serialization_exact_crossed :
    ∃ h, deserialize crossed.serialize.1 crossed.serialize.2 = .ok h ∧ (crossed == h) = true := by
  obtain ⟨h, loaded, same, _⟩ := serialization_exact.2.2 crossed crossed_reachable
  exact ⟨h, loaded, same⟩

end KnowledgeGraph
end RagEngine
