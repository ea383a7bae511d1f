import VerifiableRag.Graph.KnowledgeGraph

/-!
What the caches of the knowledge graph represent. `Tables` collects everything
but the rank order; the bulk loader establishes it before ranks exist.
`Consistent` adds the rank order, which is what the fast path relies on.
-/
open Relation (TransGen ReflTransGen)

namespace RagEngine
open Std (TreeMap TreeSet)
open AcyclicRelation

namespace Adjacency

def Stores (m : Adjacency) (a : Nat) (p : String) (b : Nat) : Prop := p ∈ m.preds a b

instance (m : Adjacency) (a : Nat) (p : String) (b : Nat) : Decidable (m.Stores a p b) :=
  inferInstanceAs (Decidable (p ∈ m.preds a b))

structure Lively (m : Adjacency) : Prop where
  rows : ∀ a ∈ m, ∃ b, b ∈ m.row a
  cells : ∀ a b, b ∈ m.row a → ∃ p, m.Stores a p b

theorem row_insertTriple (m : Adjacency) (a : Nat) (p : String) (b x : Nat) :
    (m.insertTriple a p b).row x =
      if x = a then (m.row a).insert b ((m.preds a b).insert p) else m.row x := by
  simp only [row, insertTriple, TreeMap.getD_insert, Nat.compare_eq_eq, @eq_comm _ a x]

theorem preds_insertTriple (m : Adjacency) (a : Nat) (p : String) (b x y : Nat) :
    (m.insertTriple a p b).preds x y =
      if x = a ∧ y = b then (m.preds a b).insert p else m.preds x y := by
  rw [preds, row_insertTriple]
  by_cases hx : x = a
  · subst x
    simp only [↓reduceIte, TreeMap.getD_insert, Nat.compare_eq_eq, @eq_comm _ b y, true_and]
    rfl
  · simp [hx, preds]

theorem stores_insertTriple (m : Adjacency) (a : Nat) (p : String) (b : Nat)
    (x : Nat) (q : String) (y : Nat) :
    (m.insertTriple a p b).Stores x q y ↔ m.Stores x q y ∨ (x = a ∧ q = p ∧ y = b) := by
  rw [Stores, preds_insertTriple]
  split
  · rename_i same
    obtain ⟨rfl, rfl⟩ := same
    rw [TreeSet.mem_insert, Std.LawfulEqCmp.compare_eq_iff_eq, Stores, @eq_comm _ p q]
    tauto
  · rename_i other
    rw [Stores]
    tauto

theorem stores_not_empty (a : Nat) (p : String) (b : Nat) :
    ¬ (∅ : Adjacency).Stores a p b := by
  simp [Stores, preds, row]

theorem mem_row (m : Adjacency) {a : Nat} {p : String} {b : Nat} (h : m.Stores a p b) :
    a ∈ m ∧ b ∈ m.row a := by
  have cell : b ∈ m.row a := by
    by_contra missing
    rw [Stores, preds, TreeMap.getD_eq_fallback missing] at h
    simp at h
  refine ⟨?_, cell⟩
  by_contra missing
  rw [row, TreeMap.getD_eq_fallback missing] at cell
  simp at cell

theorem Lively.mem_row_mirror {m m' : Adjacency} (lively : Lively m)
    (mirror : ∀ a p b, m.Stores a p b ↔ m'.Stores b p a) {a b : Nat} (cell : b ∈ m.row a) :
    a ∈ m'.row b := by
  obtain ⟨p, stored⟩ := lively.cells a b cell
  exact (m'.mem_row ((mirror a p b).mp stored)).2

theorem Lively.mem_iff_mirror {m m' : Adjacency} (lively : Lively m) (lively' : Lively m')
    (mirror : ∀ a p b, m.Stores a p b ↔ m'.Stores b p a) (a : Nat) :
    a ∈ m ↔ ∃ b, a ∈ m'.row b := by
  constructor
  · intro key
    obtain ⟨b, cell⟩ := lively.rows a key
    exact ⟨b, lively.mem_row_mirror mirror cell⟩
  · intro h
    obtain ⟨b, cell⟩ := h
    obtain ⟨p, stored⟩ := lively'.cells b a cell
    exact (m.mem_row ((mirror a p b).mpr stored)).1

theorem lively_empty : Lively ∅ where
  rows := by simp
  cells := by simp [row]

theorem lively_insertTriple {m : Adjacency} (lively : m.Lively) (a : Nat) (p : String)
    (b : Nat) : (m.insertTriple a p b).Lively where
  rows := by
    intro x hx
    rw [insertTriple, TreeMap.mem_insert, Nat.compare_eq_eq] at hx
    by_cases same : x = a
    · subst x
      exact ⟨b, by rw [row_insertTriple, if_pos rfl]; simp⟩
    · obtain ⟨y, hy⟩ := lively.rows x (hx.resolve_left (Ne.symm same))
      exact ⟨y, by rwa [row_insertTriple, if_neg same]⟩
  cells := by
    intro x y hy
    by_cases here : x = a ∧ y = b
    · exact ⟨p, (stores_insertTriple ..).mpr (Or.inr ⟨here.1, rfl, here.2⟩)⟩
    · have old : y ∈ m.row x := by
        rw [row_insertTriple] at hy
        split at hy
        · rename_i same
          subst x
          rw [TreeMap.mem_insert, Nat.compare_eq_eq] at hy
          exact hy.resolve_left fun eq => here ⟨rfl, eq.symm⟩
        · exact hy
      obtain ⟨q, hq⟩ := lively.cells x y old
      exact ⟨q, (stores_insertTriple ..).mpr (Or.inl hq)⟩

end Adjacency

namespace KnowledgeGraph

def Stored (g : KnowledgeGraph) (a : Nat) (p : String) (b : Nat) : Prop := g.out.Stores a p b

instance (g : KnowledgeGraph) (a : Nat) (p : String) (b : Nat) : Decidable (g.Stored a p b) :=
  inferInstanceAs (Decidable (g.out.Stores a p b))

def Edge (g : KnowledgeGraph) (a b : Nat) : Prop := ∃ p, g.Stored a p b

theorem hasRelation_iff (g : KnowledgeGraph) (a : Nat) (p : String) (b : Nat) :
    g.hasRelation a p b = true ↔ g.Stored a p b := by
  simp only [hasRelation, Stored, Adjacency.Stores, Adjacency.preds, Adjacency.row,
    TreeMap.getD_eq_getD_getElem?]
  cases g.out[a]? with
  | none => simp
  | some objs =>
    simp only [Option.bind_some, Option.getD_some]
    cases objs[b]? with
    | none => simp
    | some preds => simp

theorem mem_liveTargets (m : Adjacency) (a b : Nat) :
    b ∈ liveTargets (m.row a) ↔ ∃ p, m.Stores a p b := by
  simp only [liveTargets, List.mem_map, List.mem_filter, Prod.exists, exists_and_right,
    exists_eq_right, TreeMap.mem_toList_iff_getElem?_eq_some, Adjacency.Stores, Adjacency.preds,
    TreeMap.getD_eq_getD_getElem?]
  constructor
  · rintro ⟨preds, found, inhabited⟩
    rw [found]
    simpa [TreeSet.isEmpty_eq_false_iff_exists_mem] using inhabited
  · rintro ⟨p, hp⟩
    cases found : (m.row a)[b]? with
    | none => simp [found] at hp
    | some preds =>
      refine ⟨preds, rfl, ?_⟩
      rw [found] at hp
      simpa [TreeSet.isEmpty_eq_false_iff_exists_mem] using ⟨p, hp⟩

theorem filtered_keys_nodup {β : Type} (m : TreeMap Nat β) (keep : Nat × β → Bool) :
    ((m.toList.filter keep).map Prod.fst).Nodup := by
  have distinct := m.distinct_keys_toList
  simp only [Nat.compare_eq_eq] at distinct
  rw [List.Nodup, List.pairwise_map]
  exact distinct.filter _

theorem liveTargets_nodup (objs : TreeMap Nat (TreeSet String)) :
    (liveTargets objs).Nodup := filtered_keys_nodup objs _

theorem keys_nodup {β : Type} (m : TreeMap Nat β) : m.keys.Nodup := by
  have distinct := m.distinct_keys
  simp only [Nat.compare_eq_eq] at distinct
  exact distinct

theorem listed_rows (m : Adjacency) (f : TreeMap Nat (TreeSet String) → List Nat) :
    m.toList.map (fun entry => f entry.2) = m.keys.map fun v => f (m.row v) := by
  rw [← TreeMap.map_fst_toList_eq_keys, List.map_map]
  refine List.map_congr_left ?_
  intro entry member
  have found := TreeMap.mem_toList_iff_getElem?_eq_some.mp member
  simp only [Function.comp_apply, Adjacency.row, TreeMap.getD_eq_getD_getElem?, found,
    Option.getD_some]

/-- Everything the caches promise, the rank order apart. -/
structure Tables (g : KnowledgeGraph) : Prop where
  ids : ∀ i (e : Entity), g.entities[i]? = some e → e.id = i
  texts : ∀ t i, g.byText[t]? = some i ↔ g.entities[i]?.map Entity.text = some t
  symbols : ∀ e ∈ g.entities, 1 ≤ e.text.utf8ByteSize ∧ e.text.utf8ByteSize ≤ maxSymbolLen
  labels : ∀ a p b, g.Stored a p b → 1 ≤ p.utf8ByteSize ∧ p.utf8ByteSize ≤ maxSymbolLen
  endpoints : ∀ a p b, g.Stored a p b → a < g.len ∧ b < g.len ∧ a ≠ b
  mirror : ∀ a p b, g.out.Stores a p b ↔ g.in_.Stores b p a
  out_lively : g.out.Lively
  in_lively : g.in_.Lively
  ranks : g.topo.length = g.len

structure Consistent (g : KnowledgeGraph) : Prop extends Tables g where
  increasing : ∀ a p b, g.Stored a p b → g.rank a < g.rank b

theorem Consistent.acyclic {g : KnowledgeGraph} (inv : Consistent g) : Acyclic g.Edge :=
  ranked_acyclic fun a b ⟨p, stored⟩ => inv.increasing a p b stored

theorem isEmpty_iff (s : String) : s.isEmpty = true ↔ s.utf8ByteSize = 0 := by
  simp [String.isEmpty]

section Entities
variable {g : KnowledgeGraph}

theorem tables_new : Tables new where
  ids := by simp [new]
  texts := by simp [new]
  symbols := by simp [new]
  labels := fun a p b h => absurd h (Adjacency.stores_not_empty a p b)
  endpoints := fun a p b h => absurd h (Adjacency.stores_not_empty a p b)
  mirror := fun a p b => iff_of_false (Adjacency.stores_not_empty a p b)
    (Adjacency.stores_not_empty b p a)
  out_lively := Adjacency.lively_empty
  in_lively := Adjacency.lively_empty
  ranks := rfl

theorem consistent_new : Consistent new where
  toTables := tables_new
  increasing := fun a p b h => absurd h (Adjacency.stores_not_empty a p b)

def pushEntity (g : KnowledgeGraph) (text : String) : KnowledgeGraph :=
  { g with
    entities := g.entities ++ [⟨g.len, text⟩]
    byText := g.byText.insert text g.len
    topo := g.topo ++ [0] }

theorem tables_pushEntity (tables : Tables g) {text : String} (fresh : g.byText[text]? = none)
    (nonempty : 1 ≤ text.utf8ByteSize) (short : text.utf8ByteSize ≤ maxSymbolLen) :
    Tables (g.pushEntity text) where
  ids := by
    intro i e found
    rcases lt_trichotomy i g.entities.length with lt | rfl | gt
    · rw [pushEntity, List.getElem?_append_left lt] at found
      exact tables.ids i e found
    · simp only [pushEntity, List.getElem?_concat_length, Option.some.injEq] at found
      subst e
      rfl
    · simp [pushEntity, List.getElem?_eq_none (show (g.entities ++ [_]).length ≤ i by simp; omega)]
        at found
  texts := by
    intro t i
    simp only [pushEntity, TreeMap.getElem?_insert, Std.LawfulEqCmp.compare_eq_iff_eq]
    rcases lt_trichotomy i g.entities.length with lt | rfl | gt
    · rw [List.getElem?_append_left lt, ← tables.texts t i]
      split
      · rename_i same
        subst t
        simp only [fresh, Option.some.injEq, reduceCtorEq, iff_false, len]
        omega
      · rfl
    · simp only [List.getElem?_concat_length, Option.map_some, Option.some.injEq]
      split
      · rename_i same
        simp [same, len]
      · rename_i other
        have absent : g.byText[t]? ≠ some g.entities.length := by
          rw [ne_eq, tables.texts]
          simp
        simp [absent, other]
    · have none_at : (g.entities ++ [(⟨g.len, text⟩ : Entity)])[i]? = none :=
        List.getElem?_eq_none (by simp; omega)
      have absent : g.byText[t]? ≠ some i := by
        rw [ne_eq, tables.texts, List.getElem?_eq_none (by omega)]
        simp
      have apart : g.len ≠ i := by simp only [len]; omega
      rw [none_at]
      split <;> simp [absent, apart]
  symbols := by
    intro e member
    rcases List.mem_append.mp member with old | new
    · exact tables.symbols e old
    · rw [List.mem_singleton.mp new]
      exact ⟨nonempty, short⟩
  labels := tables.labels
  endpoints := by
    intro a p b stored
    obtain ⟨ha, hb, apart⟩ := tables.endpoints a p b stored
    simp only [len, pushEntity, List.length_append, List.length_singleton] at ha hb ⊢
    exact ⟨by omega, by omega, apart⟩
  mirror := tables.mirror
  out_lively := tables.out_lively
  in_lively := tables.in_lively
  ranks := by
    have := tables.ranks
    simp only [len, pushEntity, List.length_append, List.length_singleton] at this ⊢
    omega

theorem rank_pushEntity (tables : Tables g) (text : String) {a : Nat} (old : a < g.len) :
    (g.pushEntity text).rank a = g.rank a := by
  simp only [rank, pushEntity]
  rw [List.getElem?_append_left (by rw [tables.ranks]; exact old)]

theorem consistent_pushEntity (inv : Consistent g) {text : String}
    (fresh : g.byText[text]? = none) (nonempty : 1 ≤ text.utf8ByteSize)
    (short : text.utf8ByteSize ≤ maxSymbolLen) : Consistent (g.pushEntity text) where
  toTables := tables_pushEntity inv.toTables fresh nonempty short
  increasing := by
    intro a p b stored
    obtain ⟨ha, hb, _⟩ := inv.endpoints a p b stored
    rw [rank_pushEntity inv.toTables text ha, rank_pushEntity inv.toTables text hb]
    exact inv.increasing a p b stored

end Entities

section Edges
variable {g : KnowledgeGraph} {s o : Nat} {p : String}

theorem stored_insertEdge (g : KnowledgeGraph) (s : Nat) (p : String) (o a : Nat)
    (q : String) (b : Nat) :
    (g.insertEdge s p o).Stored a q b ↔ g.Stored a q b ∨ (a = s ∧ q = p ∧ b = o) :=
  Adjacency.stores_insertTriple ..

theorem edge_insertEdge (g : KnowledgeGraph) (s : Nat) (p : String) (o a b : Nat) :
    (g.insertEdge s p o).Edge a b ↔ g.Edge a b ∨ (a = s ∧ b = o) := by
  simp only [Edge, stored_insertEdge]
  constructor
  · rintro ⟨q, old | ⟨rfl, _, rfl⟩⟩
    · exact Or.inl ⟨q, old⟩
    · exact Or.inr ⟨rfl, rfl⟩
  · rintro (⟨q, old⟩ | ⟨rfl, rfl⟩)
    · exact ⟨q, Or.inl old⟩
    · exact ⟨p, Or.inr ⟨rfl, rfl, rfl⟩⟩

theorem tables_insertEdge (tables : Tables g) (hs : s < g.len) (ho : o < g.len) (apart : s ≠ o)
    (nonempty : 1 ≤ p.utf8ByteSize) (short : p.utf8ByteSize ≤ maxSymbolLen) :
    Tables (g.insertEdge s p o) where
  ids := tables.ids
  texts := tables.texts
  symbols := tables.symbols
  labels := by
    intro a q b stored
    rcases (stored_insertEdge ..).mp stored with old | ⟨_, rfl, _⟩
    · exact tables.labels a q b old
    · exact ⟨nonempty, short⟩
  endpoints := by
    intro a q b stored
    rcases (stored_insertEdge ..).mp stored with old | ⟨rfl, _, rfl⟩
    · exact tables.endpoints a q b old
    · exact ⟨hs, ho, apart⟩
  mirror := by
    intro a q b
    rw [insertEdge, Adjacency.stores_insertTriple, Adjacency.stores_insertTriple, tables.mirror]
    tauto
  out_lively := Adjacency.lively_insertTriple tables.out_lively s p o
  in_lively := Adjacency.lively_insertTriple tables.in_lively o p s
  ranks := tables.ranks

theorem consistent_insertEdge (inv : Consistent g) (hs : s < g.len) (ho : o < g.len)
    (nonempty : 1 ≤ p.utf8ByteSize) (short : p.utf8ByteSize ≤ maxSymbolLen)
    (ranked : g.rank s < g.rank o) : Consistent (g.insertEdge s p o) where
  toTables := tables_insertEdge inv.toTables hs ho (fun eq => Nat.lt_irrefl _ (eq ▸ ranked))
    nonempty short
  increasing := by
    intro a q b stored
    rcases (stored_insertEdge ..).mp stored with old | ⟨rfl, _, rfl⟩
    · exact inv.increasing a q b old
    · exact ranked

end Edges

section Ranks
variable {g : KnowledgeGraph}

theorem kahn_rows (tables : Tables g) :
    KahnRank.Rows (fun v => liveTargets (g.out.row v)) g.len g.out.keys where
  nodup := fun _ => liveTargets_nodup _
  targets := by
    intro a b member
    obtain ⟨p, stored⟩ := (mem_liveTargets g.out a b).mp member
    exact (tables.endpoints a p b stored).2.1
  distinct := keys_nodup g.out
  inside := by
    intro a member
    obtain ⟨b, cell⟩ := tables.out_lively.rows a (TreeMap.mem_keys.mp member)
    obtain ⟨p, stored⟩ := tables.out_lively.cells a b cell
    exact (tables.endpoints a p b stored).1
  listed := by
    intro a nonempty
    obtain ⟨b, member⟩ := List.exists_mem_of_ne_nil _ nonempty
    obtain ⟨p, stored⟩ := (mem_liveTargets g.out a b).mp member
    exact TreeMap.mem_keys.mpr (g.out.mem_row stored).1

theorem kahn_arc_iff (g : KnowledgeGraph) (a b : Nat) :
    KahnRank.Arc (fun v => liveTargets (g.out.row v)) a b ↔ g.Edge a b := mem_liveTargets g.out a b

theorem kahn_acyclic_iff (g : KnowledgeGraph) :
    Acyclic (KahnRank.Arc fun v => liveTargets (g.out.row v)) ↔ Acyclic g.Edge := by
  have same : (KahnRank.Arc fun v => liveTargets (g.out.row v)) = g.Edge := by
    funext a b
    exact propext (kahn_arc_iff g a b)
  rw [same]

/-- Re-ranking succeeds exactly on acyclic edge sets, changes nothing but the
    ranks, and leaves the graph untouched when it fails. -/
theorem rebuildRanks_spec (tables : Tables g) :
    (Acyclic g.Edge → ∃ topo, g.rebuildRanks = .ok () { g with topo := topo } ∧
      Consistent { g with topo := topo }) ∧
    (¬ Acyclic g.Edge → g.rebuildRanks = .error .cyclicPayload g) := by
  have rows := kahn_rows tables
  have places := KahnRank.kahn_places_all_iff rows
  rw [kahn_acyclic_iff] at places
  simp only [rebuildRanks, listed_rows]
  constructor
  · intro acyclic
    have all := places.mpr acyclic
    refine ⟨_, if_neg (not_not.mpr all), ?_⟩
    refine { ids := tables.ids, texts := tables.texts, symbols := tables.symbols,
             labels := tables.labels, endpoints := tables.endpoints, mirror := tables.mirror,
             out_lively := tables.out_lively, in_lively := tables.in_lively,
             ranks := KahnRank.kahn_rank_length rows, increasing := ?_ }
    intro a p b stored
    exact KahnRank.kahn_ranks_increase rows all ((kahn_arc_iff g a b).mpr ⟨p, stored⟩)
  · intro cyclic
    exact if_pos fun all => cyclic (places.mp all)

end Ranks

end KnowledgeGraph

end RagEngine
