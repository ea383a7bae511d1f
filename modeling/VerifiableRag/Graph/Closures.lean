import VerifiableRag.Graph.PathSearch

/-!
The two traversals of the knowledge graph: everything that an entity reaches, and everything
that reaches it.
-/
open Relation (TransGen ReflTransGen)

namespace RagEngine
open Std (TreeMap TreeSet)
open AcyclicRelation BreadthFirst

namespace KnowledgeGraph

/-- `subs.keys()` of the incoming row. -/
def sources (g : KnowledgeGraph) (v : Nat) : List Nat := (g.in_.row v).keys

def reachableFrom (g : KnowledgeGraph) (id : Nat) : List Nat :=
  if id ≥ g.entities.length then [] else discovered g.targets g.len id

def ancestorsOf (g : KnowledgeGraph) (id : Nat) : List Nat :=
  if id ≥ g.entities.length then [] else discovered g.sources g.len id

section Sources
variable {g h : KnowledgeGraph}

theorem mem_sources (tables : Tables g) (a b : Nat) : a ∈ g.sources b ↔ g.Edge a b := by
  rw [sources, TreeMap.mem_keys]
  constructor
  · intro cell
    obtain ⟨p, stored⟩ := tables.in_lively.cells b a cell
    exact ⟨p, (tables.mirror a p b).mpr stored⟩
  · intro edge
    obtain ⟨p, stored⟩ := edge
    exact (g.in_.mem_row ((tables.mirror a p b).mp stored)).2

theorem sources_bound (tables : Tables g) : ∀ b < g.len, ∀ s ∈ g.sources b, s < g.len := by
  intro b _ s member
  obtain ⟨p, stored⟩ := (mem_sources tables s b).mp member
  exact (tables.endpoints s p b stored).1

theorem step_sources (tables : Tables g) : Step g.sources = fun b a => g.Edge a b := by
  funext b a
  exact propext (mem_sources tables a b)

/-- Rows with the same keys list them in the same order. -/
theorem keys_eq {β : Type} {m m' : TreeMap Nat β} (same : ∀ k, k ∈ m ↔ k ∈ m') :
    m.keys = m'.keys := by
  have ascending (m : TreeMap Nat β) : m.keys.Pairwise (· < ·) := by
    have ordered := m.ordered_keys
    simp only [Nat.compare_eq_lt] at ordered
    exact ordered
  have perm : m.keys.Perm m'.keys := by
    rw [List.perm_ext_iff_of_nodup (keys_nodup m) (keys_nodup m')]
    intro k
    rw [TreeMap.mem_keys, TreeMap.mem_keys, same]
  apply List.Perm.eq_of_pairwise _ (ascending m) (ascending m') perm
  intro a b _ _ before behind
  exact absurd before (Nat.lt_asymm behind)

theorem edge_congr (same : g.relations = h.relations) (a b : Nat) : g.Edge a b ↔ h.Edge a b := by
  simp only [Edge, stored_congr same]

theorem targets_congr (hg : Tables g) (hh : Tables h) (same : g.relations = h.relations) :
    g.targets = h.targets := by
  funext v
  apply keys_eq
  intro o
  rw [← TreeMap.mem_keys, ← targets, mem_targets hg, edge_congr same, ← mem_targets hh, targets,
    TreeMap.mem_keys]

theorem sources_congr (hg : Tables g) (hh : Tables h) (same : g.relations = h.relations) :
    g.sources = h.sources := by
  funext v
  apply keys_eq
  intro s
  rw [← TreeMap.mem_keys, ← sources, mem_sources hg, edge_congr same, ← mem_sources hh, sources,
    TreeMap.mem_keys]

end Sources

section Closures
variable {g : KnowledgeGraph}

/-- A path over edges starts and ends at entities. -/
theorem path_endpoints (tables : Tables g) {a b : Nat} (path : TransGen g.Edge a b) :
    a < g.len ∧ b < g.len := by
  obtain ⟨_, ⟨p, first⟩, _⟩ := TransGen.head'_iff.mp path
  obtain ⟨_, _, ⟨q, last⟩⟩ := TransGen.tail'_iff.mp path
  exact ⟨(tables.endpoints _ _ _ first).1, (tables.endpoints _ _ _ last).2.1⟩

theorem mem_reachableFrom (tables : Tables g) (id v : Nat) :
    v ∈ g.reachableFrom id ↔ v ≠ id ∧ TransGen g.Edge id v := by
  rw [reachableFrom]
  split
  · rename_i unknown
    refine iff_of_false List.not_mem_nil ?_
    intro h
    exact absurd (path_endpoints tables h.2).1 (Nat.not_lt.mpr unknown)
  · rename_i known
    rw [mem_discovered (targets_bound tables) (Nat.lt_of_not_le known), step_targets tables]

theorem mem_ancestorsOf (tables : Tables g) (id v : Nat) :
    v ∈ g.ancestorsOf id ↔ v ≠ id ∧ TransGen g.Edge v id := by
  rw [ancestorsOf]
  split
  · rename_i unknown
    refine iff_of_false List.not_mem_nil ?_
    intro h
    exact absurd (path_endpoints tables h.2).2 (Nat.not_lt.mpr unknown)
  · rename_i known
    have backwards : (fun b a => g.Edge a b) = Function.swap g.Edge := rfl
    rw [mem_discovered (sources_bound tables) (Nat.lt_of_not_le known), step_sources tables,
      backwards, Relation.transGen_swap]

theorem reachableFrom_nodup (tables : Tables g) (id : Nat) : (g.reachableFrom id).Nodup := by
  rw [reachableFrom]
  split
  · exact List.nodup_nil
  · rename_i known
    exact discovered_nodup (targets_bound tables) (Nat.lt_of_not_le known)

theorem ancestorsOf_nodup (tables : Tables g) (id : Nat) : (g.ancestorsOf id).Nodup := by
  rw [ancestorsOf]
  split
  · exact List.nodup_nil
  · rename_i known
    exact discovered_nodup (sources_bound tables) (Nat.lt_of_not_le known)

theorem traversals_congr {h : KnowledgeGraph} (hg : Tables g) (hh : Tables h)
    (same : (g == h) = true) (id : Nat) :
    h.reachableFrom id = g.reachableFrom id ∧ h.ancestorsOf id = g.ancestorsOf id := by
  obtain ⟨entities, relations⟩ := beq_iff.mp same
  have targets := targets_congr hg hh relations
  have sources := sources_congr hg hh relations
  simp only [reachableFrom, ancestorsOf, len, entities, targets, sources, and_self]

end Closures

/-- Both traversals of a graph with any history are exact transitive closures, dual to each
    other and the same for equal graphs. -/
theorem traversals_exact {g : KnowledgeGraph} (history : Reachable g) (id : Nat) :
    ((∀ v, v ∈ g.reachableFrom id ↔ v ≠ id ∧ TransGen g.Edge id v) ∧ (g.reachableFrom id).Nodup) ∧
    ((∀ v, v ∈ g.ancestorsOf id ↔ v ≠ id ∧ TransGen g.Edge v id) ∧ (g.ancestorsOf id).Nodup) ∧
    (∀ v, v ∈ g.reachableFrom id ↔ id ∈ g.ancestorsOf v) ∧
    (g.len ≤ id → g.reachableFrom id = [] ∧ g.ancestorsOf id = []) ∧
    ∀ h, Reachable h → (g == h) = true →
      h.reachableFrom id = g.reachableFrom id ∧ h.ancestorsOf id = g.ancestorsOf id := by
  have tables := (reachable_consistent history).toTables
  refine ⟨⟨mem_reachableFrom tables id, reachableFrom_nodup tables id⟩,
    ⟨mem_ancestorsOf tables id, ancestorsOf_nodup tables id⟩, ?_, ?_, ?_⟩
  · intro v
    rw [mem_reachableFrom tables, mem_ancestorsOf tables, ne_comm]
  · intro unknown
    exact ⟨if_pos unknown, if_pos unknown⟩
  · intro h history' same
    exact traversals_congr tables (reachable_consistent history').toTables same id

theorem traversals_exact_crossed : 0 ∈ crossed.reachableFrom 1 ∧ 1 ∈ crossed.ancestorsOf 0 := by
  obtain ⟨⟨reaches, _⟩, _, dual, _⟩ := traversals_exact crossed_reachable 1
  have reached : 0 ∈ crossed.reachableFrom 1 :=
    (reaches 0).mpr ⟨by decide, .single ⟨"p", by decide⟩⟩
  exact ⟨reached, (dual 0).mp reached⟩

end KnowledgeGraph

end RagEngine
