import VerifiableRag.Graph.Histories

/-!
`find_path` as an evidence subgraph. The search is a breadth-first traversal over
the edges of one predicate that also collects every matching edge it scans; the
final sorts make the result a function of the stored graph alone.
-/
open Relation (TransGen ReflTransGen)

namespace RagEngine
open Std (TreeMap TreeSet)
open BreadthFirst (Shortest discover)

namespace KnowledgeGraph

def matching (predicate : String) (row : List (Nat × TreeSet String)) : List Nat :=
  (row.filter fun cell => cell.2.contains predicate).map Prod.fst

def followers (g : KnowledgeGraph) (predicate : String) (v : Nat) : List Nat :=
  matching predicate (g.out.row v).toList

def matchedEdges (g : KnowledgeGraph) (predicate : String) (entry : Nat × Nat) :
    List (Relation × Nat) :=
  (g.followers predicate entry.1).map fun o => (⟨entry.1, predicate, o⟩, entry.2)

theorem scanRow_eq (predicate : String) (v depth : Nat) (row : List (Nat × TreeSet String))
    (st : Search) :
    scanRow predicate v depth row st =
      { visited := (discover (matching predicate row) st.visited).1
        queue := st.queue ++ (discover (matching predicate row) st.visited).2.map (·, depth + 1)
        edges := st.edges ++ (matching predicate row).map fun o => (⟨v, predicate, o⟩, depth) } := by
  induction row generalizing st with
  | nil => simp [scanRow, matching, discover]
  | cons cell row ih =>
    obtain ⟨o, preds⟩ := cell
    rw [scanRow]
    by_cases hit : preds.contains predicate
    · have head : matching predicate ((o, preds) :: row) = o :: matching predicate row := by
        simp [matching, hit]
      by_cases seen : st.visited[o]?.getD false
      · simp [ih, head, hit, seen, discover]
      · simp [ih, head, hit, seen, discover]
    · have skip : matching predicate ((o, preds) :: row) = matching predicate row := by
        simp [matching, hit]
      simp [ih, skip, hit]

theorem findPathLoop_eq (g : KnowledgeGraph) (predicate : String) (fuel : Nat)
    (found : List (Nat × Nat)) (st : Search) :
    g.findPathLoop predicate fuel found st =
      (found ++ BreadthFirst.traverse (g.followers predicate) fuel st.visited st.queue,
        st.edges ++ (BreadthFirst.traverse (g.followers predicate) fuel st.visited st.queue).flatMap
          (g.matchedEdges predicate)) := by
  induction fuel generalizing found st with
  | zero => simp [findPathLoop, BreadthFirst.traverse]
  | succ fuel ih =>
    obtain ⟨visited, queue, edges⟩ := st
    cases queue with
    | nil => simp [findPathLoop, BreadthFirst.traverse]
    | cons entry queue =>
      obtain ⟨v, depth⟩ := entry
      simp only [findPathLoop, scanRow_eq, ih, BreadthFirst.traverse]
      simp [followers, matchedEdges]

section Followers
variable {g : KnowledgeGraph}

theorem mem_followers (g : KnowledgeGraph) (p : String) (a b : Nat) :
    b ∈ g.followers p a ↔ g.Stored a p b := by
  simp only [followers, matching, List.mem_map, List.mem_filter, Prod.exists, exists_and_right,
    exists_eq_right, TreeMap.mem_toList_iff_getElem?_eq_some, Stored, Adjacency.Stores,
    Adjacency.preds, TreeMap.getD_eq_getD_getElem?]
  cases (g.out.row a)[b]? with
  | none => simp
  | some preds => simp

theorem followers_nodup (g : KnowledgeGraph) (p : String) (a : Nat) : (g.followers p a).Nodup :=
  filtered_keys_nodup (g.out.row a) _

theorem step_followers (g : KnowledgeGraph) (p : String) :
    BreadthFirst.Step (g.followers p) = fun a b => g.Stored a p b := by
  funext a b
  exact propext (mem_followers g p a b)

theorem followers_bound (tables : Tables g) (p : String) :
    ∀ a < g.len, ∀ o ∈ g.followers p a, o < g.len := by
  intro a _ o member
  exact (tables.endpoints a p o ((mem_followers g p a o).mp member)).2.1

end Followers

/-- The unsorted traversal behind `find_path`. -/
def evidence (g : KnowledgeGraph) (predicate : String) (anchor : Nat) : List (Nat × Nat) :=
  BreadthFirst.bfs (g.followers predicate) g.len anchor

theorem findPath_eq (g : KnowledgeGraph) (subject predicate : String) :
    g.findPath subject predicate = (g.byText[subject]?).map fun anchor =>
      { subject := anchor
        predicate := predicate
        entities := ((g.evidence predicate anchor).insertionSort DepthOrder).map (·.1)
        depths := ((g.evidence predicate anchor).insertionSort DepthOrder).map (·.2)
        relations := (((g.evidence predicate anchor).flatMap
          (g.matchedEdges predicate)).insertionSort fun a b => RelationOrder a.1 b.1).map (·.1)
        relationDepths := (((g.evidence predicate anchor).flatMap
          (g.matchedEdges predicate)).insertionSort fun a b => RelationOrder a.1 b.1).map (·.2) } := by
  unfold findPath
  cases g.byText[subject]? with
  | none => rfl
  | some anchor =>
    simp only [Option.bind_eq_bind, Option.bind_some, findPathLoop_eq, List.nil_append]
    rfl

section Orders

instance : Std.Total DepthOrder := ⟨fun a b => by simp only [DepthOrder]; omega⟩

instance : IsTrans (Nat × Nat) DepthOrder :=
  ⟨fun a b c hab hbc => by simp only [DepthOrder] at *; omega⟩

theorem depthOrder_antisymm {a b : Nat × Nat} (hab : DepthOrder a b) (hba : DepthOrder b a) :
    a = b := by
  simp only [DepthOrder] at hab hba
  exact Prod.ext (by omega) (by omega)

theorem relationOrder_total (a b : Relation) : RelationOrder a b ∨ RelationOrder b a := by
  simp only [RelationOrder]
  rcases lt_trichotomy a.subject b.subject with lt | eq | gt
  · exact Or.inl (Or.inl lt)
  · rcases lt_trichotomy a.predicate b.predicate with lt' | eq' | gt'
    · exact Or.inl (Or.inr ⟨eq, Or.inl lt'⟩)
    · rcases Nat.le_total a.object b.object with le | le
      · exact Or.inl (Or.inr ⟨eq, Or.inr ⟨eq', le⟩⟩)
      · exact Or.inr (Or.inr ⟨eq.symm, Or.inr ⟨eq'.symm, le⟩⟩)
    · exact Or.inr (Or.inr ⟨eq.symm, Or.inl gt'⟩)
  · exact Or.inr (Or.inl gt)

theorem relationOrder_trans {a b c : Relation} (hab : RelationOrder a b) (hbc : RelationOrder b c) :
    RelationOrder a c := by
  rcases hab with lt | ⟨eq, inner⟩ <;> rcases hbc with lt' | ⟨eq', inner'⟩
  · exact Or.inl (lt.trans lt')
  · exact Or.inl (eq' ▸ lt)
  · exact Or.inl (eq ▸ lt')
  · refine Or.inr ⟨eq.trans eq', ?_⟩
    rcases inner with plt | ⟨peq, le⟩ <;> rcases inner' with plt' | ⟨peq', le'⟩
    · exact Or.inl (plt.trans plt')
    · exact Or.inl (peq' ▸ plt)
    · exact Or.inl (peq ▸ plt')
    · exact Or.inr ⟨peq.trans peq', le.trans le'⟩

theorem relationOrder_antisymm {a b : Relation} (hab : RelationOrder a b)
    (hba : RelationOrder b a) : a = b := by
  have subject : a.subject = b.subject := by
    rcases hab with lt | ⟨eq, _⟩
    · rcases hba with lt' | ⟨eq', _⟩
      · exact absurd lt' (Nat.lt_asymm lt)
      · exact eq'.symm
    · exact eq
  rcases hab with lt | ⟨_, inner⟩
  · exact absurd lt (subject ▸ Nat.lt_irrefl _)
  rcases hba with lt | ⟨_, inner'⟩
  · exact absurd lt (subject ▸ Nat.lt_irrefl _)
  rcases inner with plt | ⟨peq, le⟩ <;> rcases inner' with plt' | ⟨peq', le'⟩
  · exact absurd plt' (lt_asymm plt)
  · exact absurd plt (peq' ▸ lt_irrefl _)
  · exact absurd plt' (peq ▸ lt_irrefl _)
  · cases a
    cases b
    simp only at subject peq le le'
    subst subject peq
    rw [Nat.le_antisymm le le']

instance : Std.Total fun a b : Relation × Nat => RelationOrder a.1 b.1 :=
  ⟨fun a b => relationOrder_total a.1 b.1⟩

instance : IsTrans (Relation × Nat) fun a b => RelationOrder a.1 b.1 :=
  ⟨fun _ _ _ hab hbc => relationOrder_trans hab hbc⟩

end Orders

section Evidence
variable {g : KnowledgeGraph} {anchor : Nat}

theorem mem_evidence (tables : Tables g) (valid : anchor < g.len) (p : String) (v d : Nat) :
    (v, d) ∈ g.evidence p anchor ↔ Shortest (fun a b => g.Stored a p b) d anchor v := by
  rw [evidence, BreadthFirst.bfs_exact (followers_bound tables p) valid, step_followers]

theorem evidence_nodup (tables : Tables g) (valid : anchor < g.len) (p : String) :
    ((g.evidence p anchor).map Prod.fst).Nodup :=
  BreadthFirst.bfs_nodup (followers_bound tables p) valid

theorem evidence_reaches (tables : Tables g) (valid : anchor < g.len) (p : String) (v : Nat) :
    v ∈ (g.evidence p anchor).map Prod.fst ↔ ReflTransGen (fun a b => g.Stored a p b) anchor v := by
  rw [evidence, BreadthFirst.bfs_reaches (followers_bound tables p) valid, step_followers]

theorem mem_matched (g : KnowledgeGraph) (p : String) (found : List (Nat × Nat)) (r : Relation)
    (d : Nat) :
    (r, d) ∈ found.flatMap (g.matchedEdges p) ↔
      r.predicate = p ∧ g.Stored r.subject p r.object ∧ (r.subject, d) ∈ found := by
  simp only [List.mem_flatMap, matchedEdges, List.mem_map, Prod.mk.injEq, Prod.exists]
  constructor
  · rintro ⟨a, e, member, o, follows, rfl, rfl⟩
    exact ⟨rfl, (mem_followers g p a o).mp follows, member⟩
  · rintro ⟨rfl, stored, member⟩
    exact ⟨r.subject, d, member, r.object, (mem_followers _ _ _ _).mpr stored, rfl, rfl⟩

theorem matched_nodup (g : KnowledgeGraph) (p : String) {found : List (Nat × Nat)}
    (distinct : (found.map Prod.fst).Nodup) :
    ((found.flatMap (g.matchedEdges p)).map Prod.fst).Nodup := by
  rw [List.map_flatMap, List.nodup_flatMap]
  constructor
  · intro entry _
    rw [matchedEdges, List.map_map]
    refine (followers_nodup g p entry.1).map ?_
    intro o o' same
    exact congrArg Relation.object same
  · rw [List.Nodup, List.pairwise_map] at distinct
    refine distinct.imp ?_
    intro a b apart r ha hb
    simp only [matchedEdges, List.map_map, List.mem_map, Function.comp_apply] at ha hb
    obtain ⟨o, _, rfl⟩ := ha
    obtain ⟨o', _, same⟩ := hb
    exact apart (congrArg Relation.subject same).symm

theorem zip_fst_snd {α β : Type} (xs : List (α × β)) : (xs.map (·.1)).zip (xs.map (·.2)) = xs := by
  induction xs with
  | nil => rfl
  | cons x xs ih => simp [ih]

end Evidence

theorem mem_relations (g : KnowledgeGraph) (r : Relation) :
    r ∈ g.relations ↔ g.Stored r.subject r.predicate r.object := by
  simp only [relations, List.mem_flatMap, List.mem_map, Prod.exists,
    TreeMap.mem_toList_iff_getElem?_eq_some, TreeSet.mem_toList, Stored, Adjacency.Stores,
    Adjacency.preds, Adjacency.row, TreeMap.getD_eq_getD_getElem?]
  constructor
  · rintro ⟨s, objs, row, o, preds, cell, p, member, rfl⟩
    simpa [row, cell] using member
  · intro stored
    cases row : g.out[r.subject]? with
    | none => simp [row] at stored
    | some objs =>
      rw [row, Option.getD_some] at stored
      cases cell : objs[r.object]? with
      | none => simp [cell] at stored
      | some preds =>
        rw [cell, Option.getD_some] at stored
        exact ⟨_, objs, row, _, preds, cell, _, stored, rfl⟩

theorem beq_iff {g h : KnowledgeGraph} : (g == h) = true ↔ g.entities = h.entities ∧ g.relations = h.relations := by
  have unfold : (g == h) = (g.entities == h.entities && g.relations == h.relations) := rfl
  rw [unfold, Bool.and_eq_true, beq_iff_eq, beq_iff_eq]

theorem stored_congr {g h : KnowledgeGraph} (same : g.relations = h.relations) (a : Nat)
    (p : String) (b : Nat) : g.Stored a p b ↔ h.Stored a p b := by
  rw [← mem_relations g ⟨a, p, b⟩, ← mem_relations h ⟨a, p, b⟩, same]

theorem entity_of_text {g : KnowledgeGraph} (tables : Tables g) (start : String) :
    g.byText[start]? = none ↔ ∀ e ∈ g.entities, e.text ≠ start := by
  constructor
  · intro missing e member same
    obtain ⟨i, bound, rfl⟩ := List.getElem_of_mem member
    have found := (tables.texts start i).mpr (by simp [bound, same])
    simp [missing] at found
  · intro absent
    cases found : g.byText[start]? with
    | none => rfl
    | some i =>
      have at_i := (tables.texts start i).mp found
      obtain ⟨e, entity, text⟩ := Option.map_eq_some_iff.mp at_i
      exact absurd text (absent e (List.mem_of_getElem? entity))

/-- Graphs that compare equal give equal paths: both sorted lists have the same
    members without repetition. -/
theorem findPath_congr {g h : KnowledgeGraph} (hg : Tables g) (hh : Tables h)
    (same : (g == h) = true) (start predicate : String) :
    h.findPath start predicate = g.findPath start predicate := by
  obtain ⟨entities, relations⟩ := beq_iff.mp same
  have stored := stored_congr relations
  have index : g.byText[start]? = h.byText[start]? := by
    refine Option.ext fun i => ?_
    rw [hg.texts, hh.texts, entities]
  have size : g.len = h.len := by simp only [len, entities]
  rw [findPath_eq, findPath_eq, ← index]
  cases found : g.byText[start]? with
  | none => rfl
  | some anchor =>
    have valid : anchor < g.len := by
      obtain ⟨e, entity, _⟩ := Option.map_eq_some_iff.mp ((hg.texts start anchor).mp found)
      exact (List.getElem?_eq_some_iff.mp entity).1
    have valid' : anchor < h.len := size ▸ valid
    have relation : (fun a b => g.Stored a predicate b) = fun a b => h.Stored a predicate b := by
      funext a b
      exact propext (stored a predicate b)
    have nodes : ∀ p, p ∈ g.evidence predicate anchor ↔ p ∈ h.evidence predicate anchor := by
      rintro ⟨v, d⟩
      rw [mem_evidence hg valid, mem_evidence hh valid', relation]
    have perm : (g.evidence predicate anchor).Perm (h.evidence predicate anchor) :=
      (List.perm_ext_iff_of_nodup (evidence_nodup hg valid predicate).of_map
        (evidence_nodup hh valid' predicate).of_map).mpr nodes
    have sorted : (g.evidence predicate anchor).insertionSort DepthOrder =
        (h.evidence predicate anchor).insertionSort DepthOrder := by
      refine List.Perm.eq_of_pairwise (fun a b _ _ => depthOrder_antisymm)
        (List.pairwise_insertionSort ..) (List.pairwise_insertionSort ..) ?_
      exact (List.perm_insertionSort ..).trans (perm.trans (List.perm_insertionSort ..).symm)
    have edges : ((g.evidence predicate anchor).flatMap (g.matchedEdges predicate)).Perm
        ((h.evidence predicate anchor).flatMap (h.matchedEdges predicate)) := by
      refine (List.perm_ext_iff_of_nodup
        (matched_nodup g predicate (evidence_nodup hg valid predicate)).of_map
        (matched_nodup h predicate (evidence_nodup hh valid' predicate)).of_map).mpr ?_
      rintro ⟨r, d⟩
      rw [mem_matched, mem_matched, stored, nodes]
    have sorted_edges : ((g.evidence predicate anchor).flatMap
          (g.matchedEdges predicate)).insertionSort (fun a b => RelationOrder a.1 b.1) =
        ((h.evidence predicate anchor).flatMap
          (h.matchedEdges predicate)).insertionSort fun a b => RelationOrder a.1 b.1 := by
      refine List.Perm.eq_of_pairwise ?_ (List.pairwise_insertionSort ..)
        (List.pairwise_insertionSort ..)
        ((List.perm_insertionSort ..).trans (edges.trans (List.perm_insertionSort ..).symm))
      intro a b ha hb hab hba
      -- equal relations carry equal depths, since a subject is dequeued once
      have ha' := edges.mem_iff.mp ((List.mem_insertionSort _).mp ha)
      exact List.inj_on_of_nodup_map (matched_nodup h predicate (evidence_nodup hh valid' predicate))
        ha' ((List.mem_insertionSort _).mp hb) (relationOrder_antisymm hab hba)
    simp only [Option.map_some, sorted, sorted_edges]

/-- `find_path` returns exactly the evidence subgraph of its anchor. -/
theorem find_path_exact {g : KnowledgeGraph} (history : Reachable g) (start predicate : String) :
    (g.findPath start predicate = none ↔ ∀ e ∈ g.entities, e.text ≠ start) ∧
    (∀ path, g.findPath start predicate = some path →
      (g.entities[path.subject]?.map Entity.text = some start ∧ path.predicate = predicate) ∧
      (path.depths.length = path.entities.length ∧ path.entities.Nodup ∧
        (path.entities.zip path.depths).Pairwise DepthOrder ∧
        (∀ v, v ∈ path.entities ↔
          ReflTransGen (fun a b => g.Stored a predicate b) path.subject v) ∧
        ∀ v d, (v, d) ∈ path.entities.zip path.depths ↔
          Shortest (fun a b => g.Stored a predicate b) d path.subject v) ∧
      (path.relationDepths.length = path.relations.length ∧ path.relations.Nodup ∧
        path.relations.Pairwise RelationOrder ∧
        (∀ r, r ∈ path.relations ↔
          r.predicate = predicate ∧ g.Stored r.subject predicate r.object ∧
            r.subject ∈ path.entities) ∧
        (∀ r ∈ path.relations, r.subject ∈ path.entities ∧ r.object ∈ path.entities) ∧
        ∀ r d, (r, d) ∈ path.relations.zip path.relationDepths →
          (r.subject, d) ∈ path.entities.zip path.depths)) ∧
    (∀ h, Reachable h → (g == h) = true →
      h.findPath start predicate = g.findPath start predicate) := by
  have tables := (reachable_consistent history).toTables
  refine ⟨?_, ?_, fun h history' same =>
    findPath_congr tables (reachable_consistent history').toTables same start predicate⟩
  · rw [findPath_eq, Option.map_eq_none_iff, entity_of_text tables]
  · intro path found
    rw [findPath_eq] at found
    obtain ⟨anchor, index, rfl⟩ := Option.map_eq_some_iff.mp found
    have text := (tables.texts start anchor).mp index
    have valid : anchor < g.len := by
      obtain ⟨e, entity, _⟩ := Option.map_eq_some_iff.mp text
      exact (List.getElem?_eq_some_iff.mp entity).1
    have distinct := evidence_nodup tables valid predicate
    have nodes := List.perm_insertionSort DepthOrder (g.evidence predicate anchor)
    have edges := List.perm_insertionSort (fun a b : Relation × Nat => RelationOrder a.1 b.1)
      ((g.evidence predicate anchor).flatMap (g.matchedEdges predicate))
    have reaches : ∀ v, v ∈ ((g.evidence predicate anchor).insertionSort DepthOrder).map (·.1) ↔
        ReflTransGen (fun a b => g.Stored a predicate b) anchor v := by
      intro v
      rw [(nodes.map _).mem_iff, ← evidence_reaches tables valid]
    have listed : ∀ r, r ∈ (((g.evidence predicate anchor).flatMap
          (g.matchedEdges predicate)).insertionSort fun a b => RelationOrder a.1 b.1).map (·.1) ↔
        r.predicate = predicate ∧ g.Stored r.subject predicate r.object ∧
          r.subject ∈ ((g.evidence predicate anchor).insertionSort DepthOrder).map (·.1) := by
      intro r
      rw [(edges.map _).mem_iff, (nodes.map _).mem_iff]
      simp only [List.mem_map, Prod.exists, exists_and_right, exists_eq_right, mem_matched]
      constructor
      · rintro ⟨d, label, stored, member⟩
        exact ⟨label, stored, d, member⟩
      · rintro ⟨label, stored, d, member⟩
        exact ⟨d, label, stored, member⟩
    refine ⟨⟨text, rfl⟩, ⟨by simp, ?_, ?_, reaches, ?_⟩, ⟨by simp, ?_, ?_, listed, ?_, ?_⟩⟩
    · exact (nodes.map _).nodup_iff.mpr distinct
    · rw [zip_fst_snd]
      exact List.pairwise_insertionSort ..
    · intro v d
      rw [zip_fst_snd, nodes.mem_iff]
      exact mem_evidence tables valid predicate v d
    · exact (edges.map _).nodup_iff.mpr (matched_nodup g predicate distinct)
    · rw [List.pairwise_map]
      exact List.pairwise_insertionSort ..
    · intro r member
      obtain ⟨_, stored, subject⟩ := (listed r).mp member
      exact ⟨subject, (reaches _).mpr (((reaches _).mp subject).tail stored)⟩
    · intro r d
      rw [zip_fst_snd, zip_fst_snd, edges.mem_iff, nodes.mem_iff, mem_matched]
      exact fun h => h.2.2

theorem find_path_exact_crossed :
    (∃ e ∈ crossed.entities, e.text = "b") ∧
      ∀ path, crossed.findPath "b" "p" = some path → 0 ∈ path.entities := by
  have exact := find_path_exact crossed_reachable "b" "p"
  refine ⟨⟨⟨1, "b"⟩, by decide, rfl⟩, ?_⟩
  intro path found
  obtain ⟨⟨text, _⟩, ⟨_, _, _, reaches, _⟩, _⟩ := exact.2.1 path found
  have start : path.subject = 1 := by
    have index := ((reachable_consistent crossed_reachable).texts "b" path.subject).mpr text
    have stored : crossed.byText["b"]? = some 1 := by decide
    rw [stored] at index
    exact (Option.some.inj index).symm
  rw [reaches, start]
  exact .single (by decide)

end KnowledgeGraph

end RagEngine
