import VerifiableRag.Graph.Serialization

/-!
When `topological_order` is a function of the stored graph. It sorts by the rank
cache, which a re-ranking fills with Kahn's order and later insertions leave
behind; the order is the documented one exactly while the cache is settled.
-/
open Relation (TransGen)

namespace RagEngine
open AcyclicRelation

/-- Every id comes after its predecessors and before all larger ids that could
    have been placed instead. -/
def LeastFirst (r : Nat → Nat → Prop) (order : List Nat) : Prop :=
  ∀ before v after, order = before ++ v :: after →
    (∀ u, r u v → u ∈ before) ∧ ∀ w ∈ after, (∀ u, r u w → u ∈ before) → v < w

theorem leastFirst_unique {r : Nat → Nat → Prop} {order order' : List Nat}
    (perm : order.Perm order') (least : LeastFirst r order) (least' : LeastFirst r order') :
    order = order' := by
  have tails : ∀ rest rest' before, order = before ++ rest → order' = before ++ rest' →
      rest.Perm rest' → rest = rest' := by
    intro rest
    induction rest with
    | nil =>
      intro rest' before _ _ same
      exact same.nil_eq
    | cons v rest ih =>
      intro rest' before shape shape' same
      cases rest' with
      | nil => exact absurd same.symm.nil_eq (by simp)
      | cons w rest' =>
        obtain ⟨ready, first⟩ := least before v rest shape
        obtain ⟨ready', first'⟩ := least' before w rest' shape'
        have head : v = w := by
          by_contra apart
          have later : w ∈ rest := by
            have member := same.mem_iff.mpr List.mem_cons_self
            exact (List.mem_cons.mp member).resolve_left (Ne.symm apart)
          have later' : v ∈ rest' := by
            have member := same.mem_iff.mp List.mem_cons_self
            exact (List.mem_cons.mp member).resolve_left apart
          have := first w later ready'
          have := first' v later' ready
          omega
        subst w
        have tail := ih rest' (before ++ [v]) (by simp [shape]) (by simp [shape'])
          ((List.perm_cons v).mp same)
        rw [tail]
  exact tails order order' [] rfl rfl perm

namespace KnowledgeGraph

/-- Ties between independent entities go to the smaller id. -/
def AscendingTies (g : KnowledgeGraph) : Prop :=
  ∀ before v after, g.topologicalOrder = before ++ v :: after →
    ∀ w ∈ after, (∀ u, g.Edge u w → u ∈ before) → v < w

/-- An entity ranked below a smaller id is one that the smaller id waits for: some
    predecessor of the smaller id is not keyed before it. -/
def Settled (g : KnowledgeGraph) : Prop :=
  ∀ a < g.len, ∀ b < a, g.rank a < g.rank b → ∃ c, g.Edge c b ∧ g.RankOrder a c

section Orders
variable {g h : KnowledgeGraph}

theorem rankOrder_antisymm {a b : Nat} (hab : g.RankOrder a b) (hba : g.RankOrder b a) :
    a = b := by
  simp only [RankOrder] at hab hba
  omega

theorem rankOrder_refl (a : Nat) : g.RankOrder a a := Or.inr ⟨rfl, Nat.le_refl a⟩

theorem order_split {before after : List Nat} {v : Nat}
    (shape : g.topologicalOrder = before ++ v :: after) :
    (∀ u, u ∈ before ↔ u < g.len ∧ u ≠ v ∧ g.RankOrder u v) ∧
      ∀ w, w ∈ after ↔ w < g.len ∧ w ≠ v ∧ g.RankOrder v w := by
  have sorted : (before ++ v :: after).Pairwise g.RankOrder :=
    shape ▸ List.pairwise_insertionSort g.RankOrder (List.range g.len)
  have perm : (before ++ v :: after).Perm (List.range g.len) := shape ▸ topologicalOrder_perm g
  have distinct : (before ++ v :: after).Nodup := perm.nodup_iff.mpr List.nodup_range
  have member : ∀ u, u < g.len ↔ u ∈ before ∨ u = v ∨ u ∈ after := by
    intro u
    rw [← List.mem_range, ← perm.mem_iff, List.mem_append, List.mem_cons]
  rw [List.pairwise_append, List.pairwise_cons] at sorted
  rw [List.nodup_append', List.nodup_cons] at distinct
  obtain ⟨_, ⟨keyed_after, _⟩, keyed_before⟩ := sorted
  obtain ⟨_, ⟨not_after, _⟩, disjoint⟩ := distinct
  have not_before : v ∉ before := fun member => disjoint member List.mem_cons_self
  constructor
  · intro u
    constructor
    · intro early
      refine ⟨(member u).mpr (Or.inl early), ne_of_mem_of_not_mem early not_before, ?_⟩
      exact keyed_before u early v List.mem_cons_self
    · intro h
      obtain ⟨small, apart, order⟩ := h
      rcases (member u).mp small with early | rfl | late
      · exact early
      · exact absurd rfl apart
      · exact absurd (rankOrder_antisymm order (keyed_after u late)) apart
  · intro w
    constructor
    · intro late
      exact ⟨(member w).mpr (Or.inr (Or.inr late)), ne_of_mem_of_not_mem late not_after,
        keyed_after w late⟩
    · intro h
      obtain ⟨small, apart, order⟩ := h
      rcases (member w).mp small with early | rfl | late
      · exact absurd (rankOrder_antisymm (keyed_before w early v List.mem_cons_self) order) apart
      · exact absurd rfl apart
      · exact late

theorem ascendingTies_iff (tables : Tables g) : g.AscendingTies ↔ g.Settled := by
  constructor
  · intro ascending a small b smaller ranked
    have member : a ∈ g.topologicalOrder :=
      (topologicalOrder_perm g).mem_iff.mpr (List.mem_range.mpr small)
    obtain ⟨before, after, shape⟩ := List.append_of_mem member
    obtain ⟨early, late⟩ := order_split shape
    by_contra none_waits
    have behind : b ∈ after := (late b).mpr ⟨by omega, Nat.ne_of_lt smaller, Or.inl ranked⟩
    have first := ascending before a after shape b behind
    refine Nat.lt_asymm smaller (first fun u arc => ?_)
    have keyed : ¬ g.RankOrder a u := fun order => none_waits ⟨u, arc, order⟩
    obtain ⟨p, stored⟩ := arc
    refine (early u).mpr ⟨(tables.endpoints u p b stored).1, ?_, ?_⟩
    · rintro rfl
      exact keyed (rankOrder_refl u)
    · exact (total_of g.RankOrder a u).resolve_left keyed
  · intro settled before v after shape w behind ready
    obtain ⟨early, late⟩ := order_split shape
    obtain ⟨small, apart, order⟩ := (late w).mp behind
    by_contra above
    have smaller : w < v := by omega
    have ranked : g.rank v < g.rank w := by
      simp only [RankOrder] at order
      omega
    have inside : v < g.len := by
      have member : v ∈ g.topologicalOrder := by simp [shape]
      exact List.mem_range.mp ((topologicalOrder_perm g).mem_iff.mp member)
    obtain ⟨c, arc, keyed⟩ := settled v inside w smaller ranked
    obtain ⟨_, other, back⟩ := (early c).mp (ready c arc)
    exact other (rankOrder_antisymm back keyed)

theorem leastFirst_of_settled (consistent : Consistent g) (settled : g.Settled) :
    LeastFirst g.Edge g.topologicalOrder := by
  intro before v after shape
  refine ⟨?_, (ascendingTies_iff consistent.toTables).mpr settled before v after shape⟩
  intro u arc
  obtain ⟨p, stored⟩ := arc
  have less := consistent.increasing u p v stored
  obtain ⟨small, _, apart⟩ := consistent.endpoints u p v stored
  exact ((order_split shape).1 u).mpr ⟨small, apart, Or.inl less⟩

theorem settled_orders_agree (hg : Consistent g) (hh : Consistent h) (same : (g == h) = true)
    (settled : g.Settled) (settled' : h.Settled) : g.topologicalOrder = h.topologicalOrder := by
  obtain ⟨entities, relations⟩ := beq_iff.mp same
  have arcs : h.Edge = g.Edge := by
    funext a b
    simp only [Edge, stored_congr relations]
  have perm : g.topologicalOrder.Perm h.topologicalOrder := by
    have size : g.len = h.len := by simp only [len, entities]
    refine (topologicalOrder_perm g).trans ?_
    rw [size]
    exact (topologicalOrder_perm h).symm
  refine leastFirst_unique perm (leastFirst_of_settled hg settled) ?_
  rw [← arcs]
  exact leastFirst_of_settled hh settled'

/-- Re-ranking settles the cache: Kahn's loop always places the least ready id. -/
theorem rebuildRanks_settled (tables : Tables g) (run : g.rebuildRanks = .ok () h) :
    h.Settled := by
  have rows := kahn_rows tables
  simp only [rebuildRanks, listed_rows] at run
  split at run
  · simp at run
  rename_i placed
  have all := not_not.mp placed
  rw [EStateM.Result.ok.injEq] at run
  obtain ⟨_, rfl⟩ := run
  intro a small b smaller ranked
  obtain ⟨c, arc, waits⟩ := KahnRank.kahn_ranks_ascend rows all small smaller ranked
  refine ⟨c, (kahn_arc_iff g c b).mp arc, ?_⟩
  rcases waits with rfl | later
  · exact rankOrder_refl c
  · exact Or.inl later

theorem deserialize_settled {nodes : List Entity} {edges : List Relation}
    (loaded : deserialize nodes edges = .ok g) : g.Settled := by
  obtain ⟨shaped, run⟩ := deserialize_iff.mp loaded
  exact rebuildRanks_settled (bulk_tables shaped) run

/-- A fresh entity enters with rank zero, so once any rank is positive it is
    sorted before smaller ids that wait for nothing of it. -/
theorem fresh_entity_unsettles (consistent : Consistent g) (text : String) {v : Nat}
    (small : v < g.len) (ranked : 0 < g.rank v) : ¬ (g.pushEntity text).Settled := by
  intro settled
  have exists_rank : ∃ k, ∃ v < g.len, g.rank v = k + 1 :=
    ⟨g.rank v - 1, v, small, by omega⟩
  classical
  obtain ⟨b, inside, least⟩ := Nat.find_spec exists_rank
  have kept : ∀ a < g.len, (g.pushEntity text).rank a = g.rank a :=
    fun a bound => rank_pushEntity consistent.toTables text bound
  have zero : (g.pushEntity text).rank g.len = 0 := by
    simp only [rank, pushEntity, len]
    rw [← len, ← consistent.ranks, List.getElem?_concat_length]
    rfl
  obtain ⟨c, arc, keyed⟩ := settled g.len (by simp [len_pushEntity]) b inside (by
    rw [zero, kept b inside, least]
    omega)
  obtain ⟨p, stored⟩ := arc
  have bound : c < g.len := (consistent.endpoints c p b stored).1
  have below := consistent.increasing c p b stored
  have positive : 0 < g.rank c := by
    rw [RankOrder, zero, kept c bound] at keyed
    omega
  exact Nat.find_min exists_rank (m := g.rank c - 1) (by omega) ⟨c, bound, by omega⟩

end Orders

/-- Equal graphs have the same order, with ascending ties, exactly when both rank
    caches are settled; a round trip keeps the order exactly when the original was. -/
theorem topological_order_canonical_iff {g h : KnowledgeGraph} (hg : Reachable g)
    (hh : Reachable h) (same : (g == h) = true) :
    ((g.topologicalOrder = h.topologicalOrder ∧ g.AscendingTies ∧ h.AscendingTies) ↔
      g.Settled ∧ h.Settled) ∧
    ∀ loaded, deserialize g.serialize.1 g.serialize.2 = .ok loaded → loaded.Settled ∧
      (g.topologicalOrder = loaded.topologicalOrder ↔ g.Settled) := by
  have consistent := reachable_consistent hg
  have consistent' := reachable_consistent hh
  constructor
  · rw [ascendingTies_iff consistent.toTables, ascendingTies_iff consistent'.toTables]
    constructor
    · exact fun all => all.2
    · exact fun both => ⟨settled_orders_agree consistent consistent' same both.1 both.2, both⟩
  · intro loaded run
    have settled := deserialize_settled run
    have rebuilt := deserialize_consistent run
    obtain ⟨again, run', equal⟩ := round_trip consistent
    obtain rfl : again = loaded := by
      rw [run] at run'
      exact (Except.ok.inj run').symm
    refine ⟨settled, ?_, fun own => settled_orders_agree consistent rebuilt equal own settled⟩
    intro orders
    obtain ⟨_, relations⟩ := beq_iff.mp equal
    have ties := (ascendingTies_iff rebuilt.toTables).mpr settled
    rw [← ascendingTies_iff consistent.toTables]
    intro before v after shape w behind ready
    refine ties before v after (orders ▸ shape) w behind ?_
    intro u arc
    obtain ⟨p, stored⟩ := arc
    exact ready u ⟨p, (stored_congr relations u p w).mpr stored⟩

/-- A third entity after the re-ranking of `crossed`. -/
def appended : KnowledgeGraph := (crossed.addEntity "c").after

theorem appended_reachable : Reachable appended := .addEntity crossed_reachable "c"

/-- The round trip re-ranks the graph, and puts its third entity last. -/
theorem appended_round_trip : ∃ h, deserialize appended.serialize.1 appended.serialize.2 = .ok h ∧
    (appended == h) = true ∧ appended.topologicalOrder = [1, 2, 0] ∧
      h.topologicalOrder = [1, 0, 2] := by
  obtain ⟨h, loaded, same⟩ := round_trip (reachable_consistent appended_reachable)
  refine ⟨h, loaded, same, by decide, ?_⟩
  have order : (deserialize appended.serialize.1 appended.serialize.2).toOption.map
      topologicalOrder = some [1, 0, 2] := by decide
  rw [loaded] at order
  exact Option.some.inj order

theorem topological_order_canonical_appended :
    ∃ h, deserialize appended.serialize.1 appended.serialize.2 = .ok h ∧ h.Settled ∧
      ¬ appended.Settled ∧
      ((appended.topologicalOrder = h.topologicalOrder ∧ appended.AscendingTies ∧ h.AscendingTies) ↔
        appended.Settled ∧ h.Settled) := by
  obtain ⟨h, loaded, same, order, order'⟩ := appended_round_trip
  obtain ⟨orders, trips⟩ :=
    topological_order_canonical_iff appended_reachable (.deserialized loaded) same
  obtain ⟨settled, kept⟩ := trips h loaded
  refine ⟨h, loaded, settled, fun own => ?_, orders⟩
  have agree := kept.mpr own
  rw [order, order'] at agree
  exact absurd agree (by decide)

theorem topological_order_history_dependent :
    Reachable appended ∧ ∃ h, deserialize appended.serialize.1 appended.serialize.2 = .ok h ∧
      (appended == h) = true ∧ appended.topologicalOrder = [1, 2, 0] ∧
      h.topologicalOrder = [1, 0, 2] :=
  ⟨appended_reachable, appended_round_trip⟩

end KnowledgeGraph

end RagEngine
