import Mathlib.Algebra.Ring.Nat
import Mathlib.Data.Finset.Card
import Std.Data.TreeSet
import VerifiableRag.Library.Acyclic

/-!
Kahn's ranking of a finite graph on `0, ..., n-1`. Ids without unplaced
predecessors wait in an ordered set; the least one is placed and its row is
released. All ids are placed exactly when the graph has no cycle, and then every
arc goes from a smaller to a larger rank.
-/
namespace KahnRank
open Std (TreeSet)
open AcyclicRelation

def Arc (next : Nat → List Nat) (a b : Nat) : Prop := b ∈ next a

structure State where
  indeg : List Nat
  ready : TreeSet Nat
  rank : List Nat
  placed : Nat

/-- In-degree table: one increment for each listed target. -/
def countTargets (n : Nat) (rows : List (List Nat)) : List Nat :=
  rows.foldl (fun table row => row.foldl (fun table o => table.modify o (· + 1)) table)
    (List.replicate n 0)

/-- Removing a placed id lowers its targets; those that drop to zero become ready. -/
def release : List Nat → List Nat → TreeSet Nat → List Nat × TreeSet Nat
  | [], indeg, ready => (indeg, ready)
  | o :: row, indeg, ready =>
    let lowered := indeg.modify o (· - 1)
    release row lowered (if lowered[o]?.getD 0 = 0 then ready.insert o else ready)

def place (next : Nat → List Nat) (s : State) (v : Nat) : State :=
  let released := release (next v) s.indeg (s.ready.erase v)
  { indeg := released.1, ready := released.2, rank := s.rank.set v s.placed,
    placed := s.placed + 1 }

def loop (next : Nat → List Nat) : Nat → State → State
  | 0, s => s
  | fuel + 1, s =>
    match s.ready.toList.head? with
    | none => s
    | some v => loop next fuel (place next s v)

def start (n : Nat) (rows : List (List Nat)) : State :=
  let indeg := countTargets n rows
  { indeg := indeg
    ready := TreeSet.ofList ((List.range n).filter fun v => indeg[v]?.getD 0 = 0)
    rank := List.replicate n 0
    placed := 0 }

def kahn (next : Nat → List Nat) (n : Nat) (rows : List (List Nat)) : State :=
  loop next n (start n rows)

/-- Rows without repetition on `0, ..., n-1`, all nonempty ones listed in `sources`. -/
structure Rows (next : Nat → List Nat) (n : Nat) (sources : List Nat) : Prop where
  nodup : ∀ a, (next a).Nodup
  targets : ∀ a, ∀ o ∈ next a, o < n
  distinct : sources.Nodup
  inside : ∀ a ∈ sources, a < n
  listed : ∀ a, next a ≠ [] → a ∈ sources

theorem Rows.origin {next : Nat → List Nat} {n : Nat} {sources : List Nat}
    (rows : Rows next n sources) {a o : Nat} (arc : o ∈ next a) : a < n :=
  rows.inside a (rows.listed a (List.ne_nil_of_mem arc))

def pending (next : Nat → List Nat) (n : Nat) (done : Finset Nat) (v : Nat) : Finset Nat :=
  (Finset.range n).filter fun u => u ∉ done ∧ v ∈ next u

section Tables

theorem modify_lookup (table : List Nat) (o x : Nat) (f : Nat → Nat) (bound : o < table.length) :
    (table.modify o f)[x]?.getD 0 = if x = o then f (table[x]?.getD 0) else table[x]?.getD 0 := by
  by_cases same : x = o
  · subst x
    simp [bound]
  · simp [Ne.symm same, same]

theorem count_row (row table : List Nat) (bound : ∀ o ∈ row, o < table.length) (v : Nat) :
    (row.foldl (fun table o => table.modify o (· + 1)) table)[v]?.getD 0 =
        table[v]?.getD 0 + row.count v ∧
      (row.foldl (fun table o => table.modify o (· + 1)) table).length = table.length := by
  induction row generalizing table with
  | nil => simp
  | cons o row ih =>
    have here : o < table.length := bound o List.mem_cons_self
    have rest : ∀ p ∈ row, p < (table.modify o (· + 1)).length := by
      intro p hp
      simpa using bound p (List.mem_cons_of_mem o hp)
    obtain ⟨value, size⟩ := ih (table.modify o (· + 1)) rest
    refine ⟨?_, by simpa using size⟩
    rw [List.foldl_cons, value, modify_lookup table o v _ here, List.count_cons]
    by_cases same : v = o
    · simp [same]
      omega
    · simp [same, Ne.symm same]

theorem count_rows (rows : List (List Nat)) (table : List Nat)
    (bound : ∀ row ∈ rows, ∀ o ∈ row, o < table.length) (v : Nat) :
    (rows.foldl (fun table row => row.foldl (fun table o => table.modify o (· + 1)) table)
        table)[v]?.getD 0 = table[v]?.getD 0 + (rows.map (List.count v)).sum ∧
      (rows.foldl (fun table row => row.foldl (fun table o => table.modify o (· + 1)) table)
        table).length = table.length := by
  induction rows generalizing table with
  | nil => simp
  | cons row rows ih =>
    obtain ⟨value, size⟩ := count_row row table (bound row List.mem_cons_self) v
    have rest : ∀ r ∈ rows, ∀ o ∈ r,
        o < (row.foldl (fun table o => table.modify o (· + 1)) table).length := by
      intro r hr o ho
      rw [size]
      exact bound r (List.mem_cons_of_mem row hr) o ho
    obtain ⟨values, sizes⟩ := ih _ rest
    refine ⟨?_, by rw [List.foldl_cons, sizes, size]⟩
    rw [List.foldl_cons, values, value, List.map_cons, List.sum_cons]
    omega

theorem countTargets_length (n : Nat) (rows : List (List Nat))
    (bound : ∀ row ∈ rows, ∀ o ∈ row, o < n) : (countTargets n rows).length = n := by
  simpa [countTargets] using (count_rows rows (List.replicate n 0) (by simpa using bound) 0).2

theorem sum_indicator (sources : List Nat) (next : Nat → List Nat) (v : Nat)
    (rows_nodup : ∀ a, (next a).Nodup) :
    ((sources.map next).map (List.count v)).sum = (sources.filter fun u => v ∈ next u).length := by
  induction sources with
  | nil => rfl
  | cons a sources ih =>
    rw [List.map_cons, List.map_cons, List.sum_cons, ih]
    by_cases member : v ∈ next a
    · simp [member, List.count_eq_one_of_mem (rows_nodup a) member]
      omega
    · simp [member, List.count_eq_zero_of_not_mem member]

theorem countTargets_degree {next : Nat → List Nat} {n : Nat} {sources : List Nat}
    (rows : Rows next n sources) (v : Nat) :
    (countTargets n (sources.map next))[v]?.getD 0 = (pending next n ∅ v).card := by
  have bound : ∀ row ∈ sources.map next, ∀ o ∈ row, o < (List.replicate n 0).length := by
    intro row hr o ho
    obtain ⟨a, _, rfl⟩ := List.mem_map.mp hr
    simpa using rows.targets a o ho
  have table := (count_rows _ _ bound v).1
  have zero : (List.replicate n 0)[v]?.getD 0 = 0 := by
    by_cases small : v < n <;> simp [small]
  rw [countTargets, table, zero, Nat.zero_add, sum_indicator _ _ _ rows.nodup,
    ← List.toFinset_card_of_nodup (rows.distinct.filter _)]
  congr 1
  ext u
  simp only [List.mem_toFinset, List.mem_filter, decide_eq_true_eq, pending, Finset.mem_filter,
    Finset.mem_range, Finset.notMem_empty, not_false_eq_true, true_and]
  constructor
  · exact fun h => ⟨rows.inside u h.1, h.2⟩
  · exact fun h => ⟨rows.listed u (List.ne_nil_of_mem h.2), h.2⟩

theorem release_spec (row indeg : List Nat) (ready : TreeSet Nat) (distinct : row.Nodup)
    (bound : ∀ o ∈ row, o < indeg.length) :
    (release row indeg ready).1.length = indeg.length ∧
      (∀ w, (release row indeg ready).1[w]?.getD 0 =
        if w ∈ row then indeg[w]?.getD 0 - 1 else indeg[w]?.getD 0) ∧
      ∀ w, w ∈ (release row indeg ready).2 ↔
        w ∈ ready ∨ (w ∈ row ∧ indeg[w]?.getD 0 - 1 = 0) := by
  induction row generalizing indeg ready with
  | nil => simp [release]
  | cons o row ih =>
    have here : o < indeg.length := bound o List.mem_cons_self
    obtain ⟨absent, tail⟩ := List.nodup_cons.mp distinct
    have rest : ∀ p ∈ row, p < (indeg.modify o (· - 1)).length := by
      intro p hp
      simpa using bound p (List.mem_cons_of_mem o hp)
    have lookup := fun w => modify_lookup indeg o w (· - 1) here
    obtain ⟨size, value, member⟩ := ih (indeg.modify o (· - 1))
      (if (indeg.modify o (· - 1))[o]?.getD 0 = 0 then ready.insert o else ready) tail rest
    refine ⟨by simpa [release] using size, ?_, ?_⟩
    · intro w
      rw [release, value w, lookup w]
      by_cases same : w = o
      · subst w
        simp [absent]
      · simp [same]
    · intro w
      rw [release, member w, lookup w, lookup o]
      by_cases same : w = o
      · subst w
        by_cases zero : indeg[o]?.getD 0 - 1 = 0 <;> simp [absent, zero]
      · by_cases zero : indeg[o]?.getD 0 - 1 = 0 <;> simp [zero, same, Ne.symm same]

end Tables

/-- The loop invariant over the set of ids placed so far. -/
structure Progress (next : Nat → List Nat) (n : Nat) (done : Finset Nat) (s : State) : Prop where
  indeg_size : s.indeg.length = n
  rank_size : s.rank.length = n
  count : s.placed = done.card
  bound : ∀ v ∈ done, v < n
  degree : ∀ v < n, s.indeg[v]?.getD 0 = (pending next n done v).card
  ready : ∀ v, v ∈ s.ready ↔ v < n ∧ v ∉ done ∧ pending next n done v = ∅
  below : ∀ v ∈ done, s.rank[v]?.getD 0 < s.placed
  order : ∀ u v, v ∈ next u → v ∈ done → u ∈ done ∧ s.rank[u]?.getD 0 < s.rank[v]?.getD 0

/-- Among the ids placed so far, one ranked before a smaller id (or placed while
    the smaller id still waits) is ranked before a predecessor of that id too,
    or is that predecessor. -/
def Ascending (next : Nat → List Nat) (done : Finset Nat) (s : State) : Prop :=
  ∀ a ∈ done, ∀ b < a, (b ∈ done → s.rank[a]?.getD 0 < s.rank[b]?.getD 0) →
    ∃ c, b ∈ next c ∧ (c ∈ done → c = a ∨ s.rank[a]?.getD 0 < s.rank[c]?.getD 0)

section Ranking
variable {next : Nat → List Nat} {n : Nat} {sources : List Nat}

theorem pending_insert (done : Finset Nat) (v w : Nat) :
    pending next n (insert v done) w = (pending next n done w).erase v := by
  ext u
  simp only [pending, Finset.mem_filter, Finset.mem_range, Finset.mem_insert, Finset.mem_erase]
  tauto

theorem pending_mem (done : Finset Nat) (v w : Nat) :
    v ∈ pending next n done w ↔ v < n ∧ v ∉ done ∧ w ∈ next v := by
  simp [pending]

theorem progress_card_le {done : Finset Nat} {s : State} (inv : Progress next n done s) :
    done.card ≤ n := by
  have subset : done ⊆ Finset.range n := fun v hv => Finset.mem_range.mpr (inv.bound v hv)
  simpa using Finset.card_le_card subset

theorem progress_start (rows : Rows next n sources) :
    Progress next n ∅ (start n (sources.map next)) where
  indeg_size := by
    refine countTargets_length n _ ?_
    intro row hr o ho
    obtain ⟨a, _, rfl⟩ := List.mem_map.mp hr
    exact rows.targets a o ho
  rank_size := by simp [start]
  count := rfl
  bound := by simp
  degree := fun v _ => countTargets_degree rows v
  ready := by
    intro v
    have degree := countTargets_degree rows v
    simp only [start, TreeSet.mem_ofList, List.contains_iff_mem, List.mem_filter, List.mem_range,
      decide_eq_true_eq, degree, Finset.card_eq_zero, Finset.notMem_empty, not_false_eq_true,
      true_and]
  below := by simp
  order := by simp

theorem Progress.rank_set {done : Finset Nat} {s : State} (inv : Progress next n done s) {v : Nat}
    (small : v < n) (w : Nat) : (s.rank.set v s.placed)[w]?.getD 0 =
      if w = v then s.placed else s.rank[w]?.getD 0 := by
  by_cases same : w = v
  · subst w
    simp [inv.rank_size, small]
  · simp [List.getElem?_set_ne (Ne.symm same), same]

theorem progress_place (rows : Rows next n sources) {done : Finset Nat} {s : State} {v : Nat}
    (inv : Progress next n done s) (pick : v ∈ s.ready) :
    Progress next n (insert v done) (place next s v) := by
  obtain ⟨small, fresh, none_left⟩ := (inv.ready v).mp pick
  have row : ∀ o ∈ next v, o < s.indeg.length := by
    intro o ho
    rw [inv.indeg_size]
    exact rows.targets v o ho
  obtain ⟨size, value, member⟩ := release_spec (next v) s.indeg (s.ready.erase v) (rows.nodup v) row
  have lowered : ∀ w < n, (if w ∈ next v then s.indeg[w]?.getD 0 - 1 else s.indeg[w]?.getD 0) =
      (pending next n (insert v done) w).card := by
    intro w hw
    rw [pending_insert, inv.degree w hw]
    split
    · rename_i target
      exact (Finset.card_erase_of_mem ((pending_mem done v w).mpr ⟨small, fresh, target⟩)).symm
    · rename_i other
      rw [Finset.erase_eq_of_notMem]
      exact fun h => other ((pending_mem done v w).mp h).2.2
  have self_free : v ∉ next v := by
    intro loop
    have : v ∈ pending next n done v := (pending_mem done v v).mpr ⟨small, fresh, loop⟩
    simp [none_left] at this
  constructor
  · simpa [place, inv.indeg_size] using size
  · simp [place, inv.rank_size]
  · simp [place, inv.count, Finset.card_insert_of_notMem fresh]
  · intro w hw
    rcases Finset.mem_insert.mp hw with rfl | old
    · exact small
    · exact inv.bound w old
  · intro w hw
    simp only [place]
    rw [value w, lowered w hw]
  · intro w
    simp only [place]
    rw [member w]
    by_cases hw : w < n
    · have zero : s.indeg[w]?.getD 0 - 1 = 0 ∧ w ∈ next v ↔
          pending next n (insert v done) w = ∅ ∧ w ∈ next v := by
        refine and_congr_left fun target => ?_
        rw [← Finset.card_eq_zero, ← lowered w hw, if_pos target]
      have same_pending : w ∉ next v → pending next n (insert v done) w = pending next n done w := by
        intro other
        rw [pending_insert, Finset.erase_eq_of_notMem]
        exact fun h => other ((pending_mem done v w).mp h).2.2
      have later : w ∈ next v → w ∉ done := by
        intro target old
        exact fresh (inv.order v w target old).1
      rw [TreeSet.mem_erase, inv.ready w, Finset.mem_insert]
      by_cases target : w ∈ next v
      · have unready : pending next n done w ≠ ∅ := by
          intro empty
          have : v ∈ pending next n done w := (pending_mem done v w).mpr ⟨small, fresh, target⟩
          simp [empty] at this
        have apart : w ≠ v := fun eq => self_free (eq ▸ target)
        simp only [target, and_true] at zero
        simp only [target, true_and, zero, unready, and_false, false_or, hw, apart, later target,
          not_false_eq_true, or_self]
      · simp only [target, false_and, or_false, same_pending target, hw, true_and,
          Nat.compare_eq_eq, ne_eq, not_or, @eq_comm _ v w]
        exact ⟨fun ⟨apart, old, empty⟩ => ⟨⟨apart, old⟩, empty⟩,
          fun ⟨⟨apart, old⟩, empty⟩ => ⟨apart, old, empty⟩⟩
    · have no_target : w ∉ next v := fun h => hw (rows.targets v w h)
      have not_ready : w ∉ s.ready := fun h => hw ((inv.ready w).mp h).1
      simp [no_target, hw, TreeSet.mem_erase, not_ready]
  · intro w hw
    simp only [place]
    rw [inv.rank_set small]
    split
    · omega
    · rename_i other
      have := inv.below w ((Finset.mem_insert.mp hw).resolve_left other)
      omega
  · intro u w arc hw
    simp only [place]
    rw [inv.rank_set small, inv.rank_set small]
    rcases Finset.mem_insert.mp hw with rfl | old
    · have placed : u ∈ done := by
        by_contra missing
        have : u ∈ pending next n done w := by
          exact (pending_mem done u w).mpr ⟨rows.origin arc, missing, arc⟩
        simp [none_left] at this
      have apart : u ≠ w := fun eq => fresh (eq ▸ placed)
      rw [if_neg apart, if_pos rfl]
      exact ⟨Finset.mem_insert_of_mem placed, inv.below u placed⟩
    · obtain ⟨placed, less⟩ := inv.order u w arc old
      have apart : u ≠ v := fun eq => fresh (eq ▸ placed)
      have apart' : w ≠ v := fun eq => fresh (eq ▸ old)
      rw [if_neg apart, if_neg apart']
      exact ⟨Finset.mem_insert_of_mem placed, less⟩

theorem least_ready {ready : TreeSet Nat} {v : Nat} (least : ready.toList.head? = some v) :
    v ∈ ready ∧ ∀ w ∈ ready, v ≤ w := by
  have ordered := TreeSet.ordered_toList (t := ready)
  obtain ⟨rest, shape⟩ := List.head?_eq_some_iff.mp least
  rw [shape, List.pairwise_cons] at ordered
  refine ⟨TreeSet.mem_toList.mp (List.mem_of_head? least), ?_⟩
  intro w hw
  have listed := TreeSet.mem_toList.mpr hw
  rw [shape] at listed
  rcases List.mem_cons.mp listed with rfl | later
  · exact Nat.le_refl _
  · exact Nat.le_of_lt (Nat.compare_eq_lt.mp (ordered.1 w later))

theorem ascending_place {done : Finset Nat} {s : State} {v : Nat} (inv : Progress next n done s)
    (ascending : Ascending next done s) (pick : v ∈ s.ready) (least : ∀ w ∈ s.ready, v ≤ w) :
    Ascending next (insert v done) (place next s v) := by
  obtain ⟨small, fresh, _⟩ := (inv.ready v).mp pick
  intro a ha b smaller later
  simp only [place, inv.rank_set small] at later ⊢
  rcases Finset.mem_insert.mp ha with rfl | old
  · -- a smaller id left behind is not ready, so a predecessor of it waits too
    have waits : b ∉ done := by
      intro placed
      have after := later (Finset.mem_insert_of_mem placed)
      rw [if_pos rfl, if_neg (Nat.ne_of_lt smaller)] at after
      have := inv.below b placed
      omega
    have blocked : pending next n done b ≠ ∅ := by
      intro none_left
      have := least b ((inv.ready b).mpr ⟨by omega, waits, none_left⟩)
      omega
    obtain ⟨c, hc⟩ := Finset.nonempty_iff_ne_empty.mpr blocked
    obtain ⟨_, missing, arc⟩ := (pending_mem done c b).mp hc
    exact ⟨c, arc, fun member => Or.inl ((Finset.mem_insert.mp member).resolve_right missing)⟩
  · have apart : a ≠ v := fun eq => fresh (eq ▸ old)
    have before : b ∈ done → s.rank[a]?.getD 0 < s.rank[b]?.getD 0 := by
      intro placed
      have after := later (Finset.mem_insert_of_mem placed)
      rwa [if_neg apart, if_neg (ne_of_mem_of_not_mem placed fresh)] at after
    obtain ⟨c, arc, waits⟩ := ascending a old b smaller before
    refine ⟨c, arc, ?_⟩
    intro member
    rw [if_neg apart]
    rcases Finset.mem_insert.mp member with rfl | placed
    · rw [if_pos rfl]
      exact Or.inr (inv.below a old)
    · rw [if_neg (ne_of_mem_of_not_mem placed fresh)]
      exact waits placed

/-- Enough fuel empties the ready set: each round places one of `n` ids. -/
theorem progress_run (rows : Rows next n sources) (fuel : Nat) {done : Finset Nat} {s : State}
    (inv : Progress next n done s) (ascending : Ascending next done s)
    (budget : n ≤ fuel + done.card) :
    ∃ final, Progress next n final (loop next fuel s) ∧
      Ascending next final (loop next fuel s) ∧ (∀ v, v ∉ (loop next fuel s).ready) := by
  induction fuel generalizing done s with
  | zero =>
    refine ⟨done, inv, ascending, ?_⟩
    intro v hv
    obtain ⟨small, fresh, _⟩ := (inv.ready v).mp hv
    have subset : insert v done ⊆ Finset.range n := by
      intro w hw
      rcases Finset.mem_insert.mp hw with rfl | old
      · exact Finset.mem_range.mpr small
      · exact Finset.mem_range.mpr (inv.bound w old)
    have := Finset.card_le_card subset
    rw [Finset.card_insert_of_notMem fresh, Finset.card_range] at this
    omega
  | succ fuel ih =>
    rw [loop]
    cases least : s.ready.toList.head? with
    | none =>
      refine ⟨done, inv, ascending, ?_⟩
      intro v hv
      have listed := TreeSet.mem_toList.mpr hv
      simp [List.head?_eq_none_iff.mp least] at listed
    | some v =>
      obtain ⟨pick, first⟩ := least_ready least
      have fresh := ((inv.ready v).mp pick).2.1
      refine ih (progress_place rows inv pick) (ascending_place inv ascending pick first) ?_
      rw [Finset.card_insert_of_notMem fresh]
      omega

theorem kahn_progress (rows : Rows next n sources) :
    ∃ done, Progress next n done (kahn next n (sources.map next)) ∧
      Ascending next done (kahn next n (sources.map next)) ∧
      ∀ v < n, v ∉ done → ∃ u < n, u ∉ done ∧ Arc next u v := by
  obtain ⟨done, inv, ascending, empty⟩ :=
    progress_run rows n (progress_start rows) (by simp [Ascending]) (by simp)
  refine ⟨done, inv, ascending, ?_⟩
  intro v small fresh
  have blocked : pending next n done v ≠ ∅ := by
    intro none_left
    exact empty v ((inv.ready v).mpr ⟨small, fresh, none_left⟩)
  obtain ⟨u, hu⟩ := Finset.nonempty_iff_ne_empty.mpr blocked
  obtain ⟨bound, missing, arc⟩ := (pending_mem done u v).mp hu
  exact ⟨u, bound, missing, arc⟩

theorem kahn_rank_length (rows : Rows next n sources) :
    (kahn next n (sources.map next)).rank.length = n := by
  obtain ⟨done, inv, _⟩ := kahn_progress rows
  exact inv.rank_size

theorem progress_full {done : Finset Nat} {s : State} (inv : Progress next n done s)
    (all : s.placed = n) {v : Nat} (small : v < n) : v ∈ done := by
  have full : done = Finset.range n := by
    refine Finset.eq_of_subset_of_card_le ?_ ?_
    · exact fun w hw => Finset.mem_range.mpr (inv.bound w hw)
    · rw [Finset.card_range, ← inv.count, all]
  exact full ▸ Finset.mem_range.mpr small

theorem kahn_ranks_increase (rows : Rows next n sources)
    (all : (kahn next n (sources.map next)).placed = n) {u v : Nat} (arc : Arc next u v) :
    (kahn next n (sources.map next)).rank[u]?.getD 0 <
      (kahn next n (sources.map next)).rank[v]?.getD 0 := by
  obtain ⟨done, inv, _⟩ := kahn_progress rows
  have target : v ∈ done := progress_full inv all (rows.targets u v arc)
  exact (inv.order u v arc target).2

/-- An id ranked before a smaller one is a predecessor of it or ranked before one. -/
theorem kahn_ranks_ascend (rows : Rows next n sources)
    (all : (kahn next n (sources.map next)).placed = n) {a b : Nat} (small : a < n)
    (smaller : b < a) (before : (kahn next n (sources.map next)).rank[a]?.getD 0 <
      (kahn next n (sources.map next)).rank[b]?.getD 0) :
    ∃ c, Arc next c b ∧ (c = a ∨ (kahn next n (sources.map next)).rank[a]?.getD 0 <
      (kahn next n (sources.map next)).rank[c]?.getD 0) := by
  obtain ⟨done, inv, ascending, _⟩ := kahn_progress rows
  obtain ⟨c, arc, waits⟩ :=
    ascending a (progress_full inv all small) b smaller fun _ => before
  exact ⟨c, arc, waits (progress_full inv all (rows.origin arc))⟩

/-- Kahn's loop places every id exactly when the arcs have no cycle. -/
theorem kahn_places_all_iff (rows : Rows next n sources) :
    (kahn next n (sources.map next)).placed = n ↔ Acyclic (Arc next) := by
  constructor
  · intro all
    exact ranked_acyclic fun _ _ arc => kahn_ranks_increase rows all arc
  · intro acyclic
    obtain ⟨done, inv, _, blocked⟩ := kahn_progress rows
    have full := acyclic_has_source acyclic (· ∉ done) blocked
    have same : Finset.range n ⊆ done := by
      intro v hv
      by_contra missing
      exact full v (Finset.mem_range.mp hv) missing
    have upper := progress_card_le inv
    have lower := Finset.card_le_card same
    rw [Finset.card_range] at lower
    rw [inv.count]
    omega

end Ranking

end KahnRank
