import Mathlib.Logic.Relation
import Mathlib.Data.List.Nodup
import Mathlib.Data.List.Perm.Subperm
import Mathlib.Data.List.Range

/-!
Breadth-first traversal of a finite graph on `0, ..., n-1` given by a neighbour
row for each id. A visited bitmap guards a first-in first-out queue of ids with
depths. Every reachable id is dequeued exactly once, at its shortest distance.
-/
namespace BreadthFirst

def Step (next : Nat → List Nat) (a b : Nat) : Prop := b ∈ next a

inductive Walk (r : Nat → Nat → Prop) : Nat → Nat → Nat → Prop where
  | zero (a : Nat) : Walk r 0 a a
  | snoc {k a b c : Nat} (walk : Walk r k a b) (step : r b c) : Walk r (k + 1) a c

def Shortest (r : Nat → Nat → Prop) (k a b : Nat) : Prop :=
  Walk r k a b ∧ ∀ j, Walk r j a b → k ≤ j

/-- One scan of a neighbour row. Unvisited ids are marked and returned in row order. -/
def discover : List Nat → List Bool → List Bool × List Nat
  | [], visited => (visited, [])
  | o :: row, visited =>
    if visited[o]?.getD false then discover row visited
    else
      let found := discover row (visited.set o true)
      (found.1, o :: found.2)

/-- The dequeued ids with their depths, in dequeue order. -/
def traverse (next : Nat → List Nat) : Nat → List Bool → List (Nat × Nat) → List (Nat × Nat)
  | 0, _, _ => []
  | _ + 1, _, [] => []
  | fuel + 1, visited, (v, d) :: queue =>
    let found := discover (next v) visited
    (v, d) :: traverse next fuel found.1 (queue ++ found.2.map (·, d + 1))

def markStart (n start : Nat) : List Bool := (List.replicate n false).set start true

def bfs (next : Nat → List Nat) (n start : Nat) : List (Nat × Nat) :=
  traverse next n (markStart n start) [(start, 0)]

/-- The loop that lists the ids as it discovers them. -/
def collect (next : Nat → List Nat) : Nat → List Bool → List Nat → List Nat → List Nat
  | 0, _, _, out => out
  | _ + 1, _, [], out => out
  | fuel + 1, visited, v :: queue, out =>
    let found := discover (next v) visited
    collect next fuel found.1 (queue ++ found.2) (out ++ found.2)

/-- What is discovered from a start, which itself is left out. -/
def discovered (next : Nat → List Nat) (n start : Nat) : List Nat :=
  collect next n (markStart n start) [start] []

theorem walk_reaches {r : Nat → Nat → Prop} {k a b : Nat} (walk : Walk r k a b) :
    Relation.ReflTransGen r a b := by
  induction walk with
  | zero a => exact .refl
  | snoc walk step ih => exact ih.tail step

theorem reaches_walk {r : Nat → Nat → Prop} {a b : Nat} (reach : Relation.ReflTransGen r a b) :
    ∃ k, Walk r k a b := by
  induction reach with
  | refl => exact ⟨0, .zero a⟩
  | tail _ step ih =>
    obtain ⟨k, walk⟩ := ih
    exact ⟨k + 1, walk.snoc step⟩

theorem shortest_unique {r : Nat → Nat → Prop} {j k a b : Nat}
    (hj : Shortest r j a b) (hk : Shortest r k a b) : j = k :=
  Nat.le_antisymm (hj.2 k hk.1) (hk.2 j hj.1)

section Discover

theorem lookup_set (visited : List Bool) (o x : Nat) (bound : o < visited.length) :
    (visited.set o true)[x]?.getD false = (decide (x = o) || visited[x]?.getD false) := by
  by_cases same : x = o
  · subst x
    simp [bound]
  · simp [List.getElem?_set_ne (Ne.symm same), same]

theorem discover_length (row : List Nat) (visited : List Bool) :
    (discover row visited).1.length = visited.length := by
  induction row generalizing visited with
  | nil => rfl
  | cons o row ih =>
    simp only [discover]
    split
    · exact ih visited
    · simpa using ih (visited.set o true)

theorem discover_member (row : List Nat) (visited : List Bool)
    (bound : ∀ o ∈ row, o < visited.length) (x : Nat) :
    x ∈ (discover row visited).2 ↔ x ∈ row ∧ visited[x]?.getD false = false := by
  induction row generalizing visited with
  | nil => simp [discover]
  | cons o row ih =>
    have rest : ∀ p ∈ row, p < visited.length := fun p hp => bound p (List.mem_cons_of_mem o hp)
    simp only [discover]
    split
    · rename_i seen
      rw [ih visited rest, List.mem_cons]
      constructor
      · exact fun h => ⟨Or.inr h.1, h.2⟩
      · rintro ⟨rfl | h, fresh⟩
        · simp [seen] at fresh
        · exact ⟨h, fresh⟩
    · rename_i unseen
      have here : o < visited.length := bound o List.mem_cons_self
      simp only [List.mem_cons]
      rw [ih _ (by simpa using rest), lookup_set visited o x here]
      by_cases same : x = o
      · subst x
        simpa using unseen
      · simp [same]

theorem discover_nodup (row : List Nat) (visited : List Bool)
    (bound : ∀ o ∈ row, o < visited.length) : (discover row visited).2.Nodup := by
  induction row generalizing visited with
  | nil => simp [discover]
  | cons o row ih =>
    have rest : ∀ p ∈ row, p < visited.length := fun p hp => bound p (List.mem_cons_of_mem o hp)
    simp only [discover]
    split
    · exact ih visited rest
    · have here : o < visited.length := bound o List.mem_cons_self
      refine List.nodup_cons.mpr ⟨?_, ih _ (by simpa using rest)⟩
      rw [discover_member _ _ (by simpa using rest), lookup_set visited o o here]
      simp

theorem discover_marks (row : List Nat) (visited : List Bool)
    (bound : ∀ o ∈ row, o < visited.length) (x : Nat) :
    (discover row visited).1[x]?.getD false = true ↔
      visited[x]?.getD false = true ∨ x ∈ (discover row visited).2 := by
  induction row generalizing visited with
  | nil => simp [discover]
  | cons o row ih =>
    have rest : ∀ p ∈ row, p < visited.length := fun p hp => bound p (List.mem_cons_of_mem o hp)
    simp only [discover]
    split
    · exact ih visited rest
    · have here : o < visited.length := bound o List.mem_cons_self
      rw [ih _ (by simpa using rest), lookup_set visited o x here]
      simp only [Bool.or_eq_true, decide_eq_true_eq, List.mem_cons]
      tauto

end Discover

/-- The loop invariant: `done` are the dequeued entries, `queue` the pending ones.
    Depths never decrease from `done` into `queue` and spread by at most one. -/
structure Frontier (next : Nat → List Nat) (n start : Nat) (done : List (Nat × Nat))
    (visited : List Bool) (queue : List (Nat × Nat)) : Prop where
  size : visited.length = n
  marked : ∀ v, visited[v]?.getD false = true ↔ v ∈ (done ++ queue).map Prod.fst
  distinct : ((done ++ queue).map Prod.fst).Nodup
  bound : ∀ p ∈ done ++ queue, p.1 < n
  sound : ∀ p ∈ done ++ queue, Walk (Step next) p.2 start p.1
  root : (start, 0) ∈ done ++ queue
  closed : ∀ p ∈ done, ∀ o ∈ next p.1, ∃ d, (o, d) ∈ done ++ queue ∧ d ≤ p.2 + 1
  ordered : (done ++ queue).Pairwise (fun p q => p.2 ≤ q.2)
  spread : ∀ p ∈ queue, ∀ q ∈ queue, q.2 ≤ p.2 + 1

theorem frontier_start {next : Nat → List Nat} {n start : Nat} (valid : start < n) :
    Frontier next n start [] (markStart n start) [(start, 0)] where
  size := by simp [markStart]
  marked := by
    intro v
    rw [markStart, lookup_set _ _ _ (by simpa using valid)]
    by_cases inside : v < n <;> simp [inside]
  distinct := by simp
  bound := by simpa using valid
  sound := by
    intro p member
    have same : p = (start, 0) := by simpa using member
    subst p
    exact .zero start
  root := by simp
  closed := by simp
  ordered := by simp
  spread := by simp

section Advance
variable {next : Nat → List Nat} {n start v d : Nat} {done queue : List (Nat × Nat)}
  {visited : List Bool}

theorem fresh_pairs (xs : List Nat) (d : Nat) : (xs.map (·, d)).map Prod.fst = xs := by
  simp [Function.comp_def]

theorem frontier_step (rows : ∀ a < n, ∀ o ∈ next a, o < n)
    (inv : Frontier next n start done visited ((v, d) :: queue)) :
    Frontier next n start (done ++ [(v, d)]) (discover (next v) visited).1
      (queue ++ (discover (next v) visited).2.map (·, d + 1)) := by
  have hv : v < n := inv.bound (v, d) (by simp)
  have row : ∀ o ∈ next v, o < visited.length := by
    intro o ho
    rw [inv.size]
    exact rows v hv o ho
  have fresh := discover_member (next v) visited row
  have shape : done ++ [(v, d)] ++ (queue ++ (discover (next v) visited).2.map (·, d + 1)) =
      (done ++ (v, d) :: queue) ++ (discover (next v) visited).2.map (·, d + 1) := by simp
  have late : ∀ p ∈ done ++ (v, d) :: queue, p.2 ≤ d + 1 := by
    intro p member
    rcases List.mem_append.mp member with early | pending
    · have := (List.pairwise_append.mp inv.ordered).2.2 p early (v, d) (by simp)
      simp only at this
      omega
    · exact inv.spread (v, d) (by simp) p pending
  constructor
  · rw [discover_length, inv.size]
  · intro w
    rw [discover_marks _ _ row, inv.marked w, shape]
    simp only [List.map_append, List.mem_append, fresh_pairs]
  · rw [shape, List.map_append, fresh_pairs]
    refine inv.distinct.append (discover_nodup _ _ row) ?_
    intro w old new
    have unseen := ((fresh w).mp new).2
    rw [(inv.marked w).mpr old] at unseen
    exact Bool.noConfusion unseen
  · rw [shape]
    intro p member
    rcases List.mem_append.mp member with old | new
    · exact inv.bound p old
    · obtain ⟨o, ho, rfl⟩ := List.mem_map.mp new
      exact rows v hv o ((fresh o).mp ho).1
  · rw [shape]
    intro p member
    rcases List.mem_append.mp member with old | new
    · exact inv.sound p old
    · obtain ⟨o, ho, rfl⟩ := List.mem_map.mp new
      exact (inv.sound (v, d) (by simp)).snoc ((fresh o).mp ho).1
  · rw [shape]
    exact List.mem_append_left _ inv.root
  · rw [shape]
    intro p member o ho
    rcases List.mem_append.mp member with old | here
    · obtain ⟨e, found, le⟩ := inv.closed p old o ho
      exact ⟨e, List.mem_append_left _ found, le⟩
    · have same : p = (v, d) := by simpa using here
      subst p
      by_cases seen : visited[o]?.getD false = true
      · obtain ⟨q, found, eq⟩ := List.mem_map.mp ((inv.marked o).mp seen)
        refine ⟨q.2, List.mem_append_left _ ?_, late q found⟩
        rw [← eq]
        exact found
      · refine ⟨d + 1, List.mem_append_right _ ?_, Nat.le_refl _⟩
        exact List.mem_map_of_mem ((fresh o).mpr ⟨ho, by simpa using seen⟩)
  · rw [shape, List.pairwise_append]
    refine ⟨inv.ordered, ?_, ?_⟩
    · exact List.pairwise_map.mpr (List.pairwise_of_forall fun _ _ => Nat.le_refl _)
    · intro p old q new
      obtain ⟨o, _, rfl⟩ := List.mem_map.mp new
      exact late p old
  · have least : ∀ q ∈ queue, d ≤ q.2 := by
      intro q hq
      have tail := (List.pairwise_append.mp inv.ordered).2.1
      exact (List.pairwise_cons.mp tail).1 q hq
    intro p hp q hq
    rcases List.mem_append.mp hp with hp | hp <;> rcases List.mem_append.mp hq with hq | hq
    · exact inv.spread p (List.mem_cons_of_mem _ hp) q (List.mem_cons_of_mem _ hq)
    · obtain ⟨o, _, rfl⟩ := List.mem_map.mp hq
      have := least p hp
      simp only
      omega
    · obtain ⟨o, _, rfl⟩ := List.mem_map.mp hp
      have := inv.spread (v, d) (by simp) q (List.mem_cons_of_mem _ hq)
      simp only at this ⊢
      omega
    · obtain ⟨o, _, rfl⟩ := List.mem_map.mp hp
      obtain ⟨u, _, rfl⟩ := List.mem_map.mp hq
      simp

end Advance

theorem frontier_length {next : Nat → List Nat} {n start : Nat} {done queue : List (Nat × Nat)}
    {visited : List Bool} (inv : Frontier next n start done visited queue) :
    done.length + queue.length ≤ n := by
  have subset : (done ++ queue).map Prod.fst ⊆ List.range n := by
    intro v hv
    obtain ⟨p, hp, rfl⟩ := List.mem_map.mp hv
    exact List.mem_range.mpr (inv.bound p hp)
  simpa using inv.distinct.length_le_of_subset subset

/-- Enough fuel empties the queue: each round dequeues one of at most `n` ids. -/
theorem frontier_run {next : Nat → List Nat} {n start : Nat} (rows : ∀ a < n, ∀ o ∈ next a, o < n)
    (fuel : Nat) {done queue : List (Nat × Nat)} {visited : List Bool}
    (inv : Frontier next n start done visited queue) (budget : n ≤ fuel + done.length) :
    ∃ final, Frontier next n start (done ++ traverse next fuel visited queue) final [] := by
  induction fuel generalizing done visited queue with
  | zero =>
    have full := frontier_length inv
    have empty : queue = [] := List.length_eq_zero_iff.mp (by omega)
    subst queue
    exact ⟨visited, by simpa [traverse] using inv⟩
  | succ fuel ih =>
    cases queue with
    | nil => exact ⟨visited, by simpa [traverse] using inv⟩
    | cons p queue =>
      obtain ⟨v, d⟩ := p
      obtain ⟨final, done'⟩ := ih (frontier_step rows inv) (by simp; omega)
      exact ⟨final, by simpa [traverse] using done'⟩

section Exactness
variable {next : Nat → List Nat} {n start : Nat}

theorem frontier_complete {done : List (Nat × Nat)} {visited : List Bool}
    (inv : Frontier next n start done visited []) {k v : Nat} (walk : Walk (Step next) k start v) :
    ∃ d, (v, d) ∈ done ∧ d ≤ k := by
  generalize same : start = a at walk
  induction walk with
  | zero a =>
    subst a
    exact ⟨0, by simpa using inv.root, Nat.le_refl 0⟩
  | snoc walk step ih =>
    obtain ⟨d, found, le⟩ := ih same
    obtain ⟨e, next_found, next_le⟩ := inv.closed _ found _ step
    exact ⟨e, by simpa using next_found, by simp only at next_le; omega⟩

theorem bfs_frontier (rows : ∀ a < n, ∀ o ∈ next a, o < n) (valid : start < n) :
    ∃ final, Frontier next n start (bfs next n start) final [] := by
  simpa [bfs] using frontier_run rows n (frontier_start valid) (by simp)

theorem bfs_nodup (rows : ∀ a < n, ∀ o ∈ next a, o < n) (valid : start < n) :
    ((bfs next n start).map Prod.fst).Nodup := by
  obtain ⟨final, inv⟩ := bfs_frontier rows valid
  simpa using inv.distinct

theorem bfs_exact (rows : ∀ a < n, ∀ o ∈ next a, o < n) (valid : start < n) (v d : Nat) :
    (v, d) ∈ bfs next n start ↔ Shortest (Step next) d start v := by
  obtain ⟨final, inv⟩ := bfs_frontier rows valid
  have sound : ∀ {w e}, (w, e) ∈ bfs next n start → Shortest (Step next) e start w := by
    intro w e member
    refine ⟨inv.sound (w, e) (by simpa using member), ?_⟩
    intro j walk
    obtain ⟨f, found, le⟩ := frontier_complete inv walk
    have same := List.inj_on_of_nodup_map (by simpa using inv.distinct) member found rfl
    have : e = f := congrArg Prod.snd same
    omega
  constructor
  · exact sound
  · intro shortest
    obtain ⟨e, found, _⟩ := frontier_complete inv shortest.1
    rw [shortest_unique shortest (sound found)]
    exact found

theorem bfs_reaches (rows : ∀ a < n, ∀ o ∈ next a, o < n) (valid : start < n) (v : Nat) :
    v ∈ (bfs next n start).map Prod.fst ↔ Relation.ReflTransGen (Step next) start v := by
  constructor
  · intro member
    obtain ⟨⟨w, d⟩, found, rfl⟩ := List.mem_map.mp member
    exact walk_reaches ((bfs_exact rows valid w d).mp found).1
  · intro reach
    obtain ⟨final, inv⟩ := bfs_frontier rows valid
    obtain ⟨k, walk⟩ := reaches_walk reach
    obtain ⟨d, found, _⟩ := frontier_complete inv walk
    exact List.mem_map_of_mem found

/-- The ids are discovered in the order in which they leave the queue. -/
theorem collect_traverse (rows : ∀ a < n, ∀ o ∈ next a, o < n) (fuel : Nat) (out : List Nat)
    {done queue : List (Nat × Nat)} {visited : List Bool}
    (inv : Frontier next n start done visited queue) (budget : n ≤ fuel + done.length) :
    ∃ rest, collect next fuel visited (queue.map Prod.fst) out = out ++ rest ∧
      (traverse next fuel visited queue).map Prod.fst = queue.map Prod.fst ++ rest := by
  induction fuel generalizing done queue visited out with
  | zero =>
    have full := frontier_length inv
    have empty : queue = [] := List.length_eq_zero_iff.mp (by omega)
    rw [empty]
    exact ⟨[], (List.append_nil out).symm, rfl⟩
  | succ fuel ih =>
    cases queue with
    | nil => exact ⟨[], (List.append_nil out).symm, rfl⟩
    | cons entry queue =>
      obtain ⟨v, d⟩ := entry
      have later : n ≤ fuel + (done ++ [(v, d)]).length := by
        rw [List.length_append, List.length_singleton]
        omega
      obtain ⟨rest, collected, traversed⟩ :=
        ih (out ++ (discover (next v) visited).2) (frontier_step rows inv) later
      rw [List.map_append, fresh_pairs] at collected traversed
      refine ⟨(discover (next v) visited).2 ++ rest, ?_, ?_⟩
      · rw [List.map_cons, collect, collected, List.append_assoc]
      · rw [traverse, List.map_cons, traversed, List.map_cons, List.cons_append, List.append_assoc]

theorem discovered_bfs (rows : ∀ a < n, ∀ o ∈ next a, o < n) (valid : start < n) :
    (bfs next n start).map Prod.fst = start :: discovered next n start := by
  obtain ⟨rest, collected, traversed⟩ :=
    collect_traverse rows n [] (frontier_start valid) (Nat.le_add_right n 0)
  rw [bfs, traversed, discovered]
  exact congrArg (List.cons start) collected.symm

theorem discovered_nodup (rows : ∀ a < n, ∀ o ∈ next a, o < n) (valid : start < n) :
    (discovered next n start).Nodup := by
  have distinct := bfs_nodup rows valid
  rw [discovered_bfs rows valid] at distinct
  exact (List.nodup_cons.mp distinct).2

/-- What is discovered is what other ids a path leads to. -/
theorem mem_discovered (rows : ∀ a < n, ∀ o ∈ next a, o < n) (valid : start < n) (v : Nat) :
    v ∈ discovered next n start ↔ v ≠ start ∧ Relation.TransGen (Step next) start v := by
  have reaches := bfs_reaches rows valid v
  have distinct := bfs_nodup rows valid
  rw [discovered_bfs rows valid] at reaches distinct
  rw [List.mem_cons] at reaches
  constructor
  · intro member
    have apart : v ≠ start := by
      rintro rfl
      exact (List.nodup_cons.mp distinct).1 member
    rcases Relation.reflTransGen_iff_eq_or_transGen.mp (reaches.mp (Or.inr member)) with same | path
    · exact absurd same apart
    · exact ⟨apart, path⟩
  · intro h
    obtain ⟨apart, path⟩ := h
    rcases reaches.mpr path.to_reflTransGen with same | member
    · exact absurd same apart
    · exact member

end Exactness

end BreadthFirst
