import Mathlib.Data.List.Count
import Mathlib.Data.List.Pairwise

/-!
Sublists of one list, each the elements with a property, put one behind the other: when
they are the elements with any of the properties in the order of the list.
-/
namespace FilterUnion
variable {α τ : Type} {P Q : α → Bool} {xs : List α}

/-- No element has both properties, and those with the first come before those with the
    second. -/
structure Before (P Q : α → Bool) (xs : List α) : Prop where
  apart : ∀ x ∈ xs, ¬ (P x = true ∧ Q x = true)
  ordered : xs.Pairwise fun x y => ¬ (Q x = true ∧ P y = true)

section Maps
variable {β : Type} {f : α → β} {P Q : β → Bool}

theorem before_map : Before P Q (xs.map f) ↔ Before (fun x => P (f x)) (fun x => Q (f x)) xs := by
  constructor
  · intro before
    have apart := before.apart
    rw [List.forall_mem_map] at apart
    exact ⟨apart, List.pairwise_map.mp before.ordered⟩
  · intro before
    constructor
    · rw [List.forall_mem_map]
      exact before.apart
    · exact List.pairwise_map.mpr before.ordered

theorem filterMap_if {g : α → Option β} {p : α → Bool}
    (same : ∀ x ∈ xs, g x = if p x then some (f x) else none) :
    xs.filterMap g = (xs.filter p).map f := by
  induction xs with
  | nil => rfl
  | cons x xs ih =>
    have first := same x List.mem_cons_self
    have rest := ih fun y member => same y (List.mem_cons_of_mem x member)
    cases selected : p x with
    | true =>
      rw [selected, if_pos rfl] at first
      rw [List.filterMap_cons_some first, List.filter_cons_of_pos selected, List.map_cons, rest]
    | false =>
      rw [selected, if_neg Bool.false_ne_true] at first
      rw [List.filterMap_cons_none first, List.filter_cons_of_neg (by rw [selected]; nofun), rest]

end Maps

section Two

theorem countP_or_add_and (P Q : α → Bool) (xs : List α) :
    xs.countP (fun x => P x || Q x) + xs.countP (fun x => P x && Q x) =
      xs.countP P + xs.countP Q := by
  induction xs with
  | nil => rfl
  | cons x xs ih =>
    rw [List.countP_cons, List.countP_cons, List.countP_cons, List.countP_cons]
    cases P x <;> cases Q x <;> simp <;> omega

/-- Every element is counted at least once. -/
theorem countP_or_le (P Q : α → Bool) (xs : List α) :
    xs.countP (fun x => P x || Q x) ≤ xs.countP P + xs.countP Q := by
  have sum := countP_or_add_and P Q xs
  omega

theorem Before.tail {x : α} (before : Before P Q (x :: xs)) : Before P Q xs :=
  ⟨fun y member => before.apart y (List.mem_cons_of_mem x member), before.ordered.of_cons⟩

/-- Behind an element of the second kind there is none of the first. -/
theorem Before.none_left {x : α} (before : Before P Q (x :: xs)) (second : Q x = true) :
    xs.filter P = [] := by
  rw [List.filter_eq_nil_iff]
  intro y member first
  exact List.rel_of_pairwise_cons before.ordered member ⟨second, first⟩

theorem filter_append_of_before (before : Before P Q xs) :
    xs.filter P ++ xs.filter Q = xs.filter fun x => P x || Q x := by
  induction xs with
  | nil => rfl
  | cons x xs ih =>
    have rest := ih before.tail
    have apart := before.apart x List.mem_cons_self
    cases first : P x with
    | true =>
      have not_second : Q x = false := by
        cases second : Q x with
        | false => rfl
        | true => exact absurd ⟨first, second⟩ apart
      simp only [List.filter_cons, first, not_second, Bool.or_false, if_true, Bool.false_eq_true,
        if_false, List.cons_append, rest]
    | false =>
      cases second : Q x with
      | true =>
        rw [before.none_left second, List.nil_append] at rest
        simp only [List.filter_cons, first, second, Bool.or_true, if_true, Bool.false_eq_true,
          if_false, before.none_left second, List.nil_append, rest]
      | false =>
        simp only [List.filter_cons, first, second, Bool.or_false, Bool.false_eq_true, if_false,
          rest]

theorem apart_of_filter_append
    (union : xs.filter P ++ xs.filter Q = xs.filter fun x => P x || Q x) :
    ∀ x ∈ xs, ¬ (P x = true ∧ Q x = true) := by
  have sizes := congrArg List.length union
  rw [List.length_append, ← List.countP_eq_length_filter, ← List.countP_eq_length_filter,
    ← List.countP_eq_length_filter] at sizes
  have sum := countP_or_add_and P Q xs
  have none_both : xs.countP (fun x => P x && Q x) = 0 := by omega
  intro x member both
  apply List.countP_eq_zero.mp none_both x member
  rw [both.1, both.2]
  rfl

/-- The first element comes from the first sublist, or that sublist is empty. -/
theorem tail_of_filter_append {x : α} (apart : ¬ (P x = true ∧ Q x = true))
    (union : (x :: xs).filter P ++ (x :: xs).filter Q = (x :: xs).filter fun x => P x || Q x) :
    (xs.filter P ++ xs.filter Q = xs.filter fun x => P x || Q x) ∧
      (Q x = true → xs.filter P = []) := by
  simp only [List.filter_cons] at union
  cases first : P x with
  | true =>
    have not_second : Q x = false := by
      cases second : Q x with
      | false => rfl
      | true => exact absurd ⟨first, second⟩ apart
    simp only [first, not_second, Bool.or_false, if_true, Bool.false_eq_true, if_false,
      List.cons_append] at union
    rw [not_second]
    exact ⟨(List.cons.inj union).2, nofun⟩
  | false =>
    cases second : Q x with
    | false =>
      simp only [first, second, Bool.or_false, Bool.false_eq_true, if_false] at union
      exact ⟨union, nofun⟩
    | true =>
      simp only [first, second, Bool.or_true, if_true, Bool.false_eq_true, if_false] at union
      cases earlier : xs.filter P with
      | nil =>
        rw [earlier] at union
        exact ⟨(List.cons.inj union).2, fun _ => rfl⟩
      | cons y ys =>
        have from_first : y ∈ xs.filter P := by
          rw [earlier]
          exact List.mem_cons_self
        rw [earlier] at union
        obtain ⟨rfl, _⟩ := List.cons.inj union
        rw [(List.mem_filter.mp from_first).2] at first
        cases first

theorem before_of_filter_append
    (union : xs.filter P ++ xs.filter Q = xs.filter fun x => P x || Q x) : Before P Q xs := by
  induction xs with
  | nil => exact ⟨fun _ member => absurd member List.not_mem_nil, List.Pairwise.nil⟩
  | cons x xs ih =>
    have apart := apart_of_filter_append union
    obtain ⟨rest, none_left⟩ := tail_of_filter_append (apart x List.mem_cons_self) union
    refine ⟨apart, List.pairwise_cons.mpr ⟨?_, (ih rest).ordered⟩⟩
    intro y member both
    exact List.filter_eq_nil_iff.mp (none_left both.1) y member both.2

theorem filter_append_iff :
    (xs.filter P ++ xs.filter Q = xs.filter fun x => P x || Q x) ↔ Before P Q xs :=
  ⟨before_of_filter_append, filter_append_of_before⟩

end Two

section Many
variable {p : τ → α → Bool} {ts : List τ}

theorem before_any {t : τ} :
    Before (p t) (fun x => ts.any (p · x)) xs ↔ ∀ s ∈ ts, Before (p t) (p s) xs := by
  constructor
  · intro before s member
    constructor
    · intro x inside both
      exact before.apart x inside ⟨both.1, List.any_eq_true.mpr ⟨s, member, both.2⟩⟩
    · apply before.ordered.imp
      intro x y none_both both
      exact none_both ⟨List.any_eq_true.mpr ⟨s, member, both.1⟩, both.2⟩
  · intro before
    constructor
    · intro x inside both
      obtain ⟨s, member, asked⟩ := List.any_eq_true.mp both.2
      exact (before s member).apart x inside ⟨both.1, asked⟩
    · apply List.pairwise_iff_forall_sublist.mpr
      intro x y sub both
      obtain ⟨s, member, asked⟩ := List.any_eq_true.mp both.1
      exact List.pairwise_iff_forall_sublist.mp (before s member).ordered sub ⟨asked, both.2⟩

theorem countP_any_le (ts : List τ) :
    xs.countP (fun x => ts.any (p · x)) ≤ (ts.flatMap fun t => xs.filter (p t)).length := by
  induction ts with
  | nil => simp
  | cons t ts ih =>
    have step := countP_or_le (p t) (fun x => ts.any (p · x)) xs
    have size : xs.countP (p t) = (xs.filter (p t)).length := List.countP_eq_length_filter
    simp only [List.any_cons, List.flatMap_cons, List.length_append]
    omega

/-- Without what the first property selects the other sublists are again in the order of the
    list. -/
theorem flatMap_tail {t : τ}
    (union : ((t :: ts).flatMap fun t => xs.filter (p t)) =
      xs.filter fun x => (t :: ts).any (p · x)) :
    (ts.flatMap fun t => xs.filter (p t)) = xs.filter fun x => ts.any (p · x) := by
  have apart : ∀ x ∈ xs, p t x = true → ¬ ts.any (p · x) = true := by
    have sizes := congrArg List.length union
    have least := @countP_any_le _ _ xs p ts
    have sum := countP_or_add_and (p t) (fun x => ts.any (p · x)) xs
    simp only [List.flatMap_cons, List.length_append, List.any_cons,
      ← List.countP_eq_length_filter] at sizes
    have none_both : xs.countP (fun x => p t x && ts.any (p · x)) = 0 := by omega
    intro x member first later
    apply List.countP_eq_zero.mp none_both x member
    rw [first, later]
    rfl
  have first_gone : (xs.filter (p t)).filter (fun x => ts.any (p · x)) = [] := by
    rw [List.filter_eq_nil_iff]
    intro x member
    obtain ⟨inside, first⟩ := List.mem_filter.mp member
    exact apart x inside first
  have later_stay : (ts.flatMap fun t => xs.filter (p t)).filter (fun x => ts.any (p · x)) =
      ts.flatMap fun t => xs.filter (p t) := by
    rw [List.filter_eq_self]
    intro x member
    obtain ⟨s, inside, selected⟩ := List.mem_flatMap.mp member
    exact List.any_eq_true.mpr ⟨s, inside, (List.mem_filter.mp selected).2⟩
  have filtered := congrArg (List.filter fun x => ts.any (p · x)) union
  rw [List.flatMap_cons, List.filter_append, first_gone, later_stay, List.nil_append,
    List.filter_filter] at filtered
  rw [filtered]
  apply List.filter_congr
  intro x _
  rw [List.any_cons]
  cases ts.any (p · x) <;> simp

theorem flatMap_filter_iff :
    (ts.flatMap fun t => xs.filter (p t)) = (xs.filter fun x => ts.any (p · x)) ↔
      ts.Pairwise fun t s => Before (p t) (p s) xs := by
  induction ts with
  | nil => simp
  | cons t ts ih =>
    rw [List.pairwise_cons, ← before_any, ← ih, ← filter_append_iff]
    constructor
    · intro union
      have rest := flatMap_tail union
      rw [List.flatMap_cons, rest] at union
      exact ⟨union, rest⟩
    · intro h
      obtain ⟨union, rest⟩ := h
      rw [List.flatMap_cons, rest]
      exact union

/-- One of two properties selects nothing. -/
def Idle (P Q : α → Bool) (xs : List α) : Prop :=
  (∀ x ∈ xs, ¬ P x = true) ∨ ∀ x ∈ xs, ¬ Q x = true

theorem idle_map {β : Type} {f : α → β} {P Q : β → Bool} :
    Idle P Q (xs.map f) ↔ Idle (fun x => P (f x)) (fun x => Q (f x)) xs := by
  rw [Idle, List.forall_mem_map, List.forall_mem_map, Idle]

theorem Idle.symm (idle : Idle P Q xs) : Idle Q P xs := Or.symm idle

theorem Idle.before (idle : Idle P Q xs) : Before P Q xs := by
  have none_both : ∀ x ∈ xs, ∀ y ∈ xs, ¬ (Q x = true ∧ P y = true) := by
    intro x first y second both
    rcases idle with none_left | none_right
    · exact none_left y second both.2
    · exact none_right x first both.1
  constructor
  · intro x member both
    exact none_both x member x member both.symm
  · exact List.Pairwise.imp_of_mem (fun first second _ => none_both _ first _ second)
      (List.pairwise_of_forall fun _ _ => trivial)

/-- Each before the other. -/
theorem idle_of_before (before : Before P Q xs) (before' : Before Q P xs) : Idle P Q xs := by
  have both_ways : xs.Pairwise fun x y => ¬ (Q x = true ∧ P y = true) ∧ ¬ (P x = true ∧ Q y = true) :=
    before.ordered.and before'.ordered
  have anywhere : ∀ x ∈ xs, ∀ y ∈ xs, ¬ (Q x = true ∧ P y = true) ∧ ¬ (P x = true ∧ Q y = true) := by
    have symmetric : Std.Symm fun x y =>
        ¬ (Q x = true ∧ P y = true) ∧ ¬ (P x = true ∧ Q y = true) := by
      constructor
      intro x y h
      exact ⟨fun both => h.2 both.symm, fun both => h.1 both.symm⟩
    intro x first y second
    apply List.Pairwise.forall_of_forall _ both_ways first second
    intro x member
    exact ⟨fun both => before.apart x member both.symm, before.apart x member⟩
  by_cases some_left : ∃ x ∈ xs, P x = true
  · obtain ⟨x, member, first⟩ := some_left
    right
    intro y inside second
    exact (anywhere y inside x member).1 ⟨second, first⟩
  · left
    intro x member first
    exact some_left ⟨x, member, first⟩

/-- The order of the properties does not matter. -/
theorem flatMap_filter_perm_iff :
    (∀ ss : List τ, ss.Perm ts →
      (ss.flatMap fun t => xs.filter (p t)) = xs.filter fun x => ts.any (p · x)) ↔
      ts.Pairwise fun t s => Idle (p t) (p s) xs := by
  have any_perm {ss : List τ} (perm : ss.Perm ts) :
      (xs.filter fun x => ss.any (p · x)) = xs.filter fun x => ts.any (p · x) := by
    apply List.filter_congr
    intro x _
    exact perm.any_eq
  constructor
  · intro union
    have forward := flatMap_filter_iff.mp (union ts (List.Perm.refl ts))
    have reversed := union ts.reverse ts.reverse_perm
    rw [← any_perm ts.reverse_perm] at reversed
    have backward := List.pairwise_reverse.mp (flatMap_filter_iff.mp reversed)
    exact (forward.and backward).imp fun h => idle_of_before h.1 h.2
  · intro idle ss perm
    have idle' : ss.Pairwise fun t s => Idle (p t) (p s) xs :=
      (perm.pairwise_iff fun h => h.symm).mpr idle
    rw [← any_perm perm]
    exact flatMap_filter_iff.mpr (idle'.imp Idle.before)

end Many

end FilterUnion
