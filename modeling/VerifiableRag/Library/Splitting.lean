import Mathlib.Data.List.Basic
import Mathlib.Data.List.Nodup

/-!
Lists cut at separators, and the pieces of what is kept of them.
-/
namespace Splitting
variable {α : Type} {p q : α → Bool}

section Cutting

theorem splitOnP_last (p : α → Bool) (l : List α) : ∃ front last, l.splitOnP p = front ++ [last] := by
  rcases List.eq_nil_or_concat (l.splitOnP p) with empty | ⟨front, last, cut⟩
  · exact absurd empty (List.splitOnP_ne_nil p l)
  · exact ⟨front, last, cut.trans List.concat_eq_append⟩

theorem splitOnP_snoc_sep {x : α} (separates : p x) (l : List α) :
    (l ++ [x]).splitOnP p = l.splitOnP p ++ [[]] := by
  rw [List.splitOnP_append_cons l [] separates, List.splitOnP_nil]

/-- What is no separator goes to the last part. -/
theorem splitOnP_snoc {x : α} {l last : List α} {front : List (List α)} (inside : p x = false)
    (cut : l.splitOnP p = front ++ [last]) : (l ++ [x]).splitOnP p = front ++ [last ++ [x]] := by
  induction l generalizing front last with
  | nil =>
    rw [List.splitOnP_nil, ← List.nil_append [[]]] at cut
    obtain ⟨rfl, same⟩ := List.append_inj' cut rfl
    cases same
    rw [List.nil_append, List.splitOnP_eq_singleton (by simpa using inside)]
    rfl
  | cons y l ih =>
    obtain ⟨front', last', cut'⟩ := splitOnP_last p l
    rw [List.splitOnP_cons_eq_if_modifyHead, cut'] at cut
    rw [List.cons_append, List.splitOnP_cons_eq_if_modifyHead, ih cut']
    by_cases separates : p y
    · rw [if_pos separates] at cut ⊢
      rw [← List.cons_append] at cut ⊢
      obtain ⟨rfl, same⟩ := List.append_inj' cut rfl
      cases same
      rfl
    · rw [if_neg separates] at cut ⊢
      cases front' with
      | nil =>
        rw [List.nil_append, List.modifyHead_cons, ← List.nil_append [y :: last']] at cut
        obtain ⟨rfl, same⟩ := List.append_inj' cut rfl
        cases same
        rfl
      | cons first front' =>
        rw [List.cons_append, List.modifyHead_cons, ← List.cons_append] at cut ⊢
        obtain ⟨rfl, same⟩ := List.append_inj' cut rfl
        cases same
        rfl

theorem mem_of_mem_splitOnP {l part : List α} {x : α} (cut : part ∈ l.splitOnP p)
    (member : x ∈ part) : x ∈ l := by
  induction l generalizing part with
  | nil =>
    rw [List.splitOnP_nil, List.mem_singleton] at cut
    rw [cut] at member
    exact member
  | cons y l ih =>
    rw [List.splitOnP_cons_eq_if_modifyHead] at cut
    split at cut
    · rcases List.mem_cons.mp cut with rfl | cut
      · cases member
      · exact List.mem_cons_of_mem y (ih cut member)
    · obtain ⟨first, rest, parts⟩ := List.exists_cons_of_ne_nil (List.splitOnP_ne_nil p l)
      rw [parts, List.modifyHead_cons] at cut
      rcases List.mem_cons.mp cut with rfl | later
      · rcases List.mem_cons.mp member with rfl | member
        · exact List.mem_cons_self
        · exact List.mem_cons_of_mem y (ih (parts ▸ List.mem_cons_self) member)
      · exact List.mem_cons_of_mem y (ih (parts ▸ List.mem_cons_of_mem first later) member)

theorem splitOnP_run {run : List α} (plain : ∀ x ∈ run, p x = false) (back : List α) :
    (run ++ back).splitOnP p = (back.splitOnP p).modifyHead (run ++ ·) := by
  obtain ⟨first, rest, parts⟩ := List.exists_cons_of_ne_nil (List.splitOnP_ne_nil p back)
  induction run with
  | nil => rw [List.nil_append, parts, List.modifyHead_cons, List.nil_append]
  | cons y run ih =>
    obtain ⟨here, later⟩ := List.forall_mem_cons.mp plain
    rw [List.cons_append, List.splitOnP_cons_eq_if_modifyHead, ih later, parts, if_neg (by simp [here])]
    rfl

/-- Elements with no separator among them share a part. -/
theorem exists_part {run : List α} (plain : ∀ x ∈ run, p x = false) (front back : List α) :
    ∃ part ∈ (front ++ (run ++ back)).splitOnP p, ∀ x ∈ run, x ∈ part := by
  induction front with
  | nil =>
    obtain ⟨first, rest, parts⟩ := List.exists_cons_of_ne_nil (List.splitOnP_ne_nil p back)
    rw [List.nil_append, splitOnP_run plain, parts]
    exact ⟨run ++ first, List.mem_cons_self, fun x => List.mem_append_left first⟩
  | cons y front ih =>
    obtain ⟨part, cut, inside⟩ := ih
    rw [List.cons_append, List.splitOnP_cons_eq_if_modifyHead]
    split
    · exact ⟨part, List.mem_cons_of_mem [] cut, inside⟩
    · obtain ⟨first, rest, parts⟩ :=
        List.exists_cons_of_ne_nil (List.splitOnP_ne_nil p (front ++ (run ++ back)))
      rw [parts] at cut ⊢
      rw [List.modifyHead_cons]
      rcases List.mem_cons.mp cut with rfl | later
      · exact ⟨y :: part, List.mem_cons_self, fun x member => List.mem_cons_of_mem y (inside x member)⟩
      · exact ⟨part, List.mem_cons_of_mem _ later, inside⟩

/-- Two elements of a list without repetition share a part just when no separator stands
    between them. -/
theorem share_part_iff {front mid back : List α} {t u : α}
    (distinct : (front ++ t :: (mid ++ u :: back)).Nodup) (here : p t = false) (there : p u = false) :
    (∃ part ∈ (front ++ t :: (mid ++ u :: back)).splitOnP p, t ∈ part ∧ u ∈ part) ↔
      ∀ m ∈ mid, p m = false := by
  constructor
  · intro shared m member
    obtain ⟨part, cut, first, second⟩ := shared
    rw [Bool.eq_false_iff]
    intro separates
    obtain ⟨before, after, rfl⟩ := List.append_of_mem member
    have middle : front ++ t :: (before ++ m :: after ++ u :: back) =
        (front ++ t :: before) ++ m :: (after ++ u :: back) := by
      simp
    rw [middle] at cut distinct
    rw [List.splitOnP_append_cons _ _ separates, List.mem_append] at cut
    have apart := (List.nodup_append.mp distinct).2.2
    rcases cut with left | right
    · exact apart u (mem_of_mem_splitOnP left second) u (by simp) rfl
    · exact apart t (by simp) t (List.mem_cons_of_mem m (mem_of_mem_splitOnP right first)) rfl
  · intro plain
    have run : ∀ x ∈ t :: (mid ++ [u]), p x = false := by
      intro x member
      rcases List.mem_cons.mp member with rfl | member
      · exact here
      rcases List.mem_append.mp member with member | last
      · exact plain x member
      · rw [List.mem_singleton.mp last]
        exact there
    obtain ⟨part, cut, inside⟩ := exists_part run front back
    have whole : front ++ (t :: (mid ++ [u]) ++ back) = front ++ t :: (mid ++ u :: back) := by simp
    rw [whole] at cut
    exact ⟨part, cut, inside t (by simp), inside u (by simp)⟩

/-- Parts cut again are the parts for both kinds of separator. -/
theorem splitOnP_splitOnP (l : List α) :
    (l.splitOnP p).flatMap (·.splitOnP q) = l.splitOnP fun x => p x || q x := by
  induction l with
  | nil => rfl
  | cons x l ih =>
    obtain ⟨first, rest, parts⟩ := List.exists_cons_of_ne_nil (List.splitOnP_ne_nil p l)
    rw [List.splitOnP_cons_eq_if_modifyHead, List.splitOnP_cons_eq_if_modifyHead, ← ih]
    by_cases outer : p x
    · rw [if_pos outer, if_pos (by simp [outer]), List.flatMap_cons, List.splitOnP_nil]
      rfl
    · obtain ⟨first', rest', parts'⟩ := List.exists_cons_of_ne_nil (List.splitOnP_ne_nil q first)
      rw [if_neg outer, parts, List.modifyHead_cons, List.flatMap_cons, List.flatMap_cons,
        List.splitOnP_cons_eq_if_modifyHead, parts']
      by_cases inner : q x
      · rw [if_pos inner, if_pos (by simp [inner])]
        rfl
      · rw [if_neg inner, if_neg (by simp [outer, inner])]
        rfl

/-- No separator is lost but the separators. -/
theorem flatMap_filter_splitOnP {keep : α → Bool} (dropped : ∀ x, p x → keep x = false) (l : List α) :
    (l.splitOnP p).flatMap (List.filter keep) = l.filter keep := by
  induction l with
  | nil => rfl
  | cons x l ih =>
    rw [List.splitOnP_cons_eq_if_modifyHead]
    split
    · rename_i separates
      rw [List.flatMap_cons, ih, List.filter_cons_of_neg (by simp [dropped x separates])]
      rfl
    · obtain ⟨first, rest, parts⟩ := List.exists_cons_of_ne_nil (List.splitOnP_ne_nil p l)
      rw [parts, List.flatMap_cons] at ih
      rw [parts, List.modifyHead_cons, List.flatMap_cons]
      by_cases kept : keep x
      · rw [List.filter_cons_of_pos kept, List.filter_cons_of_pos kept, List.cons_append, ih]
      · rw [List.filter_cons_of_neg kept, List.filter_cons_of_neg kept, ih]

end Cutting

section Pieces

def dropEmpty (parts : List (List α)) : List (List α) := parts.filter fun part => !part.isEmpty

theorem dropEmpty_append (front back : List (List α)) :
    dropEmpty (front ++ back) = dropEmpty front ++ dropEmpty back :=
  List.filter_append _ _

theorem dropEmpty_nil : dropEmpty [([] : List α)] = [] := rfl

theorem dropEmpty_singleton {part : List α} (nonempty : part ≠ []) : dropEmpty [part] = [part] := by
  cases part with
  | nil => exact absurd rfl nonempty
  | cons x part => rfl

theorem mem_dropEmpty {parts : List (List α)} {part : List α} :
    part ∈ dropEmpty parts ↔ part ∈ parts ∧ part ≠ [] := by
  rw [dropEmpty, List.mem_filter, Bool.not_eq_true', List.isEmpty_eq_false_iff]

theorem flatten_dropEmpty (parts : List (List α)) : (dropEmpty parts).flatten = parts.flatten := by
  induction parts with
  | nil => rfl
  | cons part parts ih =>
    cases part with
    | nil => exact ih
    | cons x part =>
      change (x :: part) ++ (dropEmpty parts).flatten = _
      rw [ih, List.flatten_cons]

theorem share_kept_iff {keep : α → Bool} {parts : List (List α)} {t u : α} (here : keep t)
    (there : keep u) :
    (∃ row ∈ dropEmpty (parts.map (List.filter keep)), t ∈ row ∧ u ∈ row) ↔
      ∃ part ∈ parts, t ∈ part ∧ u ∈ part := by
  constructor
  · intro h
    obtain ⟨row, listed, first, second⟩ := h
    obtain ⟨part, cut, rfl⟩ := List.mem_map.mp (mem_dropEmpty.mp listed).1
    exact ⟨part, cut, List.mem_of_mem_filter first, List.mem_of_mem_filter second⟩
  · intro h
    obtain ⟨part, cut, first, second⟩ := h
    have kept : t ∈ part.filter keep := List.mem_filter.mpr ⟨first, here⟩
    refine ⟨part.filter keep, ?_, kept, List.mem_filter.mpr ⟨second, there⟩⟩
    exact mem_dropEmpty.mpr ⟨List.mem_map_of_mem cut, List.ne_nil_of_mem kept⟩

end Pieces

end Splitting
