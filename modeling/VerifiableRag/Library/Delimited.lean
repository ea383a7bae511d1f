import Mathlib.Data.List.DropRight
import Mathlib.Data.List.TakeWhile
import VerifiableRag.Library.Splitting

/-!
The elements of a delimited text, less the blanks around them.
-/
namespace Delimited
variable {α β : Type} {p blank : α → Bool}

section Trim

def trim (blank : α → Bool) (l : List α) : List α := (l.dropWhile blank).rdropWhile blank

theorem trim_map {f : α → β} {blank : β → Bool} (l : List α) :
    trim blank (l.map f) = (trim (blank ∘ f) l).map f := by
  unfold trim List.rdropWhile
  rw [List.dropWhile_map, ← List.map_reverse, List.dropWhile_map, ← List.map_reverse]

theorem trim_between (blank : α → Bool) (l : List α) :
    ∃ left right, l = left ++ (trim blank l ++ right) ∧ (∀ x ∈ left, blank x) ∧
      ∀ x ∈ right, blank x := by
  refine ⟨l.takeWhile blank, (l.dropWhile blank).rtakeWhile blank, ?_, ?_, ?_⟩
  · unfold trim
    rw [List.rdropWhile_append_rtakeWhile, List.takeWhile_append_dropWhile]
  · intro x taken
    exact List.mem_takeWhile_imp taken
  · intro x taken
    exact List.mem_rtakeWhile_imp taken

/-- A text that begins with a blank loses it. -/
theorem trim_fixed_cons {x : α} {l : List α} (fixed : trim blank (x :: l) = x :: l) :
    blank x = false ∧ (x :: l).rdropWhile blank = x :: l := by
  have solid : blank x = false := by
    by_contra spaced
    have shorter : (trim blank (x :: l)).length ≤ l.length := by
      unfold trim
      rw [List.dropWhile_cons_of_pos (by simpa using spaced)]
      exact (List.rdropWhile_prefix _ _).length_le.trans (List.dropWhile_suffix _).length_le
    rw [fixed, List.length_cons] at shorter
    omega
  refine ⟨solid, ?_⟩
  unfold trim at fixed
  rwa [List.dropWhile_cons_of_neg (by simp [solid])] at fixed

theorem trim_surrounded {left m right : List α} (fixed : trim blank m = m)
    (before : ∀ x ∈ left, blank x) (after : ∀ x ∈ right, blank x) :
    trim blank (left ++ (m ++ right)) = m := by
  have ends : ∀ l : List α, (l ++ right).rdropWhile blank = l.rdropWhile blank := by
    intro l
    unfold List.rdropWhile
    rw [List.reverse_append, List.dropWhile_append_of_pos]
    intro x member
    exact after x (List.mem_reverse.mp member)
  unfold trim
  rw [List.dropWhile_append_of_pos before]
  cases m with
  | nil =>
    have gone : right.dropWhile blank = [] := by
      rw [List.dropWhile_eq_nil_iff]
      exact after
    rw [List.nil_append, gone, List.rdropWhile_nil]
  | cons x m =>
    obtain ⟨solid, kept⟩ := trim_fixed_cons fixed
    rw [List.cons_append, List.dropWhile_cons_of_neg (by simp [solid]), ← List.cons_append, ends,
      kept]

end Trim

section Elements

/-- The elements are what stands between two delimiters with none inside, the ends of the text
    taken for delimiters. -/
theorem mem_splitOnP_iff {l part : List α} : part ∈ l.splitOnP p ↔
    (∀ x ∈ part, p x = false) ∧ ∃ front back, l = front ++ (part ++ back) ∧
      (∀ x ∈ front.getLast?, p x) ∧ ∀ x ∈ back.head?, p x := by
  constructor
  · induction size : l.length using Nat.strong_induction_on generalizing l with
    | _ n ih =>
      intro listed
      -- the text up to its first delimiter, and what follows it
      have plain : ∀ x ∈ l.takeWhile (!p ·), p x = false := fun x taken => by
        simpa using List.mem_takeWhile_imp taken
      have whole := List.takeWhile_append_dropWhile (p := (!p ·)) (l := l)
      cases after : l.dropWhile (!p ·) with
      | nil =>
        rw [after, List.append_nil] at whole
        rw [← whole, List.splitOnP_eq_singleton plain, List.mem_singleton] at listed
        exact ⟨listed ▸ plain, [], [], by rw [listed, List.append_nil, List.nil_append, whole],
          by simp, by simp⟩
      | cons sep rest =>
        have separates : p sep := by
          have found := List.head?_dropWhile_not (!p ·) l
          rw [after, List.head?_cons] at found
          simpa using found
        rw [after] at whole
        rw [← whole, List.splitOnP_append_cons _ _ separates, List.splitOnP_eq_singleton plain,
          List.mem_append, List.mem_singleton] at listed
        rcases listed with first | later
        · refine ⟨first ▸ plain, [], sep :: rest, ?_, by simp, by simpa using separates⟩
          rw [first, List.nil_append, whole]
        · have shorter : rest.length < n := by
            rw [← size, ← whole, List.length_append, List.length_cons]
            omega
          obtain ⟨inside, front, back, rfl, opens, closes⟩ := ih _ shorter rfl later
          refine ⟨inside, l.takeWhile (!p ·) ++ sep :: front, back, ?_, ?_, closes⟩
          · rw [List.append_assoc, List.cons_append, whole]
          · cases front with
            | nil => simpa using separates
            | cons y front =>
              rw [List.getLast?_append_of_ne_nil _ (by simp), List.getLast?_cons_cons]
              exact opens
  · rintro ⟨inside, front, back, rfl, opens, closes⟩
    have starts : part ∈ (part ++ back).splitOnP p := by
      cases back with
      | nil => rw [List.append_nil, List.splitOnP_eq_singleton inside, List.mem_singleton]
      | cons sep rest =>
        rw [List.splitOnP_append_cons _ _ (closes sep rfl), List.splitOnP_eq_singleton inside]
        exact List.mem_append_left _ (List.mem_singleton_self part)
    rcases List.eq_nil_or_concat front with rfl | ⟨front, sep, rfl⟩
    · exact starts
    · rw [List.concat_eq_append] at opens ⊢
      have separates : p sep := opens sep (by simp)
      rw [List.append_assoc, List.singleton_append, List.splitOnP_append_cons _ _ separates]
      exact List.mem_append_right _ starts

theorem headD_splitOnP (l : List α) : (l.splitOnP p).headD [] = l.takeWhile (!p ·) := by
  induction l with
  | nil => rfl
  | cons x l ih =>
    rw [List.splitOnP_cons_eq_if_modifyHead, List.takeWhile_cons]
    cases separates : p x with
    | true => rfl
    | false =>
      obtain ⟨first, rest, parts⟩ := List.exists_cons_of_ne_nil (List.splitOnP_ne_nil p l)
      rw [parts] at ih ⊢
      simpa using ih

theorem splitOnP_map {f : α → β} {p : β → Bool} (l : List α) :
    (l.map f).splitOnP p = (l.splitOnP (p ∘ f)).map (List.map f) := by
  induction l with
  | nil => rfl
  | cons x l ih =>
    rw [List.map_cons, List.splitOnP_cons_eq_if_modifyHead, List.splitOnP_cons_eq_if_modifyHead, ih]
    obtain ⟨first, rest, parts⟩ := List.exists_cons_of_ne_nil (List.splitOnP_ne_nil (p ∘ f) l)
    cases separates : p (f x) <;> simp [separates, parts]

end Elements

end Delimited
