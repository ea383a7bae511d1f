import Mathlib.Data.List.Infix

/-!
The longest suffix of a list with a property, as elements come and go.
-/
namespace Suffixes
variable {α : Type} {P Q : List α → Prop} {l w v : List α}

structure IsLongest (P : List α → Prop) (l w : List α) : Prop where
  suffix : w <:+ l
  holds : P w
  longest : ∀ v, v <:+ l → P v → v <:+ w

theorem isLongest_self (whole : P l) : IsLongest P l l :=
  ⟨List.suffix_refl l, whole, fun _ suffix _ => suffix⟩

/-- A list without the property has the longest suffix of its tail. -/
theorem IsLongest.cons {a : α} (tail : IsLongest P l w) (without : ¬ P (a :: l)) :
    IsLongest P (a :: l) w := by
  constructor
  · exact tail.suffix.trans (List.suffix_cons a l)
  · exact tail.holds
  · intro v suffix holds
    rcases List.suffix_cons_iff.mp suffix with whole | inner
    · exact absurd (whole ▸ holds) without
    · exact tail.longest v inner holds

/-- One property after the other, when shortening keeps the first. -/
theorem IsLongest.and (outer : IsLongest P l w) (inner : IsLongest Q w v) (holds : P v) :
    IsLongest (fun u => P u ∧ Q u) l v := by
  constructor
  · exact inner.suffix.trans outer.suffix
  · exact ⟨holds, inner.holds⟩
  · intro u suffix both
    exact inner.longest u (outer.longest u suffix both.1) both.2

/-- One more element at the end: what it leaves room for is found below the former suffix. -/
theorem IsLongest.snoc {a : α} (before : IsLongest P l w)
    (room : IsLongest (fun u => P (u ++ [a])) w v) (closed : ∀ u, P (u ++ [a]) → P u) :
    IsLongest P (l ++ [a]) (v ++ [a]) := by
  constructor
  · exact List.suffix_append_self_iff.mpr (room.suffix.trans before.suffix)
  · exact room.holds
  · intro u suffix holds
    rcases List.suffix_concat_iff.mp suffix with empty | h
    · rw [empty]
      exact List.nil_suffix
    · obtain ⟨start, whole, inner⟩ := h
      rw [whole] at holds ⊢
      have below := room.longest start (before.longest start inner (closed start holds)) holds
      exact List.suffix_append_self_iff.mpr below

end Suffixes
