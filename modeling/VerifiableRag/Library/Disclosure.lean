import Mathlib.Logic.Basic

/-!
What a view of a secret gives away beyond the part of it that is public.
-/
namespace Disclosure

section Conceals
variable {α β γ : Type} {view : α → β} {label : α → γ} {x y z : α}

/-- Every secret of the same label has this view: nothing in it is taken from the secret. -/
def Conceals (view : α → β) (label : α → γ) (x : α) : Prop :=
  ∀ other, label other = label x → view other = view x

theorem conceals_congr (alike : label x = label y) (conceals : Conceals view label x) :
    Conceals view label y := by
  intro z like
  rw [conceals z (like.trans alike.symm), conceals y alike.symm]

/-- The two halves of secrecy for a pair: one view of both, and nothing of either in it. -/
theorem agree_and_conceal_iff (alike : label x = label y) :
    (view x = view y ∧ Conceals view label x ∧ Conceals view label y) ↔ Conceals view label x := by
  constructor
  · intro both
    exact both.2.1
  · intro conceals
    exact ⟨(conceals y alike.symm).symm, conceals, conceals_congr alike conceals⟩

/-- Two views under one label: no secret of the label is safe. -/
theorem not_conceals (first : label y = label x) (second : label z = label x)
    (differ : view y ≠ view z) : ¬ Conceals view label x := by
  intro conceals
  exact differ ((conceals y first).trans (conceals z second).symm)

end Conceals

section OneText
variable {α β γ π τ : Type} {inner : α → Option π} {kind : π → Prop}

/-- The text is the same for all the contents of a kind. -/
def OneText (inner : α → Option π) (kind : π → Prop) (text : π → τ) : Prop :=
  ∀ x y p q, inner x = some p → inner y = some q → kind p → kind q → text p = text q

theorem oneText_congr {text : π → τ} {text' : π → β}
    (same : ∀ p q, kind p → kind q → (text p = text q ↔ text' p = text' q)) :
    OneText inner kind text ↔ OneText inner kind text' := by
  constructor
  · intro one x y p q here there first second
    exact (same p q first second).mp (one x y p q here there first second)
  · intro one x y p q here there first second
    exact (same p q first second).mpr (one x y p q here there first second)

theorem oneText_const (text : τ) : OneText inner kind fun _ => text := by
  intro x y p q _ _ _ _
  rfl

/-- Where the label tells the kind of the content and the view is a text about it, the view
    conceals just when the text is the same for the kind. -/
theorem conceals_iff_oneText {view : α → β} {label : α → γ} {x : α} {text : π → β}
    (members : ∀ y, label y = label x ↔ ∃ p, inner y = some p ∧ kind p)
    (shows : ∀ y p, inner y = some p → kind p → view y = text p) :
    Conceals view label x ↔ OneText inner kind text := by
  constructor
  · intro conceals y z p q here there first second
    rw [← shows y p here first, ← shows z q there second,
      conceals y ((members y).mpr ⟨p, here, first⟩), conceals z ((members z).mpr ⟨q, there, second⟩)]
  · intro one y alike
    obtain ⟨p, here, first⟩ := (members y).mp alike
    obtain ⟨q, there, second⟩ := (members x).mp rfl
    rw [shows y p here first, shows x q there second]
    exact one y x p q here there first second

end OneText

end Disclosure
