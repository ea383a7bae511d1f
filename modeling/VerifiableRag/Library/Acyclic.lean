import Mathlib.Data.Fintype.EquivFin
import Mathlib.Logic.Relation
import Mathlib.Order.WellFounded

/-!
Relations without cycles: ranking functions, insertion of one arc, and the
predecessor-free element of a finite set.
-/
namespace AcyclicRelation
open Relation (TransGen ReflTransGen)
variable {α : Type*} {r : α → α → Prop}

def Acyclic (r : α → α → Prop) : Prop := ∀ v, ¬ TransGen r v v

theorem path_rank_lt {rank : α → Nat} (increasing : ∀ a b, r a b → rank a < rank b) {a b : α}
    (path : TransGen r a b) : rank a < rank b := by
  induction path with
  | single arc => exact increasing _ _ arc
  | tail _ arc ih => exact ih.trans (increasing _ _ arc)

theorem ranked_acyclic {rank : α → Nat} (increasing : ∀ a b, r a b → rank a < rank b) :
    Acyclic r := fun _ cycle => Nat.lt_irrefl _ (path_rank_lt increasing cycle)

/-- A path over `r` and one extra arc either avoids the arc or splits at its first and last use. -/
theorem path_through_arc {s o a b : α} (path : TransGen (fun x y => r x y ∨ (x = s ∧ y = o)) a b) :
    TransGen r a b ∨ (ReflTransGen r a s ∧ ReflTransGen r o b) := by
  induction path with
  | single arc =>
    rcases arc with old | ⟨rfl, rfl⟩
    · exact Or.inl (.single old)
    · exact Or.inr ⟨.refl, .refl⟩
  | tail _ arc ih =>
    rcases arc with old | ⟨rfl, rfl⟩
    · rcases ih with path | ⟨before, later⟩
      · exact Or.inl (path.tail old)
      · exact Or.inr ⟨before, later.tail old⟩
    · rcases ih with path | ⟨before, _⟩
      · exact Or.inr ⟨path.to_reflTransGen, .refl⟩
      · exact Or.inr ⟨before, .refl⟩

theorem acyclic_insert {s o : α} (acyclic : Acyclic r) (open_end : ¬ ReflTransGen r o s) :
    Acyclic (fun x y => r x y ∨ (x = s ∧ y = o)) := by
  intro v cycle
  rcases path_through_arc cycle with old | ⟨before, later⟩
  · exact acyclic v old
  · exact open_end (later.trans before)

/-- In a finite set where every member has a predecessor in the set there is a cycle. -/
theorem acyclic_has_source {r : Nat → Nat → Prop} {n : Nat} (acyclic : Acyclic r)
    (blocked : Nat → Prop) (back : ∀ v < n, blocked v → ∃ u < n, blocked u ∧ r u v) :
    ∀ v < n, ¬ blocked v := by
  intro v small hv
  let before : Fin n → Fin n → Prop := fun a b => TransGen r a.val b.val
  have irrefl : Std.Irrefl before := ⟨fun a => acyclic a.val⟩
  have trans : IsTrans (Fin n) before := ⟨fun _ _ _ hab hbc => hab.trans hbc⟩
  have wf : WellFounded before := Finite.wellFounded_of_trans_of_irrefl before
  obtain ⟨m, hm, least⟩ := wf.has_min {a | blocked a.val} ⟨⟨v, small⟩, hv⟩
  obtain ⟨u, bound, hu, arc⟩ := back m.val m.isLt hm
  exact least ⟨u, bound⟩ hu (.single arc)

end AcyclicRelation
