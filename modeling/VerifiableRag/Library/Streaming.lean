import Mathlib.Data.List.Basic

/-!
Readers that take a value off the front of a stream and do not look at what follows it.
-/
namespace Streaming
variable {α β γ : Type}

/-- What is taken stands at the front and is taken as well before anything else. -/
def Fronted (read : List α → Option (β × List α)) : Prop :=
  ∀ s x rest, read s = some (x, rest) →
    ∃ front, s = front ++ rest ∧ ∀ other, read (front ++ other) = some (x, other)

theorem fronted_none : Fronted fun _ : List α => (none : Option (β × List α)) := by
  intro s x rest taken
  cases taken

theorem fronted_some (x : β) : Fronted fun s : List α => some (x, s) := by
  intro s y rest taken
  cases taken
  exact ⟨[], rfl, fun _ => rfl⟩

/-- One reader after another. -/
theorem Fronted.bind {read : List α → Option (β × List α)} {next : β → List α → Option (γ × List α)}
    (first : Fronted read) (second : ∀ x, Fronted (next x)) :
    Fronted fun s => (read s).bind fun taken => next taken.1 taken.2 := by
  intro s y rest taken
  obtain ⟨⟨x, middle⟩, here, later⟩ := Option.bind_eq_some_iff.mp taken
  obtain ⟨front, whole, again⟩ := first s x middle here
  obtain ⟨back, tail, same⟩ := second x middle y rest later
  refine ⟨front ++ back, by rw [whole, tail, List.append_assoc], ?_⟩
  intro other
  simp only [List.append_assoc, again, Option.bind_some]
  exact same other

/-- A first element that decides what comes next. -/
theorem Fronted.head {read : List α → Option (β × List α)} {next : α → List α → Option (β × List α)}
    (empty : read [] = none) (more : ∀ a s, read (a :: s) = next a s)
    (each : ∀ a, Fronted (next a)) : Fronted read := by
  intro s x rest taken
  cases s with
  | nil =>
    rw [empty] at taken
    cases taken
  | cons a s =>
    rw [more] at taken
    obtain ⟨front, whole, again⟩ := each a s x rest taken
    refine ⟨a :: front, by rw [whole, List.cons_append], ?_⟩
    intro other
    rw [List.cons_append, more, again]

theorem fronted_take (n : Nat) :
    Fronted fun s : List α => if n ≤ s.length then some (s.take n, s.drop n) else none := by
  intro s x rest taken
  dsimp only at taken ⊢
  rcases Nat.lt_or_ge s.length n with short | long
  · rw [if_neg (by omega)] at taken
    cases taken
  · rw [if_pos long] at taken
    cases taken
    refine ⟨s.take n, (List.take_append_drop n s).symm, ?_⟩
    intro other
    have size : (s.take n).length = n := List.length_take_of_le long
    rw [if_pos (by rw [List.length_append]; omega), List.take_left' size, List.drop_left' size]

/-- Two readings of one stream, or of a stream and a longer one, are the same reading. -/
theorem Fronted.append {read : List α → Option (β × List α)} (fronted : Fronted read)
    {s rest : List α} {x : β} (taken : read s = some (x, rest)) (other : List α) :
    read (s ++ other) = some (x, rest ++ other) := by
  obtain ⟨front, whole, again⟩ := fronted s x rest taken
  rw [whole, List.append_assoc, again]

end Streaming
