import Mathlib.Logic.Basic

/-!
Runs of a system whose events may be impossible in a state: what every state of a run keeps
and what every step of it satisfies.
-/
namespace Runs
variable {σ ε : Type} (step : σ → ε → Option σ)

def run : σ → List ε → Option σ
  | s, [] => some s
  | s, e :: events => (step s e).bind fun s' => run s' events

/-- Every step of a run, from its state by its event to the next state. -/
def Every (P : σ → ε → σ → Prop) : σ → List ε → Prop
  | _, [] => True
  | s, e :: events => ∀ s', step s e = some s' → P s e s' ∧ Every P s' events

section Rules
variable {step} {inv : σ → Prop} {P Q : σ → ε → σ → Prop}

theorem run_invariant (keeps : ∀ s e s', inv s → step s e = some s' → inv s') {s final : σ}
    {events : List ε} (start : inv s) (ran : run step s events = some final) : inv final := by
  induction events generalizing s with
  | nil =>
    cases ran
    exact start
  | cons e events ih =>
    rw [run, Option.bind_eq_some_iff] at ran
    obtain ⟨s', taken, later⟩ := ran
    exact ih (keeps s e s' start taken) later

/-- Two properties of steps hold along the same runs, when they agree wherever the steps so far
    had them. -/
theorem every_congr (same : ∀ s e s', inv s → step s e = some s' → (P s e s' ↔ Q s e s'))
    (keeps : ∀ s e s', inv s → step s e = some s' → P s e s' → inv s') {s : σ} {events : List ε}
    (start : inv s) : Every step P s events ↔ Every step Q s events := by
  induction events generalizing s with
  | nil => exact Iff.rfl
  | cons e events ih =>
    constructor
    · intro all s' taken
      obtain ⟨here, later⟩ := all s' taken
      exact ⟨(same s e s' start taken).mp here, (ih (keeps s e s' start taken here)).mp later⟩
    · intro all s' taken
      obtain ⟨here, later⟩ := all s' taken
      have here' := (same s e s' start taken).mpr here
      exact ⟨here', (ih (keeps s e s' start taken here')).mpr later⟩

end Rules

end Runs
