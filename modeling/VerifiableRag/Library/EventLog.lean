import Mathlib.Data.List.Induction
import VerifiableRag.Library.Ownable

/-!
Contracts read from their logs. A replica takes the events one at a time and stops at one that
does not fit what it has read; what the owner of a contract does not do, nobody does.
-/
namespace EventLog
open Transaction Ownable

section Replay
variable {η κ : Type} (apply : κ → η → Option κ)

/-- The replica after a log; `none` if some event did not fit. -/
def replay : κ → List η → Option κ
  | k, [] => some k
  | k, event :: log => (apply k event).bind fun k' => replay k' log

variable {apply}

theorem replay_append (k : κ) (earlier later : List η) :
    replay apply k (earlier ++ later) =
      (replay apply k earlier).bind fun k' => replay apply k' later := by
  induction earlier generalizing k with
  | nil => rfl
  | cons event earlier ih => simp only [List.cons_append, replay, ih, Option.bind_assoc]

end Replay

section Runs
variable {σ ι ρ ε η κ : Type} {m : Machine σ ι ρ ε} {log : σ → List η} {apply : κ → η → Option κ}
  {stands : κ → σ → Prop}

/-- A successful call writes its events behind the log, and they carry a replica of the store
    it met to a replica of the store it left. -/
def Reports (m : Machine σ ι ρ ε) (log : σ → List η) (apply : κ → η → Option κ)
    (stands : κ → σ → Prop) : Prop :=
  ∀ s i r s' k, (m.exec i).run s = .ok (r, s') → stands k s →
    ∃ added k', log s' = log s ++ added ∧ replay apply k added = some k' ∧ stands k' s'

def Replicated (log : σ → List η) (apply : κ → η → Option κ) (stands : κ → σ → Prop) (start : κ)
    (s : σ) : Prop :=
  ∃ k, replay apply start (log s) = some k ∧ stands k s

theorem run_replicated (reports : Reports m log apply stands) {start : κ} {s : σ}
    (holds : Replicated log apply stands start s) (inputs : List ι) :
    Replicated log apply stands start (m.run s inputs) := by
  refine Machine.run_keeps ?_ holds inputs
  intro s i r s' before ok
  obtain ⟨k, read, here⟩ := before
  obtain ⟨added, k', appended, carried, there⟩ := reports s i r s' k ok here
  refine ⟨k', ?_, there⟩
  rw [appended, replay_append, read]
  exact carried

end Runs

section Since
variable {α : Type} {raised lowered : α → Prop}

/-- Something was raised in the history and has not been lowered since. -/
def Since (raised lowered : α → Prop) (history : List α) : Prop :=
  ∃ before a after, history = before ++ a :: after ∧ raised a ∧ ∀ b ∈ after, ¬ lowered b

theorem not_since_nil : ¬ Since raised lowered [] := by
  rintro ⟨before, a, after, same, _⟩
  simp at same

theorem since_append {history : List α} {a : α} : Since raised lowered (history ++ [a]) ↔
    raised a ∨ Since raised lowered history ∧ ¬ lowered a := by
  constructor
  · rintro ⟨before, b, after, same, up, kept⟩
    cases after using List.reverseRecOn with
    | nil =>
      obtain ⟨_, same⟩ := List.append_inj' same rfl
      cases same
      exact Or.inl up
    | append_singleton after c =>
      rw [← List.cons_append, ← List.append_assoc] at same
      obtain ⟨rfl, last⟩ := List.append_inj' same rfl
      cases last
      right
      refine ⟨⟨before, b, after, rfl, up, ?_⟩, kept _ (by simp)⟩
      intro d member
      exact kept d (List.mem_append_left _ member)
  · rintro (up | ⟨⟨before, b, after, rfl, up, kept⟩, still⟩)
    · exact ⟨history, a, [], rfl, up, by simp⟩
    · refine ⟨before, b, after ++ [a], by simp, up, ?_⟩
      intro d member
      rcases List.mem_append.mp member with old | new
      · exact kept d old
      · rw [List.mem_singleton.mp new]
        exact still

variable {σ ι ρ ε : Type} {m : Machine σ ι ρ ε}

/-- A flag of the store that is down at first is up exactly when it was raised and not lowered
    since. -/
theorem run_since {flag : σ → Prop} {raised lowered : Entry σ ι ρ ε → Prop}
    (steps : ∀ s i, flag (m.step s i) ↔
      raised (m.entry s i) ∨ flag s ∧ ¬ lowered (m.entry s i))
    {s : σ} (down : ¬ flag s) (inputs : List ι) :
    flag (m.run s inputs) ↔ Since raised lowered (m.trace s inputs) := by
  induction inputs using List.reverseRecOn with
  | nil => exact iff_of_false down not_since_nil
  | append_singleton inputs i ih =>
    rw [Machine.run_append, Machine.trace_append]
    change flag (m.step _ i) ↔ Since raised lowered (_ ++ [m.entry _ i])
    rw [steps, since_append, ih]

end Since

section Administration
variable {σ ι ρ ε κ η : Type} [Owned σ ε] {m : Machine σ ι ρ ε} {sender : ι → Address}
  {config : σ → κ} {log : σ → List η} {under : κ → η → Prop}

/-- What a successful call does that the owner did not send: it leaves the owner and the
    configuration, and its events are made under that configuration. -/
structure Unprivileged (config : σ → κ) (log : σ → List η) (under : κ → η → Prop) (s s' : σ) :
    Prop where
  sameOwner : Owned.owner s' = Owned.owner s
  sameConfig : config s' = config s
  events : ∃ added, log s' = log s ++ added ∧ ∀ event ∈ added, under (config s) event

theorem unprivileged_refl (s : σ) : Unprivileged config log under s s :=
  ⟨rfl, rfl, [], (List.append_nil _).symm, by simp⟩

theorem unprivileged_trans {s s' s'' : σ} (first : Unprivileged config log under s s')
    (second : Unprivileged config log under s' s'') : Unprivileged config log under s s'' := by
  obtain ⟨added, appended, made⟩ := first.events
  obtain ⟨added', appended', made'⟩ := second.events
  constructor
  · rw [second.sameOwner, first.sameOwner]
  · rw [second.sameConfig, first.sameConfig]
  · refine ⟨added ++ added', by rw [appended', appended, List.append_assoc], ?_⟩
    intro event member
    rcases List.mem_append.mp member with old | new
    · exact made event old
    · rw [← first.sameConfig]
      exact made' event new

/-- Without a transaction of the owner, a run leaves the configuration as it was. -/
theorem run_unprivileged
    (guarded : ∀ s i r s', (m.exec i).run s = .ok (r, s') → sender i ≠ Owned.owner s →
      Unprivileged config log under s s')
    {s : σ} {inputs : List ι} (others : ∀ i ∈ inputs, sender i ≠ Owned.owner s) :
    Unprivileged config log under s (m.run s inputs) := by
  have keeps : ∀ t i r t', Unprivileged config log under s t →
      sender (m.entry t i).input ≠ Owned.owner s → (m.exec i).run t = .ok (r, t') →
      Unprivileged config log under s t' := by
    intro t i r t' so_far other ok
    refine unprivileged_trans so_far (guarded t i r t' ok ?_)
    rw [so_far.sameOwner]
    exact other
  refine Machine.run_keeps_while (c := fun e => sender e.input ≠ Owned.owner s) keeps
    (unprivileged_refl s) ?_
  intro e member
  exact others e.input (Machine.trace_input member)

end Administration

end EventLog
