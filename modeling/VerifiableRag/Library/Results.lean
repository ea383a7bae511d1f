import Mathlib.Logic.Basic

/-!
When a sequence of steps that may fail succeeds, and with which errors it fails.
-/
namespace Results
variable {α β ε δ : Type}

theorem except_bind_ok {x : Except ε α} {f : α → Except ε β} {b : β} :
    (x >>= f) = .ok b ↔ ∃ a, x = .ok a ∧ f a = .ok b := by
  cases x with
  | error e => exact ⟨nofun, nofun⟩
  | ok a =>
    constructor
    · intro ok
      exact ⟨a, rfl, ok⟩
    · intro h
      obtain ⟨_, same, ok⟩ := h
      cases same
      exact ok

theorem except_pure_ok {a b : α} : (pure a : Except ε α) = .ok b ↔ a = b :=
  ⟨Except.ok.inj, congrArg Except.ok⟩

theorem except_bind_congr {x : Except ε α} {f g : α → Except ε β}
    (same : ∀ a, x = .ok a → f a = g a) : (x >>= f) = x >>= g := by
  cases x with
  | error e => rfl
  | ok a => exact same a rfl

theorem mapError_ok {f : ε → δ} {x : Except ε α} {a : α} :
    x.mapError f = .ok a ↔ x = .ok a := by
  cases x with
  | error e => exact ⟨nofun, nofun⟩
  | ok b =>
    constructor <;>
    · intro same
      cases same
      rfl

theorem ok_bind {x : Except ε α} {f : α → Except ε β} {a : α} (ok : x = .ok a) :
    (x >>= f) = f a := by
  rw [ok]
  rfl

theorem error_bind {x : Except ε α} {f : α → Except ε β} {e : ε} (failed : x = .error e) :
    (x >>= f) = .error e := by
  rw [failed]
  rfl

theorem mapError_ok_bind {x : Except ε α} {g : ε → δ} {f : α → Except δ β} {a : α} (ok : x = .ok a) :
    (x.mapError g >>= f) = f a := by
  rw [ok]
  rfl

theorem mapError_error_bind {x : Except ε α} {g : ε → δ} {f : α → Except δ β} {e : ε}
    (failed : x = .error e) : (x.mapError g >>= f) = .error (g e) := by
  rw [failed]
  rfl

theorem ok_iff_some {a b : α} : (Except.ok b : Except ε α) = .ok a ↔ some b = some a :=
  ⟨fun same => congrArg some (Except.ok.inj same), fun same => congrArg _ (Option.some.inj same)⟩

theorem toOption_some {x : Except ε α} {a : α} : x.toOption = some a ↔ x = .ok a := by
  cases x with
  | error e => exact ⟨nofun, nofun⟩
  | ok b => exact ok_iff_some.symm

section Raises

/-- Every error is of a kind. -/
def Raises (kind : ε → Prop) (x : Except ε α) : Prop := ∀ e, x = .error e → kind e

variable {kind : ε → Prop}

@[simp] theorem raises_ok {a : α} : Raises kind (.ok a : Except ε α) := by
  intro e same
  cases same

@[simp] theorem raises_error {e : ε} : Raises kind (.error e : Except ε α) ↔ kind e := by
  constructor
  · intro raises
    exact raises e rfl
  · intro here e' same
    cases same
    exact here

instance {x : Except ε α} [DecidablePred kind] : Decidable (Raises kind x) :=
  match x with
  | .ok _ => isTrue raises_ok
  | .error e => decidable_of_iff (kind e) raises_error.symm

/-- A step that succeeds hands on to the next. -/
theorem raises_bind {x : Except ε α} {f : α → Except ε β} :
    Raises kind (x >>= f) ↔ Raises kind x ∧ ∀ a, x = .ok a → Raises kind (f a) := by
  cases x with
  | error e =>
    constructor
    · intro raises
      refine ⟨fun e' same => raises e' (by rw [same]; rfl), ?_⟩
      intro a same
      cases same
    · intro h e' same
      apply h.1 e'
      cases same
      rfl
  | ok a =>
    constructor
    · intro raises
      refine ⟨raises_ok, ?_⟩
      intro a' same
      cases same
      exact raises
    · intro h
      exact h.2 a rfl

theorem raises_mapError {g : δ → ε} {x : Except δ α} :
    Raises kind (x.mapError g) ↔ Raises (fun e => kind (g e)) x := by
  cases x with
  | error e =>
    change Raises kind (.error (g e)) ↔ _
    rw [raises_error, raises_error]
  | ok a => exact iff_of_true raises_ok raises_ok

end Raises

end Results
