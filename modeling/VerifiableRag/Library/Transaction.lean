import Mathlib.Algebra.Ring.Nat
import Mathlib.Data.List.Basic
import VerifiableRag.Library.Results

/-!
Transactions on a contract. A call reads and writes the store and either returns
or reverts; a reverted call leaves no trace in the store. A run is any list of
transactions, and its trace records the store each of them met and its outcome.
-/
namespace Transaction
open Results

/-- Why a call reverts: an error of the contract, a `Panic` code, or no data. -/
inductive Revert (ε : Type) where
  | error (e : ε)
  | panic (code : Nat)
  | bare
  deriving DecidableEq, Repr

/-- A call that only reads: it takes the store as an argument. -/
abbrev View (ε : Type) := Except (Revert ε)

abbrev Call (σ ε : Type) := StateT σ (View ε)

section Calls
variable {σ ε α β : Type}

section Steps
variable {m : Type → Type} [Monad m] [MonadExcept (Revert ε) m]

def revert (e : ε) : m α := throw (.error e)

def revertIf (c : Prop) [Decidable c] (e : ε) : m Unit := if c then revert e else pure ()

/-- Checked arithmetic of width `w`. -/
def checked (w n : Nat) : m Nat := if n < 2 ^ w then pure n else throw (.panic 0x11)

end Steps

/-- The value of a step that may fail, or a revert. -/
def expect (x : Option α) (e : Revert ε) : View ε α :=
  match x with
  | some a => .ok a
  | none => .error e

theorem expect_ok {x : Option α} {e : Revert ε} {a : α} : expect x e = .ok a ↔ x = some a := by
  cases x with
  | none => exact ⟨nofun, nofun⟩
  | some b =>
    constructor
    · exact fun h => congrArg some (Except.ok.inj h)
    · exact fun h => congrArg Except.ok (Option.some.inj h)

theorem expect_raises {kind : Revert ε → Prop} {e : Revert ε} (here : kind e) {x : Option α} :
    Raises kind (expect x e) := by
  cases x with
  | none => exact raises_error.mpr here
  | some a => exact raises_ok

theorem view_revertIf {c : Prop} [Decidable c] {e : ε} :
    (revertIf c e : View ε Unit) = if c then .error (.error e) else .ok () := rfl

theorem revertIf_raises {kind : Revert ε → Prop} {e : ε} (here : kind (.error e)) {c : Prop}
    [Decidable c] : Raises kind (revertIf c e : View ε Unit) := by
  rw [view_revertIf]
  split
  · exact raises_error.mpr here
  · exact raises_ok

theorem view_revertIf_ok {c : Prop} [Decidable c] {e : ε} {u : Unit} :
    (revertIf c e : View ε Unit) = .ok u ↔ ¬ c := by
  unfold revertIf
  split
  · rename_i holds
    simp only [holds, not_true_eq_false, iff_false]
    exact nofun
  · rename_i fails
    simp only [fails, not_false_eq_true, iff_true]
    rfl

theorem view_checked_ok {w n a : Nat} :
    (checked w n : View ε Nat) = .ok a ↔ n < 2 ^ w ∧ n = a := by
  unfold checked
  split
  · rename_i fits
    simp only [fits, true_and]
    exact except_pure_ok
  · rename_i overflow
    simp only [overflow, false_and, iff_false]
    exact nofun

theorem checked_fits {w n : Nat} (fits : n < 2 ^ w) : (checked w n : View ε Nat) = .ok n := if_pos fits

theorem checked_overflows {w n : Nat} (exceeds : 2 ^ w ≤ n) :
    (checked w n : View ε Nat) = .error (.panic 0x11) := if_neg exceeds.not_gt

theorem bind_ok {x : Call σ ε α} {f : α → Call σ ε β} {s : σ} {r : β × σ} :
    (x >>= f).run s = .ok r ↔ ∃ a s', x.run s = .ok (a, s') ∧ (f a).run s' = .ok r := by
  rw [StateT.run_bind]
  cases x.run s with
  | error e => simp [bind, Except.bind]
  | ok p =>
    obtain ⟨a, s'⟩ := p
    constructor
    · exact fun h => ⟨a, s', rfl, h⟩
    · rintro ⟨a', s'', same, h⟩
      cases same
      exact h

theorem pure_ok {a : α} {s : σ} {r : α × σ} :
    (pure a : Call σ ε α).run s = .ok r ↔ (a, s) = r :=
  ⟨Except.ok.inj, congrArg Except.ok⟩

theorem get_bind {f : σ → Call σ ε β} {s : σ} :
    ((get : Call σ ε σ) >>= f).run s = (f s).run s := rfl

theorem get_bind_ok {f : σ → Call σ ε β} {s : σ} {r : β × σ} :
    ((get : Call σ ε σ) >>= f).run s = .ok r ↔ (f s).run s = .ok r := Iff.rfl

theorem modify_bind_ok {g : σ → σ} {f : PUnit → Call σ ε β} {s : σ} {r : β × σ} :
    ((modify g : Call σ ε PUnit) >>= f).run s = .ok r ↔ (f ⟨⟩).run (g s) = .ok r := Iff.rfl

theorem lift_bind {x : View ε α} {f : α → Call σ ε β} {s : σ} :
    ((liftM x : Call σ ε α) >>= f).run s = x >>= fun a => (f a).run s := by
  cases x <;> rfl

theorem lift_bind_ok {x : View ε α} {f : α → Call σ ε β} {s : σ} {r : β × σ} :
    ((liftM x : Call σ ε α) >>= f).run s = .ok r ↔ ∃ a, x = .ok a ∧ (f a).run s = .ok r := by
  rw [lift_bind]
  exact except_bind_ok

theorem lift_bind_error {x : View ε α} {v : Revert ε} (failed : x = .error v)
    {f : α → Call σ ε β} {s : σ} : ((liftM x : Call σ ε α) >>= f).run s = .error v := by
  rw [lift_bind, failed]
  rfl

theorem revertIf_bind_pass {c : Prop} [Decidable c] {e : ε} (pass : ¬ c)
    {f : Unit → Call σ ε β} : ((revertIf c e : Call σ ε Unit) >>= f) = f () := by
  rw [revertIf, if_neg pass, pure_bind]

theorem revertIf_lift {c : Prop} [Decidable c] {e : ε} :
    (revertIf c e : Call σ ε Unit) = liftM (revertIf c e : View ε Unit) := by
  unfold revertIf
  split <;> rfl

theorem revertIf_bind_ok {c : Prop} [Decidable c] {e : ε} {f : Unit → Call σ ε β} {s : σ}
    {r : β × σ} :
    ((revertIf c e : Call σ ε Unit) >>= f).run s = .ok r ↔ ¬ c ∧ (f ()).run s = .ok r := by
  rw [revertIf_lift, lift_bind_ok]
  constructor
  · intro h
    obtain ⟨_, pass, ok⟩ := h
    exact ⟨view_revertIf_ok.mp pass, ok⟩
  · intro h
    exact ⟨(), view_revertIf_ok.mpr h.1, h.2⟩

theorem checked_lift {w n : Nat} :
    (checked w n : Call σ ε Nat) = liftM (checked w n : View ε Nat) := by
  unfold checked
  split <;> rfl

theorem checked_bind_ok {w n : Nat} {f : Nat → Call σ ε β} {s : σ} {r : β × σ} :
    ((checked w n : Call σ ε Nat) >>= f).run s = .ok r ↔ n < 2 ^ w ∧ (f n).run s = .ok r := by
  rw [checked_lift, lift_bind_ok]
  constructor
  · intro h
    obtain ⟨_, passed, ok⟩ := h
    obtain ⟨fits, rfl⟩ := view_checked_ok.mp passed
    exact ⟨fits, ok⟩
  · intro h
    exact ⟨n, view_checked_ok.mpr ⟨h.1, rfl⟩, h.2⟩

end Calls

/-- A contract seen from outside: what each transaction does to the store. -/
structure Machine (σ ι ρ ε : Type) where
  exec : ι → Call σ ε ρ

/-- One line of a trace: the store a transaction met, and what came of it. -/
structure Entry (σ ι ρ ε : Type) where
  before : σ
  input : ι
  outcome : Except (Revert ε) (ρ × σ)

section Runs
variable {σ ι ρ ε : Type}

/-- The store a transaction leaves: untouched when it reverts. -/
def Entry.after (e : Entry σ ι ρ ε) : σ :=
  match e.outcome with
  | .ok (_, s) => s
  | .error _ => e.before

theorem after_ok {e : Entry σ ι ρ ε} {r : ρ} {s : σ} (ok : e.outcome = .ok (r, s)) :
    e.after = s := by
  rw [Entry.after, ok]

theorem after_reverted {e : Entry σ ι ρ ε} {v : Revert ε} (reverted : e.outcome = .error v) :
    e.after = e.before := by
  rw [Entry.after, reverted]

namespace Machine
variable (m : Machine σ ι ρ ε)

def entry (s : σ) (i : ι) : Entry σ ι ρ ε := ⟨s, i, (m.exec i).run s⟩

def step (s : σ) (i : ι) : σ := (m.entry s i).after

def run (s : σ) (inputs : List ι) : σ := inputs.foldl m.step s

def trace : σ → List ι → List (Entry σ ι ρ ε)
  | _, [] => []
  | s, i :: rest => m.entry s i :: trace (m.step s i) rest

def Keeps (p : σ → Prop) : Prop :=
  ∀ s i r s', p s → (m.exec i).run s = .ok (r, s') → p s'

variable {m}

theorem step_keeps {p : σ → Prop} (keeps : m.Keeps p) {s : σ} (holds : p s) (i : ι) :
    p (m.step s i) := by
  unfold step Entry.after entry
  split
  · rename_i ok
    exact keeps s i _ _ holds ok
  · exact holds

/-- An invariant that successful calls keep as long as their entries satisfy a condition. -/
theorem run_keeps_while {p : σ → Prop} {c : Entry σ ι ρ ε → Prop}
    (keeps : ∀ s i r s', p s → c (m.entry s i) → (m.exec i).run s = .ok (r, s') → p s') {s : σ}
    (holds : p s) {inputs : List ι} (meets : ∀ e ∈ m.trace s inputs, c e) :
    p (m.run s inputs) := by
  induction inputs generalizing s with
  | nil => exact holds
  | cons i rest ih =>
    refine ih ?_ fun e later => meets e (List.mem_cons_of_mem _ later)
    unfold step Entry.after entry
    split
    · rename_i ok
      exact keeps s i _ _ holds (meets _ List.mem_cons_self) ok
    · exact holds

/-- What every entry shows whose store satisfies an invariant. -/
theorem trace_forall {p : σ → Prop} {P : Entry σ ι ρ ε → Prop} (keeps : m.Keeps p)
    {inputs : List ι} (shows : ∀ s, p s → ∀ i ∈ inputs, P (m.entry s i)) {s : σ} (holds : p s) :
    ∀ e ∈ m.trace s inputs, P e := by
  induction inputs generalizing s with
  | nil => simp [trace]
  | cons i rest ih =>
    intro e member
    rcases List.mem_cons.mp member with rfl | later
    · exact shows s holds i List.mem_cons_self
    · refine ih ?_ (step_keeps keeps holds i) e later
      exact fun s holds j member => shows s holds j (List.mem_cons_of_mem i member)

theorem trace_keeps {p : σ → Prop} (keeps : m.Keeps p) {s : σ} (holds : p s) (inputs : List ι) :
    ∀ e ∈ m.trace s inputs, p e.before :=
  trace_forall keeps (fun _ holds _ _ => holds) holds

theorem keeps_true : m.Keeps fun _ => True := fun _ _ _ _ _ _ => trivial

theorem trace_entry {s : σ} {inputs : List ι} {e : Entry σ ι ρ ε} (member : e ∈ m.trace s inputs) :
    e = m.entry e.before e.input := by
  have shows : ∀ e ∈ m.trace s inputs, e = m.entry e.before e.input :=
    trace_forall keeps_true (fun _ _ _ _ => rfl) trivial
  exact shows e member

theorem trace_outcome {s : σ} {inputs : List ι} {e : Entry σ ι ρ ε}
    (member : e ∈ m.trace s inputs) : e.outcome = (m.exec e.input).run e.before := by
  rw [trace_entry member]
  rfl

theorem trace_input {s : σ} {inputs : List ι} {e : Entry σ ι ρ ε} (member : e ∈ m.trace s inputs) :
    e.input ∈ inputs := by
  have shows : ∀ e ∈ m.trace s inputs, e.input ∈ inputs :=
    trace_forall keeps_true (fun _ _ _ here => here) trivial
  exact shows e member

theorem run_reverted {s : σ} {inputs : List ι} {i : ι} {v : Revert ε}
    (reverted : (m.exec i).run (m.run s inputs) = .error v) :
    m.run s (inputs ++ [i]) = m.run s inputs := by
  rw [run, List.foldl_append]
  exact after_reverted reverted

/-- What the final store shows and the first did not was brought about by some
    successful transaction of the run. -/
theorem run_cause (p : σ → Prop) {s : σ} {inputs : List ι} (absent : ¬ p s)
    (present : p (m.run s inputs)) :
    ∃ e ∈ m.trace s inputs, ¬ p e.before ∧ ∃ r s', e.outcome = .ok (r, s') ∧ p s' := by
  induction inputs generalizing s with
  | nil => exact absurd present absent
  | cons i rest ih =>
    by_cases here : p (m.step s i)
    · refine ⟨m.entry s i, List.mem_cons_self, absent, ?_⟩
      unfold step Entry.after at here
      cases same : (m.entry s i).outcome with
      | error v =>
        rw [same] at here
        exact absurd here absent
      | ok q =>
        rw [same] at here
        exact ⟨q.1, q.2, rfl, here⟩
    · obtain ⟨e, member, found⟩ := ih here present
      exact ⟨e, List.mem_cons_of_mem _ member, found⟩

theorem run_append (s : σ) (earlier later : List ι) :
    m.run s (earlier ++ later) = m.run (m.run s earlier) later := List.foldl_append

theorem trace_append (s : σ) (earlier later : List ι) :
    m.trace s (earlier ++ later) = m.trace s earlier ++ m.trace (m.run s earlier) later := by
  induction earlier generalizing s with
  | nil => rfl
  | cons i rest ih =>
    change m.entry s i :: m.trace (m.step s i) (rest ++ later) = _
    rw [ih]
    rfl

theorem run_keeps {p : σ → Prop} (keeps : m.Keeps p) {s : σ} (holds : p s) (inputs : List ι) :
    p (m.run s inputs) :=
  run_keeps_while (c := fun _ => True) (fun s i r s' holds _ ok => keeps s i r s' holds ok) holds
    fun _ _ => trivial

/-- What an entry establishes, and every call keeps, is met by all later entries. -/
theorem trace_since {p : Entry σ ι ρ ε → σ → Prop} (keeps : ∀ e, m.Keeps (p e)) (s : σ)
    (inputs : List ι) :
    (m.trace s inputs).Pairwise fun a b => p a a.after → p a b.before := by
  induction inputs generalizing s with
  | nil => exact .nil
  | cons i rest ih =>
    refine List.pairwise_cons.mpr ⟨?_, ih _⟩
    intro e later established
    exact trace_keeps (keeps _) established rest e later

/-- Entries that need a flag down and put it up for good occur at most once. -/
theorem trace_at_most_once {flag : σ → Prop} {uses : Entry σ ι ρ ε → Prop} (keeps : m.Keeps flag)
    (once : ∀ s i, uses (m.entry s i) → ¬ flag s ∧ flag (m.step s i)) (s : σ) (inputs : List ι) :
    (m.trace s inputs).Pairwise fun a b => ¬ (uses a ∧ uses b) := by
  refine (trace_since (fun _ => keeps) s inputs).imp_of_mem ?_
  rintro a b first_member second_member since ⟨first, second⟩
  rw [trace_entry first_member] at first
  rw [trace_entry second_member] at second
  have up := since (by rw [trace_entry first_member]; exact (once a.before a.input first).2)
  exact (once b.before b.input second).1 up

end Machine

end Runs

end Transaction
