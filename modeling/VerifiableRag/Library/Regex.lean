import Mathlib.Data.List.Basic
import Mathlib.Tactic.Common

/-!
Regular expressions over any alphabet, whose letters are classes; a whole text is tested by
derivatives.
-/

inductive Regex (α : Type) where
  | empty
  | eps
  | char (p : α → Bool)
  | seq (r q : Regex α)
  | alt (r q : Regex α)
  | star (r : Regex α)

namespace Regex
variable {α : Type}

/-- The texts of an expression; the turns of a star consume something. -/
inductive Matches : Regex α → List α → Prop where
  | eps : Matches .eps []
  | char {p : α → Bool} {a : α} (here : p a = true) : Matches (.char p) [a]
  | seq {r q : Regex α} {s t : List α} (first : Matches r s) (second : Matches q t) :
      Matches (.seq r q) (s ++ t)
  | left {r q : Regex α} {s : List α} (here : Matches r s) : Matches (.alt r q) s
  | right {r q : Regex α} {s : List α} (here : Matches q s) : Matches (.alt r q) s
  | stop {r : Regex α} : Matches (.star r) []
  | more {r : Regex α} {a : α} {s t : List α} (first : Matches r (a :: s))
      (later : Matches (.star r) t) : Matches (.star r) (a :: s ++ t)

section Combinators

def literal [DecidableEq α] : List α → Regex α
  | [] => .eps
  | a :: word => .seq (.char (· = a)) (literal word)

def optional (r : Regex α) : Regex α := .alt r .eps

def plus (r : Regex α) : Regex α := .seq r (.star r)

def oneOf : List (Regex α) → Regex α
  | [] => .empty
  | r :: rest => .alt r (oneOf rest)

end Combinators

section Test

def nullable : Regex α → Bool
  | .empty | .char _ => false
  | .eps | .star _ => true
  | .seq r q => r.nullable && q.nullable
  | .alt r q => r.nullable || q.nullable

/-- What is left to match behind a letter. -/
def deriv (a : α) : Regex α → Regex α
  | .empty | .eps => .empty
  | .char p => if p a then .eps else .empty
  | .seq r q => if r.nullable then .alt (.seq (r.deriv a) q) (q.deriv a) else .seq (r.deriv a) q
  | .alt r q => .alt (r.deriv a) (q.deriv a)
  | .star r => .seq (r.deriv a) (.star r)

/-- `^r$` matches the text. -/
def test : Regex α → List α → Bool
  | r, [] => r.nullable
  | r, a :: s => test (r.deriv a) s

theorem matches_seq {r q : Regex α} {s : List α} :
    Matches (.seq r q) s ↔ ∃ t u, s = t ++ u ∧ Matches r t ∧ Matches q u := by
  constructor
  · intro matched
    cases matched with
    | seq first second => exact ⟨_, _, rfl, first, second⟩
  · rintro ⟨t, u, rfl, first, second⟩
    exact .seq first second

theorem matches_alt {r q : Regex α} {s : List α} :
    Matches (.alt r q) s ↔ Matches r s ∨ Matches q s := by
  constructor
  · intro matched
    cases matched with
    | left here => exact Or.inl here
    | right here => exact Or.inr here
  · rintro (here | here)
    · exact .left here
    · exact .right here

theorem nullable_iff {r : Regex α} : r.nullable = true ↔ Matches r [] := by
  induction r with
  | empty => exact iff_of_false nofun nofun
  | eps => exact iff_of_true rfl .eps
  | char p => exact iff_of_false nofun nofun
  | seq r q first second =>
    rw [nullable, Bool.and_eq_true, first, second, matches_seq]
    constructor
    · rintro ⟨here, there⟩
      exact ⟨[], [], rfl, here, there⟩
    · rintro ⟨t, u, same, here, there⟩
      obtain ⟨rfl, rfl⟩ := List.append_eq_nil_iff.mp same.symm
      exact ⟨here, there⟩
  | alt r q first second => rw [nullable, Bool.or_eq_true, first, second, matches_alt]
  | star r _ => exact iff_of_true rfl .stop

theorem matches_star_cons {r : Regex α} {a : α} {s : List α} :
    Matches (.star r) (a :: s) ↔ ∃ t u, s = t ++ u ∧ Matches r (a :: t) ∧ Matches (.star r) u := by
  constructor
  · generalize whole : a :: s = text
    intro matched
    cases matched with
    | stop => cases whole
    | more first later =>
      injection whole with same same'
      subst same same'
      exact ⟨_, _, rfl, first, later⟩
  · rintro ⟨t, u, rfl, first, later⟩
    exact .more first later

theorem matches_seq_cons {r q : Regex α} {a : α} {s : List α} :
    Matches (.seq r q) (a :: s) ↔ (∃ t u, s = t ++ u ∧ Matches r (a :: t) ∧ Matches q u) ∨
      Matches r [] ∧ Matches q (a :: s) := by
  rw [matches_seq]
  constructor
  · rintro ⟨t, u, same, first, second⟩
    cases t with
    | nil =>
      rw [List.nil_append] at same
      rw [same]
      exact Or.inr ⟨first, second⟩
    | cons b t =>
      injection same with here rest
      subst here
      exact Or.inl ⟨t, u, rest, first, second⟩
  · rintro (⟨t, u, rfl, first, second⟩ | ⟨first, second⟩)
    · exact ⟨a :: t, u, rfl, first, second⟩
    · exact ⟨[], a :: s, rfl, first, second⟩

theorem matches_deriv {r : Regex α} {a : α} {s : List α} :
    Matches (r.deriv a) s ↔ Matches r (a :: s) := by
  induction r generalizing s with
  | empty => exact iff_of_false nofun nofun
  | eps => exact iff_of_false nofun nofun
  | char p =>
    rw [deriv]
    split
    · rename_i here
      constructor
      · intro matched
        cases matched
        exact .char here
      · intro matched
        cases matched
        exact .eps
    · rename_i other
      refine iff_of_false nofun ?_
      intro matched
      cases matched with
      | char here => exact other here
  | seq r q first second =>
    rw [deriv, matches_seq_cons]
    split
    · rename_i null
      rw [matches_alt, matches_seq, second, and_iff_right (nullable_iff.mp null)]
      simp only [first]
    · rename_i solid
      have stuck : ¬ (Matches r [] ∧ Matches q (a :: s)) := fun h => solid (nullable_iff.mpr h.1)
      rw [matches_seq, or_iff_left stuck]
      simp only [first]
  | alt r q first second => rw [deriv, matches_alt, matches_alt, first, second]
  | star r first =>
    rw [deriv, matches_seq, matches_star_cons]
    simp only [first]

theorem test_iff {r : Regex α} {s : List α} : r.test s = true ↔ Matches r s := by
  induction s generalizing r with
  | nil => exact nullable_iff
  | cons a s ih => rw [test, ih, matches_deriv]

end Test

section Letters

/-- Every class of an expression lies within a property. -/
def Within (P : α → Prop) : Regex α → Prop
  | .empty | .eps => True
  | .char p => ∀ a, p a = true → P a
  | .seq r q | .alt r q => r.Within P ∧ q.Within P
  | .star r => r.Within P

theorem Within.mono {P Q : α → Prop} (imp : ∀ a, P a → Q a) {r : Regex α} (within : r.Within P) :
    r.Within Q := by
  induction r with
  | empty | eps => trivial
  | char p => exact fun a here => imp a (within a here)
  | seq r q first second | alt r q first second => exact ⟨first within.1, second within.2⟩
  | star r first => exact first within

theorem Matches.within {P : α → Prop} {r : Regex α} {s : List α} (matched : Matches r s)
    (classes : r.Within P) : ∀ a ∈ s, P a := by
  induction matched with
  | eps | stop => exact List.forall_mem_nil _
  | char here => exact List.forall_mem_singleton.mpr (classes _ here)
  | seq _ _ first second => exact List.forall_mem_append.mpr ⟨first classes.1, second classes.2⟩
  | left _ ih => exact ih classes.1
  | right _ ih => exact ih classes.2
  | more _ _ first later => exact List.forall_mem_append.mpr ⟨first classes, later classes⟩

theorem within_literal [DecidableEq α] {P : α → Prop} {w : List α} (inside : ∀ a ∈ w, P a) :
    (literal w).Within P := by
  induction w with
  | nil => trivial
  | cons a w ih =>
    rw [List.forall_mem_cons] at inside
    refine ⟨?_, ih inside.2⟩
    intro b same
    rw [of_decide_eq_true same]
    exact inside.1

theorem within_oneOf {P : α → Prop} {rs : List (Regex α)} (inside : ∀ r ∈ rs, r.Within P) :
    (oneOf rs).Within P := by
  induction rs with
  | nil => trivial
  | cons r rs ih =>
    rw [List.forall_mem_cons] at inside
    exact ⟨inside.1, ih inside.2⟩

/-- The letters a text of an expression may start with. -/
def starts : Regex α → α → Bool
  | .empty, _ | .eps, _ => false
  | .char p, a => p a
  | .seq r q, a => r.starts a || (r.nullable && q.starts a)
  | .alt r q, a => r.starts a || q.starts a
  | .star r, a => r.starts a

theorem starts_literal [DecidableEq α] {w : List α} {a : α} (first : w.head? = some a) (b : α) :
    (literal w).starts b = decide (b = a) ∧ (literal w).nullable = false := by
  cases w with
  | nil => cases first
  | cons c w =>
    cases first
    constructor
    · rw [literal, Regex.starts, nullable, Bool.false_and, Bool.or_false]
      rfl
    · rw [literal, nullable, nullable, Bool.false_and]

theorem Matches.starts {r : Regex α} {a : α} {s : List α} (matched : Matches r (a :: s)) :
    r.starts a = true := by
  induction r generalizing s with
  | empty | eps => cases matched
  | char p =>
    cases matched with
    | char here => exact here
  | seq r q first second =>
    rw [Regex.starts, Bool.or_eq_true, Bool.and_eq_true]
    rcases matches_seq_cons.mp matched with ⟨t, u, _, here, _⟩ | ⟨null, there⟩
    · exact Or.inl (first here)
    · exact Or.inr ⟨nullable_iff.mpr null, second there⟩
  | alt r q first second =>
    rw [Regex.starts, Bool.or_eq_true]
    exact (matches_alt.mp matched).imp first second
  | star r first =>
    obtain ⟨t, u, _, here, _⟩ := matches_star_cons.mp matched
    exact first here

end Letters

end Regex
