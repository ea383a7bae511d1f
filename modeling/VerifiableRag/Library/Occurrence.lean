import Mathlib.Data.List.Basic
import Mathlib.Tactic.Common

/-!
The first occurrence of a needle in a text, and what a search for it may skip.
-/
namespace Occurrence
variable {α : Type} {needle s before rest : List α} {a : α}

section Places

structure FirstAt (needle s before rest : List α) : Prop where
  split : s = before ++ (needle ++ rest)
  first : ∀ b r, s = b ++ (needle ++ r) → before.length ≤ b.length

theorem FirstAt.here (here : needle <+: s) : FirstAt needle s [] (s.drop needle.length) := by
  obtain ⟨rest, rfl⟩ := here
  rw [List.drop_left]
  exact ⟨rfl, fun _ _ _ => Nat.zero_le _⟩

theorem FirstAt.later (other : ¬ needle <+: a :: s) (later : FirstAt needle s before rest) :
    FirstAt needle (a :: s) (a :: before) rest := by
  refine ⟨congrArg (a :: ·) later.split, ?_⟩
  intro b r split
  cases b with
  | nil => exact absurd ⟨r, split.symm⟩ other
  | cons c b =>
    injection split with _ split
    exact Nat.succ_le_succ (later.first b r split)

theorem FirstAt.unique {before' rest' : List α} (first : FirstAt needle s before rest)
    (second : FirstAt needle s before' rest') : before = before' ∧ rest = rest' := by
  have size := Nat.le_antisymm (first.first _ _ second.split) (second.first _ _ first.split)
  obtain ⟨same, same'⟩ := List.append_inj (first.split.symm.trans second.split) size
  exact ⟨same, List.append_cancel_left same'⟩

end Places

section Search
variable [DecidableEq α]

/-- What stands behind the first occurrence. -/
def behindFirst (needle : List α) : List α → Option (List α)
  | [] => if needle = [] then some [] else none
  | a :: s => if needle <+: a :: s then some ((a :: s).drop needle.length) else behindFirst needle s

theorem behindFirst_here (here : needle <+: s) :
    behindFirst needle s = some (s.drop needle.length) := by
  cases s with
  | nil =>
    obtain rfl := List.prefix_nil.mp here
    rfl
  | cons a s => exact if_pos here

theorem behindFirst_later (other : ¬ needle <+: a :: s) :
    behindFirst needle (a :: s) = behindFirst needle s := if_neg other

/-- Letters that do not start the needle are skipped. -/
theorem behindFirst_skip {skipped : List α} (apart : ∀ b ∈ skipped, needle.head? ≠ some b)
    (given : needle ≠ []) : behindFirst needle (skipped ++ s) = behindFirst needle s := by
  induction skipped with
  | nil => rfl
  | cons b skipped ih =>
    rw [List.forall_mem_cons] at apart
    have other : ¬ needle <+: b :: (skipped ++ s) := by
      intro here
      cases needle with
      | nil => exact given rfl
      | cons c needle => exact apart.1 (congrArg some (List.cons_prefix_cons.mp here).1)
    rw [List.cons_append, behindFirst_later other, ih apart.2]

theorem behindFirst_firstAt (found : behindFirst needle s = some rest) :
    ∃ before, FirstAt needle s before rest := by
  induction s with
  | nil =>
    rw [behindFirst] at found
    split at found
    · rename_i empty
      subst empty
      cases found
      exact ⟨[], FirstAt.here List.nil_prefix⟩
    · cases found
  | cons a s ih =>
    by_cases here : needle <+: a :: s
    · rw [behindFirst_here here] at found
      cases found
      exact ⟨[], FirstAt.here here⟩
    · rw [behindFirst_later here] at found
      obtain ⟨before, later⟩ := ih found
      exact ⟨a :: before, later.later here⟩

theorem behindFirst_none (missed : behindFirst needle s = none) (b r : List α) :
    s ≠ b ++ (needle ++ r) := by
  induction s generalizing b with
  | nil =>
    intro split
    obtain ⟨-, rest⟩ := List.append_eq_nil_iff.mp split.symm
    obtain ⟨rfl, -⟩ := List.append_eq_nil_iff.mp rest
    cases missed
  | cons a s ih =>
    intro split
    by_cases here : needle <+: a :: s
    · rw [behindFirst_here here] at missed
      cases missed
    · rw [behindFirst_later here] at missed
      cases b with
      | nil => exact here ⟨r, split.symm⟩
      | cons c b =>
        injection split with _ split
        exact ih missed b split

theorem behindFirst_iff : behindFirst needle s = some rest ↔ ∃ before, FirstAt needle s before rest := by
  constructor
  · exact behindFirst_firstAt
  · rintro ⟨before, first⟩
    cases found : behindFirst needle s with
    | none => exact absurd first.split (behindFirst_none found before rest)
    | some rest' =>
      obtain ⟨before', first'⟩ := behindFirst_firstAt found
      rw [(first.unique first').2]

end Search

end Occurrence
