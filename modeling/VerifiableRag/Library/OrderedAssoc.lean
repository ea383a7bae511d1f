import Mathlib.Order.Lattice
import Mathlib.Data.List.Basic

/-!
An ordered map as its entries in strictly increasing key order.
-/
namespace OrderedAssoc
variable {K A : Type} [LinearOrder K]

def Ordered (entries : List (K × A)) : Prop := entries.Pairwise fun a b => a.1 < b.1

instance (entries : List (K × A)) : Decidable (Ordered entries) :=
  inferInstanceAs (Decidable (entries.Pairwise fun a b => a.1 < b.1))

/-- Sets the value of a key. -/
def put (k : K) (a : A) : List (K × A) → List (K × A)
  | [] => [(k, a)]
  | entry :: rest =>
    if k < entry.1 then (k, a) :: entry :: rest
    else if k = entry.1 then (k, a) :: rest
    else entry :: put k a rest

theorem lookup_cons_eq {j : K} {entry : K × A} {rest : List (K × A)} :
    (entry :: rest).lookup j = if j = entry.1 then some entry.2 else rest.lookup j := by
  obtain ⟨k, a⟩ := entry
  rw [List.lookup_cons]
  by_cases same : j = k
  · rw [beq_iff_eq.mpr same, if_pos same]
  · rw [beq_eq_false_iff_ne.mpr same, if_neg same]

theorem lookup_put (j k : K) (a : A) (entries : List (K × A)) :
    (put k a entries).lookup j = if j = k then some a else entries.lookup j := by
  induction entries with
  | nil => rw [put, lookup_cons_eq]
  | cons entry rest ih =>
    rw [put]
    split
    · rw [lookup_cons_eq]
    split
    · rename_i same
      rw [lookup_cons_eq, lookup_cons_eq, ← same]
      split <;> rfl
    · rename_i differs
      rw [lookup_cons_eq, lookup_cons_eq, ih]
      split
      · rename_i same
        rw [if_neg (fun h => differs (h.symm.trans same))]
      · rfl

theorem put_last (k : K) (a : A) {entries : List (K × A)} (before : ∀ entry ∈ entries, entry.1 < k) :
    put k a entries = entries ++ [(k, a)] := by
  induction entries with
  | nil => rfl
  | cons entry rest ih =>
    obtain ⟨here, later⟩ := List.forall_mem_cons.mp before
    rw [put, if_neg here.not_gt, if_neg here.ne', ih later, List.cons_append]

theorem mem_put {k : K} {a : A} {entries : List (K × A)} {entry : K × A}
    (member : entry ∈ put k a entries) : entry = (k, a) ∨ entry ∈ entries := by
  induction entries with
  | nil => exact Or.inl (List.mem_singleton.mp member)
  | cons first rest ih =>
    rw [put] at member
    split at member
    · exact List.mem_cons.mp member
    split at member
    · rcases List.mem_cons.mp member with same | inside
      · exact Or.inl same
      · exact Or.inr (List.mem_cons_of_mem first inside)
    · rcases List.mem_cons.mp member with same | inside
      · exact Or.inr (same ▸ List.mem_cons_self)
      · exact (ih inside).imp_right (List.mem_cons_of_mem first)

theorem ordered_put (k : K) (a : A) {entries : List (K × A)} (ordered : Ordered entries) :
    Ordered (put k a entries) := by
  induction entries with
  | nil => exact List.pairwise_singleton _ _
  | cons entry rest ih =>
    obtain ⟨least, tail⟩ := List.pairwise_cons.mp ordered
    rw [put]
    split
    · rename_i before
      refine List.Pairwise.cons ?_ ordered
      intro other member
      rcases List.mem_cons.mp member with same | inside
      · rw [same]
        exact before
      · exact lt_trans before (least other inside)
    split
    · rename_i same
      refine List.Pairwise.cons ?_ tail
      intro other member
      rw [same]
      exact least other member
    · rename_i before differs
      refine List.Pairwise.cons ?_ (ih tail)
      intro other member
      rcases mem_put member with same | inside
      · rw [same]
        exact lt_of_le_of_ne (not_lt.mp before) (Ne.symm differs)
      · exact least other inside

/-- In an ordered map the entries are what lookup finds. -/
theorem mem_iff_lookup {entries : List (K × A)} (ordered : Ordered entries) {k : K} {a : A} :
    (k, a) ∈ entries ↔ entries.lookup k = some a := by
  induction entries with
  | nil => simp
  | cons entry rest ih =>
    obtain ⟨least, tail⟩ := List.pairwise_cons.mp ordered
    rw [lookup_cons_eq, List.mem_cons]
    split
    · rename_i same
      rw [Option.some.injEq]
      constructor
      · intro member
        rcases member with here | later
        · rw [← here]
        · exact absurd (least _ later) (by rw [same]; exact lt_irrefl _)
      · intro value
        exact Or.inl (Prod.ext same value.symm)
    · rename_i differs
      rw [← ih tail]
      constructor
      · intro member
        rcases member with here | later
        · exact absurd (congrArg Prod.fst here) differs
        · exact later
      · exact Or.inr

section Rows
variable {B : Type} {R : A → B → Prop} {left : List (K × A)} {right : List (K × B)}

/-- Beyond the first key of an ordered map nothing is found at or below it. -/
theorem lookup_below {k : K} (least : ∀ entry ∈ left, k < entry.1) : left.lookup k = none := by
  rw [List.lookup_eq_none_iff]
  intro entry member
  exact bne_iff_ne.mpr (least entry member).ne

theorem lookup_before {k : K} {a : K × A} (before : k < a.1) (least : ∀ entry ∈ left, a.1 < entry.1) :
    (a :: left).lookup k = none := by
  apply lookup_below
  intro entry member
  rcases List.mem_cons.mp member with rfl | later
  · exact before
  · exact lt_trans before (least entry later)

/-- Maps that agree entry by entry agree at every key. -/
theorem rel_lookup (rows : List.Forall₂ (fun a b => a.1 = b.1 ∧ R a.2 b.2) left right) (k : K) :
    Option.Rel R (left.lookup k) (right.lookup k) := by
  induction rows with
  | nil => exact .none
  | cons here _ ih =>
    rw [lookup_cons_eq, lookup_cons_eq, here.1]
    split
    · exact .some here.2
    · exact ih

/-- Ordered maps that agree at every key agree entry by entry. -/
theorem forall₂_of_lookup (sorted : Ordered left) (sorted' : Ordered right)
    (agree : ∀ k, Option.Rel R (left.lookup k) (right.lookup k)) :
    List.Forall₂ (fun a b => a.1 = b.1 ∧ R a.2 b.2) left right := by
  induction left generalizing right with
  | nil =>
    cases right with
    | nil => exact .nil
    | cons b right =>
      have here := agree b.1
      rw [lookup_cons_eq, if_pos rfl] at here
      cases here
  | cons a left ih =>
    obtain ⟨least, sorted⟩ := List.pairwise_cons.mp sorted
    cases right with
    | nil =>
      have here := agree a.1
      rw [lookup_cons_eq, if_pos rfl] at here
      cases here
    | cons b right =>
      obtain ⟨least', tail'⟩ := List.pairwise_cons.mp sorted'
      have keys : a.1 = b.1 := by
        rcases lt_trichotomy a.1 b.1 with before | same | behind
        · have here := agree a.1
          rw [lookup_before before least', lookup_cons_eq, if_pos rfl] at here
          cases here
        · exact same
        · have here := agree b.1
          rw [lookup_before behind least, lookup_cons_eq, if_pos rfl] at here
          cases here
      have here := agree a.1
      rw [lookup_cons_eq, if_pos rfl, lookup_cons_eq, if_pos keys, Option.rel_some_some] at here
      refine .cons ⟨keys, here⟩ (ih sorted tail' ?_)
      intro k
      by_cases first : k = a.1
      · have missing : right.lookup k = none := by
          rw [first, keys]
          exact lookup_below least'
        rw [missing, first, lookup_below least]
        exact .none
      · have rest := agree k
        rw [lookup_cons_eq, lookup_cons_eq, if_neg first, if_neg (keys ▸ first)] at rest
        exact rest

end Rows

end OrderedAssoc
