import VerifiableRag.Library.Regex

/-!
Searching a text for an expression: the leftmost match, which is as long as any at its place. A
search does not see what a map keeps of every class.
-/
namespace Regex
variable {α : Type}

section Search

/-- The longest prefix that matches, and the rest. -/
def longest : Regex α → List α → Option (List α × List α)
  | r, [] => if r.nullable then some ([], []) else none
  | r, a :: s =>
    match longest (r.deriv a) s with
    | some (word, rest) => some (a :: word, rest)
    | none => if r.nullable then some ([], a :: s) else none

/-- The text before the first match, the match and the text behind it. -/
def find (r : Regex α) : List α → Option (List α × List α × List α)
  | [] => (longest r []).map fun (word, rest) => ([], word, rest)
  | a :: s =>
    match longest r (a :: s) with
    | some (word, rest) => some ([], word, rest)
    | none => (find r s).map fun (before, word, after) => (a :: before, word, after)

/-- A text without the first occurrence of a word. -/
def removeFirst [DecidableEq α] (word : List α) : List α → List α
  | [] => []
  | a :: s => if word <+: a :: s then (a :: s).drop word.length else a :: removeFirst word s

structure LongestPrefix (r : Regex α) (s word rest : List α) : Prop where
  split : s = word ++ rest
  matched : Matches r word
  longest : ∀ more rest', rest = more ++ rest' → Matches r (word ++ more) → more = []

def NoPrefix (r : Regex α) (s : List α) : Prop := ∀ word rest, s = word ++ rest → ¬ Matches r word

structure FirstMatch (r : Regex α) (s before word after : List α) : Prop where
  split : s = before ++ (word ++ after)
  here : LongestPrefix r (word ++ after) word after
  leftmost : ∀ b w a, s = b ++ (w ++ a) → Matches r w → before.length ≤ b.length

def NoMatch (r : Regex α) (s : List α) : Prop := ∀ b w a, s = b ++ (w ++ a) → ¬ Matches r w

variable {r : Regex α} {a : α} {s word rest before after : List α}

theorem NoPrefix.long (none : NoPrefix (r.deriv a) s) (word rest : List α)
    (split : a :: s = word ++ rest) (matched : Matches r word) : word = [] := by
  cases word with
  | nil => rfl
  | cons b word =>
    injection split with same split
    rw [← same] at matched
    exact absurd (matches_deriv.mpr matched) (none word rest split)

theorem NoPrefix.stop (none : NoPrefix (r.deriv a) s) (null : r.nullable = true) :
    LongestPrefix r (a :: s) [] (a :: s) where
  split := rfl
  matched := nullable_iff.mp null
  longest := none.long

theorem NoPrefix.cons (none : NoPrefix (r.deriv a) s) (solid : ¬ r.nullable = true) :
    NoPrefix r (a :: s) := by
  intro word rest split matched
  rw [none.long word rest split matched] at matched
  exact solid (nullable_iff.mpr matched)

theorem LongestPrefix.cons (later : LongestPrefix (r.deriv a) s word rest) :
    LongestPrefix r (a :: s) (a :: word) rest where
  split := congrArg (a :: ·) later.split
  matched := matches_deriv.mp later.matched
  longest := fun more rest' same matched => later.longest more rest' same (matches_deriv.mpr matched)

theorem longest_spec (r : Regex α) (s : List α) :
    (∀ word rest, longest r s = some (word, rest) → LongestPrefix r s word rest) ∧
      (longest r s = none → NoPrefix r s) := by
  induction s generalizing r with
  | nil =>
    rw [longest]
    split
    · rename_i null
      refine ⟨?_, nofun⟩
      rintro _ _ ⟨⟩
      refine ⟨rfl, nullable_iff.mp null, ?_⟩
      intro more rest' same _
      exact (List.append_eq_nil_iff.mp same.symm).1
    · rename_i solid
      refine ⟨nofun, ?_⟩
      intro _ word rest same matched
      rw [(List.append_eq_nil_iff.mp same.symm).1] at matched
      exact solid (nullable_iff.mpr matched)
  | cons a s ih =>
    obtain ⟨found, missed⟩ := ih (r.deriv a)
    rw [longest]
    split
    · rename_i word rest here
      refine ⟨?_, nofun⟩
      rintro _ _ ⟨⟩
      exact (found word rest here).cons
    · rename_i none
      split
      · rename_i null
        refine ⟨?_, nofun⟩
        rintro _ _ ⟨⟩
        exact (missed none).stop null
      · rename_i solid
        exact ⟨nofun, fun _ => (missed none).cons solid⟩

theorem LongestPrefix.unique {word' rest' : List α} (first : LongestPrefix r s word rest)
    (second : LongestPrefix r s word' rest') : word = word' ∧ rest = rest' := by
  have same := first.split.symm.trans second.split
  rcases List.append_eq_append_iff.mp same with ⟨more, longer, left⟩ | ⟨more, longer, left⟩
  · have none := first.longest more rest' left (longer ▸ second.matched)
    rw [none] at longer left
    exact ⟨(longer.trans (List.append_nil _)).symm, left⟩
  · have none := second.longest more rest left (longer ▸ first.matched)
    rw [none] at longer left
    exact ⟨longer.trans (List.append_nil _), left.symm⟩

theorem LongestPrefix.first (here : LongestPrefix r s word rest) : FirstMatch r s [] word rest := by
  have split := here.split
  subst split
  exact ⟨rfl, here, fun _ _ _ _ _ => Nat.zero_le _⟩

/-- A match further on starts behind the first letter. -/
theorem NoPrefix.behind (none : NoPrefix r (a :: s)) {b w c : List α} (split : a :: s = b ++ (w ++ c))
    (matched : Matches r w) : ∃ b', b = a :: b' ∧ s = b' ++ (w ++ c) := by
  cases b with
  | nil => exact absurd matched (none w c split)
  | cons d b =>
    injection split with same split
    subst same
    exact ⟨b, rfl, split⟩

theorem FirstMatch.cons (none : NoPrefix r (a :: s)) (later : FirstMatch r s before word after) :
    FirstMatch r (a :: s) (a :: before) word after where
  split := congrArg (a :: ·) later.split
  here := later.here
  leftmost := by
    intro b w c split matched
    obtain ⟨b', rfl, split'⟩ := none.behind split matched
    exact Nat.succ_le_succ (later.leftmost b' w c split' matched)

theorem find_spec (r : Regex α) (s : List α) :
    (∀ before word after, find r s = some (before, word, after) → FirstMatch r s before word after) ∧
      (find r s = none → NoMatch r s) := by
  induction s with
  | nil =>
    obtain ⟨found, missed⟩ := longest_spec r []
    rw [find]
    cases here : longest r [] with
    | some result =>
      refine ⟨?_, nofun⟩
      rintro _ _ _ ⟨⟩
      exact (found _ _ here).first
    | none =>
      refine ⟨nofun, ?_⟩
      intro _ b w c split
      rw [(List.append_eq_nil_iff.mp split.symm).1] at split
      exact missed here w c split
  | cons a s ih =>
    obtain ⟨found, missed⟩ := longest_spec r (a :: s)
    rw [find]
    split
    · rename_i here
      refine ⟨?_, nofun⟩
      rintro _ _ _ ⟨⟩
      exact (found _ _ here).first
    · rename_i none
      cases later : find r s with
      | some result =>
        refine ⟨?_, nofun⟩
        rintro _ _ _ ⟨⟩
        exact (ih.1 _ _ _ later).cons (missed none)
      | none =>
        refine ⟨nofun, ?_⟩
        intro _ b w c split matched
        obtain ⟨b', rfl, split'⟩ := (missed none).behind split matched
        exact ih.2 later b' w c split' matched

theorem FirstMatch.unique {before' word' after' : List α} (first : FirstMatch r s before word after)
    (second : FirstMatch r s before' word' after') :
    before = before' ∧ word = word' ∧ after = after' := by
  have size := Nat.le_antisymm (first.leftmost _ _ _ second.split second.here.matched)
    (second.leftmost _ _ _ first.split first.here.matched)
  obtain ⟨same, same'⟩ := List.append_inj (first.split.symm.trans second.split) size
  have here := second.here
  rw [← same'] at here
  exact ⟨same, first.here.unique here⟩

theorem find_iff : find r s = some (before, word, after) ↔ FirstMatch r s before word after := by
  constructor
  · exact (find_spec r s).1 before word after
  · intro first
    cases found : find r s with
    | none => exact absurd first.here.matched ((find_spec r s).2 found _ _ _ first.split)
    | some here =>
      obtain ⟨rfl, rfl, rfl⟩ := ((find_spec r s).1 _ _ _ found).unique first
      rfl

theorem find_none : find r s = none ↔ NoMatch r s := by
  constructor
  · exact (find_spec r s).2
  · intro none
    cases found : find r s with
    | none => rfl
    | some here =>
      have first := (find_spec r s).1 _ _ _ found
      exact absurd first.here.matched (none _ _ _ first.split)

/-- The first match is the first occurrence of its word. -/
theorem FirstMatch.removeFirst [DecidableEq α] (first : FirstMatch r s before word after) :
    removeFirst word s = before ++ after := by
  have split := first.split
  induction before generalizing s with
  | nil =>
    cases s with
    | nil =>
      rw [List.nil_append] at split
      exact (List.append_eq_nil_iff.mp split.symm).2.symm
    | cons a s =>
      rw [Regex.removeFirst, split, List.nil_append, if_pos (List.prefix_append word after),
        List.drop_left]
      rfl
  | cons a before ih =>
    subst split
    have other : ¬ word <+: a :: (before ++ (word ++ after)) := by
      rintro ⟨rest, same⟩
      have := first.leftmost [] word rest same.symm first.here.matched
      exact absurd this (Nat.not_succ_le_zero _)
    have later : FirstMatch r (before ++ (word ++ after)) before word after := by
      refine ⟨rfl, first.here, ?_⟩
      intro b w c split matched
      exact Nat.le_of_succ_le_succ (first.leftmost (a :: b) w c (congrArg (a :: ·) split) matched)
    rw [List.cons_append, Regex.removeFirst, if_neg other, ih later rfl, List.cons_append]

theorem find_length (found : find r s = some (before, word, after)) : word.length ≤ s.length := by
  rw [(find_iff.mp found).split, List.length_append, List.length_append]
  omega

theorem removeFirst_length [DecidableEq α] (word s : List α) :
    (Regex.removeFirst word s).length ≤ s.length := by
  induction s with
  | nil => exact Nat.le_refl 0
  | cons a s ih =>
    rw [Regex.removeFirst]
    split
    · rw [List.length_drop]
      omega
    · exact Nat.succ_le_succ ih

end Search

section Blindness
variable {r : Regex α} {f : α → α} {s : List α}

/-- The classes of an expression do not tell a letter from its image. -/
def Blind (f : α → α) : Regex α → Prop
  | .empty | .eps => True
  | .char p => ∀ a, p (f a) = p a
  | .seq r q | .alt r q => r.Blind f ∧ q.Blind f
  | .star r => r.Blind f

theorem Blind.deriv (blind : r.Blind f) (a : α) :
    r.deriv (f a) = r.deriv a ∧ (r.deriv a).Blind f := by
  induction r with
  | empty => exact ⟨rfl, trivial⟩
  | eps => exact ⟨rfl, trivial⟩
  | char p =>
    rw [Regex.deriv, Regex.deriv, blind a]
    split <;> exact ⟨rfl, trivial⟩
  | seq r q first second =>
    obtain ⟨same, later⟩ := first blind.1
    obtain ⟨same', later'⟩ := second blind.2
    rw [Regex.deriv, Regex.deriv, same, same']
    split
    · exact ⟨rfl, ⟨later, blind.2⟩, later'⟩
    · exact ⟨rfl, later, blind.2⟩
  | alt r q first second =>
    obtain ⟨same, later⟩ := first blind.1
    obtain ⟨same', later'⟩ := second blind.2
    rw [Regex.deriv, Regex.deriv, same, same']
    exact ⟨rfl, later, later'⟩
  | star r first =>
    obtain ⟨same, later⟩ := first blind
    rw [Regex.deriv, Regex.deriv, same]
    exact ⟨rfl, later, blind⟩

theorem Blind.longest (blind : r.Blind f) (s : List α) : longest r (s.map f) =
    (longest r s).map fun (word, rest) => (word.map f, rest.map f) := by
  induction s generalizing r with
  | nil =>
    rw [List.map_nil, Regex.longest]
    split <;> rfl
  | cons a s ih =>
    obtain ⟨same, later⟩ := blind.deriv a
    rw [List.map_cons, Regex.longest, Regex.longest, same, ih later]
    cases Regex.longest (r.deriv a) s with
    | some result => rfl
    | none => cases null : r.nullable <;> simp

/-- A search finds the same places in the image of a text. -/
theorem Blind.find (blind : r.Blind f) (s : List α) : find r (s.map f) =
    (find r s).map fun (before, word, after) => (before.map f, word.map f, after.map f) := by
  induction s with
  | nil =>
    rw [List.map_nil, Regex.find, Regex.longest]
    split <;> rfl
  | cons a s ih =>
    have here := blind.longest (a :: s)
    rw [List.map_cons] at here
    rw [List.map_cons, Regex.find, Regex.find, here]
    cases Regex.longest r (a :: s) with
    | some result => rfl
    | none =>
      simp only [Option.map_none, ih, Option.map_map]
      rfl

theorem Blind.firstMatch (blind : r.Blind f) {before word after : List α} :
    FirstMatch r (s.map f) before word after ↔ ∃ b w a, FirstMatch r s b w a ∧
      b.map f = before ∧ w.map f = word ∧ a.map f = after := by
  rw [← find_iff, blind.find, Option.map_eq_some_iff]
  constructor
  · rintro ⟨⟨b, w, a⟩, found, same⟩
    injection same with first rest
    injection rest with second third
    exact ⟨b, w, a, find_iff.mp found, first, second, third⟩
  · rintro ⟨b, w, a, first, rfl, rfl, rfl⟩
    exact ⟨(b, w, a), find_iff.mpr first, rfl⟩

theorem Blind.noMatch (blind : r.Blind f) : NoMatch r (s.map f) ↔ NoMatch r s := by
  rw [← find_none, ← find_none, blind.find, Option.map_eq_none_iff]

theorem blind_literal [DecidableEq α] {w : List α}
    (apart : ∀ a ∈ w, ∀ b, decide (f b = a) = decide (b = a)) : (literal w).Blind f := by
  induction w with
  | nil => trivial
  | cons a w ih =>
    rw [List.forall_mem_cons] at apart
    exact ⟨apart.1, ih apart.2⟩

end Blindness

end Regex
