import VerifiableRag.Library.PyStr

/-!
Patterns of Python's `re` over the generalized UTF-8 of a `str`, and what `re.match` finds.
-/
namespace PyRegex

inductive Pattern where
  | literal (text : List UInt8)
  | oneOf (chars : List Nat)
  | seq (first second : Pattern)
  /-- `(?:p)?` -/
  | optional (p : Pattern)
  /-- `p{least,most}`; without `most` there is no upper bound. -/
  | repeated (p : Pattern) (least : Nat) (most : Option Nat)
  /-- `(?!p)` -/
  | notAhead (p : Pattern)
  /-- `$`: the end of the string, or the newline that ends it. -/
  | stop

inductive Times (r : List UInt8 → List UInt8 → Prop) : Nat → List UInt8 → List UInt8 → Prop where
  | zero (s : List UInt8) : Times r 0 s s
  | next {k : Nat} {s mid rest : List UInt8} (first : r s mid) (later : Times r k mid rest) :
      Times r (k + 1) s rest

/-- Some way to match the start of a string leaves `rest`. -/
def Consumes : Pattern → List UInt8 → List UInt8 → Prop
  | .literal text, s, rest => s = text ++ rest
  | .oneOf chars, s, rest => ∃ c ∈ chars, s = Unicode.encode c ++ rest
  | .seq p q, s, rest => ∃ mid, Consumes p s mid ∧ Consumes q mid rest
  | .optional p, s, rest => s = rest ∨ Consumes p s rest
  | .repeated p least most, s, rest =>
    ∃ k, least ≤ k ∧ (∀ m ∈ most, k ≤ m) ∧ Times (Consumes p) k s rest
  | .notAhead p, s, rest => s = rest ∧ ∀ r, ¬ Consumes p s r
  | .stop, s, rest => s = rest ∧ (s = [] ∨ s = [0x0A])

def Pattern.Matches (p : Pattern) (s : List UInt8) : Prop := ∃ rest, Consumes p s rest

def text (chars : List Nat) : List UInt8 := chars.flatMap Unicode.encode

theorem text_cons (c : Nat) (chars : List Nat) : text (c :: chars) = Unicode.encode c ++ text chars :=
  List.flatMap_cons

theorem times_oneOf {chars : List Nat} {k : Nat} {s rest : List UInt8} :
    Times (Consumes (.oneOf chars)) k s rest ↔
      ∃ taken : List Nat, taken.length = k ∧ (∀ c ∈ taken, c ∈ chars) ∧ s = text taken ++ rest := by
  constructor
  · intro run
    induction run with
    | zero s => exact ⟨[], rfl, nofun, rfl⟩
    | next first later ih =>
      obtain ⟨c, listed, rfl⟩ := first
      obtain ⟨taken, size, inside, rfl⟩ := ih
      refine ⟨c :: taken, congrArg (· + 1) size, List.forall_mem_cons.mpr ⟨listed, inside⟩, ?_⟩
      rw [text_cons, List.append_assoc]
  · intro h
    obtain ⟨taken, size, inside, rfl⟩ := h
    induction taken generalizing k with
    | nil =>
      obtain rfl := size
      exact .zero rest
    | cons c taken ih =>
      obtain rfl := size
      rw [List.forall_mem_cons] at inside
      refine .next ⟨c, inside.1, ?_⟩ (ih rfl inside.2)
      rw [text_cons, List.append_assoc]

theorem consumes_repeated {chars : List Nat} {least : Nat} {most : Option Nat}
    {s rest : List UInt8} : Consumes (.repeated (.oneOf chars) least most) s rest ↔
      ∃ taken : List Nat, least ≤ taken.length ∧ (∀ m ∈ most, taken.length ≤ m) ∧
        (∀ c ∈ taken, c ∈ chars) ∧ s = text taken ++ rest := by
  rw [Consumes]
  constructor
  · intro h
    obtain ⟨k, lower, upper, run⟩ := h
    obtain ⟨taken, rfl, inside, split⟩ := times_oneOf.mp run
    exact ⟨taken, lower, upper, inside, split⟩
  · intro h
    obtain ⟨taken, lower, upper, inside, split⟩ := h
    exact ⟨taken.length, lower, upper, times_oneOf.mpr ⟨taken, rfl, inside, split⟩⟩

theorem text_ascii {chars : List Nat} {p : UInt8 → Bool}
    (ascii : ∀ c ∈ chars, Unicode.encode c = [UInt8.ofNat c] ∧ p (UInt8.ofNat c))
    (covered : ∀ b, p b → b.toNat ∈ chars) {s : List UInt8} {n : Nat} :
    (∃ taken : List Nat, taken.length = n ∧ (∀ c ∈ taken, c ∈ chars) ∧ s = text taken) ↔
      s.length = n ∧ ∀ b ∈ s, p b := by
  constructor
  · intro h
    obtain ⟨taken, rfl, inside, rfl⟩ := h
    induction taken with
    | nil => exact ⟨rfl, nofun⟩
    | cons c taken ih =>
      rw [List.forall_mem_cons] at inside
      obtain ⟨size, all⟩ := ih inside.2
      obtain ⟨single, here⟩ := ascii c inside.1
      rw [text_cons, single, List.singleton_append]
      exact ⟨congrArg (· + 1) size, List.forall_mem_cons.mpr ⟨here, all⟩⟩
  · intro h
    obtain ⟨rfl, all⟩ := h
    have single : ∀ b ∈ s, Unicode.encode b.toNat = [b] := by
      intro b member
      have form := (ascii b.toNat (covered b (all b member))).1
      rwa [UInt8.ofNat_toNat] at form
    refine ⟨s.map UInt8.toNat, List.length_map _, ?_, ?_⟩
    · intro c member
      obtain ⟨b, listed, rfl⟩ := List.mem_map.mp member
      exact covered b (all b listed)
    · rw [text, List.flatMap_map, List.flatMap_congr single, List.flatMap_singleton' s]

section Greedy
open PyStr
variable {forms : List (List UInt8)}

theorem dropForms_row (nonempty : ∀ f ∈ forms, f ≠ []) {pending : Nat} {s : List UInt8}
    (enough : pending ≤ s.length) : ∃ taken : List (List UInt8), (∀ f ∈ taken, f ∈ forms) ∧
      s = s.take pending ++ (taken.flatten ++ dropForms forms pending s) := by
  induction s generalizing pending with
  | nil =>
    obtain rfl := Nat.le_zero.mp enough
    exact ⟨[], nofun, rfl⟩
  | cons b rest ih =>
    cases pending with
    | succ pending =>
      obtain ⟨taken, inside, split⟩ := ih (Nat.le_of_succ_le_succ enough)
      refine ⟨taken, inside, ?_⟩
      rw [List.take_succ_cons, List.cons_append, dropForms]
      exact congrArg (b :: ·) split
    | zero =>
      cases found : forms.find? (·.isPrefixOf (b :: rest)) with
      | none => exact ⟨[], nofun, by rw [dropForms, found]; rfl⟩
      | some form =>
        have start : form.isPrefixOf (b :: rest) = true := by simpa using List.find?_some found
        have here : form <+: b :: rest := List.isPrefixOf_iff_prefix.mp start
        have listed := List.mem_of_find?_eq_some found
        cases form with
        | nil => exact absurd rfl (nonempty [] listed)
        | cons c form =>
          obtain ⟨u, same⟩ := here
          rw [List.cons_append, List.cons.injEq] at same
          obtain ⟨rfl, rfl⟩ := same
          obtain ⟨taken, inside, split⟩ := @ih form.length (by simp)
          rw [List.take_left] at split
          refine ⟨(c :: form) :: taken, List.forall_mem_cons.mpr ⟨listed, inside⟩, ?_⟩
          rw [dropForms, found, List.flatten_cons, List.append_assoc, List.cons_append]
          exact congrArg (c :: ·) split

/-- At one place no two forms start. -/
def Separated (forms : List (List UInt8)) : Prop :=
  ∀ f ∈ forms, f ≠ [] ∧ ∀ g ∈ forms, ∀ s, f <+: s → g <+: s → f = g

theorem dropForms_pending (passed s : List UInt8) :
    dropForms forms passed.length (passed ++ s) = dropForms forms 0 s := by
  induction passed with
  | nil => rfl
  | cons b passed ih => rw [List.length_cons, List.cons_append, dropForms, ih]

/-- All of a row is dropped when nothing more can be. -/
theorem dropForms_flatten (separated : Separated forms) {taken : List (List UInt8)}
    (inside : ∀ f ∈ taken, f ∈ forms) {rest : List UInt8} (stops : ∀ f ∈ forms, ¬ f <+: rest) :
    dropForms forms 0 (taken.flatten ++ rest) = rest := by
  induction taken with
  | nil =>
    cases rest with
    | nil => rfl
    | cons b rest =>
      have none_here : forms.find? (·.isPrefixOf (b :: rest)) = none := by
        rw [List.find?_eq_none]
        intro f listed here
        exact stops f listed (List.isPrefixOf_iff_prefix.mp here)
      rw [List.flatten_nil, List.nil_append, dropForms, none_here]
  | cons form taken ih =>
    rw [List.forall_mem_cons] at inside
    obtain ⟨nonempty, unique⟩ := separated form inside.1
    cases form with
    | nil => exact absurd rfl nonempty
    | cons b form =>
      have here : (b :: form) <+: b :: (form ++ (taken.flatten ++ rest)) := ⟨_, rfl⟩
      have found : forms.find? (·.isPrefixOf (b :: (form ++ (taken.flatten ++ rest)))) =
          some (b :: form) := by
        cases first : forms.find? (·.isPrefixOf (b :: (form ++ (taken.flatten ++ rest)))) with
        | none =>
          rw [List.find?_eq_none] at first
          exact absurd (List.isPrefixOf_iff_prefix.mpr here) (first _ inside.1)
        | some other =>
          have start : other.isPrefixOf (b :: (form ++ (taken.flatten ++ rest))) = true := by
            simpa using List.find?_some first
          rw [unique other (List.mem_of_find?_eq_some first) _ here
            (List.isPrefixOf_iff_prefix.mp start)]
      rw [List.flatten_cons, List.append_assoc, List.cons_append, dropForms, found]
      exact (dropForms_pending form _).trans (ih inside.2)

theorem separated_of_width {width : UInt8 → Nat}
    (widths : ∀ f ∈ forms, f ≠ [] ∧ f.length = width (f.headD 0)) : Separated forms := by
  intro f listed
  obtain ⟨nonempty, size⟩ := widths f listed
  refine ⟨nonempty, ?_⟩
  intro g listed' s start start'
  obtain ⟨nonempty', size'⟩ := widths g listed'
  have heads : f.headD 0 = g.headD 0 := by
    obtain ⟨u, rfl⟩ := start
    cases f with
    | nil => exact absurd rfl nonempty
    | cons b f =>
      cases g with
      | nil => exact absurd rfl nonempty'
      | cons c g => exact (List.cons_prefix_cons.mp start').1.symm
  have lengths : f.length = g.length := by rw [size, size', heads]
  exact (List.prefix_of_prefix_length_le start start' (Nat.le_of_eq lengths)).eq_of_length lengths

end Greedy

end PyRegex
