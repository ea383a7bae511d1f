import VerifiableRag.Library.Unicode

/-!
Operations of Python's `str`, on the generalized UTF-8 of its code points.
-/
namespace PyStr

/-- The characters of `str.isspace` in their UTF-8 forms. -/
def spaces : List (List UInt8) :=
  ([0x9, 0xA, 0xB, 0xC, 0xD, 0x1C, 0x1D, 0x1E, 0x1F, 0x20, 0x85, 0xA0, 0x1680] ++
    List.range' 0x2000 11 ++ [0x2028, 0x2029, 0x202F, 0x205F, 0x3000]).map Unicode.encode

/-- Drop leading forms of a list; `pending` bytes of the last one are still to go. -/
def dropForms (forms : List (List UInt8)) : Nat → List UInt8 → List UInt8
  | _, [] => []
  | pending + 1, _ :: rest => dropForms forms pending rest
  | 0, b :: rest =>
    match forms.find? (·.isPrefixOf (b :: rest)) with
    | some form => dropForms forms (form.length - 1) rest
    | none => b :: rest

def lstrip (s : List UInt8) : List UInt8 := dropForms spaces 0 s

def rstrip (s : List UInt8) : List UInt8 :=
  (dropForms (spaces.map List.reverse) 0 s.reverse).reverse

def strip (s : List UInt8) : List UInt8 := rstrip (lstrip s)

/-- The zeros of the decimal digits that `\d` matches, each before its nine others. -/
def decimalZeros : List Nat :=
  [0x30, 0x660, 0x6F0, 0x7C0, 0x966, 0x9E6, 0xA66, 0xAE6, 0xB66, 0xBE6, 0xC66, 0xCE6, 0xD66, 0xDE6,
    0xE50, 0xED0, 0xF20, 0x1040, 0x1090, 0x17E0, 0x1810, 0x1946, 0x19D0, 0x1A80, 0x1A90, 0x1B50,
    0x1BB0, 0x1C40, 0x1C50, 0xA620, 0xA8D0, 0xA900, 0xA9D0, 0xA9F0, 0xAA50, 0xABF0, 0xFF10, 0x104A0,
    0x10D30, 0x11066, 0x110F0, 0x11136, 0x111D0, 0x112F0, 0x11450, 0x114D0, 0x11650, 0x116C0,
    0x11730, 0x118E0, 0x11950, 0x11C50, 0x11D50, 0x11DA0, 0x16A60, 0x16AC0, 0x16B50, 0x1D7CE,
    0x1D7D8, 0x1D7E2, 0x1D7EC, 0x1D7F6, 0x1E140, 0x1E2F0, 0x1E950, 0x1FBF0]

def decimals : List (List UInt8) :=
  (decimalZeros.flatMap (List.range' · 10)).map Unicode.encode

/-- `s.split(sep)` for a separator of one ASCII character. -/
def split (sep : UInt8) : List UInt8 → List (List UInt8)
  | [] => [[]]
  | b :: rest =>
    if b = sep then [] :: split sep rest
    else match split sep rest with
      | part :: parts => (b :: part) :: parts
      | [] => [[b]]

def asciiLower (s : List UInt8) : List UInt8 :=
  s.map fun c => if 0x41 ≤ c ∧ c ≤ 0x5A then c + 0x20 else c

def asciiUpper (s : List UInt8) : List UInt8 :=
  s.map fun c => if 0x61 ≤ c ∧ c ≤ 0x7A then c - 0x20 else c

example : strip (Bytes.utf8 "\u2003 a b\n") = Bytes.utf8 "a b" := by decide +kernel

section Strip

theorem dropForms_split {forms : List (List UInt8)} {pending : Nat} {s : List UInt8}
    {P : UInt8 → Prop} (all : ∀ form ∈ forms, form ≠ [] ∧ ∀ b ∈ form, P b)
    (first : ∀ b ∈ s.take pending, P b) :
    ∃ dropped, s = dropped ++ dropForms forms pending s ∧ ∀ b ∈ dropped, P b := by
  induction s generalizing pending with
  | nil => exact ⟨[], by cases pending <;> rfl, by simp⟩
  | cons b rest ih =>
    cases pending with
    | succ pending =>
      rw [List.take_succ_cons, List.forall_mem_cons] at first
      obtain ⟨dropped, same, inside⟩ := ih first.2
      exact ⟨b :: dropped, by rw [dropForms, List.cons_append, ← same],
        List.forall_mem_cons.mpr ⟨first.1, inside⟩⟩
    | zero =>
      cases found : forms.find? (·.isPrefixOf (b :: rest)) with
      | none => exact ⟨[], by rw [dropForms, found]; rfl, by simp⟩
      | some form =>
        have here : form.isPrefixOf (b :: rest) = true := by simpa using List.find?_some found
        obtain ⟨u, same⟩ := List.isPrefixOf_iff_prefix.mp here
        obtain ⟨nonempty, bytes⟩ := all form (List.mem_of_find?_eq_some found)
        cases form with
        | nil => contradiction
        | cons c form =>
          rw [List.cons_append] at same
          cases same
          rw [List.forall_mem_cons] at bytes
          have taken : ∀ b ∈ (form ++ u).take form.length, P b := by
            rw [List.take_left]
            exact bytes.2
          obtain ⟨dropped, same, inside⟩ := ih taken
          refine ⟨b :: dropped, ?_, List.forall_mem_cons.mpr ⟨bytes.1, inside⟩⟩
          rw [dropForms, found, List.cons_append]
          exact congrArg (b :: ·) same

theorem strip_split {P : UInt8 → Prop} (all : ∀ form ∈ spaces, form ≠ [] ∧ ∀ b ∈ form, P b)
    (s : List UInt8) :
    ∃ left right, s = left ++ (strip s ++ right) ∧ (∀ b ∈ left, P b) ∧ ∀ b ∈ right, P b := by
  have reversed : ∀ form ∈ spaces.map List.reverse, form ≠ [] ∧ ∀ b ∈ form, P b := by
    intro form member
    obtain ⟨original, listed, rfl⟩ := List.mem_map.mp member
    simpa using all original listed
  obtain ⟨left, start, inside⟩ := @dropForms_split spaces 0 s P all (by simp)
  obtain ⟨right, stop, inside'⟩ := @dropForms_split _ 0 (lstrip s).reverse P reversed (by simp)
  have whole : lstrip s = strip s ++ right.reverse := by
    rw [← List.reverse_reverse (lstrip s), stop, List.reverse_append]
    rfl
  refine ⟨left, right.reverse, ?_, inside, by simpa using inside'⟩
  rw [← whole]
  exact start

end Strip

section Split

theorem split_cons {sep : UInt8} {s part : List UInt8} {parts : List (List UInt8)}
    (shape : split sep s = part :: parts) (more : parts ≠ []) :
    ∃ rest, s = part ++ sep :: rest ∧ sep ∉ part ∧ split sep rest = parts := by
  induction s generalizing part with
  | nil => simp_all [split]
  | cons b rest ih =>
    rw [split] at shape
    split at shape
    · rename_i same
      cases shape
      exact ⟨rest, by rw [same]; rfl, by simp, rfl⟩
    · rename_i other
      split at shape
      · rename_i part' parts' shape'
        cases shape
        obtain ⟨tail, rfl, apart, next⟩ := ih shape'
        exact ⟨tail, rfl, by simp [apart, Ne.symm other], next⟩
      · cases shape
        contradiction

end Split

end PyStr
