import Mathlib

/-!
Python's `str` as the list of its code points, and what `repr` writes for one.
-/
namespace CodePoints

abbrev CodePoint := Fin 0x110000

instance codePoint_neZero : NeZero 0x110000 := ⟨by decide⟩

instance codePoint_lawfulBEq : LawfulBEq CodePoint := inferInstance

/-- A `str`; a surrogate is a code point like any other. -/
abbrev Str := List CodePoint

def ofString (s : String) : Str := s.toList.map fun c => Fin.ofNat 0x110000 c.toNat

/-- `str(n)`. -/
def decimal (n : Nat) : Str := ofString (toString n)

theorem ofString_injective {s t : String} (same : ofString s = ofString t) : s = t := by
  have char : ∀ {a b : Char}, Fin.ofNat 0x110000 a.toNat = Fin.ofNat 0x110000 b.toNat → a = b := by
    intro a b equal
    have bound : ∀ c : Char, c.toNat < 0x110000 := fun c => by
      rcases c.valid with small | large
      · exact Nat.lt_trans small (by decide)
      · exact large.2
    have values := congrArg Fin.val equal
    rw [Fin.val_ofNat, Fin.val_ofNat, Nat.mod_eq_of_lt (bound a), Nat.mod_eq_of_lt (bound b)] at values
    exact Char.toNat_inj.mp values
  exact String.toList_inj.mp (List.map_injective_iff.mpr (fun _ _ => char) same)

theorem decimal_injective {m n : Nat} (same : decimal m = decimal n) : m = n := by
  have digits := congrArg String.toList (ofString_injective same)
  rw [Nat.toString_eq_repr, Nat.toString_eq_repr, Nat.toList_repr, Nat.toList_repr] at digits
  rw [← Nat.ofDigitChars_ten_toDigits (n := m), digits, Nat.ofDigitChars_ten_toDigits]

theorem decimal_digit {n : Nat} {c : CodePoint} (member : c ∈ decimal n) : 0x30 ≤ c ∧ c ≤ 0x39 := by
  rw [decimal, ofString, Nat.toString_eq_repr, Nat.toList_repr] at member
  obtain ⟨d, inside, rfl⟩ := List.mem_map.mp member
  have digit : 0x30 ≤ d.toNat ∧ d.toNat ≤ 0x39 :=
    Char.isDigit_iff_toNat.mp (Nat.isDigit_of_mem_toDigits (by decide) (by decide) inside)
  have value : (Fin.ofNat 0x110000 d.toNat).val = d.toNat := Nat.mod_eq_of_lt (by omega)
  rw [Fin.le_def, Fin.le_def, value]
  exact digit

/-- `str.isspace` of one character. -/
def isspace (c : CodePoint) : Bool :=
  (0x9 ≤ c ∧ c ≤ 0xD) ∨ (0x1C ≤ c ∧ c ≤ 0x20) ∨ c = 0x85 ∨ c = 0xA0 ∨ c = 0x1680 ∨
    (0x2000 ≤ c ∧ c ≤ 0x200A) ∨ c = 0x2028 ∨ c = 0x2029 ∨ c = 0x202F ∨ c = 0x205F ∨ c = 0x3000

def strip (s : Str) : Str := ((s.dropWhile isspace).reverse.dropWhile isspace).reverse

section Hex

def hexChar (d : Nat) : CodePoint := Fin.ofNat 0x110000 (if d < 10 then 0x30 + d else 0x57 + d)

/-- `_PyLong_DigitValue`, for the hexadecimal digits. -/
def hexValue (c : CodePoint) : Option Nat :=
  if 0x30 ≤ c ∧ c ≤ 0x39 then some (c - 0x30)
  else if 0x61 ≤ c ∧ c ≤ 0x66 then some (c - 0x57)
  else if 0x41 ≤ c ∧ c ≤ 0x46 then some (c - 0x37)
  else none

/-- The `k` low hexadecimal digits, most significant first. -/
def hexDigits : Nat → Nat → Str
  | 0, _ => []
  | k + 1, n => hexDigits k (n / 16) ++ [hexChar (n % 16)]

def unhex (digits : Str) : Nat := digits.foldl (fun v c => 16 * v + (hexValue c).getD 0) 0

theorem hexDigits_length (k n : Nat) : (hexDigits k n).length = k := by
  induction k generalizing n with
  | zero => rfl
  | succ k ih => rw [hexDigits, List.length_append, ih, List.length_singleton]

theorem hexValue_hexChar {d : Nat} (digit : d < 16) : hexValue (hexChar d) = some d := by
  have table : ∀ d : Fin 16, hexValue (hexChar d) = some d.val := by decide +kernel
  exact table ⟨d, digit⟩

theorem unhex_hexDigits {k n : Nat} (small : n < 16 ^ k) : unhex (hexDigits k n) = n := by
  induction k generalizing n with
  | zero =>
    rw [Nat.pow_zero, Nat.lt_one_iff] at small
    rw [small]
    rfl
  | succ k ih =>
    have high := ih (n := n / 16) (by rw [Nat.pow_succ] at small; omega)
    rw [unhex] at high
    rw [hexDigits, unhex, List.foldl_append, high, List.foldl_cons, List.foldl_nil,
      hexValue_hexChar (Nat.mod_lt n (by omega)), Option.getD_some]
    omega

end Hex

section Repr

/-- One character inside the quotes. `isprintable` is `str.isprintable`, which the Unicode
    database decides outside ASCII. -/
def escape (isprintable : CodePoint → Bool) (quote c : CodePoint) : Str :=
  if c = quote ∨ c = 0x5C then [0x5C, c]
  else if c = 0x09 then [0x5C, 0x74]
  else if c = 0x0A then [0x5C, 0x6E]
  else if c = 0x0D then [0x5C, 0x72]
  else if (0x20 ≤ c ∧ c < 0x7F) ∨ (0x7F < c ∧ isprintable c) then [c]
  else if c ≤ 0xFF then 0x5C :: 0x78 :: hexDigits 2 c
  else if c ≤ 0xFFFF then 0x5C :: 0x75 :: hexDigits 4 c
  else 0x5C :: 0x55 :: hexDigits 8 c

/-- Double quotes only where they save an escape. -/
def quoteOf (s : Str) : CodePoint := if 0x27 ∈ s ∧ 0x22 ∉ s then 0x22 else 0x27

def repr (isprintable : CodePoint → Bool) (s : Str) : Str :=
  quoteOf s :: s.flatMap (escape isprintable (quoteOf s)) ++ [quoteOf s]

/-- The character that starts an escaped text, and what follows it. -/
def unescape : Str → Option (CodePoint × Str)
  | [] => none
  | c :: rest =>
    if c = 0x5C then
      match rest with
      | [] => none
      | k :: rest =>
        if k = 0x74 then some (0x09, rest)
        else if k = 0x6E then some (0x0A, rest)
        else if k = 0x72 then some (0x0D, rest)
        else if k = 0x78 then some (Fin.ofNat _ (unhex (rest.take 2)), rest.drop 2)
        else if k = 0x75 then some (Fin.ofNat _ (unhex (rest.take 4)), rest.drop 4)
        else if k = 0x55 then some (Fin.ofNat _ (unhex (rest.take 8)), rest.drop 8)
        else some (k, rest)
    else some (c, rest)

variable {isprintable : CodePoint → Bool} {quote : CodePoint}

theorem unescape_x (s : Str) :
    unescape (0x5C :: 0x78 :: s) = some (Fin.ofNat _ (unhex (s.take 2)), s.drop 2) := rfl

theorem unescape_u (s : Str) :
    unescape (0x5C :: 0x75 :: s) = some (Fin.ofNat _ (unhex (s.take 4)), s.drop 4) := rfl

theorem unescape_U (s : Str) :
    unescape (0x5C :: 0x55 :: s) = some (Fin.ofNat _ (unhex (s.take 8)), s.drop 8) := rfl

theorem unescape_escape (mark : quote = 0x27 ∨ quote = 0x22) (c : CodePoint) (rest : Str) :
    unescape (escape isprintable quote c ++ rest) = some (c, rest) := by
  have hex : ∀ {k : Nat}, c.val < 16 ^ k →
      some (Fin.ofNat 0x110000 (unhex ((hexDigits k c ++ rest).take k)),
        (hexDigits k c ++ rest).drop k) = some (c, rest) := by
    intro k small
    rw [List.take_left' (hexDigits_length k c), List.drop_left' (hexDigits_length k c),
      unhex_hexDigits small]
    rw [Fin.ofNat_val_eq_self]
  unfold escape
  split
  · rename_i plain
    have other : ∀ k : CodePoint, k = 0x27 ∨ k = 0x22 ∨ k = 0x5C →
        unescape (0x5C :: k :: rest) = some (k, rest) := by
      intro k named
      rcases named with rfl | rfl | rfl <;> rfl
    refine other c ?_
    rcases plain with rfl | rfl
    · exact mark.imp_right Or.inl
    · exact Or.inr (Or.inr rfl)
  rename_i special
  rw [not_or] at special
  split
  · rename_i same
    rw [same]
    rfl
  split
  · rename_i same
    rw [same]
    rfl
  split
  · rename_i same
    rw [same]
    rfl
  split
  · simp only [List.singleton_append, unescape, if_neg special.2]
  split
  · rename_i small
    rw [List.cons_append, List.cons_append, unescape_x]
    exact hex (Nat.lt_of_le_of_lt (Fin.le_def.mp small) (by decide))
  split
  · rename_i small
    rw [List.cons_append, List.cons_append, unescape_u]
    exact hex (Nat.lt_of_le_of_lt (Fin.le_def.mp small) (by decide))
  · rw [List.cons_append, List.cons_append, unescape_U]
    exact hex (Nat.lt_trans c.isLt (by decide))

theorem escape_quote (rest : Str) :
    escape isprintable quote quote ++ rest = 0x5C :: quote :: rest := by
  rw [escape, if_pos (Or.inl rfl)]
  rfl

theorem mark_ne (mark : quote = 0x27 ∨ quote = 0x22) : quote ≠ 0x5C := by
  rcases mark with rfl | rfl <;> decide

/-- No character's form starts with the closing quote. -/
theorem escape_ne_quote (mark : quote = 0x27 ∨ quote = 0x22) (c : CodePoint) (s t : Str) :
    escape isprintable quote c ++ s ≠ quote :: t := by
  intro same
  have read : unescape (escape isprintable quote c ++ s) = some (c, s) := unescape_escape mark c s
  rw [same] at read
  simp only [unescape, if_neg (mark_ne mark)] at read
  cases read
  rw [escape_quote] at same
  injection same with first _
  exact mark_ne mark first.symm

theorem quoted_inj (mark : quote = 0x27 ∨ quote = 0x22) {xs ys : Str}
    (same : xs.flatMap (escape isprintable quote) ++ [quote] =
      ys.flatMap (escape isprintable quote) ++ [quote]) : xs = ys := by
  induction xs generalizing ys with
  | nil =>
    cases ys with
    | nil => rfl
    | cons d ys =>
      rw [List.flatMap_cons, List.append_assoc] at same
      exact absurd same.symm (escape_ne_quote mark d _ [])
  | cons c xs ih =>
    cases ys with
    | nil =>
      rw [List.flatMap_cons, List.append_assoc] at same
      exact absurd same (escape_ne_quote mark c _ [])
    | cons d ys =>
      rw [List.flatMap_cons, List.flatMap_cons, List.append_assoc, List.append_assoc] at same
      have read := congrArg unescape same
      rw [unescape_escape mark, unescape_escape mark, Option.some.injEq, Prod.mk.injEq] at read
      rw [read.1, ih read.2]

theorem quoteOf_mark (s : Str) : quoteOf s = 0x27 ∨ quoteOf s = 0x22 := by
  unfold quoteOf
  split
  · exact Or.inr rfl
  · exact Or.inl rfl

/-- `repr` loses nothing: a message that shows it shows the text. -/
theorem repr_injective (isprintable : CodePoint → Bool) {s t : Str}
    (same : repr isprintable s = repr isprintable t) : s = t := by
  rw [repr, repr, List.cons_append, List.cons_append] at same
  injection same with quotes body
  rw [quotes] at body
  exact quoted_inj (quoteOf_mark t) body

end Repr

end CodePoints
