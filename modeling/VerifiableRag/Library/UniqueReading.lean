import VerifiableRag.Library.JsonWriting

/-!
Compact JSON texts that say where they end: a text before anything but a digit determines what
was written and what follows.
-/
namespace Json
open Bytes (utf8)

section Cancelling
variable {α β γ : Type}

/-- The text does not go on with a number. -/
def NoDigit (x : Text) : Prop := ∀ c, x.head? = some c → isDigit c = false

def Cancels (write : α → Text) : Prop :=
  ∀ a b x y, NoDigit x → NoDigit y → write a ++ x = write b ++ y → a = b ∧ x = y

theorem noDigit_nil : NoDigit [] := nofun

theorem noDigit_cons {c : UInt8} {x : Text} (other : isDigit c = false) : NoDigit (c :: x) := by
  intro c' head
  cases head
  exact other

theorem Cancels.injective {write : α → Text} (cancels : Cancels write) :
    Function.Injective write := by
  intro a b same
  exact (cancels a b [] [] noDigit_nil noDigit_nil (by rw [same])).1

/-- A value behind a fixed key. -/
theorem Cancels.keyed {write : α → Text} (cancels : Cancels write) (key : Text) :
    Cancels fun a => key ++ write a := by
  intro a b x y ends ends' same
  rw [List.append_assoc, List.append_assoc] at same
  exact cancels a b x y ends ends' (List.append_cancel_left same)

/-- A value before a fixed mark. -/
theorem Cancels.closed {write : α → Text} (cancels : Cancels write) (c : UInt8)
    (mark : isDigit c = false) : Cancels fun a => write a ++ [c] := by
  intro a b x y _ _ same
  rw [List.append_assoc, List.append_assoc] at same
  obtain ⟨rfl, rest⟩ := cancels a b _ _ (noDigit_cons mark) (noDigit_cons mark) same
  exact ⟨rfl, (List.cons.inj rest).2⟩

theorem Cancels.both {write : α → Text} {write' : β → Text} (cancels : Cancels write)
    (cancels' : Cancels write') (apart : ∀ b x, NoDigit (write' b ++ x)) :
    Cancels fun p : α × β => write p.1 ++ write' p.2 := by
  rintro ⟨a, b⟩ ⟨a', b'⟩ x y ends ends' same
  rw [List.append_assoc, List.append_assoc] at same
  obtain ⟨rfl, rest⟩ := cancels a a' _ _ (apart b x) (apart b' y) same
  obtain ⟨rfl, after⟩ := cancels' b b' x y ends ends' rest
  exact ⟨rfl, after⟩

theorem Cancels.of {write : β → Text} (cancels : Cancels write) (view : α → β)
    (faithful : Function.Injective view) : Cancels fun a => write (view a) := by
  intro a b x y ends ends' same
  obtain ⟨views, rest⟩ := cancels (view a) (view b) x y ends ends' same
  exact ⟨faithful views, rest⟩

end Cancelling

section Values

def natText (n : Nat) : Text := (Nat.toDigits 10 n).map fun c => UInt8.ofNat c.toNat

theorem digit_bounds {n : Nat} {c : Char} (inside : c ∈ Nat.toDigits 10 n) :
    0x30 ≤ c.toNat ∧ c.toNat ≤ 0x39 := by
  exact Char.isDigit_iff_toNat.mp (Nat.isDigit_of_mem_toDigits (by decide) (by decide) inside)

theorem natText_digits (n : Nat) : ∀ c ∈ natText n, isDigit c = true := by
  intro c member
  obtain ⟨d, inside, rfl⟩ := List.mem_map.mp member
  have bounds := digit_bounds inside
  simp only [isDigit, UInt8.le_iff_toNat_le, UInt8.toNat_ofNat', decide_eq_true_eq]
  have low : (0x30 : UInt8).toNat = 0x30 := rfl
  have high : (0x39 : UInt8).toNat = 0x39 := rfl
  omega

theorem natText_chars (n : Nat) :
    (natText n).map (fun b => Char.ofNat b.toNat) = Nat.toDigits 10 n := by
  rw [natText, List.map_map]
  refine (List.map_congr_left ?_).trans (List.map_id _)
  intro c inside
  have bounds := digit_bounds inside
  change Char.ofNat (UInt8.ofNat c.toNat).toNat = c
  rw [UInt8.toNat_ofNat', Nat.mod_eq_of_lt (by omega), Char.ofNat_toNat]

theorem natText_injective : Function.Injective natText := by
  intro m n same
  rw [← Nat.ofDigitChars_ten_toDigits (n := m), ← natText_chars, same, natText_chars,
    Nat.ofDigitChars_ten_toDigits]

theorem natText_cancels : Cancels natText := by
  intro a b x y ends ends' same
  have digits : ∀ n x, NoDigit x → (natText n ++ x).takeWhile isDigit = natText n := by
    intro n x ends
    rw [List.takeWhile_append_of_pos (natText_digits n)]
    cases x with
    | nil => simp
    | cons c x => simp [ends c rfl]
  have numbers : natText a = natText b := by rw [← digits a x ends, same, digits b y ends']
  rw [numbers] at same
  exact ⟨natText_injective numbers, List.append_cancel_left same⟩

theorem natText_opens (n : Nat) (x : Text) : (natText n ++ x).head? ≠ some 0x5D := by
  cases text : natText n with
  | nil => exact absurd (List.map_eq_nil_iff.mp text) Nat.toDigits_ne_nil
  | cons c t =>
    have digit := natText_digits n c (by rw [text]; exact List.mem_cons_self)
    intro head
    cases head
    cases digit

/-- A string between its quotes. -/
def quoted (t : Text) : Text := 0x22 :: (Literal.source (writeText t) ++ [0x22])

theorem quoted_cancels : Cancels quoted := by
  intro a b x y _ _ same
  simp only [quoted, List.cons_append, List.append_assoc, List.nil_append, List.cons.injEq,
    true_and] at same
  have scanned := scanString_source (writeText a) x
  rw [same, scanString_source] at scanned
  obtain ⟨literals, rest⟩ := Prod.mk.inj (Except.ok.inj scanned)
  have values := congrArg Literal.value literals
  rw [writeText_value, writeText_value] at values
  exact ⟨values.symm, rest.symm⟩

end Values

section Arrays
variable {α : Type}

def writeRest (write : α → Text) : List α → Text
  | [] => [0x5D]
  | a :: rest => 0x2C :: (write a ++ writeRest write rest)

def writeArray (write : α → Text) : List α → Text
  | [] => [0x5B, 0x5D]
  | a :: rest => 0x5B :: (write a ++ writeRest write rest)

variable {write : α → Text}

theorem writeRest_noDigit (as : List α) (x : Text) : NoDigit (writeRest write as ++ x) := by
  cases as with
  | nil => exact noDigit_cons (by decide)
  | cons a rest => exact noDigit_cons (by decide)

theorem writeRest_cancels (cancels : Cancels write) : Cancels (writeRest write) := by
  intro as bs x y ends ends' same
  induction as generalizing bs with
  | nil =>
    cases bs with
    | nil => exact ⟨rfl, (List.cons.inj same).2⟩
    | cons b bs => cases (List.cons.inj same).1
  | cons a as ih =>
    cases bs with
    | nil => cases (List.cons.inj same).1
    | cons b bs =>
      simp only [writeRest, List.cons_append, List.append_assoc, List.cons.injEq, true_and] at same
      obtain ⟨rfl, rest⟩ := cancels a b _ _ (writeRest_noDigit as x) (writeRest_noDigit bs y) same
      obtain ⟨rfl, after⟩ := ih bs rest
      exact ⟨rfl, after⟩

theorem writeArray_cancels (cancels : Cancels write)
    (opens : ∀ a x, (write a ++ x).head? ≠ some 0x5D) : Cancels (writeArray write) := by
  intro as bs x y ends ends' same
  cases as with
  | nil =>
    cases bs with
    | nil => exact ⟨rfl, (List.cons.inj (List.cons.inj same).2).2⟩
    | cons b bs =>
      simp only [writeArray, List.cons_append, List.append_assoc, List.cons.injEq, true_and] at same
      exact absurd (by rw [← same]; rfl) (opens b _)
  | cons a as =>
    cases bs with
    | nil =>
      simp only [writeArray, List.cons_append, List.append_assoc, List.cons.injEq, true_and] at same
      exact absurd (by rw [same]; rfl) (opens a _)
    | cons b bs =>
      simp only [writeArray, List.cons_append, List.append_assoc, List.cons.injEq, true_and] at same
      obtain ⟨rfl, rest⟩ := cancels a b _ _ (writeRest_noDigit as x) (writeRest_noDigit bs y) same
      obtain ⟨rfl, after⟩ := writeRest_cancels cancels as bs x y ends ends' rest
      exact ⟨rfl, after⟩

end Arrays

end Json
