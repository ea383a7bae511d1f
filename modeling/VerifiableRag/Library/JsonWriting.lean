import VerifiableRag.Library.JsonAscii

/-!
The strings of `serde_json`, which writes what it can as it stands, and the objects made of them.
-/
namespace Json
open Bytes (utf8)

section Strings

def zeroHex : Hex := ⟨0x30, 0, rfl⟩

def hexOf (d : Nat) : Hex :=
  if small : d < 16 then ⟨hexChar d, d, hexDigit_hexChar small⟩ else zeroHex

/-- A byte of a string: seven have an escape of their own, other controls take four digits. -/
def writeItem (b : UInt8) : Item :=
  if b = 0x22 then .escape 0x22 0x22 rfl
  else if b = 0x5C then .escape 0x5C 0x5C rfl
  else if b = 0x08 then .escape 0x62 0x08 rfl
  else if b = 0x0C then .escape 0x66 0x0C rfl
  else if b = 0x0A then .escape 0x6E 0x0A rfl
  else if b = 0x0D then .escape 0x72 0x0D rfl
  else if b = 0x09 then .escape 0x74 0x09 rfl
  else if plain : Plain b then .plain b plain
  else .unicode zeroHex zeroHex (hexOf (b.toNat / 16)) (hexOf (b.toNat % 16))

def writeText (t : Text) : Literal := t.map writeItem

theorem writeItem_control {b : UInt8} (quote : b ≠ 0x22) (slash : b ≠ 0x5C) (hidden : ¬ Plain b) :
    b.toNat < 0x20 := by
  by_contra visible
  refine hidden ⟨UInt8.le_iff_toNat_le.mpr (Nat.not_lt.mp visible), quote, slash⟩

theorem value_control {b : UInt8} (control : b.toNat < 0x20) (rest : Literal) :
    Literal.value (.unicode zeroHex zeroHex (hexOf (b.toNat / 16)) (hexOf (b.toNat % 16)) :: rest) =
      b :: Literal.value rest := by
  have unit : codeUnit zeroHex zeroHex (hexOf (b.toNat / 16)) (hexOf (b.toNat % 16)) = b.toNat := by
    rw [codeUnit, hexOf, hexOf, dif_pos (by omega), dif_pos (by omega)]
    show ((0 * 16 + 0) * 16 + b.toNat / 16) * 16 + b.toNat % 16 = b.toNat
    omega
  have low : Unicode.isHigh b.toNat = false := by
    rw [Unicode.isHigh, decide_eq_false_iff_not]
    omega
  have single : Unicode.encode b.toNat = [b] := by
    rw [Unicode.encode, if_pos (by omega), UInt8.ofNat_toNat]
  rw [value_unicode (by rw [unit, low]), unit, single]
  rfl

theorem writeItem_value (b : UInt8) (rest : Literal) :
    Literal.value (writeItem b :: rest) = b :: Literal.value rest := by
  unfold writeItem
  split
  · rename_i same
    rw [same]
    rfl
  rename_i quote
  split
  · rename_i same
    rw [same]
    rfl
  rename_i slash
  iterate 5
    split
    · rename_i same
      rw [same]
      rfl
  split
  · rfl
  · rename_i hidden
    exact value_control (writeItem_control quote slash hidden) rest

/-- What is written for a string denotes it. -/
theorem writeText_value (t : Text) : (writeText t).value = t := by
  induction t with
  | nil => rfl
  | cons b t ih => rw [writeText, List.map_cons, writeItem_value, ← writeText, ih]

end Strings

section Objects

/-- The members of an object, in the order of its fields. -/
def membersOf : String × Doc → List (String × Doc) → Members
  | field, [] => .last (writeText (utf8 field.1)) field.2
  | field, next :: fields => .more (writeText (utf8 field.1)) field.2 (membersOf next fields)

theorem membersOf_values (field : String × Doc) (fields : List (String × Doc)) :
    (membersOf field fields).values =
      (field :: fields).map fun field => (utf8 field.1, field.2.value) := by
  induction fields generalizing field with
  | nil => rw [membersOf, Members.values, writeText_value]; rfl
  | cons next fields ih => rw [membersOf, Members.values, writeText_value, ih]; rfl

end Objects

end Json
