import VerifiableRag.Library.Bytes

/-!
CBOR data items with definite lengths, their encoding behind the shortest headers and a reader
for it. A floating-point number is written with its 64 bits.
-/
namespace Cbor
open Bytes

inductive Value where
  | integer (n : Int)
  | bytes (data : List UInt8)
  | text (s : String)
  | array (items : List Value)
  | map (entries : List (Value × Value))
  | tag (number : Nat) (item : Value)
  | float (bits : BitVec 64)
  | bool (b : Bool)
  | null

/-- The initial byte of a major type and its argument in the fewest bytes. -/
def header (major n : Nat) : List UInt8 :=
  if n < 24 then [UInt8.ofNat (32 * major + n)]
  else if n < 2 ^ 8 then UInt8.ofNat (32 * major + 24) :: Bytes.encode 1 n
  else if n < 2 ^ 16 then UInt8.ofNat (32 * major + 25) :: Bytes.encode 2 n
  else if n < 2 ^ 32 then UInt8.ofNat (32 * major + 26) :: Bytes.encode 4 n
  else UInt8.ofNat (32 * major + 27) :: Bytes.encode 8 n

mutual

def Value.encode : Value → List UInt8
  | .integer n => if 0 ≤ n then header 0 n.toNat else header 1 (-1 - n).toNat
  | .bytes data => header 2 data.length ++ data
  | .text s => header 3 (utf8 s).length ++ utf8 s
  | .array items => header 4 items.length ++ encodeItems items
  | .map entries => header 5 entries.length ++ encodeEntries entries
  | .tag number item => header 6 number ++ item.encode
  | .float bits => 0xfb :: Bytes.encode 8 bits.toNat
  | .bool b => [if b then 0xf5 else 0xf4]
  | .null => [0xf6]

def encodeItems : List Value → List UInt8
  | [] => []
  | item :: items => item.encode ++ encodeItems items

def encodeEntries : List (Value × Value) → List UInt8
  | [] => []
  | (key, value) :: entries => key.encode ++ value.encode ++ encodeEntries entries

end

section Reader

def readString (n : Nat) (s : List UInt8) : Option (List UInt8 × List UInt8) :=
  if n ≤ s.length then some (s.take n, s.drop n) else none

/-- A number in the next `k` bytes. -/
def readNumber (k : Nat) (s : List UInt8) : Option (Nat × List UInt8) :=
  (readString k s).map fun read => (Bytes.decode read.1, read.2)

def readArgument (short : Nat) (s : List UInt8) : Option (Nat × List UInt8) :=
  if short < 24 then some (short, s)
  else if short = 24 then readNumber 1 s
  else if short = 25 then readNumber 2 s
  else if short = 26 then readNumber 4 s
  else if short = 27 then readNumber 8 s
  else none

/-- As many items as the header says. -/
def readMany {α : Type} (read : List UInt8 → Option (α × List UInt8)) :
    Nat → List UInt8 → Option (List α × List UInt8)
  | 0, s => some ([], s)
  | n + 1, s => do
    let (item, s) ← read s
    let (items, s) ← readMany read n s
    return (item :: items, s)

def readPair {α : Type} (read : List UInt8 → Option (α × List UInt8)) (s : List UInt8) :
    Option ((α × α) × List UInt8) := do
  let (first, s) ← read s
  let (second, s) ← read s
  return ((first, second), s)

def ofUtf8 (data : List UInt8) : Option String := String.fromUTF8? ⟨data.toArray⟩

/-- What a header announces; the parts of arrays and maps are read by `inner`. -/
def readBody (inner : List UInt8 → Option (Value × List UInt8)) (major n : Nat) (s : List UInt8) :
    Option (Value × List UInt8) := do
  match major with
  | 0 => return (.integer n, s)
  | 1 => return (.integer (-1 - n), s)
  | 2 =>
    let (data, s) ← readString n s
    return (.bytes data, s)
  | 3 =>
    let (data, s) ← readString n s
    let text ← ofUtf8 data
    return (.text text, s)
  | 4 =>
    let (items, s) ← readMany inner n s
    return (.array items, s)
  | 5 =>
    let (entries, s) ← readMany (readPair inner) n s
    return (.map entries, s)
  | 6 =>
    let (item, s) ← inner s
    return (.tag n item, s)
  | _ => none

/-- The simple values and the numbers of 64 bits of major type 7. -/
def readSimple (short : Nat) (s : List UInt8) : Option (Value × List UInt8) := do
  match short with
  | 20 => return (.bool false, s)
  | 21 => return (.bool true, s)
  | 22 => return (.null, s)
  | 27 =>
    let (bits, s) ← readNumber 8 s
    return (.float (BitVec.ofNat 64 bits), s)
  | _ => none

def readWith (inner : List UInt8 → Option (Value × List UInt8)) :
    List UInt8 → Option (Value × List UInt8)
  | [] => none
  | b :: rest =>
    if b.toNat / 32 = 7 then readSimple (b.toNat % 32) rest
    else do
      let (n, s) ← readArgument (b.toNat % 32) rest
      readBody inner (b.toNat / 32) n s

/-- Arrays and maps nest at most `depth` deep. -/
def readItem : Nat → List UInt8 → Option (Value × List UInt8)
  | 0 => readWith fun _ => none
  | depth + 1 => readWith (readItem depth)

end Reader

/-- Integers of 64 bits with a sign of its own, strings, and `depth` levels of arrays and maps. -/
inductive Value.Nested : Nat → Value → Prop where
  | integer {depth : Nat} {n : Int} (least : -2 ^ 64 ≤ n) (most : n < 2 ^ 64) :
      Nested depth (.integer n)
  | bytes {depth : Nat} {data : List UInt8} : Nested depth (.bytes data)
  | text {depth : Nat} {s : String} : Nested depth (.text s)
  | array {depth : Nat} {items : List Value} (inner : ∀ v ∈ items, Nested depth v) :
      Nested (depth + 1) (.array items)
  | map {depth : Nat} {entries : List (Value × Value)} (keys : ∀ e ∈ entries, Nested depth e.1)
      (values : ∀ e ∈ entries, Nested depth e.2) : Nested (depth + 1) (.map entries)

section RoundTrip

theorem ofUtf8_utf8 (s : String) : ofUtf8 (utf8 s) = some s := by
  rw [ofUtf8, utf8, String.fromUTF8?]
  exact dif_pos s.isValidUTF8

theorem readString_append (data rest : List UInt8) :
    readString data.length (data ++ rest) = some (data, rest) := by
  rw [readString, if_pos (by simp), List.take_left, List.drop_left]

theorem header_ne_nil (major n : Nat) : header major n ≠ [] := by
  unfold header
  split_ifs <;> exact List.cons_ne_nil _ _

theorem readNumber_encode {k n : Nat} (small : n < 256 ^ k) (rest : List UInt8) :
    readNumber k (Bytes.encode k n ++ rest) = some (n, rest) := by
  have read := readString_append (Bytes.encode k n) rest
  rw [encode_length] at read
  rw [readNumber, read, Option.map_some, decode_encode, Nat.mod_eq_of_lt small]

theorem readWith_initial {inner : List UInt8 → Option (Value × List UInt8)} {major short : Nat}
    (kind : major < 7) (bound : short < 32) (rest : List UInt8) :
    readWith inner (UInt8.ofNat (32 * major + short) :: rest) =
      (readArgument short rest).bind fun read => readBody inner major read.1 read.2 := by
  have initial : (UInt8.ofNat (32 * major + short)).toNat = 32 * major + short := by
    rw [UInt8.toNat_ofNat', Nat.mod_eq_of_lt (by omega)]
  have high : (32 * major + short) / 32 = major := by omega
  have low : (32 * major + short) % 32 = short := by omega
  rw [readWith, initial, high, low, if_neg (by omega)]
  rfl

/-- The header of a value, and what is left to read. -/
theorem readWith_header {inner : List UInt8 → Option (Value × List UInt8)} {major n : Nat}
    (kind : major < 7) (small : n < 2 ^ 64) (body : List UInt8) :
    readWith inner (header major n ++ body) = readBody inner major n body := by
  unfold header
  split_ifs with tiny one two four
  · rw [List.singleton_append, readWith_initial kind (by omega), readArgument, if_pos tiny]
    rfl
  · rw [List.cons_append, readWith_initial kind (by omega), readArgument,
      readNumber_encode (by omega)]
    rfl
  · rw [List.cons_append, readWith_initial kind (by omega)]
    simp [readArgument, readNumber_encode (by omega : n < 256 ^ 2)]
  · rw [List.cons_append, readWith_initial kind (by omega)]
    simp [readArgument, readNumber_encode (by omega : n < 256 ^ 4)]
  · rw [List.cons_append, readWith_initial kind (by omega)]
    simp [readArgument, readNumber_encode (by omega : n < 256 ^ 8)]

section Lengths

theorem encodeItems_eq (items : List Value) : encodeItems items = items.flatMap Value.encode := by
  induction items with
  | nil => rfl
  | cons v items ih => rw [encodeItems, ih, List.flatMap_cons]

def encodePair (entry : Value × Value) : List UInt8 := entry.1.encode ++ entry.2.encode

theorem encodeEntries_eq (entries : List (Value × Value)) :
    encodeEntries entries = entries.flatMap encodePair := by
  induction entries with
  | nil => rfl
  | cons entry entries ih => rw [encodeEntries, ih, List.flatMap_cons, encodePair]

theorem Value.encode_ne_nil (v : Value) : v.encode ≠ [] := by
  cases v <;> simp only [Value.encode]
  case integer n => split <;> exact header_ne_nil _ _
  case float bits => exact List.cons_ne_nil _ _
  case bool b => exact List.cons_ne_nil _ _
  case null => exact List.cons_ne_nil _ _
  all_goals exact List.append_ne_nil_of_left_ne_nil (header_ne_nil _ _) _

/-- A list with a byte for every item. -/
theorem length_le_flatMap {α : Type} {enc : α → List UInt8} (nonempty : ∀ x, enc x ≠ [])
    (xs : List α) : xs.length ≤ (xs.flatMap enc).length := by
  induction xs with
  | nil => exact Nat.le_refl 0
  | cons x xs ih =>
    have here := List.length_pos_iff.mpr (nonempty x)
    rw [List.flatMap_cons, List.length_append, List.length_cons]
    omega

theorem length_le_flatMap_of_mem {α : Type} {enc : α → List UInt8} {x : α} {xs : List α}
    (member : x ∈ xs) : (enc x).length ≤ (xs.flatMap enc).length := by
  obtain ⟨front, back, rfl⟩ := List.append_of_mem member
  rw [List.flatMap_append, List.flatMap_cons, List.length_append, List.length_append]
  omega

end Lengths

theorem readMany_flatMap {α : Type} {read : List UInt8 → Option (α × List UInt8)}
    {enc : α → List UInt8} {xs : List α}
    (each : ∀ x ∈ xs, ∀ rest, read (enc x ++ rest) = some (x, rest)) (rest : List UInt8) :
    readMany read xs.length (xs.flatMap enc ++ rest) = some (xs, rest) := by
  induction xs with
  | nil => rfl
  | cons x xs ih =>
    obtain ⟨here, later⟩ := List.forall_mem_cons.mp each
    rw [List.length_cons, readMany, List.flatMap_cons, List.append_assoc, here]
    simp only [Option.bind_eq_bind, Option.bind_some, ih later]
    rfl

theorem readPair_encode {read : List UInt8 → Option (Value × List UInt8)} {entry : Value × Value}
    (key : ∀ rest, read (entry.1.encode ++ rest) = some (entry.1, rest))
    (value : ∀ rest, read (entry.2.encode ++ rest) = some (entry.2, rest)) (rest : List UInt8) :
    readPair read (encodePair entry ++ rest) = some (entry, rest) := by
  rw [readPair, encodePair, List.append_assoc, key]
  simp only [Option.bind_eq_bind, Option.bind_some, value]
  rfl

theorem readItem_eq (depth : Nat) : ∃ inner, readItem depth = readWith inner := by
  cases depth with
  | zero => exact ⟨_, rfl⟩
  | succ depth => exact ⟨_, rfl⟩

/-- A value is read back at any depth that it fits in. -/
theorem readItem_encode {depth : Nat} {v : Value} (nested : v.Nested depth)
    (fits : v.encode.length < 2 ^ 64) (rest : List UInt8) :
    readItem depth (v.encode ++ rest) = some (v, rest) := by
  induction nested generalizing rest with
  | @integer depth n least most =>
    obtain ⟨inner, read⟩ := readItem_eq depth
    rw [read, Value.encode]
    split
    · rename_i natural
      have same : (n.toNat : Int) = n := Int.toNat_of_nonneg natural
      rw [readWith_header (by omega) (by omega), readBody, same]
      rfl
    · rename_i negative
      have same : -1 - ((-1 - n).toNat : Int) = n := by omega
      rw [readWith_header (by omega) (by omega), readBody, same]
      rfl
  | @bytes depth data =>
    obtain ⟨inner, read⟩ := readItem_eq depth
    rw [Value.encode, List.length_append] at fits
    rw [read, Value.encode, List.append_assoc, readWith_header (by omega) (by omega), readBody,
      readString_append]
    rfl
  | @text depth s =>
    obtain ⟨inner, read⟩ := readItem_eq depth
    rw [Value.encode, List.length_append] at fits
    rw [read, Value.encode, List.append_assoc, readWith_header (by omega) (by omega), readBody,
      readString_append]
    simp only [Option.bind_eq_bind, Option.bind_some, ofUtf8_utf8]
    rfl
  | @array depth items inner ih =>
    rw [Value.encode, List.length_append, encodeItems_eq] at fits
    have count : items.length ≤ (items.flatMap Value.encode).length :=
      length_le_flatMap Value.encode_ne_nil items
    have each : ∀ v ∈ items, ∀ rest, readItem depth (v.encode ++ rest) = some (v, rest) := by
      intro v member
      have within : v.encode.length ≤ (items.flatMap Value.encode).length :=
        length_le_flatMap_of_mem member
      exact ih v member (by omega)
    rw [readItem, Value.encode, List.append_assoc, encodeItems_eq,
      readWith_header (by omega) (by omega), readBody, readMany_flatMap each]
    rfl
  | @map depth entries keys values ihKeys ihValues =>
    rw [Value.encode, List.length_append, encodeEntries_eq] at fits
    have nonempty (entry : Value × Value) : encodePair entry ≠ [] :=
      List.append_ne_nil_of_left_ne_nil entry.1.encode_ne_nil _
    have count : entries.length ≤ (entries.flatMap encodePair).length :=
      length_le_flatMap nonempty entries
    have each : ∀ entry ∈ entries, ∀ rest,
        readPair (readItem depth) (encodePair entry ++ rest) = some (entry, rest) := by
      intro entry member
      have within : (encodePair entry).length ≤ (entries.flatMap encodePair).length :=
        length_le_flatMap_of_mem member
      rw [encodePair, List.length_append] at within
      exact readPair_encode (ihKeys entry member (by omega)) (ihValues entry member (by omega))
    rw [readItem, Value.encode, List.append_assoc, encodeEntries_eq,
      readWith_header (by omega) (by omega), readBody, readMany_flatMap each]
    rfl

end RoundTrip

end Cbor
