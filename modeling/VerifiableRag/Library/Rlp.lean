import VerifiableRag.Library.Bytes

/-!
Recursive Length Prefix: byte strings and nested lists behind length prefixes,
and the reader that accepts their canonical form only.
-/
namespace Rlp
open Bytes

/-- A number big-endian without leading zero bytes; zero is the empty string. -/
def minimal (n : Nat) : List UInt8 := ((Nat.digits 256 n).map UInt8.ofNat).reverse

theorem decode_minimal (n : Nat) : decode (minimal n) = n := by
  have digits : ((Nat.digits 256 n).map UInt8.ofNat).map UInt8.toNat = Nat.digits 256 n := by
    rw [List.map_map]
    refine (List.map_congr_left ?_).trans (List.map_id _)
    intro d member
    have small : d < 256 := Nat.digits_lt_base (by omega) member
    rw [Function.comp_apply, UInt8.toNat_ofNat', Nat.mod_eq_of_lt small, id]
  rw [decode, minimal, List.reverse_reverse, digits, Nat.ofDigits_digits]

theorem minimal_length_le {n k : Nat} (bound : n < 256 ^ k) : (minimal n).length ≤ k := by
  have := (Nat.digits_length_le_iff (by omega : 1 < 256) n).mpr bound
  simpa [minimal] using this

theorem minimal_head (n : Nat) : (minimal n).head? ≠ some 0 := by
  intro leading
  by_cases zero : n = 0
  · subst zero
    simp [minimal] at leading
  · have top := Nat.getLast_digit_ne_zero 256 zero
    have small := Nat.digits_lt_base (by omega : 1 < 256)
      (List.getLast_mem (Nat.digits_ne_nil_iff_ne_zero.mpr zero))
    rw [minimal, List.head?_reverse, List.getLast?_map,
      List.getLast?_eq_some_getLast (Nat.digits_ne_nil_iff_ne_zero.mpr zero)] at leading
    have same := congrArg UInt8.toNat (Option.some.inj leading)
    rw [UInt8.toNat_ofNat', Nat.mod_eq_of_lt small] at same
    exact top same

/-- The bytes of a number are its only form without a leading zero byte. -/
theorem minimal_decode {bs : List UInt8} (lead : bs.head? ≠ some 0) : minimal (decode bs) = bs := by
  have digits : Nat.digits 256 (decode bs) = bs.reverse.map UInt8.toNat := by
    rw [decode]
    apply Nat.digits_ofDigits 256 (by omega)
    · intro d member
      obtain ⟨b, _, rfl⟩ := List.mem_map.mp member
      exact b.toNat_lt
    · intro given
      have first : bs ≠ [] := by
        rintro rfl
        exact given rfl
      obtain ⟨b, rest, rfl⟩ := List.exists_cons_of_ne_nil first
      intro zero
      rw [List.getLast_map, List.getLast_reverse, List.head_cons] at zero
      exact lead (congrArg some (UInt8.toNat_inj.mp zero))
  have back : (bs.reverse.map UInt8.toNat).map UInt8.ofNat = bs.reverse := by
    rw [List.map_map]
    exact (List.map_congr_left (fun b _ => b.ofNat_toNat)).trans (List.map_id _)
  rw [minimal, digits, back, List.reverse_reverse]

inductive Item where
  | bytes (data : List UInt8)
  | list (items : List Item)

/-- The prefix of a string (`base` 0x80) or a list (`base` 0xc0) of the given size. -/
def lengthPrefix (base size : Nat) : List UInt8 :=
  if size ≤ 55 then [UInt8.ofNat (base + size)]
  else UInt8.ofNat (base + 55 + (minimal size).length) :: minimal size

def isSingle : List UInt8 → Bool
  | [b] => b.toNat < 0x80
  | _ => false

mutual

def Item.encode : Item → List UInt8
  | .bytes data => if isSingle data then data else lengthPrefix 0x80 data.length ++ data
  | .list items => lengthPrefix 0xc0 (encodeAll items).length ++ encodeAll items

def encodeAll : List Item → List UInt8
  | [] => []
  | item :: items => item.encode ++ encodeAll items

end

def readSize (tag : Nat) (rest : List UInt8) : Option (Nat × List UInt8) :=
  if tag ≤ 55 then some (tag, rest)
  else
    let size := rest.take (tag - 55)
    if size.length = tag - 55 ∧ size.head? ≠ some 0 ∧ 55 < decode size then
      some (decode size, rest.drop (tag - 55))
    else none

/-- The contents behind a first byte that counts from `base`, and what follows them. -/
def readContents (base : Nat) (first : UInt8) (rest : List UInt8) :
    Option (List UInt8 × List UInt8) :=
  match readSize (first.toNat - base) rest with
  | none => none
  | some (size, rest) => if size ≤ rest.length then some (rest.take size, rest.drop size) else none

/-- One item, the contents of a list being read by `inner`. -/
def decodeItem (inner : List UInt8 → Option (List Item)) : List UInt8 →
    Option (Item × List UInt8)
  | [] => none
  | b :: rest =>
    if b.toNat < 0x80 then some (.bytes [b], rest)
    else if b.toNat < 0xc0 then
      match readContents 0x80 b rest with
      | none => none
      | some (data, rest) => if isSingle data then none else some (.bytes data, rest)
    else
      match readContents 0xc0 b rest with
      | none => none
      | some (body, rest) => (inner body).map fun items => (.list items, rest)

def decodeAll : Nat → List UInt8 → Option (List Item)
  | _, [] => some []
  | 0, _ :: _ => none
  | fuel + 1, bs =>
    match decodeItem (decodeAll fuel) bs with
    | none => none
    | some (item, rest) => (decodeAll fuel rest).map (item :: ·)

def parse (bs : List UInt8) : Option Item :=
  match decodeItem (decodeAll bs.length) bs with
  | some (item, []) => some item
  | _ => none

theorem lengthPrefix_ne_nil (base size : Nat) : lengthPrefix base size ≠ [] := by
  unfold lengthPrefix
  split <;> exact List.cons_ne_nil _ _

theorem lengthPrefix_length_le {base size : Nat} (small : size < 256 ^ 8) :
    (lengthPrefix base size).length ≤ 9 := by
  unfold lengthPrefix
  split
  · exact Nat.succ_pos 8
  · exact Nat.succ_le_succ (minimal_length_le small)

theorem bytes_encode_length_le {data : List UInt8} (small : data.length < 256 ^ 8) :
    (Item.bytes data).encode.length ≤ data.length + 9 := by
  have tagged : (lengthPrefix 0x80 data.length).length ≤ 9 := lengthPrefix_length_le small
  rw [Item.encode]
  split
  · exact Nat.le_add_right _ _
  · rw [List.length_append]
    omega

theorem Item.encode_positive (item : Item) : 0 < item.encode.length := by
  cases item with
  | bytes data =>
    rw [Item.encode]
    split
    · cases data with
      | nil => contradiction
      | cons b rest => simp
    · have := List.length_pos_iff.mpr (lengthPrefix_ne_nil 0x80 data.length)
      rw [List.length_append]
      omega
  | list items =>
    have := List.length_pos_iff.mpr (lengthPrefix_ne_nil 0xc0 (encodeAll items).length)
    rw [Item.encode, List.length_append]
    omega

theorem readContents_prefix {base : Nat} (room : base + 64 ≤ 256) (data rest : List UInt8)
    (size : data.length < 256 ^ 8) :
    ∃ first tail, lengthPrefix base data.length = first :: tail ∧ base ≤ first.toNat ∧
      first.toNat < base + 64 ∧ readContents base first (tail ++ (data ++ rest)) = some (data, rest) := by
  unfold lengthPrefix
  split
  next short =>
    have value : (UInt8.ofNat (base + data.length)).toNat = base + data.length := by
      rw [UInt8.toNat_ofNat', Nat.mod_eq_of_lt (by omega)]
    refine ⟨_, [], rfl, by omega, by omega, ?_⟩
    rw [readContents, value, Nat.add_sub_cancel_left, readSize, if_pos short]
    simp
  next long =>
    have width : (minimal data.length).length ≤ 8 := minimal_length_le size
    have value : (UInt8.ofNat (base + 55 + (minimal data.length).length)).toNat =
        base + 55 + (minimal data.length).length := by
      rw [UInt8.toNat_ofNat', Nat.mod_eq_of_lt (by omega)]
    have some_digits : 0 < (minimal data.length).length := by
      apply List.length_pos_iff.mpr
      intro empty
      have none_left := decode_minimal data.length
      rw [empty] at none_left
      have : decode ([] : List UInt8) = 0 := rfl
      omega
    have count : base + 55 + (minimal data.length).length - base - 55 =
        (minimal data.length).length := by omega
    refine ⟨_, _, rfl, by omega, by omega, ?_⟩
    rw [readContents, value, readSize, if_neg (by omega), count]
    simp only [List.take_left, List.drop_left]
    rw [if_pos ⟨trivial, minimal_head _, by rw [decode_minimal]; omega⟩, decode_minimal]
    simp

mutual

theorem decodeItem_encode (item : Item) (fuel : Nat) (rest : List UInt8)
    (size : item.encode.length < 256 ^ 8) (enough : item.encode.length ≤ fuel + 1) :
    decodeItem (decodeAll fuel) (item.encode ++ rest) = some (item, rest) := by
  cases item with
  | bytes data =>
    rw [Item.encode] at size enough ⊢
    split
    next single =>
      cases data with
      | nil => contradiction
      | cons b more =>
        cases more with
        | nil =>
          have small : b.toNat < 0x80 := of_decide_eq_true single
          rw [List.singleton_append, decodeItem, if_pos small]
        | cons c more => contradiction
    next longer =>
      rw [if_neg longer, List.length_append] at size
      obtain ⟨first, tail, spelled, low, high, read⟩ :=
        readContents_prefix (by omega : 0x80 + 64 ≤ 256) data rest (by omega)
      rw [spelled, List.append_assoc, List.cons_append, decodeItem, if_neg (by omega),
        if_pos (by omega), read]
      exact if_neg longer
  | list items =>
    rw [Item.encode, List.length_append] at size enough
    have tagged := List.length_pos_iff.mpr (lengthPrefix_ne_nil 0xc0 (encodeAll items).length)
    have inner := decodeAll_encode items fuel (by omega) (by omega)
    obtain ⟨first, tail, spelled, low, _, read⟩ :=
      readContents_prefix (by omega : 0xc0 + 64 ≤ 256) (encodeAll items) rest (by omega)
    rw [Item.encode, spelled, List.append_assoc, List.cons_append, decodeItem, if_neg (by omega),
      if_neg (by omega), read]
    simp only [inner, Option.map_some]

theorem decodeAll_encode (items : List Item) (fuel : Nat)
    (size : (encodeAll items).length < 256 ^ 8) (enough : (encodeAll items).length ≤ fuel) :
    decodeAll fuel (encodeAll items) = some items := by
  cases items with
  | nil => simp [encodeAll, decodeAll]
  | cons item items =>
    rw [encodeAll, List.length_append] at size enough
    have nonempty := item.encode_positive
    cases fuel with
    | zero => omega
    | succ fuel =>
      have head := decodeItem_encode item fuel (encodeAll items) (by omega) (by omega)
      have tail := decodeAll_encode items fuel (by omega) (by omega)
      rw [encodeAll]
      cases spelled : item.encode ++ encodeAll items with
      | nil => simp_all
      | cons b bs =>
        rw [spelled] at head
        rw [decodeAll.eq_3 _ _ (List.cons_ne_nil b bs), head]
        simp only [tail, Option.map_some]

end

theorem encodeAll_append (xs ys : List Item) : encodeAll (xs ++ ys) = encodeAll xs ++ encodeAll ys := by
  induction xs with
  | nil => rfl
  | cons item xs ih => rw [List.cons_append, encodeAll, encodeAll, ih, List.append_assoc]

def uint (n : Nat) : Item := .bytes (minimal n)

theorem uint_encode_length_le {n k : Nat} (bound : n < 256 ^ k) (small : k ≤ 32) :
    (uint n).encode.length ≤ 41 := by
  have width := minimal_length_le bound
  have tagged : (uint n).encode.length ≤ (minimal n).length + 9 :=
    bytes_encode_length_le (Nat.lt_of_le_of_lt (width.trans small) (by decide))
  omega

/-- A canonical encoding below 2^64 bytes is read back whole. -/
theorem parse_encode (item : Item) (size : item.encode.length < 256 ^ 8) :
    parse item.encode = some item := by
  have read := decodeItem_encode item item.encode.length [] size (by omega)
  rw [List.append_nil] at read
  rw [parse, read]

theorem encode_injective {a b : Item} (size : a.encode.length < 256 ^ 8)
    (same : a.encode = b.encode) : a = b := by
  have read := parse_encode a size
  rw [same, parse_encode b (same ▸ size)] at read
  exact (Option.some.inj read).symm

end Rlp
