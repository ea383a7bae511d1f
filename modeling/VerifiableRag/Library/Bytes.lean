import Mathlib.Data.Nat.Digits.Lemmas
import Mathlib.Data.Vector.Basic

/-!
Big-endian byte strings of a fixed width and the 256-bit words they fill.
-/
namespace Bytes

/-- A byte string of fixed length, such as `[u8; 32]`. -/
abbrev Block (n : Nat) := List.Vector UInt8 n

abbrev Word := BitVec 256

def utf8 (s : String) : List UInt8 := s.toUTF8.data.toList

theorem utf8_injective {s t : String} (same : utf8 s = utf8 t) : s = t := by
  apply String.toByteArray_inj.mp
  apply ByteArray.ext
  exact Array.toList_inj.mp same

theorem forall_byte {P : UInt8 → Prop} (table : ∀ n : Fin 256, P (UInt8.ofNat n)) (b : UInt8) :
    P b := by
  have entry := table ⟨b.toNat, b.toNat_lt⟩
  rwa [UInt8.ofNat_toNat] at entry

/-- A table over a list; the elements outside it are never looked at. -/
theorem forall_listed {α : Type} {P : α → Prop} [DecidablePred P] {l : List α}
    (table : l.all (fun a => decide (P a)) = true) : ∀ a ∈ l, P a := by
  intro a member
  exact of_decide_eq_true (List.all_eq_true.mp table a member)

def littleEndian : Nat → Nat → List UInt8
  | 0, _ => []
  | k + 1, v => UInt8.ofNat v :: littleEndian k (v / 256)

/-- The low `k` bytes of a number, most significant first. -/
def encode (k v : Nat) : List UInt8 := (littleEndian k v).reverse

def decode (bs : List UInt8) : Nat := Nat.ofDigits 256 (bs.reverse.map UInt8.toNat)

theorem littleEndian_length (k v : Nat) : (littleEndian k v).length = k := by
  induction k generalizing v with
  | zero => rfl
  | succ k ih => simp [littleEndian, ih]

@[simp] theorem encode_length (k v : Nat) : (encode k v).length = k := by
  simp [encode, littleEndian_length]

theorem littleEndian_append (j k v : Nat) :
    littleEndian (k + j) v = littleEndian k v ++ littleEndian j (v / 256 ^ k) := by
  induction k generalizing v with
  | zero => simp [littleEndian]
  | succ k ih =>
    have shift : v / 256 / 256 ^ k = v / 256 ^ (k + 1) := by
      rw [Nat.div_div_eq_div_mul, Nat.pow_succ']
    rw [Nat.add_right_comm, littleEndian, littleEndian, ih, shift, List.cons_append]

theorem encode_append (j k v : Nat) :
    encode (j + k) v = encode j (v / 256 ^ k) ++ encode k v := by
  rw [encode, Nat.add_comm, littleEndian_append, List.reverse_append, encode, encode]

theorem decode_append (xs ys : List UInt8) :
    decode (xs ++ ys) = decode xs * 256 ^ ys.length + decode ys := by
  simp only [decode, List.reverse_append, List.map_append, Nat.ofDigits_append, List.length_map,
    List.length_reverse]
  ring

theorem decode_lt (bs : List UInt8) : decode bs < 256 ^ bs.length := by
  have digits : ∀ d ∈ bs.reverse.map UInt8.toNat, d < 256 := by
    intro d member
    obtain ⟨b, _, rfl⟩ := List.mem_map.mp member
    exact b.toNat_lt
  simpa [decode] using Nat.ofDigits_lt_base_pow_length (by omega) digits

theorem decode_prefix (xs ys : List UInt8) : decode (xs ++ ys) / 256 ^ ys.length = decode xs := by
  rw [decode_append, Nat.add_comm, Nat.add_mul_div_right _ _ (Nat.pow_pos (by omega)),
    Nat.div_eq_of_lt (decode_lt ys), Nat.zero_add]

theorem littleEndian_ofDigits (bs : List UInt8) :
    littleEndian bs.length (Nat.ofDigits 256 (bs.map UInt8.toNat)) = bs := by
  induction bs with
  | nil => rfl
  | cons b bs ih =>
    have low : UInt8.ofNat (b.toNat + 256 * Nat.ofDigits 256 (bs.map UInt8.toNat)) = b := by
      apply UInt8.toNat_inj.mp
      rw [UInt8.toNat_ofNat', Nat.add_mul_mod_self_left, Nat.mod_eq_of_lt b.toNat_lt]
    have high : (b.toNat + 256 * Nat.ofDigits 256 (bs.map UInt8.toNat)) / 256 =
        Nat.ofDigits 256 (bs.map UInt8.toNat) := by
      have := b.toNat_lt
      omega
    rw [List.map_cons, Nat.ofDigits_cons, List.length_cons, littleEndian, low, high, ih]

theorem encode_decode (bs : List UInt8) : encode bs.length (decode bs) = bs := by
  have := littleEndian_ofDigits bs.reverse
  rw [List.length_reverse] at this
  rw [encode, decode, this, List.reverse_reverse]

theorem ofDigits_littleEndian (k v : Nat) :
    Nat.ofDigits 256 ((littleEndian k v).map UInt8.toNat) = v % 256 ^ k := by
  induction k generalizing v with
  | zero => simp [littleEndian, Nat.mod_one]
  | succ k ih =>
    have split : v % 256 ^ (k + 1) = v % 2 ^ 8 + 256 * (v / 256 % 256 ^ k) := by
      rw [Nat.pow_succ', Nat.mod_mul, show (256 : Nat) = 2 ^ 8 by norm_num]
    rw [littleEndian, List.map_cons, Nat.ofDigits_cons, ih, UInt8.toNat_ofNat', split]

theorem decode_encode (k v : Nat) : decode (encode k v) = v % 256 ^ k := by
  rw [decode, encode, List.reverse_reverse, ofDigits_littleEndian]

theorem encode_inj {k v w : Nat} (hv : v < 256 ^ k) (hw : w < 256 ^ k)
    (same : encode k v = encode k w) : v = w := by
  rw [← Nat.mod_eq_of_lt hv, ← Nat.mod_eq_of_lt hw, ← decode_encode, same, decode_encode]

/-- A byte string that shows `part` from offset `start` on. -/
def HasAt (bytes : List UInt8) (start : Nat) (part : List UInt8) : Prop :=
  ∃ rest, bytes.drop start = part ++ rest

theorem take_of_hasAt {bytes part : List UInt8} {start n : Nat} (held : HasAt bytes start part)
    (size : part.length = n) : (bytes.drop start).take n = part := by
  obtain ⟨rest, same⟩ := held
  rw [same, List.take_left' size]

theorem getElem?_of_hasAt {bytes : List UInt8} {start : Nat} {b : UInt8}
    (held : HasAt bytes start [b]) : bytes[start]? = some b := by
  obtain ⟨rest, same⟩ := held
  rw [← List.head?_drop, same, List.singleton_append, List.head?_cons]

theorem hasAt_here (part rest : List UInt8) : HasAt (part ++ rest) 0 part := ⟨rest, rfl⟩

theorem hasAt_skip {pre bytes part : List UInt8} {start n : Nat} (size : pre.length = n)
    (held : HasAt bytes start part) : HasAt (pre ++ bytes) (n + start) part := by
  obtain ⟨rest, same⟩ := held
  exact ⟨rest, by rw [← List.drop_drop, List.drop_left' size, same]⟩

theorem hasAt_append {bytes xs ys : List UInt8} {start : Nat} (left : HasAt bytes start xs)
    (right : HasAt bytes (start + xs.length) ys) : HasAt bytes start (xs ++ ys) := by
  obtain ⟨rest, here⟩ := left
  obtain ⟨rest', next⟩ := right
  rw [← List.drop_drop, here, List.drop_left] at next
  exact ⟨rest', by rw [here, next, List.append_assoc]⟩

theorem hasAt_take {bytes part : List UInt8} {start : Nat} (held : HasAt bytes start part)
    (n : Nat) : HasAt bytes start (part.take n) := by
  obtain ⟨rest, same⟩ := held
  exact ⟨part.drop n ++ rest, by rw [same, ← List.append_assoc, List.take_append_drop]⟩

namespace Word

def ofBytes (bs : List UInt8) : Word := BitVec.ofNat 256 (decode bs)

def bytes (w : Word) : List UInt8 := encode 32 w.toNat

@[simp] theorem bytes_length (w : Word) : (bytes w).length = 32 := encode_length 32 w.toNat

@[simp] theorem ofBytes_bytes (w : Word) : ofBytes (bytes w) = w := by
  apply BitVec.eq_of_toNat_eq
  rw [ofBytes, bytes, decode_encode, BitVec.toNat_ofNat]
  have := w.isLt
  omega

theorem toNat_ofBytes {bs : List UInt8} (size : bs.length = 32) : (ofBytes bs).toNat = decode bs := by
  have bound := decode_lt bs
  rw [size] at bound
  rw [ofBytes, BitVec.toNat_ofNat, Nat.mod_eq_of_lt (by omega)]

theorem bytes_ofBytes {bs : List UInt8} (size : bs.length = 32) : bytes (ofBytes bs) = bs := by
  rw [bytes, toNat_ofBytes size, ← size, encode_decode]

theorem decode_bytes (w : Word) : decode (bytes w) = w.toNat := by
  rw [← toNat_ofBytes (bytes_length w), ofBytes_bytes]

theorem shift_bytes (w : Word) (k : Nat) :
    w.toNat / 256 ^ (32 - k) = decode ((bytes w).take k) := by
  have split := decode_prefix ((bytes w).take k) ((bytes w).drop k)
  rw [List.take_append_drop, decode_bytes, List.length_drop, bytes_length] at split
  exact split

end Word

end Bytes
