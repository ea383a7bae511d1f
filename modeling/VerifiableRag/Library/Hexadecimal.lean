import VerifiableRag.Library.Bytes

/-!
Hexadecimal text as JavaScript builds it: `toString(16)` of a number, `padStart` and `padEnd`
with zeros, and what they make of bytes. Texts are in ASCII.
-/
namespace Hexadecimal
open Bytes

def digit (d : Nat) : UInt8 := UInt8.ofNat (if d < 10 then 0x30 + d else 0x57 + d)

def toString16 (n : Nat) : List UInt8 :=
  if n = 0 then [0x30] else (Nat.digits 16 n).reverse.map digit

def padStart (size : Nat) (s : List UInt8) : List UInt8 :=
  List.replicate (size - s.length) 0x30 ++ s

def padEnd (size : Nat) (s : List UInt8) : List UInt8 :=
  s ++ List.replicate (size - s.length) 0x30

/-- Two digits for each byte. -/
def ofBytes (bs : List UInt8) : List UInt8 :=
  bs.flatMap fun b => padStart 2 (toString16 b.toNat)

/-- The `k` low digits of a number, least significant first. -/
def nibbles : Nat → Nat → List Nat
  | 0, _ => []
  | k + 1, n => n % 16 :: nibbles k (n / 16)

theorem byte_digits (b : UInt8) :
    padStart 2 (toString16 b.toNat) = [digit (b.toNat / 16), digit (b.toNat % 16)] := by
  have table : ∀ b : UInt8,
      padStart 2 (toString16 b.toNat) = [digit (b.toNat / 16), digit (b.toNat % 16)] :=
    forall_byte (by decide +kernel)
  exact table b

theorem ofBytes_append (xs ys : List UInt8) : ofBytes (xs ++ ys) = ofBytes xs ++ ofBytes ys :=
  List.flatMap_append

theorem ofBytes_length (bs : List UInt8) : (ofBytes bs).length = 2 * bs.length := by
  induction bs with
  | nil => rfl
  | cons b bs ih =>
    rw [ofBytes, List.flatMap_cons, List.length_append, ← ofBytes, ih, byte_digits,
      List.length_cons, List.length_cons, List.length_cons, List.length_nil]
    omega

theorem digit_injective {d e : Nat} (small : d < 16) (small' : e < 16) (same : digit d = digit e) :
    d = e := by
  have table : ∀ d e : Fin 16, digit d = digit e → d = e := by decide
  exact Fin.mk.inj (table ⟨d, small⟩ ⟨e, small'⟩ same)

theorem byte_digits_injective {b c : UInt8}
    (same : padStart 2 (toString16 b.toNat) = padStart 2 (toString16 c.toNat)) : b = c := by
  have bound := b.toNat_lt
  have bound' := c.toNat_lt
  rw [byte_digits, byte_digits, List.cons.injEq, List.cons.injEq] at same
  have high := digit_injective (by omega) (by omega) same.1
  have low := digit_injective (by omega) (by omega) same.2.1
  apply UInt8.toNat_inj.mp
  omega

theorem ofBytes_injective {xs ys : List UInt8} (same : ofBytes xs = ofBytes ys) : xs = ys := by
  induction xs generalizing ys with
  | nil =>
    cases ys with
    | nil => rfl
    | cons c ys =>
      have sizes := congrArg List.length same
      rw [ofBytes_length, ofBytes_length] at sizes
      exact absurd sizes (by simp)
  | cons b xs ih =>
    cases ys with
    | nil =>
      have sizes := congrArg List.length same
      rw [ofBytes_length, ofBytes_length] at sizes
      exact absurd sizes (by simp)
    | cons c ys =>
      rw [ofBytes, List.flatMap_cons, ofBytes, List.flatMap_cons] at same
      obtain ⟨first, rest⟩ := List.append_inj same (by rw [byte_digits, byte_digits]; rfl)
      rw [byte_digits_injective first, ih rest]

theorem ofBytes_zeros (k : Nat) : ofBytes (List.replicate k 0) = List.replicate (2 * k) 0x30 := by
  induction k with
  | zero => rfl
  | succ k ih =>
    rw [List.replicate_succ, ofBytes, List.flatMap_cons, ← ofBytes, ih, byte_digits]
    rfl

theorem nibbles_zero (k : Nat) : nibbles k 0 = List.replicate k 0 := by
  induction k with
  | zero => rfl
  | succ k ih => rw [nibbles, Nat.zero_mod, Nat.zero_div, ih, List.replicate_succ]

/-- A number below `16 ^ k` has its own digits and then zeros. -/
theorem nibbles_eq {k n : Nat} (small : n < 16 ^ k) :
    nibbles k n = Nat.digits 16 n ++ List.replicate (k - (Nat.digits 16 n).length) 0 := by
  induction k generalizing n with
  | zero =>
    rw [Nat.lt_one_iff.mp small]
    rfl
  | succ k ih =>
    by_cases zero : n = 0
    · rw [zero, nibbles_zero]
      simp
    · have rest : n / 16 < 16 ^ k := by
        rw [Nat.pow_succ] at small
        exact Nat.div_lt_of_lt_mul (by omega)
      rw [nibbles, ih rest, Nat.digits_def' (by decide) (Nat.pos_of_ne_zero zero)]
      simp

theorem padStart_toString16 {k n : Nat} (room : 0 < k) (small : n < 16 ^ k) :
    padStart k (toString16 n) = (nibbles k n).reverse.map digit := by
  rw [nibbles_eq small, List.reverse_append, List.reverse_replicate, List.map_append,
    List.map_replicate, padStart, toString16]
  by_cases zero : n = 0
  · rw [if_pos zero, zero]
    obtain ⟨j, rfl⟩ := Nat.exists_eq_succ_of_ne_zero (Nat.ne_of_gt room)
    exact List.replicate_succ'.symm.trans (List.append_nil _).symm
  · rw [if_neg zero, List.length_map, List.length_reverse]
    rfl

theorem ofBytes_encode (k n : Nat) :
    ofBytes (encode k n) = (nibbles (2 * k) n).reverse.map digit := by
  induction k generalizing n with
  | zero => rfl
  | succ k ih =>
    have byte : (UInt8.ofNat n).toNat = n % 256 := UInt8.toNat_ofNat'
    have high : n % 256 / 16 = n / 16 % 16 := by omega
    have low : n % 256 % 16 = n % 16 := by omega
    have quotient : n / 16 / 16 = n / 256 := by omega
    rw [encode, littleEndian, List.reverse_cons, ofBytes_append, ← encode, ih, Nat.mul_succ, nibbles,
      nibbles, quotient, List.reverse_cons, List.reverse_cons, List.append_assoc, List.map_append]
    simp only [ofBytes, List.flatMap_cons, List.flatMap_nil, byte_digits, byte, high, low]
    rfl

/-- A number padded to twice the bytes of a width is its big-endian form. -/
theorem padStart_encode {k n : Nat} (room : 0 < k) (small : n < 256 ^ k) :
    padStart (2 * k) (toString16 n) = ofBytes (encode k n) := by
  rw [ofBytes_encode, padStart_toString16 (by omega)]
  rw [Nat.pow_mul]
  exact small

end Hexadecimal
