import Mathlib.NumberTheory.LucasPrimality

/-!
Primality of large numbers from the prime factors of their predecessor, with the
powers of the test computed by squaring.
-/
namespace Primality

/-- One round of squaring, from the exponent without bit `i` to the one with it. -/
def square (p a n i r : ℕ) : ℕ := if n.testBit i then r * r % p * a % p else r * r % p

/-- The power of `a` modulo `p`, for an exponent of at most `bits` bits. -/
def powMod (p bits a n : ℕ) : ℕ := (List.range bits).foldr (square p a n) (1 % p)

theorem square_shifted (p a n i : ℕ) :
    square p a n i (a ^ (n >>> (i + 1)) % p) = a ^ (n >>> i) % p := by
  have halved : n >>> i = 2 * (n >>> (i + 1)) + (n >>> i) % 2 := by
    rw [Nat.shiftRight_succ]
    omega
  have bit : n.testBit i = decide ((n >>> i) % 2 = 1) := by
    rw [Nat.testBit_eq_decide_div_mod_eq, Nat.shiftRight_eq_div_pow]
  have squared : a ^ (n >>> (i + 1)) % p * (a ^ (n >>> (i + 1)) % p) % p =
      a ^ (2 * (n >>> (i + 1))) % p := by
    rw [← Nat.mul_mod, ← pow_add, two_mul]
  rw [square, squared, bit]
  rcases Nat.mod_two_eq_zero_or_one (n >>> i) with even | odd
  · rw [even, Nat.add_zero] at halved
    rw [even, halved]
    rfl
  · rw [odd] at halved
    rw [odd, halved, pow_succ, Nat.mod_mul_mod]
    rfl

theorem foldr_square (p a n k : ℕ) :
    (List.range k).foldr (square p a n) (a ^ (n >>> k) % p) = a ^ n % p := by
  induction k with
  | zero => rfl
  | succ k ih =>
    rw [List.range_succ, List.foldr_append, List.foldr_cons, List.foldr_nil, square_shifted, ih]

theorem powMod_eq {p bits a n : ℕ} (fits : n < 2 ^ bits) : powMod p bits a n = a ^ n % p := by
  have shifted_out : n >>> bits = 0 := by
    rw [Nat.shiftRight_eq_div_pow, Nat.div_eq_of_lt fits]
  have power := foldr_square p a n bits
  rwa [shifted_out, pow_zero] at power

theorem pow_eq_one_iff {p bits a n : ℕ} (big : 1 < p) (fits : n < 2 ^ bits) :
    (a : ZMod p) ^ n = 1 ↔ powMod p bits a n = 1 := by
  rw [powMod_eq fits, ← Nat.cast_pow, ← Nat.cast_one, ZMod.natCast_eq_natCast_iff',
    Nat.mod_eq_of_lt big]

/-- A base of full order: its power is one at `p - 1`, and not at the quotients of `p - 1`
    by the listed factors. -/
structure Certificate (p bits a : ℕ) (factors : List ℕ) : Prop where
  big : 1 < p
  fits : p < 2 ^ bits
  product : factors.prod = p - 1
  full : powMod p bits a (p - 1) = 1
  proper : ∀ q ∈ factors, powMod p bits a ((p - 1) / q) ≠ 1

instance (p bits a : ℕ) (factors : List ℕ) : Decidable (Certificate p bits a factors) :=
  decidable_of_iff (1 < p ∧ p < 2 ^ bits ∧ factors.prod = p - 1 ∧ powMod p bits a (p - 1) = 1 ∧
      ∀ q ∈ factors, powMod p bits a ((p - 1) / q) ≠ 1)
    ⟨fun ⟨big, fits, product, full, proper⟩ => ⟨big, fits, product, full, proper⟩,
      fun c => ⟨c.big, c.fits, c.product, c.full, c.proper⟩⟩

theorem Certificate.prime {p bits a : ℕ} {factors : List ℕ} (c : Certificate p bits a factors)
    (primes : ∀ q ∈ factors, q.Prime) : p.Prime := by
  have fits := c.fits
  apply lucas_primality p (a : ZMod p)
  · exact (pow_eq_one_iff c.big (by omega)).mpr c.full
  · intro q prime divides
    rw [← c.product] at divides
    obtain ⟨f, member, f_divides⟩ := (Prime.dvd_prod_iff prime.prime).mp divides
    obtain rfl := (Nat.prime_dvd_prime_iff_eq prime (primes f member)).mp f_divides
    have fits_quotient : (p - 1) / q < 2 ^ bits := by
      have := Nat.div_le_self (p - 1) q
      omega
    intro one
    exact c.proper q member ((pow_eq_one_iff c.big fits_quotient).mp one)

end Primality
