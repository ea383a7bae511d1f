import Mathlib.Algebra.Field.ZMod
import Mathlib.Tactic.NormNum.Prime
import VerifiableRag.Kms.MpcSigner
import VerifiableRag.Library.Primality

/-!
The order of secp256k1 is prime: scalars are a field.
-/
namespace Kms
open Primality

theorem prime_107361793816595537 : Nat.Prime 107361793816595537 := by
  have certificate : Certificate 107361793816595537 57 3 [2, 2, 2, 2, 16699, 85831, 4681609] := by
    decide +kernel
  refine certificate.prime ?_
  norm_num

theorem prime_174723607534414371449 : Nat.Prime 174723607534414371449 := by
  have certificate : Certificate 174723607534414371449 68 3 [2, 2, 2, 17, 59, 4051, 120233,
      44706919] := by
    decide +kernel
  refine certificate.prime ?_
  norm_num

theorem prime_545358713 : Nat.Prime 545358713 := by
  have certificate : Certificate 545358713 30 5 [2, 2, 2, 41, 59, 28181] := by
    decide +kernel
  refine certificate.prime ?_
  norm_num

theorem prime_297159362677 : Nat.Prime 297159362677 := by
  have certificate : Certificate 297159362677 39 2 [2, 2, 3, 3, 11, 461, 1627771] := by
    decide +kernel
  refine certificate.prime ?_
  norm_num

theorem prime_29047611873442575647497758179 : Nat.Prime 29047611873442575647497758179 := by
  have certificate : Certificate 29047611873442575647497758179 95 2 [2, 293, 305873, 545358713,
      297159362677] := by
    decide +kernel
  refine certificate.prime ?_
  intro q member
  simp only [List.mem_cons, List.not_mem_nil, or_false] at member
  rcases member with rfl | rfl | rfl | rfl | rfl <;>
    first | exact prime_545358713 | exact prime_297159362677 | norm_num

theorem prime_341948486974166000522343609283189 : Nat.Prime 341948486974166000522343609283189 := by
  have certificate : Certificate 341948486974166000522343609283189 109 2 [2, 2, 3, 3, 3, 109,
      29047611873442575647497758179] := by
    decide +kernel
  refine certificate.prime ?_
  intro q member
  simp only [List.mem_cons, List.not_mem_nil, or_false] at member
  rcases member with rfl | rfl | rfl | rfl | rfl | rfl | rfl <;>
    first | exact prime_29047611873442575647497758179 | norm_num

theorem order_prime : Nat.Prime order := by
  have certificate : Certificate order 256 7 [2, 2, 2, 2, 2, 2, 3, 149, 631, 107361793816595537,
      174723607534414371449, 341948486974166000522343609283189] := by
    decide +kernel
  refine certificate.prime ?_
  intro q member
  simp only [List.mem_cons, List.not_mem_nil, or_false] at member
  rcases member with rfl | rfl | rfl | rfl | rfl | rfl | rfl | rfl | rfl | rfl | rfl | rfl <;>
    first
    | exact prime_107361793816595537
    | exact prime_174723607534414371449
    | exact prime_341948486974166000522343609283189
    | norm_num

instance : Fact (Nat.Prime order) := ⟨order_prime⟩

end Kms
