import Mathlib.Data.List.Basic

/-!
Authenticated encryption with associated data, idealised: what was encrypted decrypts under
the key, the nonce and the associated data it was encrypted with and under no others.
-/
namespace Aead

structure Scheme (κ ν α μ γ : Type) where
  encrypt : κ → ν → α → μ → γ
  decrypt : κ → ν → α → γ → Option μ

section Ideal
variable {κ ν α μ γ : Type}

structure Ideal (scheme : Scheme κ ν α μ γ) : Prop where
  opens (k : κ) (n : ν) (a : α) (m : μ) :
    scheme.decrypt k n a (scheme.encrypt k n a m) = some m
  binds {k k' : κ} {n n' : ν} {a a' : α} {m m' : μ} :
    scheme.decrypt k n a (scheme.encrypt k' n' a' m) = some m' → k = k' ∧ n = n' ∧ a = a'

variable {scheme : Scheme κ ν α μ γ}

theorem Ideal.refuses (ideal : Ideal scheme) {k : κ} {n : ν} {a a' : α} (other : a ≠ a') (m : μ) :
    scheme.decrypt k n a (scheme.encrypt k n a' m) = none := by
  cases opened : scheme.decrypt k n a (scheme.encrypt k n a' m) with
  | none => rfl
  | some m' => exact absurd (ideal.binds opened).2.2 other

end Ideal

/-- What a round trip takes: what was encrypted decrypts, and is longer by the tag. -/
structure Tagged {κ ν α β : Type} (scheme : Scheme κ ν α (List β) (List β)) (tag : Nat) : Prop where
  opens (k : κ) (n : ν) (a : α) (m : List β) : scheme.decrypt k n a (scheme.encrypt k n a m) = some m
  sized (k : κ) (n : ν) (a : α) (m : List β) : (scheme.encrypt k n a m).length = m.length + tag

section Transparent

/-- A byte string in a form that says where it ends. -/
def framed : List UInt8 → List UInt8
  | [] => [0]
  | b :: rest => 1 :: b :: framed rest

theorem framed_append_inj {x y s t : List UInt8} (same : framed x ++ s = framed y ++ t) :
    x = y ∧ s = t := by
  induction x generalizing y with
  | nil =>
    cases y with
    | nil => exact ⟨rfl, List.append_cancel_left same⟩
    | cons c y => cases same
  | cons b x ih =>
    cases y with
    | nil => cases same
    | cons c y =>
      rw [framed, framed, List.cons_append, List.cons_append, List.cons_append,
        List.cons_append] at same
      injection same with _ same
      injection same with head same
      obtain ⟨tail, rest⟩ := ih same
      exact ⟨by rw [head, tail], rest⟩

/-- The header under which a message stands: all that a decryption has to know. -/
def header (k n a : List UInt8) : List UInt8 :=
  framed k ++ (framed n ++ (framed a ++ List.replicate 16 0))

/-- An ideal scheme as far as decryption goes; it hides nothing. -/
def transparent :
    Scheme (List UInt8) (List UInt8) (List UInt8) (List UInt8) (List UInt8) where
  encrypt k n a m := header k n a ++ m
  decrypt k n a c :=
    if (header k n a).isPrefixOf c then some (c.drop (header k n a).length) else none

theorem transparent_ideal : Ideal transparent where
  opens k n a m := by simp [transparent, List.isPrefixOf_iff_prefix]
  binds {k k' n n' a a' m m'} opened := by
    simp only [transparent] at opened
    split at opened
    · rename_i before
      obtain ⟨rest, same⟩ := List.isPrefixOf_iff_prefix.mp before
      simp only [header, List.append_assoc] at same
      obtain ⟨keys, same⟩ := framed_append_inj same
      obtain ⟨nonces, same⟩ := framed_append_inj same
      exact ⟨keys, nonces, (framed_append_inj same).1⟩
    · cases opened

theorem transparent_tagged (k n a m : List UInt8) :
    16 ≤ (transparent.encrypt k n a m).length := by
  simp only [transparent, header, List.length_append, List.length_replicate]
  omega

theorem transparent_sized (k n a c m : List UInt8) (opened : transparent.decrypt k n a c = some m) :
    m.length + 16 ≤ c.length := by
  simp only [transparent] at opened
  split at opened
  · rename_i before
    obtain ⟨rest, rfl⟩ := List.isPrefixOf_iff_prefix.mp before
    rw [List.drop_left, Option.some.injEq] at opened
    simp only [← opened, header, List.length_append, List.length_replicate]
    omega
  · cases opened

/-- A scheme of that size; its tag says nothing of the key. -/
def zeroTagged :
    Scheme (List UInt8) (List UInt8) (List UInt8) (List UInt8) (List UInt8) where
  encrypt _ _ _ m := List.replicate 16 0 ++ m
  decrypt _ _ _ c := if (List.replicate 16 0).isPrefixOf c then some (c.drop 16) else none

theorem zeroTagged_tagged : Tagged zeroTagged 16 where
  opens k n a m := by
    have start : (List.replicate 16 (0 : UInt8)).isPrefixOf (List.replicate 16 0 ++ m) = true :=
      List.isPrefixOf_iff_prefix.mpr (List.prefix_append _ _)
    simp only [zeroTagged, start, if_true]
    rw [List.drop_left' List.length_replicate]
  sized k n a m := by
    show (List.replicate 16 (0 : UInt8) ++ m).length = m.length + 16
    rw [List.length_append, List.length_replicate, Nat.add_comm]

end Transparent

end Aead
