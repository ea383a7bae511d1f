import VerifiableRag.Library.Bytes

/-!
Python's `base64.b64decode` with `validate=True`: the strict mode of
`binascii.a2b_base64`. `none` is a `binascii.Error`.
-/
namespace Base64

/-- The six bits of a character of the standard alphabet. -/
def sextet (c : UInt8) : Option Nat :=
  if 0x41 ≤ c ∧ c ≤ 0x5A then some (c.toNat - 0x41)
  else if 0x61 ≤ c ∧ c ≤ 0x7A then some (c.toNat - 0x61 + 26)
  else if 0x30 ≤ c ∧ c ≤ 0x39 then some (c.toNat - 0x30 + 52)
  else if c = 0x2B then some 62
  else if c = 0x2F then some 63
  else none

/-- The bytes that the four places of a quad complete. -/
def firstByte (left v : Nat) : UInt8 := UInt8.ofNat (left <<< 2 ||| v >>> 4)
def secondByte (left v : Nat) : UInt8 := UInt8.ofNat (left <<< 4 ||| v >>> 2)
def thirdByte (left v : Nat) : UInt8 := UInt8.ofNat (left <<< 6 ||| v)

/-- The loop of `a2b_base64`: the place in the quad, the bits left over from the
    last character, the pads counted and whether padding has started. -/
def decodeFrom : Nat → Nat → Nat → Bool → List UInt8 → Option (List UInt8)
  | quad, _, _, _, [] => if quad = 0 then some [] else none
  | quad, left, pads, started, c :: rest =>
    if c = 0x3D then
      if 2 ≤ quad ∧ 4 ≤ quad + (pads + 1) then
        -- the quad is complete: nothing may follow
        if rest.isEmpty then some [] else none
      else decodeFrom quad left (if 2 ≤ quad then pads + 1 else pads) true rest
    else match sextet c with
      | none => none
      | some v =>
        if started then none
        else match quad with
          | 0 => decodeFrom 1 v 0 false rest
          | 1 => (decodeFrom 2 (v &&& 0x0F) 0 false rest).map (firstByte left v :: ·)
          | 2 => (decodeFrom 3 (v &&& 0x03) 0 false rest).map (secondByte left v :: ·)
          | _ => (decodeFrom 0 0 0 false rest).map (thirdByte left v :: ·)

/-- Leading padding is an error of its own. -/
def a2bStrict (s : List UInt8) : Option (List UInt8) :=
  if s.head? = some 0x3D then none else decodeFrom 0 0 0 false s

/-- `bytes.maketrans(altchars, b'+/')` with `altchars=b'-_'`. -/
def urlSafe (c : UInt8) : UInt8 :=
  if c = 0x2D then 0x2B else if c = 0x5F then 0x2F else c

def b64decodeUrl (s : List UInt8) : Option (List UInt8) := a2bStrict (s.map urlSafe)

example : b64decodeUrl (Bytes.utf8 "_-Zh") = some [0xFF, 0xE6, 0x61] := by decide

/-- After a first pad only pads follow, and one character alone never fills a byte. -/
theorem decodeFrom_padded {quad left pads : Nat} {s out : List UInt8}
    (ok : decodeFrom quad left pads true s = some out) :
    out = [] ∧ quad ≠ 1 ∧ s = List.replicate s.length 0x3D := by
  induction s generalizing pads with
  | nil =>
    unfold decodeFrom at ok
    split at ok
    · exact ⟨(Option.some.inj ok).symm, by omega, rfl⟩
    · cases ok
  | cons c rest ih =>
    unfold decodeFrom at ok
    split at ok
    · rename_i pad
      split at ok
      · split at ok
        · rename_i complete last
          rw [List.isEmpty_iff] at last
          exact ⟨(Option.some.inj ok).symm, by omega, by rw [pad, last]; rfl⟩
        · cases ok
      · obtain ⟨empty, place, pads⟩ := ih ok
        exact ⟨empty, place, by rw [pad, List.length_cons, List.replicate_succ, ← pads]⟩
    · split at ok
      · cases ok
      · cases ok

/-- How the decoding goes on after a character of value `v`. -/
def Taken (quad left v : Nat) (rest out : List UInt8) : Prop :=
  match quad with
  | 0 => decodeFrom 1 v 0 false rest = some out
  | 1 => ∃ tail, decodeFrom 2 (v &&& 0x0F) 0 false rest = some tail ∧ firstByte left v :: tail = out
  | 2 => ∃ tail, decodeFrom 3 (v &&& 0x03) 0 false rest = some tail ∧ secondByte left v :: tail = out
  | _ => ∃ tail, decodeFrom 0 0 0 false rest = some tail ∧ thirdByte left v :: tail = out

theorem decodeFrom_char {quad left pads : Nat} {c : UInt8} {rest out : List UInt8}
    (char : c ≠ 0x3D) (ok : decodeFrom quad left pads false (c :: rest) = some out) :
    ∃ v, sextet c = some v ∧ Taken quad left v rest out := by
  rw [decodeFrom, if_neg char] at ok
  cases found : sextet c with
  | none =>
    rw [found] at ok
    cases ok
  | some v =>
    simp only [found, Bool.false_eq_true, if_false] at ok
    refine ⟨v, rfl, ?_⟩
    unfold Taken
    split at ok
    · exact ok
    all_goals exact Option.map_eq_some_iff.mp ok

end Base64
