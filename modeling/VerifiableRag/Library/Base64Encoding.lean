import VerifiableRag.Library.Base64

/-!
The base64 encoding of bytes over any alphabet of 64 characters, and what undoes it: the
lenient mode of `binascii.a2b_base64`, which skips what it does not know.
-/
namespace Base64

/-! The values of the four characters of a group of three bytes. -/

def firstValue (a : UInt8) : Nat := a.toNat / 4
def secondValue (a b : UInt8) : Nat := a.toNat % 4 * 16 + b.toNat / 16
def thirdValue (b c : UInt8) : Nat := b.toNat % 16 * 4 + c.toNat / 64
def fourthValue (c : UInt8) : Nat := c.toNat % 64

/-- Without padding. A last group of one or two bytes has two or three characters. -/
def encode (alphabet : Nat → UInt8) : List UInt8 → List UInt8
  | [] => []
  | [a] => [alphabet (firstValue a), alphabet (secondValue a 0)]
  | [a, b] =>
    [alphabet (firstValue a), alphabet (secondValue a b), alphabet (thirdValue b 0)]
  | a :: b :: c :: rest =>
    alphabet (firstValue a) :: alphabet (secondValue a b) :: alphabet (thirdValue b c) ::
      alphabet (fourthValue c) :: encode alphabet rest

/-- How many pads bring a text to a multiple of four characters. -/
def missing (s : List UInt8) : Nat := (4 - s.length % 4) % 4

def pad (s : List UInt8) : List UInt8 := s ++ List.replicate (missing s) 0x3D

/-- The standard alphabet with these two characters at its end. -/
def alphabetWith (plus slash : UInt8) (v : Nat) : UInt8 :=
  if v < 26 then UInt8.ofNat (0x41 + v)
  else if v < 52 then UInt8.ofNat (0x61 + (v - 26))
  else if v < 62 then UInt8.ofNat (0x30 + (v - 52))
  else if v = 62 then plus
  else slash

def standardAlphabet : Nat → UInt8 := alphabetWith 0x2B 0x2F

/-- `base64.b64encode`. -/
def b64encode (data : List UInt8) : List UInt8 := pad (encode standardAlphabet data)

def urlAlphabet : Nat → UInt8 := alphabetWith 0x2D 0x5F

/-- The characters of the URL-safe alphabet. -/
def UrlChar (c : UInt8) : Prop :=
  (0x41 ≤ c ∧ c ≤ 0x5A) ∨ (0x61 ≤ c ∧ c ≤ 0x7A) ∨ (0x30 ≤ c ∧ c ≤ 0x39) ∨ c = 0x2D ∨ c = 0x5F

instance : DecidablePred UrlChar := fun _ => inferInstanceAs (Decidable (_ ∨ _))

example : encode urlAlphabet [0xFF, 0xE6, 0x61] = Bytes.utf8 "_-Zh" := by decide

section Values
variable (a b c : UInt8)

theorem firstValue_lt : firstValue a < 64 := by
  have := a.toNat_lt
  unfold firstValue
  omega

theorem secondValue_lt : secondValue a b < 64 := by
  have := b.toNat_lt
  unfold secondValue
  omega

theorem thirdValue_lt : thirdValue b c < 64 := by
  have := c.toNat_lt
  unfold thirdValue
  omega

theorem fourthValue_lt : fourthValue c < 64 := by
  unfold fourthValue
  omega

theorem joined {high low width n : Nat} {byte : UInt8} (small : low < 2 ^ width)
    (whole : high * 2 ^ width + low = n) (value : n = byte.toNat) :
    UInt8.ofNat (high <<< width ||| low) = byte := by
  rw [← Nat.shiftLeft_add_eq_or_of_lt small, Nat.shiftLeft_eq, whole, value]
  exact UInt8.ofNat_toNat

theorem firstByte_values : firstByte (firstValue a) (secondValue a b) = a := by
  have := b.toNat_lt
  unfold firstByte firstValue secondValue
  rw [Nat.shiftRight_eq_div_pow]
  refine joined ?_ rfl ?_ <;> omega

theorem secondByte_values : secondByte (secondValue a b &&& 0x0F) (thirdValue b c) = b := by
  have := b.toNat_lt
  have := c.toNat_lt
  have mask : secondValue a b &&& 0x0F = b.toNat / 16 := by
    rw [Nat.and_two_pow_sub_one_eq_mod _ 4]
    unfold secondValue
    omega
  unfold secondByte
  rw [mask, Nat.shiftRight_eq_div_pow]
  unfold thirdValue
  refine joined ?_ rfl ?_ <;> omega

theorem thirdByte_values : thirdByte (thirdValue b c &&& 0x03) (fourthValue c) = c := by
  have := c.toNat_lt
  have mask : thirdValue b c &&& 0x03 = c.toNat / 64 := by
    rw [Nat.and_two_pow_sub_one_eq_mod _ 2]
    unfold thirdValue
    omega
  unfold thirdByte
  rw [mask]
  unfold fourthValue
  refine joined ?_ rfl ?_ <;> omega

end Values

/-- The characters of a group are those of its values. -/
theorem encode_congr {f g : Nat → UInt8} (same : ∀ v < 64, f v = g v) (x : List UInt8) :
    encode f x = encode g x := by
  induction x using encode.induct with
  | case1 => rfl
  | case2 a =>
    rw [encode, encode, same _ (firstValue_lt a), same _ (secondValue_lt a 0)]
  | case3 a b =>
    rw [encode, encode, same _ (firstValue_lt a), same _ (secondValue_lt a b),
      same _ (thirdValue_lt b 0)]
  | case4 a b c rest ih =>
    rw [encode, encode, same _ (firstValue_lt a), same _ (secondValue_lt a b),
      same _ (thirdValue_lt b c), same _ (fourthValue_lt c), ih]

theorem encode_map (f : Nat → UInt8) (g : UInt8 → UInt8) (x : List UInt8) :
    (encode f x).map g = encode (fun v => g (f v)) x := by
  induction x using encode.induct with
  | case1 => rfl
  | case2 a => rfl
  | case3 a b => rfl
  | case4 a b c rest ih => simp only [encode, List.map_cons, ih]

theorem encode_all {P : UInt8 → Prop} {f : Nat → UInt8} (all : ∀ v < 64, P (f v)) (x : List UInt8) :
    ∀ c ∈ encode f x, P c := by
  induction x using encode.induct with
  | case1 => simp [encode]
  | case2 a => simp [encode, all _ (firstValue_lt a), all _ (secondValue_lt a 0)]
  | case3 a b =>
    simp [encode, all _ (firstValue_lt a), all _ (secondValue_lt a b), all _ (thirdValue_lt b 0)]
  | case4 a b c rest ih =>
    simpa [encode, all _ (firstValue_lt a), all _ (secondValue_lt a b), all _ (thirdValue_lt b c),
      all _ (fourthValue_lt c)] using ih

theorem missing_four (c₁ c₂ c₃ c₄ : UInt8) (s : List UInt8) :
    missing (c₁ :: c₂ :: c₃ :: c₄ :: s) = missing s := by
  simp only [missing, List.length_cons]
  omega

theorem sextet_alphabet {v : Nat} (small : v < 64) : sextet (standardAlphabet v) = some v := by
  have table : ∀ v : Fin 64, sextet (standardAlphabet v) = some v.val := by decide
  exact table ⟨v, small⟩

theorem urlSafe_alphabet {v : Nat} (small : v < 64) :
    urlSafe (urlAlphabet v) = standardAlphabet v := by
  have table : ∀ v : Fin 64, urlSafe (urlAlphabet v) = standardAlphabet v := by decide
  exact table ⟨v, small⟩

theorem sextet_ne_pad {c : UInt8} {v : Nat} (found : sextet c = some v) : c ≠ 0x3D := by
  rintro rfl
  cases found

section Strict
variable {c : UInt8} {v left pads : Nat} {rest : List UInt8}

theorem decodeFrom_zero (found : sextet c = some v) :
    decodeFrom 0 left pads false (c :: rest) = decodeFrom 1 v 0 false rest := by
  rw [decodeFrom, if_neg (sextet_ne_pad found)]
  simp [found]

theorem decodeFrom_one (found : sextet c = some v) :
    decodeFrom 1 left pads false (c :: rest) =
      (decodeFrom 2 (v &&& 0x0F) 0 false rest).map (firstByte left v :: ·) := by
  rw [decodeFrom, if_neg (sextet_ne_pad found)]
  simp [found]

theorem decodeFrom_two (found : sextet c = some v) :
    decodeFrom 2 left pads false (c :: rest) =
      (decodeFrom 3 (v &&& 0x03) 0 false rest).map (secondByte left v :: ·) := by
  rw [decodeFrom, if_neg (sextet_ne_pad found)]
  simp [found]

theorem decodeFrom_three (found : sextet c = some v) :
    decodeFrom 3 left pads false (c :: rest) =
      (decodeFrom 0 0 0 false rest).map (thirdByte left v :: ·) := by
  rw [decodeFrom, if_neg (sextet_ne_pad found)]
  simp [found]

theorem decodeFrom_encode (x : List UInt8) :
    decodeFrom 0 left pads false (pad (encode standardAlphabet x)) = some x := by
  induction x using encode.induct generalizing left pads with
  | case1 => rfl
  | case2 a =>
    have first := sextet_alphabet (firstValue_lt a)
    have second := sextet_alphabet (secondValue_lt a 0)
    change decodeFrom 0 left pads false
      [standardAlphabet (firstValue a), standardAlphabet (secondValue a 0), 0x3D, 0x3D] = some [a]
    rw [decodeFrom_zero first, decodeFrom_one second, firstByte_values]
    rfl
  | case3 a b =>
    have first := sextet_alphabet (firstValue_lt a)
    have second := sextet_alphabet (secondValue_lt a b)
    have third := sextet_alphabet (thirdValue_lt b 0)
    change decodeFrom 0 left pads false
      [standardAlphabet (firstValue a), standardAlphabet (secondValue a b),
        standardAlphabet (thirdValue b 0), 0x3D] = some [a, b]
    rw [decodeFrom_zero first, decodeFrom_one second, decodeFrom_two third, firstByte_values,
      secondByte_values]
    rfl
  | case4 a b c rest ih =>
    have first := sextet_alphabet (firstValue_lt a)
    have second := sextet_alphabet (secondValue_lt a b)
    have third := sextet_alphabet (thirdValue_lt b c)
    have fourth := sextet_alphabet (fourthValue_lt c)
    rw [encode, pad, missing_four, List.cons_append, List.cons_append, List.cons_append,
      List.cons_append, ← pad]
    rw [decodeFrom_zero first, decodeFrom_one second, decodeFrom_two third, decodeFrom_three fourth,
      ih, firstByte_values, secondByte_values, thirdByte_values]
    rfl

end Strict

theorem a2bStrict_encode (x : List UInt8) : a2bStrict (pad (encode standardAlphabet x)) = some x := by
  rw [a2bStrict, if_neg, decodeFrom_encode]
  have first (v : Nat) (small : v < 64) : standardAlphabet v ≠ 0x3D :=
    sextet_ne_pad (sextet_alphabet small)
  have plain := encode_all (P := fun c => c ≠ 0x3D) first x
  cases chars : encode standardAlphabet x with
  | nil => decide
  | cons c s =>
    rw [chars] at plain
    intro leading
    exact plain c List.mem_cons_self (Option.some.inj leading)

theorem b64decodeUrl_encode (x : List UInt8) : b64decodeUrl (pad (encode urlAlphabet x)) = some x := by
  have size : (encode urlAlphabet x).length = (encode standardAlphabet x).length := by
    rw [← encode_congr (fun v small => urlSafe_alphabet small) x, ← encode_map, List.length_map]
  have translated : (pad (encode urlAlphabet x)).map urlSafe = pad (encode standardAlphabet x) := by
    rw [pad, List.map_append, encode_map, encode_congr (fun v small => urlSafe_alphabet small) x,
      List.map_replicate, missing, size]
    rfl
  rw [b64decodeUrl, translated, a2bStrict_encode]

/-! The lenient mode. -/

/-- The loop of `a2b_base64` when it is not strict: it skips a character outside the
    alphabet, and a complete padding ends the data. -/
def decodeLenient : Nat → Nat → Nat → List UInt8 → Option (List UInt8)
  | quad, _, _, [] => if quad = 0 then some [] else none
  | quad, left, pads, c :: rest =>
    if c = 0x3D then
      if 2 ≤ quad ∧ 4 ≤ quad + (pads + 1) then some []
      else decodeLenient quad left (if 2 ≤ quad then pads + 1 else pads) rest
    else match sextet c with
      | none => decodeLenient quad left pads rest
      | some v =>
        match quad with
        | 0 => decodeLenient 1 v 0 rest
        | 1 => (decodeLenient 2 (v &&& 0x0F) 0 rest).map (firstByte left v :: ·)
        | 2 => (decodeLenient 3 (v &&& 0x03) 0 rest).map (secondByte left v :: ·)
        | _ => (decodeLenient 0 0 0 rest).map (thirdByte left v :: ·)

/-- `base64.urlsafe_b64decode`. -/
def urlsafeB64decode (s : List UInt8) : Option (List UInt8) := decodeLenient 0 0 0 (s.map urlSafe)

/-- What the strict mode decodes, the lenient mode decodes alike. -/
theorem decodeLenient_of_strict {quad left pads : Nat} {started : Bool} {s out : List UInt8}
    (strict : decodeFrom quad left pads started s = some out) :
    decodeLenient quad left pads s = some out := by
  induction s generalizing quad left pads started out with
  | nil => exact strict
  | cons c rest ih =>
    unfold decodeFrom at strict
    unfold decodeLenient
    split at strict
    · rename_i pad
      rw [if_pos pad]
      split at strict
      · rename_i complete
        rw [if_pos complete]
        split at strict
        · exact strict
        · cases strict
      · rename_i incomplete
        rw [if_neg incomplete]
        exact ih strict
    · rename_i char
      rw [if_neg char]
      cases found : sextet c with
      | none =>
        rw [found] at strict
        cases strict
      | some v =>
        cases started with
        | true =>
          simp only [found, if_true] at strict
          cases strict
        | false =>
          simp only [found, Bool.false_eq_true, if_false] at strict ⊢
          rcases quad with _ | _ | _ | quad
          · exact ih strict
          all_goals
            obtain ⟨tail, decoded, same⟩ := Option.map_eq_some_iff.mp strict
            exact Option.map_eq_some_iff.mpr ⟨tail, ih decoded, same⟩

theorem urlsafeB64decode_encode (x : List UInt8) :
    urlsafeB64decode (pad (encode urlAlphabet x)) = some x := by
  have strict := b64decodeUrl_encode x
  rw [b64decodeUrl, a2bStrict] at strict
  split at strict
  · cases strict
  · exact decodeLenient_of_strict strict

/-- What the strict mode decodes are characters of the alphabet and then pads. -/
theorem decodeFrom_plain {quad left pads : Nat} {s out : List UInt8}
    (ok : decodeFrom quad left pads false s = some out) :
    ∃ data m, s = data ++ List.replicate m 0x3D ∧ ∀ c ∈ data, (sextet c).isSome := by
  induction s generalizing quad left pads out with
  | nil => exact ⟨[], 0, rfl, fun c member => absurd member List.not_mem_nil⟩
  | cons c rest ih =>
    by_cases pad : c = 0x3D
    · unfold decodeFrom at ok
      rw [if_pos pad] at ok
      have pads_follow : rest = List.replicate rest.length 0x3D := by
        split at ok
        · split at ok
          · rename_i last
            rw [List.isEmpty_iff.mp last]
            rfl
          · cases ok
        · exact (decodeFrom_padded ok).2.2
      refine ⟨[], rest.length + 1, ?_, fun c member => absurd member List.not_mem_nil⟩
      rw [pad, List.nil_append, List.replicate_succ, ← pads_follow]
    · obtain ⟨v, found, taken⟩ := decodeFrom_char pad ok
      have later : ∃ data m, rest = data ++ List.replicate m 0x3D ∧
          ∀ c ∈ data, (sextet c).isSome := by
        unfold Taken at taken
        split at taken
        · exact ih taken
        all_goals
          obtain ⟨tail, decoded, _⟩ := taken
          exact ih decoded
      obtain ⟨data, m, split, plain⟩ := later
      refine ⟨c :: data, m, by rw [split]; rfl, ?_⟩
      rw [List.forall_mem_cons]
      exact ⟨by rw [found]; rfl, plain⟩

end Base64
