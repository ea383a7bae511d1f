import VerifiableRag.Jwt.Segments
import VerifiableRag.Library.Base64Encoding

/-!
`_b64UrlDecode` on its buffers: where it reads and writes, what it decodes and what it refuses.
-/
namespace VerifiableRag.TokenClaims
open Bytes

/-- How the function ends without a result: an index outside a buffer, or its own revert. -/
inductive Halt where
  | outOfBounds
  | invalidToken
  deriving DecidableEq

section Buffers

def read (buf : List UInt8) (i : Nat) : Except Halt UInt8 :=
  match buf[i]? with
  | some b => .ok b
  | none => .error .outOfBounds

def write (buf : List UInt8) (i : Nat) (b : UInt8) : Except Halt (List UInt8) :=
  if i < buf.length then .ok (buf.set i b) else .error .outOfBounds

/-- `while (clean > 0 && _in[clean - 1] == 0x3D) clean--` -/
def cleanLength (input : List UInt8) : Nat → Except Halt Nat
  | 0 => .ok 0
  | clean + 1 => do
    let c ← read input clean
    if c = 0x3D then cleanLength input clean else .ok (clean + 1)

def valueBelow (input : List UInt8) (clean i : Nat) : Except Halt Nat :=
  if i < clean then (read input i).map b64Value else .ok 0

/-- `if (o < outLen) out[o++] = b` -/
def writeBelow (outLen : Nat) (state : List UInt8 × Nat) (b : UInt8) :
    Except Halt (List UInt8 × Nat) :=
  if state.2 < outLen then (write state.1 state.2 b).map (·, state.2 + 1) else .ok state

def decodeLoop (input : List UInt8) (clean outLen i : Nat) (state : List UInt8 × Nat) :
    Except Halt (List UInt8) :=
  if i < clean then do
    let b0 ← (read input i).map b64Value
    let b1 ← valueBelow input clean (i + 1)
    let b2 ← valueBelow input clean (i + 2)
    let b3 ← valueBelow input clean (i + 3)
    if b0 > 63 ∨ b1 > 63 ∨ b2 > 63 ∨ b3 > 63 then .error .invalidToken
    else
      let out ← write state.1 state.2 (byte0 b0 b1)
      let state ← writeBelow outLen (out, state.2 + 1) (byte1 b1 b2)
      let state ← writeBelow outLen state (byte2 b2 b3)
      decodeLoop input clean outLen (i + 4) state
  else .ok state.1
termination_by clean - i

/-- `new bytes(outLen)` is zero. -/
def b64UrlDecodeBuffers (input : List UInt8) : Except Halt (List UInt8) := do
  let clean ← cleanLength input input.length
  if clean % 4 = 1 then .error .invalidToken
  else
    let outLen := clean * 3 / 4
    decodeLoop input clean outLen 0 (List.replicate outLen 0, 0)

end Buffers

/-- The result without its buffers. -/
def settled : Option (List UInt8) → Except Halt (List UInt8)
  | some out => .ok out
  | none => .error .invalidToken

section Refinement

theorem read_append (before : List UInt8) (c : UInt8) (rest : List UInt8) :
    read (before ++ c :: rest) before.length = .ok c := by
  simp [read]

theorem read_offset (before rest : List UInt8) (n : Nat) :
    read (before ++ rest) (before.length + n) = read rest n := by
  simp [read, List.getElem?_append_right]

theorem write_append (done : List UInt8) (old new : UInt8) (room : List UInt8) :
    write (done ++ old :: room) done.length new = .ok (done ++ [new] ++ room) := by
  simp [write]

theorem cleanLength_ok (input : List UInt8) (n : Nat) (inside : n ≤ input.length) :
    cleanLength input n = .ok (stripPadding (input.take n)).length := by
  induction n with
  | zero => rfl
  | succ n ih =>
    have last : n < input.length := inside
    have split : input.take (n + 1) = input.take n ++ [input[n]] :=
      List.take_succ_eq_append_getElem last
    have here : read input n = .ok input[n] := by simp [read, last]
    rw [cleanLength, here]
    simp only [bind, Except.bind]
    by_cases padding : input[n] = 0x3D
    · rw [if_pos padding, ih (by omega), split, padding]
      exact congrArg (fun s => Except.ok (List.length s)) (stripPadding_append (input.take n) 1).symm
    · rw [if_neg padding, split, stripPadding, List.reverse_append]
      simpa [padding] using last

theorem writeBelow_room {outLen o : Nat} {done room : List UInt8} (old new : UInt8)
    (place : o = done.length) (inside : o < outLen) :
    writeBelow outLen (done ++ old :: room, o) new = .ok (done ++ [new] ++ room, o + 1) := by
  rw [writeBelow, if_pos inside, place, write_append]
  rfl

theorem writeBelow_full {outLen o : Nat} {out : List UInt8} (new : UInt8) (full : outLen ≤ o) :
    writeBelow outLen (out, o) new = .ok (out, o) :=
  if_neg (Nat.not_lt.mpr full)

theorem valueBelow_inside {before rest : List UInt8} {clean n : Nat} {c : UInt8}
    (inside : before.length + n < clean) (here : rest[n]? = some c) :
    valueBelow (before ++ rest) clean (before.length + n) = .ok (b64Value c) := by
  rw [valueBelow, if_pos inside, read_offset]
  simp [read, here, Except.map]

theorem valueBelow_outside {input : List UInt8} {clean i : Nat} (outside : clean ≤ i) :
    valueBelow input clean i = .ok 0 := if_neg (Nat.not_lt.mpr outside)

/-- One turn of the loop, with the values it reads. -/
theorem decodeLoop_turn {input : List UInt8} {clean outLen i b1 b2 b3 : Nat}
    {state : List UInt8 × Nat} {c0 : UInt8} (inside : i < clean) (first : read input i = .ok c0)
    (second : valueBelow input clean (i + 1) = .ok b1)
    (third : valueBelow input clean (i + 2) = .ok b2)
    (fourth : valueBelow input clean (i + 3) = .ok b3) :
    decodeLoop input clean outLen i state =
      if b64Value c0 > 63 ∨ b1 > 63 ∨ b2 > 63 ∨ b3 > 63 then .error .invalidToken
      else (do
        let out ← write state.1 state.2 (byte0 (b64Value c0) b1)
        let state ← writeBelow outLen (out, state.2 + 1) (byte1 b1 b2)
        let state ← writeBelow outLen state (byte2 b2 b3)
        decodeLoop input clean outLen (i + 4) state) := by
  rw [decodeLoop, if_pos inside, first, second, third, fourth]
  rfl

theorem decodeLoop_end {input : List UInt8} {clean outLen i : Nat} {state : List UInt8 × Nat}
    (outside : clean ≤ i) : decodeLoop input clean outLen i state = .ok state.1 := by
  rw [decodeLoop, if_neg (Nat.not_lt.mpr outside)]

theorem three_of_length {α : Type} {l : List α} (size : 3 ≤ l.length) :
    ∃ a b c rest, l = a :: b :: c :: rest := by
  rcases l with _ | ⟨a, _ | ⟨b, _ | ⟨c, rest⟩⟩⟩
  · exact absurd size (by simp)
  · exact absurd size (by simp)
  · exact absurd size (by simp)
  · exact ⟨a, b, c, rest, rfl⟩

/-- The loop on the groups still to decode: the output grows by what they decode to, and no
    index is outside a buffer. -/
theorem decodeLoop_groups {before rest pads done room : List UInt8} {clean outLen : Nat}
    (chars : clean = before.length + rest.length) (size : rest.length % 4 ≠ 1)
    (bytes : room.length = rest.length * 3 / 4) (total : outLen = done.length + room.length) :
    decodeLoop (before ++ (rest ++ pads)) clean outLen before.length (done ++ room, done.length) =
      settled ((decodeGroups rest).map (done ++ ·)) := by
  induction rest using decodeGroups.induct generalizing before done room with
  | case1 =>
    rw [decodeLoop_end (by simp [chars]), List.eq_nil_of_length_eq_zero bytes]
    simp [decodeGroups, settled]
  | case2 c => exact absurd rfl size
  | case3 c0 c1 illegal =>
    simp only [List.length_cons, List.length_nil, List.cons_append, List.nil_append] at chars ⊢
    rw [decodeLoop_turn (by omega) (read_append before c0 (c1 :: pads))
      (valueBelow_inside (by omega) rfl) (valueBelow_outside (by omega))
      (valueBelow_outside (by omega)), if_pos (by omega), decodeGroups, if_pos illegal]
    rfl
  | case4 c0 c1 legal =>
    obtain ⟨z, rfl⟩ := List.length_eq_one_iff.mp (show room.length = 1 by simpa using bytes)
    simp only [List.length_cons, List.length_nil, List.cons_append, List.nil_append] at chars total ⊢
    rw [decodeLoop_turn (by omega) (read_append before c0 (c1 :: pads))
      (valueBelow_inside (by omega) rfl) (valueBelow_outside (by omega))
      (valueBelow_outside (by omega)), if_neg (by omega), decodeGroups, if_neg legal]
    simp only [write_append, bind, Except.bind]
    rw [writeBelow_full _ (by omega)]
    simp only
    rw [writeBelow_full _ (by omega)]
    simp only
    rw [decodeLoop_end (by omega)]
    simp [settled]
  | case5 c0 c1 c2 illegal =>
    simp only [List.length_cons, List.length_nil, List.cons_append, List.nil_append] at chars ⊢
    rw [decodeLoop_turn (by omega) (read_append before c0 (c1 :: c2 :: pads))
      (valueBelow_inside (by omega) rfl) (valueBelow_inside (by omega) rfl)
      (valueBelow_outside (by omega)), if_pos (by omega), decodeGroups, if_pos illegal]
    rfl
  | case6 c0 c1 c2 legal =>
    obtain ⟨z0, z1, rfl⟩ := List.length_eq_two.mp (show room.length = 2 by simpa using bytes)
    simp only [List.length_cons, List.length_nil, List.cons_append, List.nil_append] at chars total ⊢
    rw [decodeLoop_turn (by omega) (read_append before c0 (c1 :: c2 :: pads))
      (valueBelow_inside (by omega) rfl) (valueBelow_inside (by omega) rfl)
      (valueBelow_outside (by omega)), if_neg (by omega), decodeGroups, if_neg legal]
    simp only [write_append, bind, Except.bind]
    rw [writeBelow_room z1 _ (by simp) (by omega)]
    simp only
    rw [writeBelow_full _ (by omega)]
    simp only
    rw [decodeLoop_end (by omega)]
    simp [settled]
  | case7 c0 c1 c2 c3 rest illegal =>
    simp only [List.length_cons, List.cons_append] at chars ⊢
    rw [decodeLoop_turn (by omega) (read_append before c0 (c1 :: c2 :: c3 :: (rest ++ pads)))
      (valueBelow_inside (by omega) rfl) (valueBelow_inside (by omega) rfl)
      (valueBelow_inside (by omega) rfl), if_pos (by omega), decodeGroups, if_pos illegal]
    rfl
  | case8 c0 c1 c2 c3 rest legal ih =>
    obtain ⟨z0, z1, z2, room, rfl⟩ := three_of_length (show 3 ≤ room.length by
      simp only [List.length_cons] at bytes
      omega)
    simp only [List.length_cons, List.cons_append] at chars size bytes total ⊢
    rw [decodeLoop_turn (by omega) (read_append before c0 (c1 :: c2 :: c3 :: (rest ++ pads)))
      (valueBelow_inside (by omega) rfl) (valueBelow_inside (by omega) rfl)
      (valueBelow_inside (by omega) rfl), if_neg (by omega), decodeGroups, if_neg legal]
    simp only [write_append, bind, Except.bind]
    rw [writeBelow_room z1 _ (by simp) (by omega)]
    simp only
    rw [writeBelow_room z2 _ (by simp) (by omega)]
    simp only
    have next := @ih (before ++ [c0, c1, c2, c3])
      (done ++ [byte0 (b64Value c0) (b64Value c1)] ++ [byte1 (b64Value c1) (b64Value c2)] ++
        [byte2 (b64Value c2) (b64Value c3)]) room
      (by simp only [List.length_append, List.length_cons, List.length_nil]; omega) (by omega)
      (by omega) (by simp only [List.length_append, List.length_cons, List.length_nil]; omega)
    simpa [Option.map_map, Function.comp_def] using next

theorem stripPadding_split (input : List UInt8) :
    ∃ pads, input = stripPadding input ++ pads ∧ ∀ c ∈ pads, c = 0x3D := by
  have split := List.takeWhile_append_dropWhile (p := (· == (0x3D : UInt8))) (l := input.reverse)
  have turned := congrArg List.reverse split
  rw [List.reverse_append, List.reverse_reverse] at turned
  refine ⟨_, turned.symm, ?_⟩
  intro c member
  simpa using List.mem_takeWhile_imp (List.mem_reverse.mp member)

/-- On its buffers the function does what it does on lists, and stays inside them. -/
theorem b64UrlDecodeBuffers_eq (input : List UInt8) :
    b64UrlDecodeBuffers input = settled (b64UrlDecode input) := by
  have clean := cleanLength_ok input input.length (Nat.le_refl _)
  rw [List.take_length] at clean
  rw [b64UrlDecodeBuffers, clean, b64UrlDecode]
  simp only [bind, Except.bind]
  by_cases over_one : (stripPadding input).length % 4 = 1
  · rw [if_pos over_one, if_pos over_one]
    rfl
  · rw [if_neg over_one, if_neg over_one]
    obtain ⟨pads, split, _⟩ := stripPadding_split input
    have loop := @decodeLoop_groups [] (stripPadding input) pads []
      (List.replicate ((stripPadding input).length * 3 / 4) 0) _ _ (Nat.zero_add _).symm over_one
      List.length_replicate rfl
    rw [List.nil_append, ← split, List.length_replicate] at loop
    simpa using loop

end Refinement

section Exactness

/-- Characters of the alphabet, not 1 over a multiple of 4, and then any padding. -/
def WellFormed (s : List UInt8) : Prop :=
  ∃ data m, s = data ++ List.replicate m 0x3D ∧ (∀ c ∈ data, Base64.UrlChar c) ∧
    data.length % 4 ≠ 1

/-- What is expected of the decoder on one input. -/
structure DecodesExactly (s : List UInt8) : Prop where
  inBounds : b64UrlDecodeBuffers s ≠ .error .outOfBounds
  inverts : ∀ x, s = Base64.encode Base64.urlAlphabet x ∨
    s = Base64.pad (Base64.encode Base64.urlAlphabet x) → b64UrlDecodeBuffers s = .ok x
  refuses : ¬ WellFormed s → b64UrlDecodeBuffers s = .error .invalidToken

/-- Something else than an inner `=` is wrong with the text. -/
def OtherwiseIllegal (s : List UInt8) : Prop :=
  (stripPadding s).length % 4 = 1 ∨ ∃ c ∈ stripPadding s, ¬ Base64.UrlChar c ∧ c ≠ 0x3D

theorem b64Value_small {c : UInt8} : b64Value c ≤ 63 ↔ Base64.UrlChar c ∨ c = 0x3D := by
  have table : ∀ c : UInt8, b64Value c ≤ 63 ↔ Base64.UrlChar c ∨ c = 0x3D :=
    forall_byte (by decide +kernel)
  exact table c

theorem urlChar_ne_pad {c : UInt8} (char : Base64.UrlChar c) : c ≠ 0x3D := by
  rintro rfl
  revert char
  decide

theorem urlChar_alphabet : ∀ v < 64, Base64.UrlChar (Base64.urlAlphabet v) := by decide

theorem b64Value_alphabet {v : Nat} (small : v < 64) : b64Value (Base64.urlAlphabet v) = v := by
  have table : ∀ v : Fin 64, b64Value (Base64.urlAlphabet v) = v.val := by decide
  exact table ⟨v, small⟩

theorem wellFormed_iff {s : List UInt8} : WellFormed s ↔
    (∀ c ∈ stripPadding s, Base64.UrlChar c) ∧ (stripPadding s).length % 4 ≠ 1 := by
  constructor
  · rintro ⟨data, m, rfl, chars, size⟩
    rw [stripPadding_append, stripPadding_plain fun c member => urlChar_ne_pad (chars c member)]
    exact ⟨chars, size⟩
  · rintro ⟨chars, size⟩
    obtain ⟨pads, split, all⟩ := stripPadding_split s
    refine ⟨stripPadding s, pads.length, ?_, chars, size⟩
    rw [← List.eq_replicate_of_mem all, ← split]

theorem decodeGroups_of_small {s : List UInt8} (size : s.length % 4 ≠ 1)
    (small : ∀ c ∈ s, b64Value c ≤ 63) : ∃ out, decodeGroups s = some out := by
  induction s using decodeGroups.induct with
  | case1 => exact ⟨[], rfl⟩
  | case2 c => exact absurd rfl size
  | case3 c0 c1 illegal =>
    have := small c0 (by simp)
    have := small c1 (by simp)
    omega
  | case4 c0 c1 legal => exact ⟨_, if_neg legal⟩
  | case5 c0 c1 c2 illegal =>
    have := small c0 (by simp)
    have := small c1 (by simp)
    have := small c2 (by simp)
    omega
  | case6 c0 c1 c2 legal => exact ⟨_, if_neg legal⟩
  | case7 c0 c1 c2 c3 rest illegal =>
    have := small c0 (by simp)
    have := small c1 (by simp)
    have := small c2 (by simp)
    have := small c3 (by simp)
    omega
  | case8 c0 c1 c2 c3 rest legal ih =>
    simp only [List.length_cons] at size
    obtain ⟨out, decoded⟩ := ih (by omega) fun c member => small c (by simp [member])
    exact ⟨_, by rw [decodeGroups, if_neg legal, decoded]; rfl⟩

/-- It refuses exactly what is illegal for another reason than an inner `=`. -/
theorem refused_iff (s : List UInt8) :
    b64UrlDecodeBuffers s = .error .invalidToken ↔ OtherwiseIllegal s := by
  rw [b64UrlDecodeBuffers_eq]
  cases decoded : b64UrlDecode s with
  | some out =>
    obtain ⟨size, small⟩ := decodeGroups_small (b64UrlDecode_ok.mp decoded)
    simp only [settled, reduceCtorEq, false_iff]
    rintro (over_one | ⟨c, member, stray, char⟩)
    · exact size over_one
    · exact (b64Value_small.mp (small c member)).elim stray char
  | none =>
    simp only [settled, true_iff]
    by_contra legal
    have size : (stripPadding s).length % 4 ≠ 1 := fun over_one => legal (Or.inl over_one)
    have small : ∀ c ∈ stripPadding s, b64Value c ≤ 63 := by
      intro c member
      rw [b64Value_small]
      by_contra stray
      rw [not_or] at stray
      exact legal (Or.inr ⟨c, member, stray⟩)
    obtain ⟨out, groups⟩ := decodeGroups_of_small size small
    rw [b64UrlDecode_ok.mpr groups] at decoded
    cases decoded

theorem decodeGroups_encode (x : List UInt8) :
    decodeGroups (Base64.encode Base64.urlAlphabet x) = some x := by
  have value {v : Nat} (small : v < 64) := b64Value_alphabet small
  induction x using Base64.encode.induct with
  | case1 => rfl
  | case2 a =>
    have first := Base64.firstValue_lt a
    have second := Base64.secondValue_lt a 0
    rw [Base64.encode, decodeGroups, value first, value second, if_neg (by omega)]
    exact congrArg (fun a => some [a]) (Base64.firstByte_values a 0)
  | case3 a b =>
    have first := Base64.firstValue_lt a
    have second := Base64.secondValue_lt a b
    have third := Base64.thirdValue_lt b 0
    rw [Base64.encode, decodeGroups, value first, value second, value third, if_neg (by omega)]
    exact congrArg₂ (fun a b => some [a, b]) (Base64.firstByte_values a b)
      (Base64.secondByte_values a b 0)
  | case4 a b c rest ih =>
    have first := Base64.firstValue_lt a
    have second := Base64.secondValue_lt a b
    have third := Base64.thirdValue_lt b c
    have fourth := Base64.fourthValue_lt c
    rw [Base64.encode, decodeGroups, value first, value second, value third, value fourth,
      if_neg (by omega), ih]
    have one : byte0 (Base64.firstValue a) (Base64.secondValue a b) = a := Base64.firstByte_values a b
    have two : byte1 (Base64.secondValue a b) (Base64.thirdValue b c) = b :=
      Base64.secondByte_values a b c
    have three : byte2 (Base64.thirdValue b c) (Base64.fourthValue c) = c :=
      Base64.thirdByte_values b c
    rw [one, two, three]
    rfl

theorem b64UrlDecode_encode (x : List UInt8) (m : Nat) :
    b64UrlDecode (Base64.encode Base64.urlAlphabet x ++ List.replicate m 0x3D) = some x := by
  have plain := Base64.encode_all urlChar_alphabet x
  rw [b64UrlDecode_ok, stripPadding_append,
    stripPadding_plain fun c member => urlChar_ne_pad (plain c member), decodeGroups_encode]

/-- The decoder is exact on a text exactly when no `=` stands before its trailing padding, or the
    text is refused for another reason: `_b64Value` reads an inner `=` as an `A`. -/
theorem decodes_exactly_iff (s : List UInt8) :
    DecodesExactly s ↔ (0x3D ∈ stripPadding s → OtherwiseIllegal s) := by
  constructor
  · intro exact_at inner
    rw [← refused_iff]
    apply exact_at.refuses
    intro wellFormed
    exact urlChar_ne_pad ((wellFormed_iff.mp wellFormed).1 _ inner) rfl
  · intro inner
    constructor
    · rw [b64UrlDecodeBuffers_eq]
      cases b64UrlDecode s <;> simp [settled]
    · intro x encoded
      have unpadded := b64UrlDecode_encode x 0
      rw [List.replicate_zero, List.append_nil] at unpadded
      rw [b64UrlDecodeBuffers_eq]
      rcases encoded with rfl | rfl
      · rw [unpadded]
        rfl
      · rw [Base64.pad, b64UrlDecode_encode]
        rfl
    · intro malformed
      rw [refused_iff]
      by_contra legal
      apply malformed
      rw [wellFormed_iff]
      constructor
      · intro c member
        by_contra stray
        by_cases padding : c = 0x3D
        · exact legal (inner (padding ▸ member))
        · exact legal (Or.inr ⟨c, member, stray, padding⟩)
      · exact fun over_one => legal (Or.inl over_one)

/-- `YW=j` is read as `YWAj`. -/
theorem inner_padding_decodes :
    jwtPayload (utf8 "e30.YW=j.c2ln") = some [0x61, 0x60, 0x23] ∧
      b64UrlDecodeBuffers (utf8 "YW=j") = .ok [0x61, 0x60, 0x23] ∧ ¬ DecodesExactly (utf8 "YW=j") := by
  have decoded : b64UrlDecodeBuffers (utf8 "YW=j") = .ok [0x61, 0x60, 0x23] := by
    rw [b64UrlDecodeBuffers_eq]
    decide
  refine ⟨by decide, decoded, ?_⟩
  intro exact_at
  have illegal : ¬ WellFormed (utf8 "YW=j") := by
    rw [wellFormed_iff]
    decide
  cases decoded.symm.trans (exact_at.refuses illegal)

end Exactness

end VerifiableRag.TokenClaims
