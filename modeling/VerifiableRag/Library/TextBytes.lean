import VerifiableRag.Library.CodePoints
import VerifiableRag.Library.Unicode

/-!
A text of code points and its generalized UTF-8: the bytes are well formed, count as many
characters, and have a UTF-8 form just when no code point is a surrogate.
-/
namespace CodePoints
open Unicode

def toUtf8 (s : Str) : List UInt8 := s.flatMap fun c : CodePoint => encode c.val

def isSurrogate (c : CodePoint) : Bool := 0xD800 ≤ c.val ∧ c.val < 0xE000

/-- No code point is a surrogate. -/
def Scalars (s : Str) : Prop := ∀ c ∈ s, isSurrogate c = false

instance (s : Str) : Decidable (Scalars s) := inferInstanceAs (Decidable (∀ c ∈ s, _))

theorem toUtf8_cons (c : CodePoint) (s : Str) : toUtf8 (c :: s) = encode c ++ toUtf8 s :=
  List.flatMap_cons

section Forms

theorem byte_val {n : Nat} (small : n < 256) : (UInt8.ofNat n).toNat = n :=
  UInt8.toNat_ofNat_of_lt' small

theorem continuation_iff {b : UInt8} : isContinuation b = true ↔ 0x80 ≤ b.toNat ∧ b.toNat ≤ 0xBF :=
  decide_eq_true_iff

/-- The form of a code point: its bytes, and which of them say that it is a surrogate. -/
inductive Form (c : CodePoint) : List UInt8 → Prop where
  | one {b : UInt8} (low : b.toNat < 0x80) (plain : isSurrogate c = false)
      (same : b.toNat = c.val) : Form c [b]
  | two {b0 b1 : UInt8} (first : 0xC2 ≤ b0.toNat ∧ b0.toNat ≤ 0xDF)
      (second : isContinuation b1 = true) (plain : isSurrogate c = false) : Form c [b0, b1]
  | three {b0 b1 b2 : UInt8} (first : 0xE0 ≤ b0.toNat ∧ b0.toNat ≤ 0xEF)
      (least : b0.toNat = 0xE0 → 0xA0 ≤ b1.toNat) (second : isContinuation b1 = true)
      (third : isContinuation b2 = true)
      (surrogate : isSurrogate c = true ↔ b0.toNat = 0xED ∧ 0xA0 ≤ b1.toNat) : Form c [b0, b1, b2]
  | four {b0 b1 b2 b3 : UInt8} (first : 0xF0 ≤ b0.toNat ∧ b0.toNat ≤ 0xF4)
      (least : b0.toNat = 0xF0 → 0x90 ≤ b1.toNat) (most : b0.toNat = 0xF4 → b1.toNat ≤ 0x8F)
      (second : isContinuation b1 = true) (third : isContinuation b2 = true)
      (fourth : isContinuation b3 = true) (plain : isSurrogate c = false) : Form c [b0, b1, b2, b3]

theorem encode_form (c : CodePoint) : Form c (encode c) := by
  have bound := c.isLt
  have plain : c.val < 0xD800 ∨ 0xE000 ≤ c.val → isSurrogate c = false := by
    intro outside
    rw [isSurrogate, decide_eq_false_iff_not]
    omega
  have cont : ∀ n, n < 64 → isContinuation (UInt8.ofNat (0x80 + n)) = true := by
    intro n small
    rw [continuation_iff, byte_val (by omega)]
    omega
  unfold encode
  split
  · rename_i low
    have val := byte_val (show c.val < 256 by omega)
    exact .one (by omega) (plain (by omega)) val
  split
  · refine .two ?_ (cont _ (by omega)) (plain (by omega))
    rw [byte_val (by omega)]
    omega
  split
  · have first := byte_val (show 0xE0 + c.val / 4096 < 256 by omega)
    have second := byte_val (show 0x80 + c.val / 64 % 64 < 256 by omega)
    refine .three (by omega) (by omega) (cont _ (by omega)) (cont _ (by omega)) ?_
    rw [isSurrogate, decide_eq_true_iff]
    omega
  · have first := byte_val (show 0xF0 + c.val / 262144 < 256 by omega)
    have second := byte_val (show 0x80 + c.val / 4096 % 64 < 256 by omega)
    exact .four (by omega) (by omega) (by omega) (cont _ (by omega)) (cont _ (by omega))
      (cont _ (by omega)) (plain (by omega))

/-- Comparisons of bytes, in numbers. -/
theorem byte_le {b : UInt8} {n : Nat} (small : n < 256) : UInt8.ofNat n ≤ b ↔ n ≤ b.toNat := by
  rw [UInt8.le_iff_toNat_le, byte_val small]

theorem byte_ge {b : UInt8} {n : Nat} (small : n < 256) : b ≤ UInt8.ofNat n ↔ b.toNat ≤ n := by
  rw [UInt8.le_iff_toNat_le, byte_val small]

theorem byte_lt {b : UInt8} {n : Nat} (small : n < 256) : b < UInt8.ofNat n ↔ b.toNat < n := by
  rw [UInt8.lt_iff_toNat_lt, byte_val small]

theorem byte_eq {b : UInt8} {n : Nat} (small : n < 256) : b = UInt8.ofNat n ↔ b.toNat = n := by
  rw [← UInt8.toNat_inj, byte_val small]

theorem wellFormed_encode (c : CodePoint) (rest : List UInt8) :
    wellFormed (encode c.val ++ rest) = wellFormed rest := by
  have form := encode_form c
  generalize encode c.val = bytes at form
  have high : ∀ {b : UInt8}, 0xC2 ≤ b.toNat → ¬ b < 0x80 := by
    intro b above below
    have := (byte_lt (n := 0x80) (by decide)).mp below
    omega
  have two_out : ∀ {b : UInt8}, 0xE0 ≤ b.toNat → ¬ (0xC2 ≤ b ∧ b ≤ 0xDF) := by
    intro b above range
    have := (byte_ge (n := 0xDF) (by decide)).mp range.2
    omega
  have three_out : ∀ {b : UInt8}, 0xF0 ≤ b.toNat → ¬ (0xE0 ≤ b ∧ b ≤ 0xEF) := by
    intro b above range
    have := (byte_ge (n := 0xEF) (by decide)).mp range.2
    omega
  cases form with
  | one low _ _ =>
    conv_lhs => unfold wellFormed
    exact if_pos ((byte_lt (by decide)).mpr low)
  | two first second _ =>
    conv_lhs => unfold wellFormed
    refine (if_neg (high first.1)).trans ((if_pos ?_).trans ?_)
    · exact ⟨(byte_le (by decide)).mpr first.1, (byte_ge (by decide)).mpr first.2⟩
    · simp [second]
  | @three b0 b1 b2 first least second third _ =>
    conv_lhs => unfold wellFormed
    refine (if_neg (high (by omega))).trans ((if_neg (two_out first.1)).trans ((if_pos ?_).trans ?_))
    · exact ⟨(byte_le (by decide)).mpr first.1, (byte_ge (by decide)).mpr first.2⟩
    · have overlong : b0 = 0xE0 → 0xA0 ≤ b1 := by
        intro same
        exact (byte_le (by decide)).mpr (least ((byte_eq (by decide)).mp same))
      change (decide (b0 = 0xE0 → 0xA0 ≤ b1) && isContinuation b1 && isContinuation b2 &&
        wellFormed rest) = _
      rw [decide_eq_true overlong, second, third, Bool.true_and, Bool.true_and, Bool.true_and]
  | @four b0 b1 b2 b3 first least most second third fourth _ =>
    conv_lhs => unfold wellFormed
    refine (if_neg (high (by omega))).trans ((if_neg (two_out (by omega))).trans
      ((if_neg (three_out first.1)).trans ((if_pos ?_).trans ?_)))
    · exact ⟨(byte_le (by decide)).mpr first.1, (byte_ge (by decide)).mpr first.2⟩
    · have overlong : b0 = 0xF0 → 0x90 ≤ b1 := by
        intro same
        exact (byte_le (by decide)).mpr (least ((byte_eq (by decide)).mp same))
      have within : b0 = 0xF4 → b1 ≤ 0x8F := by
        intro same
        exact (byte_ge (by decide)).mpr (most ((byte_eq (by decide)).mp same))
      change (decide (b0 = 0xF0 → 0x90 ≤ b1) && decide (b0 = 0xF4 → b1 ≤ 0x8F) &&
        isContinuation b1 && isContinuation b2 && isContinuation b3 && wellFormed rest) = _
      rw [decide_eq_true overlong, decide_eq_true within, second, third, fourth]
      simp only [Bool.true_and]

end Forms

section Texts

theorem wellFormed_toUtf8 (s : Str) : wellFormed (toUtf8 s) = true := by
  induction s with
  | nil => rfl
  | cons c s ih => rw [toUtf8_cons, wellFormed_encode, ih]

theorem encode_ne_nil (c : CodePoint) : encode c.val ≠ [] := by
  have form := encode_form c
  intro empty
  rw [empty] at form
  cases form

theorem encode_size (c : CodePoint) : 1 ≤ (encode c.val).length ∧ (encode c.val).length ≤ 4 := by
  have form := encode_form c
  generalize encode c.val = bytes at form
  cases form <;> simp

theorem toUtf8_size (s : Str) : s.length ≤ (toUtf8 s).length ∧ (toUtf8 s).length ≤ 4 * s.length := by
  induction s with
  | nil => exact ⟨Nat.le_refl 0, Nat.le_refl 0⟩
  | cons c s ih =>
    have size := encode_size c
    rw [toUtf8_cons, List.length_append, List.length_cons]
    omega

/-- The first byte of a form is the only one that does not continue. -/
theorem countP_encode (c : CodePoint) : (encode c.val).countP (fun b => !isContinuation b) = 1 := by
  have start : ∀ {b : UInt8}, b.toNat < 0x80 ∨ 0xBF < b.toNat → isContinuation b = false := by
    intro b outside
    rw [Bool.eq_false_iff, ne_eq, continuation_iff]
    omega
  have form := encode_form c
  generalize encode c.val = bytes at form
  cases form with
  | one low _ _ => simp [start (Or.inl low)]
  | @two b0 b1 first second _ =>
    have head : isContinuation b0 = false := start (by omega)
    simp [head, second]
  | @three b0 b1 b2 first _ second third _ =>
    have head : isContinuation b0 = false := start (by omega)
    simp [head, second, third]
  | @four b0 b1 b2 b3 first _ _ second third fourth _ =>
    have head : isContinuation b0 = false := start (by omega)
    simp [head, second, third, fourth]

theorem countP_toUtf8 (s : Str) : (toUtf8 s).countP (fun b => !isContinuation b) = s.length := by
  induction s with
  | nil => rfl
  | cons c s ih => rw [toUtf8_cons, List.countP_append, countP_encode, ih, List.length_cons, Nat.add_comm]

/-- `len` counts the code points. -/
theorem chars_toUtf8 (s : Str) : chars (toUtf8 s) = s.length := by
  cases s with
  | nil => rfl
  | cons c s =>
    have count := countP_toUtf8 (c :: s)
    cases whole : toUtf8 (c :: s) with
    | nil =>
      rw [toUtf8_cons] at whole
      exact absurd (List.append_eq_nil_iff.mp whole).1 (encode_ne_nil c)
    | cons b rest =>
      have first : isContinuation b = false := by
        have form := encode_form c
        rw [toUtf8_cons] at whole
        generalize encode c.val = bytes at form whole
        rw [Bool.eq_false_iff, ne_eq, continuation_iff]
        cases form <;>
        · injection whole with same _
          rw [← same]
          omega
      rw [whole, List.countP_cons_of_pos (by simp [first])] at count
      exact count

/-- A surrogate is seen at the first two bytes of its form. -/
theorem encodable_encode (c : CodePoint) (s : Str) :
    encodable (encode c.val ++ toUtf8 s) = (!isSurrogate c && encodable (toUtf8 s)) := by
  have cons : ∀ (b : UInt8) (rest : List UInt8), b.toNat ≠ 0xED →
      encodable (b :: rest) = encodable rest := by
    intro b rest other
    have differs : (b == 0xED) = false := by
      rw [beq_eq_false_iff_ne]
      exact mt (byte_eq (n := 0xED) (by decide)).mp other
    cases rest with
    | nil => rfl
    | cons b' rest => simp [encodable, differs]
  have tail : ∀ {b : UInt8}, isContinuation b = true → b.toNat ≠ 0xED := by
    intro b inside
    have := continuation_iff.mp inside
    omega
  have form := encode_form c
  generalize encode c.val = bytes at form
  cases form with
  | one low plain _ =>
    rw [plain, List.singleton_append, cons _ _ (by omega)]
    rfl
  | two first second plain =>
    rw [plain, List.cons_append, List.singleton_append, cons _ _ (by omega), cons _ _ (tail second)]
    rfl
  | @three b0 b1 b2 first least second third surrogate =>
    have first_pair : encodable (b0 :: b1 :: b2 :: toUtf8 s) =
        (!(b0 == 0xED && decide (0xA0 ≤ b1)) && encodable (b1 :: b2 :: toUtf8 s)) := rfl
    have seen : (b0 == 0xED && decide (0xA0 ≤ b1)) = isSurrogate c := by
      rw [Bool.eq_iff_iff, surrogate, Bool.and_eq_true, beq_iff_eq, decide_eq_true_iff]
      exact and_congr (byte_eq (by decide)) (byte_le (by decide))
    rw [List.cons_append, List.cons_append, List.singleton_append, first_pair, seen,
      cons b1 _ (tail second), cons b2 _ (tail third)]
  | four first least most second third fourth plain =>
    rw [plain, List.cons_append, List.cons_append, List.cons_append, List.singleton_append,
      cons _ _ (by omega), cons _ _ (tail second), cons _ _ (tail third), cons _ _ (tail fourth)]
    rfl

theorem encodable_toUtf8 (s : Str) : encodable (toUtf8 s) = true ↔ Scalars s := by
  induction s with
  | nil => exact iff_of_true rfl nofun
  | cons c s ih =>
    rw [toUtf8_cons, encodable_encode, Bool.and_eq_true, ih, Scalars, Scalars, List.forall_mem_cons,
      Bool.not_eq_true']

/-- ASCII is UTF-8. -/
theorem isUtf8_ascii {s : List UInt8} (ascii : ∀ b ∈ s, b < 0x80) : isUtf8 s = true := by
  have lead : ∀ b : UInt8, b < 0x80 → b ≠ 0xED := by
    intro b low same
    rw [same] at low
    exact absurd low (by decide)
  induction s with
  | nil => rfl
  | cons b s ih =>
    rw [List.forall_mem_cons] at ascii
    have later := ih ascii.2
    rw [isUtf8, Bool.and_eq_true] at later ⊢
    refine ⟨?_, ?_⟩
    · unfold wellFormed
      rw [if_pos ascii.1]
      exact later.1
    · cases s with
      | nil => rfl
      | cons b' s =>
        have first : encodable (b :: b' :: s) =
            (!(b == 0xED && decide (0xA0 ≤ b')) && encodable (b' :: s)) := rfl
        rw [first, later.2, beq_eq_false_iff_ne.mpr (lead b ascii.1)]
        rfl

/-- An ASCII text starts another as its bytes do. -/
theorem toUtf8_prefix {word : Str} (ascii : ∀ c ∈ word, c.val < 0x80) {s : Str} :
    toUtf8 word <+: toUtf8 s ↔ word <+: s := by
  induction word generalizing s with
  | nil => exact iff_of_true List.nil_prefix List.nil_prefix
  | cons c word ih =>
    rw [List.forall_mem_cons] at ascii
    have single : encode c.val = [UInt8.ofNat c.val] := if_pos ascii.1
    have value := byte_val (show c.val < 256 by omega)
    cases s with
    | nil =>
      rw [toUtf8_cons, single]
      exact iff_of_false (by simp [toUtf8]) (by simp)
    | cons d s =>
      rw [toUtf8_cons, toUtf8_cons, single, List.singleton_append, List.cons_prefix_cons]
      by_cases same : c = d
      · rw [← same, single, List.singleton_append, List.cons_prefix_cons, ih ascii.2]
        simp
      · rw [iff_false_right (fun h => same h.1)]
        have form := encode_form d
        generalize encode d.val = bytes at form
        cases form with
        | one _ _ here =>
          rw [List.singleton_append, List.cons_prefix_cons]
          rintro ⟨equal, _⟩
          rw [← equal, value] at here
          exact same (Fin.ext here)
        | two first _ _ | three first _ _ _ _ | four first _ _ _ _ _ _ =>
          rw [List.cons_append, List.cons_prefix_cons]
          rintro ⟨equal, _⟩
          rw [← equal, value] at first
          omega

end Texts

end CodePoints
