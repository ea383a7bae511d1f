import VerifiableRag.Library.Json
import VerifiableRag.Library.Results

/-!
The scanner takes text at every call, so its fuel does not run out.
-/
namespace Json
open Bytes Results

section Progress

theorem consItem_cons {item : Option Item} {x : Except LoadError (Literal × Text)} {lit : Literal}
    {rest : Text} (ok : consItem item x = .ok (lit, rest)) :
    ∃ i tail, item = some i ∧ x = .ok (tail, rest) ∧ lit = i :: tail := by
  cases item with
  | none => cases ok
  | some i =>
    cases x with
    | error e => cases ok
    | ok pair =>
      cases ok
      exact ⟨i, pair.1, rfl, rfl, rfl⟩

theorem scanString_shorter {s rest : Text} {lit : Literal} (ok : scanString s = .ok (lit, rest)) :
    rest.length < s.length := by
  fun_induction scanString s generalizing lit with
  | case1 => cases ok
  | case2 =>
    cases ok
    simp
  | case3 => cases ok
  | case4 _ _ _ _ _ _ ih =>
    obtain ⟨_, _, _, scanned, _⟩ := consItem_cons ok
    have := ih scanned
    simp only [List.length_cons]
    omega
  | case5 => cases ok
  | case6 _ _ _ _ ih =>
    obtain ⟨_, _, _, scanned, _⟩ := consItem_cons ok
    have := ih scanned
    simp only [List.length_cons]
    omega
  | case7 _ _ _ _ ih =>
    obtain ⟨_, _, _, scanned, _⟩ := consItem_cons ok
    have := ih scanned
    simp only [List.length_cons]
    omega

theorem skip_le (s : Text) : (skip s).length ≤ s.length := (List.dropWhile_suffix isSpace).length_le

theorem scanSign_le (signs s : Text) : (scanSign signs s).2.length ≤ s.length := by
  cases s with
  | nil => exact Nat.le_refl 0
  | cons c s =>
    rw [scanSign]
    split
    · exact Nat.le_succ s.length
    · exact Nat.le_refl _

theorem scanWhole_shorter {s a r : Text} (ok : scanWhole s = some (a, r)) : r.length < s.length := by
  unfold scanWhole at ok
  split at ok
  · rename_i c rest
    have digits := (List.dropWhile_suffix (l := rest) isDigit).length_le
    split at ok
    · cases ok
      exact Nat.lt_succ_self _
    · split at ok
      · cases ok
        exact Nat.lt_succ_of_le digits
      · cases ok
  · cases ok

theorem scanFraction_le (s : Text) : (scanFraction s).2.length ≤ s.length := by
  unfold scanFraction
  split
  · rename_i c d rest
    have digits := (List.dropWhile_suffix (l := rest) isDigit).length_le
    split
    · exact Nat.le_succ_of_le (Nat.le_succ_of_le digits)
    · exact Nat.le_refl _
  · exact Nat.le_refl _

theorem scanExponent_le (s : Text) : (scanExponent s).2.length ≤ s.length := by
  unfold scanExponent
  split
  · rename_i c rest
    have sign := scanSign_le [0x2B, 0x2D] rest
    have digits := (List.dropWhile_suffix (l := (scanSign [0x2B, 0x2D] rest).2) isDigit).length_le
    dsimp only
    split
    · exact Nat.le_succ_of_le (digits.trans sign)
    · exact Nat.le_refl _
  · exact Nat.le_refl _

theorem scanNumber_shorter {s r : Text} {n : NumberText} (ok : scanNumber s = some (n, r)) :
    r.length < s.length := by
  simp only [scanNumber, Option.bind_eq_bind, Option.bind_eq_some_iff, Option.pure_def,
    Option.some.injEq, Prod.mk.injEq] at ok
  obtain ⟨⟨whole, s'⟩, found, _, rfl⟩ := ok
  calc (scanExponent (scanFraction s').2).2.length
      ≤ (scanFraction s').2.length := scanExponent_le _
    _ ≤ s'.length := scanFraction_le s'
    _ < (scanSign [0x2D] s).2.length := scanWhole_shorter found
    _ ≤ s.length := scanSign_le _ s

theorem scanConstant_shorter {s r : Text} {c : Constant} (ok : scanConstant s = some (c, r)) :
    r.length < s.length := by
  obtain ⟨c', _, found⟩ := List.exists_of_findSome?_eq_some ok
  split at found
  · rename_i here
    cases found
    obtain ⟨rest, rfl⟩ := List.isPrefixOf_iff_prefix.mp here
    have some : 0 < c.source.length := by cases c <;> decide
    simp only [List.drop_left, List.length_append]
    omega
  · cases found

theorem scanScalar_shorter {s rest : Text} {v : Value} (ok : scanScalar s = .ok (v, rest)) :
    rest.length < s.length := by
  unfold scanScalar at ok
  split at ok
  · rename_i found
    cases ok
    exact scanConstant_shorter found
  · split at ok
    · rename_i n rest' found
      cases converted : convert n with
      | error e =>
        rw [converted] at ok
        cases ok
      | ok value =>
        rw [converted] at ok
        cases ok
        exact scanNumber_shorter found
    · cases ok

/-- Every successful call takes at least one character. -/
structure Shrinks (fuel : Nat) : Prop where
  value : ∀ {depth s v rest}, scanValue fuel depth s = .ok (v, rest) → rest.length < s.length
  members : ∀ {depth s ms rest}, scanMembers fuel depth s = .ok (ms, rest) → rest.length < s.length
  items : ∀ {depth s vs rest}, scanItems fuel depth s = .ok (vs, rest) → rest.length < s.length

theorem scan_shrinks (fuel : Nat) : Shrinks fuel := by
  induction fuel with
  | zero => exact ⟨nofun, nofun, nofun⟩
  | succ fuel ih =>
    constructor
    · intro depth s v rest ok
      rw [scanValue.eq_def] at ok
      dsimp only at ok
      split at ok
      · simp only [except_bind_ok] at ok
        obtain ⟨⟨lit, rest'⟩, scanned, same⟩ := ok
        cases same
        exact Nat.lt_succ_of_lt (scanString_shorter scanned)
      · rename_i inner
        split at ok
        · cases ok
        · have space := skip_le inner
          split at ok
          · rename_i close
            cases ok
            rw [close] at space
            simp only [List.length_cons] at space ⊢
            omega
          · simp only [except_bind_ok] at ok
            obtain ⟨⟨ms, rest'⟩, scanned, same⟩ := ok
            cases same
            have := ih.members scanned
            simp only [List.length_cons]
            omega
      · rename_i inner
        split at ok
        · cases ok
        · have space := skip_le inner
          split at ok
          · rename_i close
            cases ok
            rw [close] at space
            simp only [List.length_cons] at space ⊢
            omega
          · simp only [except_bind_ok] at ok
            obtain ⟨⟨vs, rest'⟩, scanned, same⟩ := ok
            cases same
            have := ih.items scanned
            simp only [List.length_cons]
            omega
      · exact scanScalar_shorter ok
    · intro depth s ms rest ok
      rw [scanMembers.eq_def] at ok
      dsimp only at ok
      split at ok
      · simp only [except_bind_ok] at ok
        obtain ⟨⟨name, after_name⟩, scanned, ok⟩ := ok
        have name_taken := scanString_shorter scanned
        have name_space := skip_le after_name
        split at ok
        · rename_i inner colon
          simp only [except_bind_ok] at ok
          obtain ⟨⟨v, after_value⟩, scanned, ok⟩ := ok
          have value_taken := ih.value scanned
          have colon_space := skip_le inner
          have value_space := skip_le after_value
          rw [colon, List.length_cons] at name_space
          rw [List.length_cons]
          split at ok
          · rename_i close
            cases ok
            rw [close, List.length_cons] at value_space
            omega
          · rename_i next comma
            simp only [except_bind_ok] at ok
            obtain ⟨⟨ms', rest'⟩, scanned, same⟩ := ok
            cases same
            have members_taken := ih.members scanned
            dsimp only
            have comma_space := skip_le next
            rw [comma, List.length_cons] at value_space
            omega
          · cases ok
        · cases ok
      · cases ok
    · intro depth s vs rest ok
      rw [scanItems.eq_def] at ok
      simp only [except_bind_ok] at ok
      obtain ⟨⟨v, after_value⟩, scanned, ok⟩ := ok
      have value_taken := ih.value scanned
      have value_space := skip_le after_value
      split at ok
      · rename_i close
        cases ok
        rw [close, List.length_cons] at value_space
        omega
      · rename_i next comma
        simp only [except_bind_ok] at ok
        obtain ⟨⟨vs', rest'⟩, scanned, same⟩ := ok
        cases same
        have items_taken := ih.items scanned
        dsimp only
        have comma_space := skip_le next
        rw [comma, List.length_cons] at value_space
        omega
      · cases ok

end Progress

section Fuel

/-- With more fuel than the text can use, one more changes nothing. -/
structure Enough (fuel : Nat) : Prop where
  value : ∀ {depth s}, 2 * s.length + 1 ≤ fuel →
    scanValue fuel depth s = scanValue (fuel + 1) depth s
  members : ∀ {depth s}, 2 * s.length + 2 ≤ fuel →
    scanMembers fuel depth s = scanMembers (fuel + 1) depth s
  items : ∀ {depth s}, 2 * s.length + 2 ≤ fuel →
    scanItems fuel depth s = scanItems (fuel + 1) depth s

theorem scan_enough (fuel : Nat) : Enough fuel := by
  induction fuel with
  | zero => constructor <;> (intros; omega)
  | succ fuel ih =>
    constructor
    · intro depth s enough
      rw [scanValue.eq_def (fuel + 1), scanValue.eq_def (fuel + 1 + 1)]
      dsimp only
      split
      · rfl
      · rename_i inner
        split
        · rfl
        · have space := skip_le inner
          rw [List.length_cons] at enough
          split
          · rfl
          · rw [ih.members (by omega)]
      · rename_i inner
        split
        · rfl
        · have space := skip_le inner
          rw [List.length_cons] at enough
          split
          · rfl
          · rw [ih.items (by omega)]
      · rfl
    · intro depth s enough
      rw [scanMembers.eq_def (fuel + 1), scanMembers.eq_def (fuel + 1 + 1)]
      dsimp only
      split
      · rw [List.length_cons] at enough
        apply except_bind_congr
        rintro ⟨name, after_name⟩ scanned
        have name_taken := scanString_shorter scanned
        have name_space := skip_le after_name
        dsimp only
        split
        · rename_i inner colon
          have colon_space := skip_le inner
          rw [colon, List.length_cons] at name_space
          rw [ih.value (by omega)]
          apply except_bind_congr
          rintro ⟨v, after_value⟩ scanned
          have value_taken := (scan_shrinks _).value scanned
          have value_space := skip_le after_value
          dsimp only
          split
          · rfl
          · rename_i next comma
            have comma_space := skip_le next
            rw [comma, List.length_cons] at value_space
            rw [ih.members (by omega)]
          · rfl
        · rfl
      · rfl
    · intro depth s enough
      rw [scanItems.eq_def (fuel + 1), scanItems.eq_def (fuel + 1 + 1)]
      dsimp only
      rw [ih.value (by omega)]
      apply except_bind_congr
      rintro ⟨v, after_value⟩ scanned
      have value_taken := (scan_shrinks _).value scanned
      have value_space := skip_le after_value
      dsimp only
      split
      · rfl
      · rename_i next comma
        have comma_space := skip_le next
        rw [comma, List.length_cons] at value_space
        rw [ih.items (by omega)]
      · rfl

/-- The fuel of `decodeJson` does not run out: any more gives the same result. -/
theorem scanValue_fuel {depth fuel : Nat} {s : Text} (enough : 2 * s.length + 1 ≤ fuel) :
    scanValue fuel depth s = scanValue (2 * s.length + 1) depth s := by
  induction fuel, enough using Nat.le_induction with
  | base => rfl
  | succ fuel enough ih => rw [← (scan_enough fuel).value enough, ih]

end Fuel

end Json
