import VerifiableRag.Library.JsonProgress

/-!
Strings of a JSON text: a literal is read to the character, what it denotes is no longer
than the text, and the nesting limit does not change what is read.
-/
namespace Json
open Bytes Results

section Surrogates

mutual

/-- No string of a value has a surrogate, overwritten members included. -/
def Value.encodable : Value → Bool
  | .str s => Unicode.encodable s
  | .arr items => itemsEncodable items
  | .obj members => membersEncodable members
  | _ => true

def itemsEncodable : List Value → Bool
  | [] => true
  | v :: rest => v.encodable && itemsEncodable rest

def membersEncodable : List (Text × Value) → Bool
  | [] => true
  | (name, v) :: rest => Unicode.encodable name && (v.encodable && membersEncodable rest)

end

theorem lookup_encodable {members : List (Text × Value)} {name : Text} {v : Value}
    (clean : membersEncodable members) (found : lookup members name = some v) : v.encodable := by
  induction members with
  | nil => cases found
  | cons m rest ih =>
    obtain ⟨key, value⟩ := m
    rw [membersEncodable, Bool.and_eq_true, Bool.and_eq_true] at clean
    obtain ⟨_, here, later⟩ := clean
    rw [lookup] at found
    split at found
    · rename_i w last
      cases found
      exact ih later last
    · split at found
      · cases found
        exact here
      · cases found

end Surrogates

section Literals

theorem Item.plain?_text {b : UInt8} {item : Item} (read : plain? b = some item) :
    item.text = [b] := by
  unfold plain? at read
  split at read
  · cases read
    rfl
  · cases read

theorem Item.escape?_text {c : UInt8} {item : Item} (read : escape? c = some item) :
    item.text = [0x5C, c] := by
  unfold escape? at read
  split at read
  · cases read
    rfl
  · cases read

theorem hex?_char_of {c : UInt8} {h : Hex} (read : hex? c = some h) : h.char = c := by
  unfold hex? at read
  split at read
  · cases read
    rfl
  · cases read

theorem Item.unicode?_text {a b c d : UInt8} {item : Item} (read : unicode? a b c d = some item) :
    item.text = [0x5C, 0x75, a, b, c, d] := by
  unfold unicode? at read
  split at read
  · rename_i first second third fourth
    cases read
    rw [Item.text, hex?_char_of first, hex?_char_of second, hex?_char_of third,
      hex?_char_of fourth]
  · cases read

theorem scanString_exact {s rest : Text} {lit : Literal} (ok : scanString s = .ok (lit, rest)) :
    s = lit.source ++ 0x22 :: rest := by
  fun_induction scanString s generalizing lit with
  | case1 => cases ok
  | case2 =>
    cases ok
    simp_all [Literal.source]
  | case3 => cases ok
  | case4 _ _ _ _ _ _ ih =>
    obtain ⟨i, tail, read, scanned, rfl⟩ := consItem_cons ok
    rw [Literal.source, List.flatMap_cons, Item.unicode?_text read, ih scanned]
    simp_all [Literal.source]
  | case5 => cases ok
  | case6 _ _ _ _ ih =>
    obtain ⟨i, tail, read, scanned, rfl⟩ := consItem_cons ok
    rw [Literal.source, List.flatMap_cons, Item.escape?_text read, ih scanned]
    simp_all [Literal.source]
  | case7 _ _ _ _ ih =>
    obtain ⟨i, tail, read, scanned, rfl⟩ := consItem_cons ok
    rw [Literal.source, List.flatMap_cons, Item.plain?_text read, ih scanned]
    simp_all [Literal.source]

theorem encode_length_le (c : Nat) : (Unicode.encode c).length ≤ 4 := by
  unfold Unicode.encode
  split
  · simp
  split
  · simp
  split <;> simp

/-- An escape is longer than what it stands for. -/
theorem Literal.value_length_le (lit : Literal) : lit.value.length ≤ lit.source.length := by
  fun_induction Literal.value lit with
  | case1 => exact Nat.le_refl 0
  | case2 b _ rest ih =>
    simp only [Literal.source, List.flatMap_cons, Item.text, List.length_cons, List.length_append,
      List.length_nil] at ih ⊢
    omega
  | case3 c b _ rest ih =>
    simp only [Literal.source, List.flatMap_cons, Item.text, List.length_cons, List.length_append,
      List.length_nil] at ih ⊢
    omega
  | case4 a b c d a' b' c' d' rest _ ih =>
    have four := encode_length_le (Unicode.join (codeUnit a b c d) (codeUnit a' b' c' d'))
    simp only [Literal.source, List.flatMap_cons, Item.text, List.length_cons, List.length_append,
      List.length_nil] at ih ⊢
    omega
  | case5 a b c d a' b' c' d' rest _ ih =>
    have four := encode_length_le (codeUnit a b c d)
    simp only [Literal.source, List.flatMap_cons, Item.text, List.length_cons, List.length_append,
      List.length_nil] at ih ⊢
    omega
  | case6 a b c d rest _ ih =>
    have four := encode_length_le (codeUnit a b c d)
    simp only [Literal.source, List.flatMap_cons, Item.text, List.length_cons, List.length_append,
      List.length_nil] at ih ⊢
    omega

theorem scanString_fits {s rest : Text} {lit : Literal} (ok : scanString s = .ok (lit, rest)) :
    lit.value.length + rest.length < s.length := by
  have size := congrArg List.length (scanString_exact ok)
  have shorter := lit.value_length_le
  rw [List.length_append, List.length_cons] at size
  omega

end Literals

section Fits

/-- A scalar without quotes is neither a string nor an object. -/
theorem scanScalar_plain {s rest : Text} {v : Value} (ok : scanScalar s = .ok (v, rest)) :
    (∀ t, v ≠ .str t) ∧ ∀ members, v ≠ .obj members := by
  unfold scanScalar at ok
  split at ok
  · rename_i c _ _
    cases ok
    cases c <;> exact ⟨nofun, nofun⟩
  · split at ok
    · rename_i n _ _
      unfold convert at ok
      split at ok
      · cases ok
      · cases ok
        unfold NumberText.value
        split <;> exact ⟨nofun, nofun⟩
    · cases ok

theorem scanValue_str_fits {fuel depth : Nat} {s t rest : Text}
    (ok : scanValue fuel depth s = .ok (.str t, rest)) : t.length ≤ s.length := by
  cases fuel with
  | zero => cases ok
  | succ fuel =>
    rw [scanValue.eq_def] at ok
    dsimp only at ok
    split at ok
    · simp only [except_bind_ok] at ok
      obtain ⟨⟨lit, rest'⟩, scanned, same⟩ := ok
      cases same
      have fits := scanString_fits scanned
      dsimp only at fits ⊢
      rw [List.length_cons]
      omega
    · split at ok
      · cases ok
      · split at ok
        · cases ok
        · simp only [except_bind_ok] at ok
          obtain ⟨_, _, same⟩ := ok
          cases same
    · split at ok
      · cases ok
      · split at ok
        · cases ok
        · simp only [except_bind_ok] at ok
          obtain ⟨_, _, same⟩ := ok
          cases same
    · exact absurd rfl ((scanScalar_plain ok).1 t)

/-- The strings among the members of an object are no longer than its text. -/
def Fit (n : Nat) (members : List (Text × Value)) : Prop :=
  ∀ m ∈ members, ∀ t, m.2 = .str t → t.length ≤ n

theorem Fit.lookup {n : Nat} {members : List (Text × Value)} {name t : Text} (fit : Fit n members)
    (found : lookup members name = some (.str t)) : t.length ≤ n := by
  induction members with
  | nil => cases found
  | cons m rest ih =>
    obtain ⟨key, value⟩ := m
    rw [Json.lookup] at found
    split at found
    · rename_i w last
      cases found
      exact ih (fun m member => fit m (List.mem_cons_of_mem _ member)) last
    · split at found
      · cases found
        exact fit (key, .str t) List.mem_cons_self t rfl
      · cases found

theorem Fit.mono {n k : Nat} {members : List (Text × Value)} (fit : Fit n members) (le : n ≤ k) :
    Fit k members := fun m member t text => Nat.le_trans (fit m member t text) le

theorem scanMembers_fit {fuel depth : Nat} {s rest : Text} {members : List (Text × Value)}
    (ok : scanMembers fuel depth s = .ok (members, rest)) : Fit s.length members := by
  induction fuel generalizing s members rest with
  | zero => cases ok
  | succ fuel ih =>
    rw [scanMembers.eq_def] at ok
    dsimp only at ok
    split at ok
    · simp only [except_bind_ok] at ok
      obtain ⟨⟨name, after_name⟩, scanned, ok⟩ := ok
      have name_taken := scanString_shorter scanned
      have name_space := skip_le after_name
      split at ok
      · rename_i inner colon
        simp only [except_bind_ok] at ok
        obtain ⟨⟨v, after_value⟩, scanned, ok⟩ := ok
        have value_taken := (scan_shrinks fuel).value scanned
        have colon_space := skip_le inner
        have value_space := skip_le after_value
        rw [colon, List.length_cons] at name_space
        have here : ∀ t, v = .str t → t.length ≤ inner.length := by
          intro t text
          rw [text] at scanned
          exact Nat.le_trans (scanValue_str_fits scanned) colon_space
        rw [List.length_cons]
        split at ok
        · cases ok
          intro m member t text
          cases List.mem_singleton.mp member
          have := here t text
          omega
        · rename_i next comma
          simp only [except_bind_ok] at ok
          obtain ⟨⟨members', rest'⟩, scanned, same⟩ := ok
          cases same
          have comma_space := skip_le next
          rw [comma, List.length_cons] at value_space
          have tail := ih scanned
          intro m member t text
          rcases List.mem_cons.mp member with rfl | member
          · have := here t text
            omega
          · have := tail m member t text
            omega
        · cases ok
      · cases ok
    · cases ok

theorem scanValue_obj_fit {fuel depth : Nat} {s rest : Text} {members : List (Text × Value)}
    (ok : scanValue fuel depth s = .ok (.obj members, rest)) : Fit s.length members := by
  cases fuel with
  | zero => cases ok
  | succ fuel =>
    rw [scanValue.eq_def] at ok
    dsimp only at ok
    split at ok
    · simp only [except_bind_ok] at ok
      obtain ⟨_, _, same⟩ := ok
      cases same
    · rename_i inner
      split at ok
      · cases ok
      · split at ok
        · cases ok
          exact fun m member => absurd member List.not_mem_nil
        · simp only [except_bind_ok] at ok
          obtain ⟨_, scanned, same⟩ := ok
          cases same
          refine (scanMembers_fit scanned).mono ?_
          exact Nat.le_succ_of_le (skip_le inner)
    · split at ok
      · cases ok
      · split at ok
        · cases ok
        · simp only [except_bind_ok] at ok
          obtain ⟨_, _, same⟩ := ok
          cases same
    · exact absurd rfl ((scanScalar_plain ok).2 members)

theorem decodeJson_fit {depth : Nat} {s : Text} {members : List (Text × Value)}
    (ok : decodeJson depth s = .ok (.obj members)) : Fit s.length members := by
  simp only [decodeJson, except_bind_ok] at ok
  obtain ⟨⟨v, rest⟩, scanned, ok⟩ := ok
  split at ok
  · cases ok
    exact (scanValue_obj_fit scanned).mono (skip_le s)
  · cases ok

end Fits

section Depth

/-- A text that is read within a nesting limit is read alike within a larger one. -/
structure Deepens (fuel : Nat) : Prop where
  value : ∀ {depth deeper s r}, scanValue fuel depth s = .ok r → depth ≤ deeper →
    scanValue fuel deeper s = .ok r
  members : ∀ {depth deeper s r}, scanMembers fuel depth s = .ok r → depth ≤ deeper →
    scanMembers fuel deeper s = .ok r
  items : ∀ {depth deeper s r}, scanItems fuel depth s = .ok r → depth ≤ deeper →
    scanItems fuel deeper s = .ok r

theorem bind_deepens {ε α β : Type} {x y : Except ε α} {f g : α → Except ε β} {b : β}
    (ok : (x >>= f) = .ok b) (first : ∀ a, x = .ok a → y = .ok a)
    (next : ∀ a, x = .ok a → f a = .ok b → g a = .ok b) : (y >>= g) = .ok b := by
  obtain ⟨a, done, ok⟩ := except_bind_ok.mp ok
  exact except_bind_ok.mpr ⟨a, first a done, next a done ok⟩

theorem scan_deepens (fuel : Nat) : Deepens fuel := by
  induction fuel with
  | zero => exact ⟨nofun, nofun, nofun⟩
  | succ fuel ih =>
    constructor
    · intro depth deeper s r ok le
      rw [scanValue.eq_def] at ok ⊢
      dsimp only at ok ⊢
      split at ok
      · exact ok
      · cases depth with
        | zero => cases ok
        | succ depth =>
          obtain ⟨deeper, rfl⟩ := Nat.exists_eq_add_of_lt le
          dsimp only at ok ⊢
          split at ok
          · exact ok
          · exact bind_deepens ok (fun a done => ih.members done (by omega)) fun a _ ok => ok
      · cases depth with
        | zero => cases ok
        | succ depth =>
          obtain ⟨deeper, rfl⟩ := Nat.exists_eq_add_of_lt le
          dsimp only at ok ⊢
          split at ok
          · exact ok
          · exact bind_deepens ok (fun a done => ih.items done (by omega)) fun a _ ok => ok
      · exact ok
    · intro depth deeper s r ok le
      rw [scanMembers.eq_def] at ok ⊢
      dsimp only at ok ⊢
      split at ok
      · refine bind_deepens ok (fun a done => done) fun name _ ok => ?_
        split at ok
        · refine bind_deepens ok (fun a done => ih.value done le) fun value _ ok => ?_
          split at ok
          · exact ok
          · exact bind_deepens ok (fun a done => ih.members done le) fun a _ ok => ok
          · cases ok
        · cases ok
      · cases ok
    · intro depth deeper s r ok le
      rw [scanItems.eq_def] at ok ⊢
      dsimp only at ok ⊢
      refine bind_deepens ok (fun a done => ih.value done le) fun value _ ok => ?_
      split at ok
      · exact ok
      · exact bind_deepens ok (fun a done => ih.items done le) fun a _ ok => ok
      · cases ok

theorem decodeJson_deeper {depth deeper : Nat} {s : Text} {v : Value}
    (ok : decodeJson depth s = .ok v) (le : depth ≤ deeper) : decodeJson deeper s = .ok v :=
  bind_deepens ok (fun _ done => (scan_deepens _).value done le) fun _ _ ok => ok

/-- An object takes a level of nesting. -/
theorem decodeJson_flat {s : Text} {members : List (Text × Value)} :
    decodeJson 0 s ≠ .ok (.obj members) := by
  intro ok
  simp only [decodeJson, except_bind_ok] at ok
  obtain ⟨⟨v, rest⟩, scanned, ok⟩ := ok
  split at ok
  · cases ok
    rw [scanValue.eq_def] at scanned
    dsimp only at scanned
    split at scanned
    · simp only [except_bind_ok] at scanned
      obtain ⟨_, _, same⟩ := scanned
      cases same
    · cases scanned
    · cases scanned
    · exact absurd rfl ((scanScalar_plain scanned).2 members)
  · cases ok

/-- Two nesting limits never read two values. -/
theorem decodeJson_agree {depth depth' : Nat} {s : Text} {v v' : Value}
    (ok : decodeJson depth s = .ok v) (ok' : decodeJson depth' s = .ok v') : v = v' := by
  rcases Nat.le_total depth depth' with le | le
  · rw [decodeJson_deeper ok le] at ok'
    exact Except.ok.inj ok'
  · rw [decodeJson_deeper ok' le] at ok
    exact Except.ok.inj ok.symm

end Depth

end Json
