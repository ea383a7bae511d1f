import VerifiableRag.Library.CompactJson
import VerifiableRag.Library.TextBytes

/-!
The strings of Python's `json.dumps` with `ensure_ascii`: their escapes, and that they are read
back as the texts they are written for.
-/
namespace Json
open Bytes (forall_listed)
open CodePoints Unicode

section Escapes

def hexChar (d : Nat) : UInt8 := if d < 10 then UInt8.ofNat (0x30 + d) else UInt8.ofNat (0x57 + d)

/-- `\u` and four digits. -/
def escapeUnit (u : Nat) : Text :=
  [0x5C, 0x75, hexChar (u / 4096), hexChar (u / 256 % 16), hexChar (u / 16 % 16), hexChar (u % 16)]

/-- A character of `py_encode_basestring_ascii`; beyond the first plane it takes two escapes. -/
def escapeAscii (c : CodePoint) : Text :=
  if c = 0x22 then [0x5C, 0x22]
  else if c = 0x5C then [0x5C, 0x5C]
  else if c = 0x0A then [0x5C, 0x6E]
  else if c = 0x0D then [0x5C, 0x72]
  else if c = 0x09 then [0x5C, 0x74]
  else if c = 0x0C then [0x5C, 0x66]
  else if c = 0x08 then [0x5C, 0x62]
  else if 0x20 ≤ c.val ∧ c.val ≤ 0x7E then [UInt8.ofNat c.val]
  else if c.val < 0x10000 then escapeUnit c.val
  else escapeUnit (0xD800 + (c.val - 0x10000) / 0x400) ++
    escapeUnit (0xDC00 + (c.val - 0x10000) % 0x400)

def encodeBasestringAscii (s : Str) : Text := 0x22 :: (s.flatMap escapeAscii ++ [0x22])

end Escapes

section Literals

theorem hexDigit_hexChar {d : Nat} (small : d < 16) : hexDigit (hexChar d) = some d := by
  have table : ∀ d ∈ List.range 16, hexDigit (hexChar d) = some d := forall_listed (by decide)
  exact table d (List.mem_range.mpr small)

theorem escapeUnit_item {u : Nat} (small : u < 0x10000) : ∃ a b c d : Hex,
    (Item.unicode a b c d).text = escapeUnit u ∧ codeUnit a b c d = u := by
  refine ⟨⟨hexChar (u / 4096), _, hexDigit_hexChar (by omega)⟩,
    ⟨hexChar (u / 256 % 16), _, hexDigit_hexChar (by omega)⟩,
    ⟨hexChar (u / 16 % 16), _, hexDigit_hexChar (by omega)⟩,
    ⟨hexChar (u % 16), _, hexDigit_hexChar (by omega)⟩, rfl, ?_⟩
  show ((u / 4096 * 16 + u / 256 % 16) * 16 + u / 16 % 16) * 16 + u % 16 = u
  omega

theorem value_unicode {a b c d : Hex} (alone : isHigh (codeUnit a b c d) = false) (rest : Literal) :
    Literal.value (.unicode a b c d :: rest) = encode (codeUnit a b c d) ++ Literal.value rest := by
  cases rest with
  | nil => rfl
  | cons item rest =>
    cases item with
    | unicode a' b' c' d' =>
      rw [Literal.value, if_neg]
      intro pair
      rw [alone] at pair
      cases pair.1
    | plain b plain => rfl
    | escape c value known => rfl

theorem value_pair {a b c d a' b' c' d' : Hex} (high : isHigh (codeUnit a b c d) = true)
    (low : isLow (codeUnit a' b' c' d') = true) (rest : Literal) :
    Literal.value (.unicode a b c d :: .unicode a' b' c' d' :: rest) =
      encode (join (codeUnit a b c d) (codeUnit a' b' c' d')) ++ Literal.value rest := by
  rw [Literal.value, if_pos ⟨high, low⟩]

theorem join_units {n : Nat} (large : 0x10000 ≤ n) :
    join (0xD800 + (n - 0x10000) / 0x400) (0xDC00 + (n - 0x10000) % 0x400) = n := by
  unfold join
  omega

/-- The items of a literal denote a character before any rest. -/
def Denotes (items : Literal) (c : CodePoint) : Prop :=
  ∀ rest, Literal.value (items ++ rest) = encode c.val ++ Literal.value rest

theorem escape_items {c : CodePoint} {l v : UInt8} (known : escaped l = some v)
    (single : encode c.val = [v]) : ∃ items : Literal, items.source = [0x5C, l] ∧ Denotes items c := by
  refine ⟨[.escape l v known], rfl, ?_⟩
  intro rest
  rw [single]
  rfl

/-- A visible character stands for itself. -/
theorem plain_items {c : CodePoint} (visible : 0x20 ≤ c.val ∧ c.val < 0x7F) (quote : c ≠ 0x22)
    (slash : c ≠ 0x5C) : ∃ items : Literal, items.source = [UInt8.ofNat c.val] ∧ Denotes items c := by
  have value := byte_val (show c.val < 256 by omega)
  have plain : Plain (UInt8.ofNat c.val) := by
    refine ⟨(byte_le (n := 0x20) (by decide)).mpr (by omega), ?_, ?_⟩
    · intro same
      have unit := (byte_eq (n := 0x22) (by decide)).mp same
      exact quote (Fin.ext (value.symm.trans unit))
    · intro same
      have unit := (byte_eq (n := 0x5C) (by decide)).mp same
      exact slash (Fin.ext (value.symm.trans unit))
  refine ⟨[.plain _ plain], rfl, ?_⟩
  intro rest
  have single : encode c.val = [UInt8.ofNat c.val] := if_pos (by omega)
  rw [single]
  rfl

/-- One unit denotes a character below the surrogate pairs. -/
theorem unit_items {c : CodePoint} (scalar : isSurrogate c = false) (small : c.val < 0x10000) :
    ∃ items : Literal, items.source = escapeUnit c.val ∧ Denotes items c := by
  obtain ⟨a, b, d, e, text, unit⟩ := escapeUnit_item small
  refine ⟨[.unicode a b d e], ?_, ?_⟩
  · rw [← text]
    exact List.append_nil _
  · intro rest
    have alone : isHigh (codeUnit a b d e) = false := by
      rw [isSurrogate, decide_eq_false_iff_not] at scalar
      rw [unit, isHigh, decide_eq_false_iff_not]
      omega
    rw [List.singleton_append, value_unicode alone, unit]

/-- A surrogate pair denotes a character from there on. -/
theorem pair_items {c : CodePoint} (large : 0x10000 ≤ c.val) : ∃ items : Literal,
    items.source = escapeUnit (0xD800 + (c.val - 0x10000) / 0x400) ++
      escapeUnit (0xDC00 + (c.val - 0x10000) % 0x400) ∧ Denotes items c := by
  have bound := c.isLt
  have small : 0xD800 + (c.val - 0x10000) / 0x400 < 0x10000 := by omega
  have small' : 0xDC00 + (c.val - 0x10000) % 0x400 < 0x10000 := by omega
  obtain ⟨a, b, d, e, text, unit⟩ := escapeUnit_item small
  obtain ⟨a', b', d', e', text', unit'⟩ := escapeUnit_item small'
  refine ⟨[.unicode a b d e, .unicode a' b' d' e'], ?_, ?_⟩
  · rw [← text, ← text']
    rfl
  · intro rest
    have high : isHigh (codeUnit a b d e) = true := by
      rw [unit, isHigh, decide_eq_true_iff]
      omega
    have low : isLow (codeUnit a' b' d' e') = true := by
      rw [unit', isLow, decide_eq_true_iff]
      omega
    have joined : join (codeUnit a b d e) (codeUnit a' b' d' e') = c.val := by
      rw [unit, unit']
      exact join_units large
    rw [List.cons_append, List.singleton_append, value_pair high low, joined]

/-- The escapes of a character are items of a literal that denote it. -/
theorem escapeAscii_items {c : CodePoint} (scalar : isSurrogate c = false) : ∃ items : Literal,
    items.source = escapeAscii c ∧ Denotes items c := by
  unfold escapeAscii
  split
  · rename_i same
    subst same
    exact escape_items (v := 0x22) rfl rfl
  split
  · rename_i same
    subst same
    exact escape_items (v := 0x5C) rfl rfl
  split
  · rename_i same
    subst same
    exact escape_items (v := 0x0A) rfl rfl
  split
  · rename_i same
    subst same
    exact escape_items (v := 0x0D) rfl rfl
  split
  · rename_i same
    subst same
    exact escape_items (v := 0x09) rfl rfl
  split
  · rename_i same
    subst same
    exact escape_items (v := 0x0C) rfl rfl
  split
  · rename_i same
    subst same
    exact escape_items (v := 0x08) rfl rfl
  split
  · rename_i quote slash _ _ _ _ _ visible
    exact plain_items (by omega) quote slash
  split
  · rename_i small
    exact unit_items scalar small
  · rename_i large
    exact pair_items (not_lt.mp large)

/-- The text between the quotes is a literal that denotes the string. -/
theorem escapeAscii_literal {s : Str} (scalars : Scalars s) : ∃ lit : Literal,
    lit.source = s.flatMap escapeAscii ∧ lit.value = toUtf8 s := by
  induction s with
  | nil => exact ⟨[], rfl, rfl⟩
  | cons c s ih =>
    rw [Scalars, List.forall_mem_cons] at scalars
    obtain ⟨items, source, value⟩ := escapeAscii_items scalars.1
    obtain ⟨lit, source', value'⟩ := ih scalars.2
    refine ⟨items ++ lit, ?_, ?_⟩
    · rw [List.flatMap_cons, ← source, ← source']
      exact List.flatMap_append
    · rw [value, value', toUtf8_cons]

theorem hexChar_ascii {d : Nat} (small : d < 16) : hexChar d < 0x80 := by
  have table : ∀ d ∈ List.range 16, hexChar d < 0x80 := forall_listed (by decide)
  exact table d (List.mem_range.mpr small)

theorem escapeUnit_ascii {u : Nat} (small : u < 0x10000) : ∀ b ∈ escapeUnit u, b < 0x80 := by
  simp only [escapeUnit, List.forall_mem_cons]
  exact ⟨by decide, by decide, hexChar_ascii (by omega), hexChar_ascii (by omega),
    hexChar_ascii (by omega), hexChar_ascii (by omega), List.forall_mem_nil _⟩

theorem escapeAscii_ascii (c : CodePoint) : ∀ b ∈ escapeAscii c, b < 0x80 := by
  unfold escapeAscii
  iterate 7
    split
    · exact forall_listed (by decide)
  split
  · rename_i visible
    rw [List.forall_mem_singleton]
    exact (byte_lt (n := 0x80) (by decide)).mpr (by rw [byte_val (by omega)]; omega)
  split
  · rename_i small
    exact escapeUnit_ascii small
  · have bound := c.isLt
    rw [List.forall_mem_append]
    exact ⟨escapeUnit_ascii (by omega), escapeUnit_ascii (by omega)⟩

end Literals

section Objects

theorem scanValue_literal (fuel depth : Nat) (value : Literal) (rest : Text) :
    scanValue (fuel + 1) depth (0x22 :: (value.source ++ 0x22 :: rest)) =
      .ok (.str value.value, rest) := by
  rw [scanValue, scanString_source]
  rfl

theorem scanMembers_last (fuel depth : Nat) (name value : Literal) (rest : Text) :
    scanMembers (fuel + 2) depth (0x22 :: (name.source ++ 0x22 :: 0x3A :: 0x22 :: (value.source ++
        0x22 :: 0x7D :: rest))) = .ok ([(name.value, .str value.value)], rest) := by
  rw [scanMembers, scanString_source]
  simp only [bind, Except.bind, skip_cons (show isSpace 0x3A = false by decide),
    skip_cons (show isSpace 0x22 = false by decide), scanValue_literal,
    skip_cons (show isSpace 0x7D = false by decide)]
  rfl

theorem scanMembers_more (fuel depth : Nat) (name value : Literal) (tail : Text) :
    scanMembers (fuel + 2) depth (0x22 :: (name.source ++ 0x22 :: 0x3A :: 0x22 :: (value.source ++
        0x22 :: 0x2C :: 0x22 :: tail))) =
      (scanMembers (fuel + 1) depth (0x22 :: tail)).bind fun (members, rest) =>
        .ok ((name.value, .str value.value) :: members, rest) := by
  rw [scanMembers, scanString_source]
  simp only [bind, Except.bind, skip_cons (show isSpace 0x3A = false by decide),
    skip_cons (show isSpace 0x22 = false by decide), scanValue_literal,
    skip_cons (show isSpace 0x2C = false by decide)]
  rfl

theorem scanValue_opened {s rest : Text} (fuel depth : Nat) (opened : skip s = 0x22 :: rest) :
    scanValue (fuel + 1) (depth + 1) (0x7B :: s) =
      (scanMembers fuel depth (0x22 :: rest)).bind fun (members, rest) => .ok (.obj members, rest) := by
  rw [scanValue]
  simp only [opened]
  rfl

/-- A flat object of two string members is read within any limit. -/
theorem decodeJson_pair (name value name' value' : Literal) (depth : Nat) :
    decodeJson (depth + 1) (0x7B :: 0x22 :: (name.source ++ 0x22 :: 0x3A :: 0x22 :: (value.source ++
        0x22 :: 0x2C :: 0x22 :: (name'.source ++ 0x22 :: 0x3A :: 0x22 :: (value'.source ++
          [0x22, 0x7D]))))) =
      .ok (.obj [(name.value, .str value.value), (name'.value, .str value'.value)]) := by
  rw [decodeJson, skip_cons (show isSpace 0x7B = false by decide)]
  generalize same : 2 * List.length _ + 2 = fuel
  obtain ⟨fuel, rfl⟩ : ∃ n, fuel = n + 4 := by
    refine ⟨fuel - 4, ?_⟩
    rw [List.length_cons] at same
    omega
  rw [scanValue_opened _ _ (skip_cons (by decide)), scanMembers_more, scanMembers_last]
  rfl

end Objects

end Json
