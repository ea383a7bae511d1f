import VerifiableRag.Contracts.TokenClaims
import VerifiableRag.Library.CompactJson

/-!
What the contract's byte search finds in the text of a compact JSON document: only
string literals whose source ends in the quoted word.
-/
namespace VerifiableRag.TokenClaims
open Bytes Json

section Search

/-- The text after the first place where a needle stands. -/
def after (needle : List UInt8) : List UInt8 → Option (List UInt8)
  | [] => if needle.isPrefixOf [] then some [] else none
  | b :: rest =>
    if needle.isPrefixOf (b :: rest) then some ((b :: rest).drop needle.length)
    else after needle rest

theorem scan_none {needle text : List UInt8} {i : Nat} :
    scan needle i text = none ↔ after needle text = none := by
  induction text generalizing i with
  | nil =>
    unfold scan after
    split <;> simp
  | cons b rest ih =>
    unfold scan after
    split
    · simp
    · exact ih

theorem scan_some {needle text : List UInt8} {i k : Nat} (found : scan needle i text = some k) :
    i ≤ k ∧ after needle text = some (text.drop (k - i + needle.length)) := by
  induction text generalizing i with
  | nil =>
    unfold scan at found
    unfold after
    split at found
    · cases found
      rw [if_pos ‹_›]
      simp
    · cases found
  | cons b rest ih =>
    unfold scan at found
    unfold after
    split at found
    · cases found
      rw [if_pos ‹_›]
      simp
    · obtain ⟨past, same⟩ := ih found
      rw [if_neg ‹_›, same, show k - i = k - (i + 1) + 1 by omega, Nat.add_right_comm,
        List.drop_succ_cons]
      exact ⟨by omega, rfl⟩

theorem indexOf_none {needle text : List UInt8} (nonempty : needle ≠ []) :
    indexOf text needle 0 = none ↔ after needle text = none := by
  rw [indexOf, if_neg (by simpa using nonempty), List.drop_zero, scan_none]

theorem indexOf_some {needle text : List UInt8} {k : Nat} (nonempty : needle ≠ [])
    (found : indexOf text needle 0 = some k) :
    after needle text = some (text.drop (k + needle.length)) := by
  rw [indexOf, if_neg (by simpa using nonempty), List.drop_zero] at found
  exact (scan_some found).2

theorem after_skip {needle rest : List UInt8} {b : UInt8}
    (apart : ¬ needle <+: b :: rest) : after needle (b :: rest) = after needle rest := by
  rw [after, if_neg (mt List.isPrefixOf_iff_prefix.mp apart)]

theorem after_found {needle rest : List UInt8} :
    after needle (needle ++ rest) = some rest := by
  have here : needle.isPrefixOf (needle ++ rest) = true :=
    List.isPrefixOf_iff_prefix.mpr ⟨rest, rfl⟩
  cases same : needle ++ rest with
  | nil =>
    obtain ⟨rfl, rfl⟩ := List.append_eq_nil_iff.mp same
    rfl
  | cons b tail =>
    rw [after, ← same, if_pos here, List.drop_left]

end Search

section Literals

/-- A literal whose source, from its opening quote on, ends in the quoted word. -/
def EndsQuoted (word : Text) (s : Literal) : Prop := 0x22 :: word <:+ 0x22 :: Literal.source s

instance (word : Text) (s : Literal) : Decidable (EndsQuoted word s) :=
  inferInstanceAs (Decidable (_ <:+ _))

/-- A word without quotes and backslashes that no mark of the grammar starts. -/
structure Searchable (word : Text) : Prop where
  plain : ∀ c ∈ word, c ≠ 0x22 ∧ c ≠ 0x5C
  start : ∃ c t, word = c :: t ∧ ¬ Mark c

variable {word follow rest : Text}

theorem source_cons (item : Item) (s : Literal) :
    Literal.source (item :: s) = item.text ++ Literal.source s := rfl

/-- The first unescaped quote ends a literal. -/
theorem word_prefix (valid : ∀ c ∈ word, c ≠ 0x22 ∧ c ≠ 0x5C) (s : Literal) :
    word ++ 0x22 :: follow <+: Literal.source s ++ 0x22 :: rest ↔
      Literal.source s = word ∧ follow <+: rest := by
  induction s generalizing word with
  | nil =>
    cases word with
    | nil => simp [Literal.source]
    | cons c word =>
      have other := (valid c (by simp)).1
      simp [Literal.source, other]
  | cons item s ih =>
    rw [source_cons]
    cases item with
    | plain b plain =>
      cases word with
      | nil => simp [Item.text, plain.2.1.symm]
      | cons c word =>
        have later := ih (fun c' member => valid c' (List.mem_cons_of_mem c member))
        simp only [Item.text, List.cons_append, List.nil_append, List.cons_prefix_cons, later,
          List.cons.injEq, eq_comm, and_assoc]
    | escape c value known =>
      cases word with
      | nil => simp [Item.text]
      | cons c' word => simp [Item.text, (valid c' (by simp)).2, (valid c' (by simp)).2.symm]
    | unicode a b c d =>
      cases word with
      | nil => simp [Item.text]
      | cons c' word => simp [Item.text, (valid c' (by simp)).2, (valid c' (by simp)).2.symm]

theorem after_quote (valid : ∀ c ∈ word, c ≠ 0x22 ∧ c ≠ 0x5C) (s : Literal) :
    after (0x22 :: (word ++ 0x22 :: follow)) (0x22 :: (Literal.source s ++ 0x22 :: rest)) =
      if Literal.source s = word ∧ follow <+: rest then some (rest.drop follow.length)
      else after (0x22 :: (word ++ 0x22 :: follow)) (Literal.source s ++ 0x22 :: rest) := by
  split
  · rename_i here
    obtain ⟨same, u, rfl⟩ := here
    have shape : 0x22 :: (Literal.source s ++ 0x22 :: (follow ++ u)) =
        0x22 :: (word ++ 0x22 :: follow) ++ u := by
      simp [same]
    rw [shape, after_found, List.drop_left]
  · rename_i elsewhere
    apply after_skip
    rw [List.cons_prefix_cons, word_prefix valid]
    exact fun here => elsewhere here.2

theorem after_byte {needle rest : List UInt8} {b : UInt8} (other : b ≠ 0x22) :
    after (0x22 :: needle) (b :: rest) = after (0x22 :: needle) rest := by
  apply after_skip
  rw [List.cons_prefix_cons]
  exact fun here => other here.1.symm

theorem suffix_byte {s : Text} {b : UInt8} (other : b ≠ 0x22) :
    0x22 :: word <:+ b :: s ↔ 0x22 :: word <:+ s := by
  rw [List.suffix_cons_iff, List.cons_eq_cons]
  constructor
  · rintro (whole | inside)
    · exact absurd whole.1.symm other
    · exact inside
  · exact .inr

theorem suffix_quote {s : Text} :
    0x22 :: word <:+ 0x22 :: s ↔ s = word ∨ 0x22 :: word <:+ s := by
  rw [List.suffix_cons_iff, List.cons_eq_cons]
  simp [eq_comm]

/-- From inside a literal the search stops at its end or goes on after it. -/
theorem after_inside (valid : ∀ c ∈ word, c ≠ 0x22 ∧ c ≠ 0x5C) (s : Literal) :
    after (0x22 :: (word ++ 0x22 :: follow)) (Literal.source s ++ 0x22 :: rest) =
      if 0x22 :: word <:+ Literal.source s ∧ follow <+: rest then some (rest.drop follow.length)
      else after (0x22 :: (word ++ 0x22 :: follow)) (0x22 :: rest) := by
  induction s with
  | nil => simp [Literal.source]
  | cons item s ih =>
    rw [source_cons]
    cases item with
    | plain b plain =>
      simp only [Item.text, List.cons_append, List.nil_append, after_byte plain.2.1,
        suffix_byte plain.2.1, ih]
    | escape c value known =>
      simp only [Item.text, List.cons_append, List.nil_append,
        after_byte (show (0x5C : UInt8) ≠ 0x22 by decide),
        suffix_byte (show (0x5C : UInt8) ≠ 0x22 by decide)]
      by_cases quote : c = 0x22
      · -- an escaped quote may open the word
        simp only [quote, after_quote valid, ih, suffix_quote]
        by_cases next : follow <+: rest
        · by_cases opened : Literal.source s = word <;> simp [opened, next]
        · simp [next]
      · simp only [after_byte quote, suffix_byte quote, ih]
    | unicode a b c d =>
      simp only [Item.text, List.cons_append, List.nil_append,
        after_byte (show (0x5C : UInt8) ≠ 0x22 by decide),
        after_byte (show (0x75 : UInt8) ≠ 0x22 by decide), after_byte (Hex.unquoted _),
        suffix_byte (show (0x5C : UInt8) ≠ 0x22 by decide),
        suffix_byte (show (0x75 : UInt8) ≠ 0x22 by decide), suffix_byte (Hex.unquoted _), ih]

theorem after_literal (valid : Searchable word) (s : Literal) (delimited : Delimited rest) :
    after (0x22 :: (word ++ 0x22 :: follow)) (0x22 :: (Literal.source s ++ 0x22 :: rest)) =
      if EndsQuoted word s ∧ follow <+: rest then some (rest.drop follow.length)
      else after (0x22 :: (word ++ 0x22 :: follow)) rest := by
  have closing : after (0x22 :: (word ++ 0x22 :: follow)) (0x22 :: rest) =
      after (0x22 :: (word ++ 0x22 :: follow)) rest := by
    obtain ⟨c, t, rfl, start⟩ := valid.start
    apply after_skip
    rw [List.cons_prefix_cons, List.cons_append]
    rintro ⟨_, u, same⟩
    rw [List.cons_append] at same
    exact start (delimited c (by rw [← same]; rfl))
  simp only [after_quote valid.plain, after_inside valid.plain, closing, EndsQuoted, suffix_quote]
  by_cases next : follow <+: rest
  · by_cases whole : Literal.source s = word <;> simp [whole, next]
  · simp [next]

theorem after_bare {needle : List UInt8} {t rest : Text} (bare : ∀ c ∈ t, Bare c) :
    after (0x22 :: needle) (t ++ rest) = after (0x22 :: needle) rest := by
  induction t with
  | nil => rfl
  | cons c t ih =>
    rw [List.cons_append, after_byte (bare c (by simp)).2,
      ih (fun c member => bare c (by simp [member]))]

end Literals

section Documents

/-- The first literal that ends in the quoted word and has the wanted text behind it,
    with the tokens after it. -/
inductive Found (word follow : Text) : List Token → List Token → Prop
  | here {s : Literal} {post : List Token} (ends : EndsQuoted word s)
      (next : follow <+: render post) : Found word follow (.str s :: post) post
  | past {s : Literal} {ts post : List Token} (other : ¬ (EndsQuoted word s ∧ follow <+: render ts))
      (later : Found word follow ts post) : Found word follow (.str s :: ts) post
  | text {t : Text} {bare : ∀ c ∈ t, Bare c} {ts post : List Token}
      (later : Found word follow ts post) : Found word follow (.text t bare :: ts) post

variable {word follow : Text}

theorem after_render (valid : Searchable word) {ts : List Token} (separated : Separated ts) {u : Text} :
    after (0x22 :: (word ++ 0x22 :: follow)) (render ts) = some u ↔
      ∃ post, Found word follow ts post ∧ u = (render post).drop follow.length := by
  induction ts with
  | nil =>
    constructor
    · intro none
      cases none
    · rintro ⟨post, found, _⟩
      cases found
  | cons t ts ih =>
    cases t with
    | text t bare =>
      rw [render_text, after_bare bare, ih separated]
      constructor
      · rintro ⟨post, found, same⟩
        exact ⟨post, .text found, same⟩
      · rintro ⟨post, found, same⟩
        cases found with
        | text found => exact ⟨post, found, same⟩
    | str s =>
      obtain ⟨delimited, separated⟩ := separated
      rw [render_str, after_literal valid s delimited]
      split
      · rename_i hit
        constructor
        · intro same
          exact ⟨ts, .here hit.1 hit.2, (Option.some.inj same).symm⟩
        · rintro ⟨post, found, rfl⟩
          cases found with
          | here => rfl
          | past other => exact absurd hit other
      · rename_i other
        rw [ih separated]
        constructor
        · rintro ⟨post, found, same⟩
          exact ⟨post, .past other found, same⟩
        · rintro ⟨post, found, same⟩
          cases found with
          | here ends next => exact absurd ⟨ends, next⟩ other
          | past _ found => exact ⟨post, found, same⟩

end Documents

end VerifiableRag.TokenClaims
