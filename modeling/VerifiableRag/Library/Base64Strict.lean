import VerifiableRag.Library.Base64Encoding
import Mathlib.Data.List.Forall2

/-!
The language of the strict mode of `binascii.a2b_base64`, and what its texts decode to.
-/
namespace Base64

/-- The bytes that a row of six-bit values fills; what is left over at the end is dropped. -/
def bytesOf : List Nat → List UInt8
  | v₁ :: v₂ :: v₃ :: v₄ :: rest =>
    firstByte v₁ v₂ :: secondByte (v₂ &&& 0x0F) v₃ :: thirdByte (v₃ &&& 0x03) v₄ :: bytesOf rest
  | [v₁, v₂, v₃] => [firstByte v₁ v₂, secondByte (v₂ &&& 0x0F) v₃]
  | [v₁, v₂] => [firstByte v₁ v₂]
  | _ => []

/-- The values of characters of the standard alphabet. -/
def Reads (data : List UInt8) (values : List Nat) : Prop :=
  List.Forall₂ (fun c v => sextet c = some v) data values

/-- The pads that close so many characters. Behind a full group the strict mode counts none. -/
def Closes (chars pads : Nat) : Prop :=
  chars % 4 = 0 ∨ chars % 4 = 2 ∧ pads = 2 ∨ chars % 4 = 3 ∧ pads = 1

instance (chars pads : Nat) : Decidable (Closes chars pads) :=
  inferInstanceAs (Decidable (_ ∨ _ ∨ _))

section Pads
variable {left pads : Nat} {started : Bool}

theorem decodeFrom_full (m : Nat) :
    decodeFrom 0 left pads started (List.replicate m 0x3D) = some [] := by
  induction m generalizing pads started with
  | zero => rfl
  | succ m ih =>
    rw [List.replicate_succ, decodeFrom, if_pos rfl, if_neg (by omega)]
    exact ih

theorem decodeFrom_lone (m : Nat) :
    decodeFrom 1 left pads started (List.replicate m 0x3D) = none := by
  induction m generalizing pads started with
  | zero => rfl
  | succ m ih =>
    rw [List.replicate_succ, decodeFrom, if_pos rfl, if_neg (by omega)]
    exact ih

theorem decodeFrom_two_left (m : Nat) :
    decodeFrom 2 left 0 false (List.replicate m 0x3D) = if m = 2 then some [] else none := by
  rcases m with _ | _ | _ | m
  · rfl
  · rfl
  · rfl
  · rw [if_neg (by omega), List.replicate_succ, List.replicate_succ, List.replicate_succ]
    rfl

theorem decodeFrom_one_left (m : Nat) :
    decodeFrom 3 left 0 false (List.replicate m 0x3D) = if m = 1 then some [] else none := by
  rcases m with _ | _ | m
  · rfl
  · rfl
  · rw [if_neg (by omega), List.replicate_succ, List.replicate_succ]
    rfl

end Pads

/-- The loop on characters of the alphabet and pads behind them. -/
theorem decodeFrom_reads {values : List Nat} {data : List UInt8} (reads : Reads data values)
    (left pads m : Nat) :
    decodeFrom 0 left pads false (data ++ List.replicate m 0x3D) =
      if Closes data.length m then some (bytesOf values) else none := by
  induction values using bytesOf.induct generalizing data left pads with
  | case1 v₁ v₂ v₃ v₄ rest ih =>
    obtain _ | ⟨first, _ | ⟨second, _ | ⟨third, _ | ⟨fourth, reads⟩⟩⟩⟩ := reads
    rename_i c₁ c₂ c₃ c₄ data
    have closes : Closes (c₁ :: c₂ :: c₃ :: c₄ :: data).length m ↔ Closes data.length m := by
      simp only [Closes, List.length_cons]
      omega
    simp only [List.cons_append]
    rw [decodeFrom_zero first, decodeFrom_one second, decodeFrom_two third, decodeFrom_three fourth,
      ih reads]
    by_cases closed : Closes data.length m
    · rw [if_pos closed, if_pos (closes.mpr closed)]
      rfl
    · rw [if_neg closed, if_neg (mt closes.mp closed)]
      rfl
  | case2 v₁ v₂ v₃ =>
    obtain _ | ⟨first, _ | ⟨second, _ | ⟨third, _ | _⟩⟩⟩ := reads
    rename_i c₁ c₂ c₃
    simp only [List.cons_append, List.nil_append]
    rw [decodeFrom_zero first, decodeFrom_one second, decodeFrom_two third, decodeFrom_one_left]
    have closes : Closes [c₁, c₂, c₃].length m ↔ m = 1 := by simp [Closes]
    by_cases one : m = 1
    · rw [if_pos one, if_pos (closes.mpr one)]
      rfl
    · rw [if_neg one, if_neg (mt closes.mp one)]
      rfl
  | case3 v₁ v₂ =>
    obtain _ | ⟨first, _ | ⟨second, _ | _⟩⟩ := reads
    rename_i c₁ c₂
    simp only [List.cons_append, List.nil_append]
    rw [decodeFrom_zero first, decodeFrom_one second, decodeFrom_two_left]
    have closes : Closes [c₁, c₂].length m ↔ m = 2 := by simp [Closes]
    by_cases two : m = 2
    · rw [if_pos two, if_pos (closes.mpr two)]
      rfl
    · rw [if_neg two, if_neg (mt closes.mp two)]
      rfl
  | case4 values four three two =>
    rcases values with _ | ⟨v₁, _ | ⟨v₂, _ | ⟨v₃, _ | ⟨v₄, rest⟩⟩⟩⟩
    · obtain rfl := List.forall₂_nil_right_iff.mp reads
      rw [List.nil_append, decodeFrom_full, if_pos (.inl rfl)]
      rfl
    · obtain _ | ⟨first, _ | _⟩ := reads
      rename_i c
      rw [List.singleton_append, decodeFrom_zero first, decodeFrom_lone, if_neg]
      simp [Closes]
    · exact absurd rfl (two v₁ v₂)
    · exact absurd rfl (three v₁ v₂ v₃)
    · exact absurd rfl (four v₁ v₂ v₃ v₄ rest)

theorem reads_of_chars {data : List UInt8} (chars : ∀ c ∈ data, (sextet c).isSome) :
    ∃ values, Reads data values := by
  induction data with
  | nil => exact ⟨[], .nil⟩
  | cons c data ih =>
    rw [List.forall_mem_cons] at chars
    obtain ⟨values, reads⟩ := ih chars.2
    obtain ⟨v, found⟩ := Option.isSome_iff_exists.mp chars.1
    exact ⟨v :: values, .cons found reads⟩

/-- The texts of the strict mode: characters of the alphabet, one alone in no group, and the
    pads of the last group; no pad leads. -/
theorem a2bStrict_iff {s out : List UInt8} : a2bStrict s = some out ↔
    ∃ data values m, s = data ++ List.replicate m 0x3D ∧ Reads data values ∧ bytesOf values = out ∧
      Closes data.length m ∧ (data = [] → m = 0) := by
  constructor
  · intro ok
    unfold a2bStrict at ok
    split at ok
    · cases ok
    · rename_i leading
      obtain ⟨data, m, rfl, chars⟩ := decodeFrom_plain ok
      obtain ⟨values, reads⟩ := reads_of_chars chars
      rw [decodeFrom_reads reads] at ok
      split at ok
      · rename_i closes
        cases ok
        refine ⟨data, values, m, rfl, reads, rfl, closes, ?_⟩
        rintro rfl
        cases m with
        | zero => rfl
        | succ m => exact absurd rfl leading
      · cases ok
  · intro text
    obtain ⟨data, values, m, rfl, reads, rfl, closes, empty⟩ := text
    rw [a2bStrict, if_neg, decodeFrom_reads reads, if_pos closes]
    cases reads with
    | nil => simp [empty rfl]
    | cons found _ =>
      intro leading
      exact sextet_ne_pad found (Option.some.inj leading)

end Base64
