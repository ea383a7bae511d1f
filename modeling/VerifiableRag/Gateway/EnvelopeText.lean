import VerifiableRag.Crypto.WireEncoding
import VerifiableRag.Library.Base64Strict
import VerifiableRag.Library.PyStr

/-!
The text of an envelope in the body of `POST /v1/query` (`main.py`).
-/
namespace Gateway
open Base64
open Bytes (forall_byte forall_listed)
open Crypto (rstripPads rstripPads_append rstripPads_map rstripPads_plain)
open Json (Text)

/-- `none` is the `ValueError` of a text that is not base64. -/
def decodeEnvelopeBase64 (payload : Text) : Option (List UInt8) :=
  let s := (PyStr.strip payload).map urlSafe
  let s := s ++ List.replicate (missing s) 0x3D
  if s.all (· < 0x80) then a2bStrict s else none

/-- A group of two or three characters may be padded in part; a full one takes any pads. -/
def Tolerates (chars pads : Nat) : Prop :=
  chars % 4 = 0 ∧ (chars = 0 → pads = 0) ∨ chars % 4 = 2 ∧ pads ≤ 2 ∨ chars % 4 = 3 ∧ pads ≤ 1

/-- Characters of either alphabet, mixed at will, and pads. -/
structure Spells (text : Text) (data : Text) (values : List Nat) (pads : Nat) : Prop where
  split : text = data ++ List.replicate pads 0x3D
  reads : Reads (data.map urlSafe) values
  padded : Tolerates data.length pads

theorem rstripPads_split (s : Text) : ∃ m, s = rstripPads s ++ List.replicate m 0x3D := by
  refine ⟨(s.rtakeWhile (· == 0x3D)).length, ?_⟩
  have pads : s.rtakeWhile (· == 0x3D) =
      List.replicate (s.rtakeWhile (· == 0x3D)).length 0x3D := by
    rw [List.eq_replicate_iff]
    refine ⟨rfl, fun c member => ?_⟩
    have pad := List.mem_rtakeWhile_imp member
    exact beq_iff_eq.mp pad
  rw [← pads]
  exact List.rdropWhile_append_rtakeWhile.symm

theorem reads_chars {data : List UInt8} {values : List Nat} (reads : Reads data values) :
    ∀ c ∈ data, (sextet c).isSome := by
  induction reads with
  | nil => simp
  | cons found _ ih => exact List.forall_mem_cons.mpr ⟨by rw [found]; rfl, ih⟩

theorem reads_plain {data : List UInt8} {values : List Nat} (reads : Reads data values) :
    ∀ c ∈ data, c ≠ 0x3D ∧ c < 0x80 := by
  have table : ∀ c : UInt8, (sextet c).isSome → c ≠ 0x3D ∧ c < 0x80 :=
    forall_byte (by decide +kernel)
  intro c member
  exact table c (reads_chars reads c member)

theorem tolerates_iff {chars pads : Nat} :
    Closes chars (pads + (4 - (chars + pads) % 4) % 4) ∧
        (chars = 0 → pads + (4 - (chars + pads) % 4) % 4 = 0) ↔ Tolerates chars pads := by
  unfold Closes Tolerates
  omega

/-- The texts that are taken for an envelope, and the envelope of each. -/
theorem decodeEnvelopeBase64_iff {payload : Text} {envelope : List UInt8} :
    decodeEnvelopeBase64 payload = some envelope ↔
      ∃ data values pads, Spells (PyStr.strip payload) data values pads ∧
        bytesOf values = envelope := by
  have decoded : decodeEnvelopeBase64 payload = some envelope ↔
      ((PyStr.strip payload).map urlSafe ++ List.replicate (missing ((PyStr.strip payload).map urlSafe))
        0x3D).all (· < 0x80) = true ∧
      a2bStrict ((PyStr.strip payload).map urlSafe ++
        List.replicate (missing ((PyStr.strip payload).map urlSafe)) 0x3D) = some envelope := by
    unfold decodeEnvelopeBase64
    dsimp only
    split
    · rename_i ascii
      exact (and_iff_right ascii).symm
    · rename_i other
      exact iff_of_false (by simp) (fun both => other both.1)
  rw [decoded, a2bStrict_iff]
  constructor
  · intro taken
    obtain ⟨_, data', values, m', whole, reads, bytes, closes, leading⟩ := taken
    obtain ⟨m, split⟩ := rstripPads_split (PyStr.strip payload)
    have plain : ∀ c ∈ data', c ≠ 0x3D := fun c member => (reads_plain reads c member).1
    have same := congrArg rstripPads whole
    rw [rstripPads_append, rstripPads_append, rstripPads_plain plain, rstripPads_map] at same
    have sizes := congrArg List.length whole
    have sizes' := congrArg List.length split
    have sizes'' := congrArg List.length same
    simp only [List.length_append, List.length_map, List.length_replicate, missing]
      at sizes sizes' sizes''
    refine ⟨rstripPads (PyStr.strip payload), values, m, ⟨split, ?_, ?_⟩, bytes⟩
    · rw [same]
      exact reads
    · rw [← tolerates_iff, ← sizes']
      have pads : m + (4 - (PyStr.strip payload).length % 4) % 4 = m' := by omega
      rw [pads, sizes'']
      refine ⟨closes, fun empty => leading (List.length_eq_zero_iff.mp empty)⟩
  · intro spelled
    obtain ⟨data, values, m, ⟨split, reads, padded⟩, bytes⟩ := spelled
    have pad : urlSafe 0x3D = 0x3D := by decide
    have whole : (PyStr.strip payload).map urlSafe = data.map urlSafe ++ List.replicate m 0x3D := by
      rw [split, List.map_append, List.map_replicate, pad]
    have gap : missing ((PyStr.strip payload).map urlSafe) = (4 - (data.length + m) % 4) % 4 := by
      rw [whole, missing, List.length_append, List.length_map, List.length_replicate]
    rw [← tolerates_iff] at padded
    rw [gap, whole, List.append_assoc, ← List.replicate_add]
    refine ⟨?_, data.map urlSafe, values, _, rfl, reads, bytes, ?_, ?_⟩
    · rw [List.all_append, Bool.and_eq_true, List.all_eq_true, List.all_replicate]
      refine ⟨fun c member => decide_eq_true (reads_plain reads c member).2, ?_⟩
      simp
    · rw [List.length_map]
      exact padded.1
    · intro empty
      rw [List.map_eq_nil_iff] at empty
      exact padded.2 (by rw [empty]; rfl)

theorem reads_encode (x : List UInt8) : ∃ values,
    Reads (encode standardAlphabet x) values ∧ bytesOf values = x ∧
      (encode standardAlphabet x).length % 4 ≠ 1 := by
  obtain ⟨data, values, m, whole, reads, bytes, closes, _⟩ := a2bStrict_iff.mp (a2bStrict_encode x)
  have chars (v : Nat) (small : v < 64) : standardAlphabet v ≠ 0x3D :=
    sextet_ne_pad (sextet_alphabet small)
  have plain := encode_all (P := fun c => c ≠ 0x3D) chars x
  have plain' : ∀ c ∈ data, c ≠ 0x3D := fun c member => (reads_plain reads c member).1
  have same := congrArg rstripPads whole
  rw [pad, rstripPads_append, rstripPads_append, rstripPads_plain plain, rstripPads_plain plain']
    at same
  rw [same]
  refine ⟨values, reads, bytes, ?_⟩
  unfold Closes at closes
  omega

theorem strip_chars {text : Text} (solid : ∀ c ∈ text, 0x21 ≤ c ∧ c ≤ 0x7E) :
    PyStr.strip text = text := by
  have spaces : ∀ form ∈ PyStr.spaces, form ≠ [] ∧ form.all (fun b => ¬ (0x21 ≤ b ∧ b ≤ 0x7E)) :=
    forall_listed (by decide +kernel)
  obtain ⟨left, right, split, outer, outer'⟩ := @PyStr.strip_split (fun b => ¬ (0x21 ≤ b ∧ b ≤ 0x7E))
    (fun form listed => ⟨(spaces form listed).1,
      fun b here => of_decide_eq_true (List.all_eq_true.mp (spaces form listed).2 b here)⟩) text
  have none_left : left = [] := by
    apply List.eq_nil_iff_forall_not_mem.mpr
    intro c member
    refine outer c member (solid c ?_)
    rw [split]
    exact List.mem_append_left _ member
  have none_right : right = [] := by
    apply List.eq_nil_iff_forall_not_mem.mpr
    intro c member
    refine outer' c member (solid c ?_)
    rw [split]
    exact List.mem_append_right _ (List.mem_append_right _ member)
  rw [none_left, none_right, List.append_nil, List.nil_append] at split
  exact split.symm

theorem decodeEnvelopeBase64_spelled {data envelope : List UInt8} {pads : Nat}
    (same : data.map urlSafe = encode standardAlphabet envelope) (few : pads ≤ missing data) :
    decodeEnvelopeBase64 (data ++ List.replicate pads 0x3D) = some envelope := by
  obtain ⟨values, reads, bytes, shape⟩ := reads_encode envelope
  rw [← same] at reads shape
  have table : ∀ c : UInt8, (sextet (urlSafe c)).isSome → 0x21 ≤ c ∧ c ≤ 0x7E :=
    forall_byte (by decide +kernel)
  have solid : ∀ c ∈ data ++ List.replicate pads 0x3D, 0x21 ≤ c ∧ c ≤ 0x7E := by
    intro c member
    rcases List.mem_append.mp member with char | pad
    · exact table c (reads_chars reads _ (List.mem_map_of_mem char))
    · rw [List.eq_of_mem_replicate pad]
      decide
  refine decodeEnvelopeBase64_iff.mpr ⟨data, values, pads, ⟨strip_chars solid, reads, ?_⟩, bytes⟩
  rw [List.length_map] at shape
  unfold missing at few
  unfold Tolerates
  omega

/-- The texts that are taken for an envelope are characters of the two alphabets with pads: the
    pads of a last group of two or three, or some of them, or any number after full groups. And
    every envelope has such texts, its encoding in either alphabet or in both. -/
theorem envelope_text_iff (payload : Text) (envelope : List UInt8) :
    (decodeEnvelopeBase64 payload = some envelope ↔
      ∃ data values pads, Spells (PyStr.strip payload) data values pads ∧
        bytesOf values = envelope) ∧
    ∀ data pads, data.map urlSafe = encode standardAlphabet envelope → pads ≤ missing data →
      decodeEnvelopeBase64 (data ++ List.replicate pads 0x3D) = some envelope := by
  refine ⟨decodeEnvelopeBase64_iff, ?_⟩
  intro data pads same few
  exact decodeEnvelopeBase64_spelled same few

end Gateway
