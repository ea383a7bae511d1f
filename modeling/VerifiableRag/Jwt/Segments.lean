import VerifiableRag.Contracts.TokenClaims
import VerifiableRag.Library.Base64
import Mathlib.Data.List.TakeWhile

/-!
The payload segment of a JWT as the contract and as Python decode it.
-/
namespace VerifiableRag.TokenClaims
open Bytes

/-- The two characters that only the standard alphabet has. -/
def StandardOnly (c : UInt8) : Prop := c = 0x2B ∨ c = 0x2F

instance (c : UInt8) : Decidable (StandardOnly c) := inferInstanceAs (Decidable (_ ∨ _))

/-- Elsewhere the contract's table and Python's translated one agree. -/
theorem sextet_urlSafe {c : UInt8} (url : ¬ StandardOnly c) (char : c ≠ 0x3D) :
    Base64.sextet (Base64.urlSafe c) = if b64Value c > 63 then none else some (b64Value c) := by
  have table : ∀ c : UInt8, ¬ StandardOnly c → c ≠ 0x3D →
      Base64.sextet (Base64.urlSafe c) = if b64Value c > 63 then none else some (b64Value c) :=
    forall_byte (by decide +kernel)
  exact table c url char

theorem urlSafe_pad {c : UInt8} : Base64.urlSafe c = 0x3D ↔ c = 0x3D := by
  have table : ∀ c : UInt8, Base64.urlSafe c = 0x3D ↔ c = 0x3D := forall_byte (by decide +kernel)
  exact table c

theorem standardOnly_b64Value {c : UInt8} (standard : StandardOnly c) : b64Value c = 255 := by
  rcases standard with rfl | rfl <;> decide

theorem decodeFrom_urlSafe {quad left pads : Nat} {c : UInt8} {rest out : List UInt8}
    (url : ¬ StandardOnly c) (char : c ≠ 0x3D)
    (ok : Base64.decodeFrom quad left pads false (Base64.urlSafe c :: rest) = some out) :
    b64Value c ≤ 63 ∧ Base64.Taken quad left (b64Value c) rest out := by
  obtain ⟨v, found, taken⟩ := Base64.decodeFrom_char (mt urlSafe_pad.mp char) ok
  rw [sextet_urlSafe url char] at found
  split at found
  · cases found
  · rename_i small
    cases found
    exact ⟨by omega, taken⟩

theorem decodeFrom_pads {quad left pads : Nat} {c : UInt8} {rest out : List UInt8} (pad : c = 0x3D)
    (ok : Base64.decodeFrom quad left pads false ((c :: rest).map Base64.urlSafe) = some out) :
    out = [] ∧ quad ≠ 1 ∧ c :: rest = List.replicate (rest.length + 1) 0x3D := by
  rw [List.map_cons, Base64.decodeFrom, if_pos (urlSafe_pad.mpr pad)] at ok
  have all : ∀ rest : List UInt8, rest.map Base64.urlSafe = List.replicate rest.length 0x3D →
      rest = List.replicate rest.length 0x3D := by
    intro rest same
    refine List.eq_replicate_iff.mpr ⟨rfl, ?_⟩
    intro b member
    have image := List.mem_map_of_mem (f := Base64.urlSafe) member
    rw [same] at image
    exact urlSafe_pad.mp (List.eq_of_mem_replicate image)
  split at ok
  · split at ok
    · rename_i complete last
      rw [List.isEmpty_iff, List.map_eq_nil_iff] at last
      exact ⟨(Option.some.inj ok).symm, by omega, by rw [pad, last]; rfl⟩
    · cases ok
  · obtain ⟨empty, place, same⟩ := Base64.decodeFrom_padded ok
    rw [List.length_map] at same
    exact ⟨empty, place, by rw [pad, List.replicate_succ, ← all rest same]⟩

/-- What Python decodes is data, read by the contract alike, and padding. -/
theorem decodeFrom_data {left pads : Nat} : ∀ {s out : List UInt8}, (∀ c ∈ s, ¬ StandardOnly c) →
    Base64.decodeFrom 0 left pads false (s.map Base64.urlSafe) = some out →
    ∃ data m, s = data ++ List.replicate m 0x3D ∧ (∀ c ∈ data, c ≠ 0x3D) ∧
      decodeGroups data = some out
  | [], out, _, ok => ⟨[], 0, rfl, by simp, by simpa [Base64.decodeFrom, decodeGroups] using ok⟩
  | c0 :: s, out, url, ok => by
    by_cases char0 : c0 = 0x3D
    · obtain ⟨rfl, _, same⟩ := decodeFrom_pads char0 ok
      exact ⟨[], s.length + 1, same, by simp, rfl⟩
    obtain ⟨small0, ok0⟩ := decodeFrom_urlSafe (url c0 (by simp)) char0 ok
    cases s with
    | nil => cases ok0
    | cons c1 s =>
      by_cases char1 : c1 = 0x3D
      · exact absurd rfl (decodeFrom_pads char1 ok0).2.1
      obtain ⟨small1, tail1, ok1, rfl⟩ := decodeFrom_urlSafe (url c1 (by simp)) char1 ok0
      cases s with
      | nil => cases ok1
      | cons c2 s =>
        by_cases char2 : c2 = 0x3D
        · obtain ⟨rfl, _, same⟩ := decodeFrom_pads char2 ok1
          refine ⟨[c0, c1], s.length + 1, by rw [same]; rfl, by simp [char0, char1], ?_⟩
          rw [decodeGroups, if_neg (by omega)]
          rfl
        obtain ⟨small2, tail2, ok2, rfl⟩ := decodeFrom_urlSafe (url c2 (by simp)) char2 ok1
        cases s with
        | nil => cases ok2
        | cons c3 s =>
          by_cases char3 : c3 = 0x3D
          · obtain ⟨rfl, _, same⟩ := decodeFrom_pads char3 ok2
            refine ⟨[c0, c1, c2], s.length + 1, by rw [same]; rfl, by simp [char0, char1, char2], ?_⟩
            rw [decodeGroups, if_neg (by omega)]
            rfl
          obtain ⟨small3, tail3, ok3, rfl⟩ := decodeFrom_urlSafe (url c3 (by simp)) char3 ok2
          obtain ⟨data, m, same, plain, groups⟩ :=
            decodeFrom_data (fun c member => url c (by simp [member])) ok3
          refine ⟨c0 :: c1 :: c2 :: c3 :: data, m, by rw [same]; rfl, ?_, ?_⟩
          · simpa [char0, char1, char2, char3] using plain
          · rw [decodeGroups, if_neg (by omega), groups]
            rfl

theorem stripPadding_append (s : List UInt8) (m : Nat) :
    stripPadding (s ++ List.replicate m 0x3D) = stripPadding s := by
  have pads : ∀ c ∈ List.replicate m (0x3D : UInt8), (c == 0x3D) = true := by
    intro c member
    rw [List.eq_of_mem_replicate member]
    rfl
  rw [stripPadding, List.reverse_append, List.reverse_replicate,
    List.dropWhile_append_of_pos pads, stripPadding]

theorem stripPadding_plain {data : List UInt8} (plain : ∀ c ∈ data, c ≠ 0x3D) :
    stripPadding data = data := by
  have kept : data.reverse.dropWhile (· == 0x3D) = data.reverse := by
    rw [List.dropWhile_eq_self_iff]
    intro nonempty
    simpa using plain _ (List.mem_reverse.mp (List.getElem_mem nonempty))
  rw [stripPadding, kept, List.reverse_reverse]

theorem decodeGroups_small : ∀ {s out : List UInt8}, decodeGroups s = some out →
    s.length % 4 ≠ 1 ∧ ∀ c ∈ s, b64Value c ≤ 63
  | [], _, _ => by simp
  | [_], _, ok => by cases ok
  | [c0, c1], _, ok => by
    rw [decodeGroups] at ok
    split at ok
    · cases ok
    · simp
      omega
  | [c0, c1, c2], _, ok => by
    rw [decodeGroups] at ok
    split at ok
    · cases ok
    · simp
      omega
  | c0 :: c1 :: c2 :: c3 :: rest, _, ok => by
    rw [decodeGroups] at ok
    split at ok
    · cases ok
    · obtain ⟨out, ok, _⟩ := Option.map_eq_some_iff.mp ok
      obtain ⟨size, small⟩ := decodeGroups_small ok
      simp only [List.length_cons, List.mem_cons, forall_eq_or_imp]
      refine ⟨by omega, by omega, by omega, by omega, by omega, small⟩

theorem b64UrlDecode_ok {s out : List UInt8} :
    b64UrlDecode s = some out ↔ decodeGroups (stripPadding s) = some out := by
  rw [b64UrlDecode]
  split
  · rename_i short
    refine ⟨nofun, ?_⟩
    intro ok
    exact absurd short (decodeGroups_small ok).1
  · rfl

theorem mem_stripPadding {s : List UInt8} {c : UInt8} (member : c ∈ s) (char : c ≠ 0x3D) :
    c ∈ stripPadding s := by
  have split := List.takeWhile_append_dropWhile (p := (· == (0x3D : UInt8))) (l := s.reverse)
  have here : c ∈ s.reverse := List.mem_reverse.mpr member
  rw [← split, List.mem_append] at here
  rcases here with pad | kept
  · exact absurd (by simpa using List.mem_takeWhile_imp pad) char
  · exact List.mem_reverse.mpr kept

/-- The contract decodes a segment that Python decodes if it has no character of the
    standard alphabet only, and then to the same bytes. -/
theorem b64UrlDecode_of_python {segment out : List UInt8} {m : Nat}
    (python : Base64.b64decodeUrl (segment ++ List.replicate m 0x3D) = some out)
    (decoded : List UInt8) :
    b64UrlDecode segment = some decoded ↔
      (∀ c ∈ segment, ¬ StandardOnly c) ∧ decoded = out := by
  have reading : (∀ c ∈ segment, ¬ StandardOnly c) → b64UrlDecode segment = some out := by
    intro url
    rw [Base64.b64decodeUrl, Base64.a2bStrict] at python
    split at python
    · cases python
    have url' : ∀ c ∈ segment ++ List.replicate m 0x3D, ¬ StandardOnly c := by
      intro c member
      rcases List.mem_append.mp member with data | pad
      · exact url c data
      · rw [List.eq_of_mem_replicate pad]
        decide
    obtain ⟨data, pads, same, plain, groups⟩ := decodeFrom_data url' python
    have clean : stripPadding segment = data := by
      rw [← stripPadding_append segment m, same, stripPadding_append, stripPadding_plain plain]
    rw [b64UrlDecode_ok, clean, groups]
  constructor
  · intro contract
    have url : ∀ c ∈ segment, ¬ StandardOnly c := by
      intro c member standard
      have char : c ≠ 0x3D := by
        rcases standard with rfl | rfl <;> decide
      have small := (decodeGroups_small (b64UrlDecode_ok.mp contract)).2 c
        (mem_stripPadding member char)
      rw [standardOnly_b64Value standard] at small
      omega
    exact ⟨url, Option.some.inj (contract.symm.trans (reading url))⟩
  · rintro ⟨url, rfl⟩
    exact reading url

end VerifiableRag.TokenClaims
