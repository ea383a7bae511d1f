import VerifiableRag.Attestation.Verifier
import VerifiableRag.Library.CborStream
import VerifiableRag.Library.Results

/-!
Which byte strings pass for a token. `parse_cose_sign1` reads one item off the token and one off
its protected slot, and never looks at the unprotected slot or at what follows an item.
-/
namespace Attestation
open Bytes Cbor Streaming Results

section Forms
variable (fromReader : List UInt8 → Except String Value)
  (takeItem : List UInt8 → Option (Value × List UInt8)) {VerifyingKey : Type}
  (es256 : Es256 VerifyingKey) (token : List UInt8)

/-- `ciborium::de::from_reader` takes one item off the front of its input and ignores the rest. -/
structure Streams : Prop where
  fronted : Fronted takeItem
  first : ∀ s v, fromReader s = .ok v ↔ ∃ rest, takeItem s = some (v, rest)

/-- One array of a byte string, a map and two byte strings, with nothing behind it and one item
    in its protected slot. -/
def InForm : Prop :=
  ∃ header entries payload signature protectedMap,
    takeItem token =
      some (.array [.bytes header, .map entries, .bytes payload, .bytes signature], []) ∧
    takeItem header = some (protectedMap, [])

/-- The array and the protected item are there, but bytes follow one of them, or the unprotected
    slot is no map. -/
def Lax : Prop :=
  ∃ header slot payload signature rest protectedMap behind,
    takeItem token =
      some (.array [.bytes header, slot, .bytes payload, .bytes signature], rest) ∧
    takeItem header = some (protectedMap, behind) ∧
    (rest ≠ [] ∨ (∀ entries, slot ≠ .map entries) ∨ behind ≠ [])

def Parsed : Prop := ∃ parsed, parseCoseSign1 fromReader token = .ok parsed

def Verified : Prop :=
  ∃ verifyingKey swname digest nonce verified,
    verifyEat fromReader es256 token verifyingKey swname digest nonce = .ok verified

/-- A token is accepted in one form only; the last two fields say that a change to an accepted
    token is no accepted token. -/
structure OneForm : Prop where
  parsed : Parsed fromReader token → InForm takeItem token
  verified : Verified fromReader es256 token → InForm takeItem token
  appended : ∀ shorter suffix, token = shorter ++ suffix → suffix ≠ [] →
    Parsed fromReader shorter → ¬ Parsed fromReader token
  altered : ∀ other first old slot third fourth rest,
    takeItem other = some (.array [first, old, third, fourth], rest) →
    takeItem token = some (.array [first, slot, third, fourth], rest) →
    (∀ entries, slot ≠ .map entries) → Parsed fromReader other → ¬ Parsed fromReader token

end Forms

section Acceptance
variable {fromReader : List UInt8 → Except String Value}
  {takeItem : List UInt8 → Option (Value × List UInt8)} {VerifyingKey : Type}
  {es256 : Es256 VerifyingKey} {token : List UInt8} {parsed : ParsedCoseSign1}

theorem bstr_ok {name : String} {v : Value} {data : List UInt8} (ok : bstr name v = .ok data) :
    v = .bytes data := by
  cases v with
  | bytes given =>
    cases ok
    rfl
  | _ => cases ok

/-- What the parser looks at: three slots of four, and the front of two byte strings. -/
theorem parse_cose_sign1_iff (streams : Streams fromReader takeItem) :
    parseCoseSign1 fromReader token = .ok parsed ↔ ∃ slot rest behind,
      takeItem token = some (.array [.bytes parsed.protectedHeader, slot, .bytes parsed.payload,
        .bytes parsed.signature], rest) ∧
      takeItem parsed.protectedHeader = some (parsed.protectedMap, behind) := by
  constructor
  · intro accepted
    unfold parseCoseSign1 at accepted
    split at accepted
    · cases accepted
    · rename_i first slot third fourth read
      obtain ⟨header, isHeader, accepted⟩ := except_bind_ok.mp accepted
      obtain ⟨protectedMap, decoded, accepted⟩ := except_bind_ok.mp accepted
      obtain ⟨payload, isPayload, accepted⟩ := except_bind_ok.mp accepted
      obtain ⟨signature, isSignature, accepted⟩ := except_bind_ok.mp accepted
      cases accepted
      obtain ⟨rest, whole⟩ := (streams.first _ _).mp read
      obtain ⟨behind, inner⟩ := (streams.first _ _).mp (mapError_ok.mp decoded)
      rw [bstr_ok isHeader, bstr_ok isPayload, bstr_ok isSignature] at whole
      exact ⟨slot, rest, behind, whole, inner⟩
    · cases accepted
  · rintro ⟨slot, rest, behind, whole, inner⟩
    have read := (streams.first _ _).mpr ⟨rest, whole⟩
    have decoded := (streams.first _ _).mpr ⟨behind, inner⟩
    simp [parseCoseSign1, read, bstr, decoded, Except.mapError, Bind.bind, Except.bind,
      Pure.pure, Except.pure]

theorem parse_append (streams : Streams fromReader takeItem)
    (accepted : parseCoseSign1 fromReader token = .ok parsed) (suffix : List UInt8) :
    parseCoseSign1 fromReader (token ++ suffix) = .ok parsed := by
  obtain ⟨slot, rest, behind, whole, inner⟩ := (parse_cose_sign1_iff streams).mp accepted
  have longer := streams.fronted.append whole suffix
  exact (parse_cose_sign1_iff streams).mpr ⟨slot, rest ++ suffix, behind, longer, inner⟩

/-- The verdict depends on the token through its parts only. -/
theorem verifyEat_congr {other : List UInt8}
    (same : parseCoseSign1 fromReader token = parseCoseSign1 fromReader other)
    (verifyingKey : VerifyingKey) (swname : String) (digest : Option String)
    (nonce : Option (List UInt8)) :
    verifyEat fromReader es256 token verifyingKey swname digest nonce =
      verifyEat fromReader es256 other verifyingKey swname digest nonce := by
  rw [verifyEat, verifyEat, verifyCoseSign1, verifyCoseSign1, same]

theorem verified_parsed (verified : Verified fromReader es256 token) :
    Parsed fromReader token := by
  obtain ⟨verifyingKey, swname, digest, nonce, result, accepted⟩ := verified
  obtain ⟨payload, checked, _⟩ := except_bind_ok.mp accepted
  unfold verifyCoseSign1 at checked
  cases read : parseCoseSign1 fromReader token with
  | error e =>
    rw [read] at checked
    cases checked
  | ok parsed => exact ⟨parsed, read⟩

theorem inForm_of_parsed (streams : Streams fromReader takeItem) (strict : ¬ Lax takeItem token)
    (accepted : Parsed fromReader token) : InForm takeItem token := by
  obtain ⟨parsed, accepted⟩ := accepted
  obtain ⟨slot, rest, behind, whole, inner⟩ := (parse_cose_sign1_iff streams).mp accepted
  have faultless : ¬ (rest ≠ [] ∨ (∀ entries, slot ≠ .map entries) ∨ behind ≠ []) := by
    intro fault
    exact strict ⟨_, slot, _, _, rest, _, behind, whole, inner, fault⟩
  simp only [not_or, not_not, not_forall] at faultless
  obtain ⟨rfl, ⟨entries, rfl⟩, rfl⟩ := faultless
  exact ⟨_, entries, _, _, _, whole, inner⟩

theorem lax_parsed (streams : Streams fromReader takeItem) (lax : Lax takeItem token) :
    Parsed fromReader token := by
  obtain ⟨header, slot, payload, signature, rest, protectedMap, behind, whole, inner, _⟩ := lax
  exact ⟨⟨header, protectedMap, payload, signature⟩,
    (parse_cose_sign1_iff streams).mpr ⟨slot, rest, behind, whole, inner⟩⟩

theorem not_lax_of_inForm (form : InForm takeItem token) : ¬ Lax takeItem token := by
  rintro ⟨header, slot, payload, signature, rest, protectedMap, behind, whole, inner, fault⟩
  obtain ⟨header', entries, payload', signature', protectedMap', whole', inner'⟩ := form
  rw [whole'] at whole
  cases whole
  rw [inner'] at inner
  cases inner
  rcases fault with tail | slot | tail
  · exact tail rfl
  · exact slot entries rfl
  · exact tail rfl

end Acceptance

/-- Tokens are accepted in one form just as far as they are not lax: a lax token parses, whatever
    follows its items or fills its unprotected slot. -/
theorem one_form_iff {fromReader : List UInt8 → Except String Value}
    {takeItem : List UInt8 → Option (Value × List UInt8)} {VerifyingKey : Type}
    (streams : Streams fromReader takeItem) (es256 : Es256 VerifyingKey) (token : List UInt8) :
    OneForm fromReader takeItem es256 token ↔ ¬ Lax takeItem token := by
  constructor
  · intro form lax
    exact not_lax_of_inForm (form.parsed (lax_parsed streams lax)) lax
  · intro strict
    have inForm := inForm_of_parsed streams strict
    constructor
    · exact inForm
    · intro verified
      exact inForm (verified_parsed verified)
    · rintro shorter suffix rfl more ⟨parsed, accepted⟩ longer
      obtain ⟨slot, rest, behind, whole, _⟩ := (parse_cose_sign1_iff streams).mp accepted
      obtain ⟨header, entries, payload, signature, protectedMap, exact', _⟩ := inForm longer
      rw [streams.fronted.append whole suffix] at exact'
      cases suffix with
      | nil => exact more rfl
      | cons b suffix => simp at exact'
    · intro other first old slot third fourth rest _ whole noMap _ accepted
      obtain ⟨header, entries, payload, signature, protectedMap, exact', _⟩ := inForm accepted
      rw [whole] at exact'
      cases exact'
      exact noMap entries rfl

section Sample

theorem firstItem_streams : Streams firstItem (readItem 256) := by
  constructor
  · exact readItem_fronted 256
  · intro s v
    cases read : readItem 256 s with
    | none => simp [firstItem, read]
    | some taken =>
      obtain ⟨item, rest⟩ := taken
      simp [firstItem, read]

/-- The sample token with another unprotected slot. -/
def reslotted (slot : Value) : Value :=
  .array [.bytes protectedHeader.encode, slot,
    .bytes (encodeClaims (sampleClaims [5] 1700000000)).encode,
    .bytes (List.replicate 64 1)]

theorem sampleToken_eq : sampleToken [5] 1700000000 = (reslotted (.map [])).encode := by
  decide +kernel

theorem sampleToken_verified :
    verifyEat firstItem stamped (sampleToken [5] 1700000000) () defaultSwname
      (some "sha256:1f") (some [5]) =
      .ok ⟨[5], defaultSwname, "sha256:1f", "intel-tdx", 1700000000⟩ := by
  have built : buildEat stamp (sampleClaims [5] 1700000000) () =
      .ok (sampleToken [5] 1700000000) := by decide +kernel
  rw [verifyEat_built firstItem_readsBack stamped_matches built (by decide +kernel),
    validateClaims_encodeClaims firstItem_readsBack (by decide +kernel)]
  decide +kernel

theorem reslotted_parsed {slot : Value} (nested : slot.Nested 255)
    (fits : (reslotted slot).encode.length < 2 ^ 64) :
    parseCoseSign1 firstItem (reslotted slot).encode = .ok ⟨protectedHeader.encode, protectedHeader,
      (encodeClaims (sampleClaims [5] 1700000000)).encode, List.replicate 64 1⟩ := by
  have whole : (reslotted slot).Nested 256 := by
    refine .array ?_
    simp only [List.forall_mem_cons, List.not_mem_nil, false_implies, implies_true, and_true]
    exact ⟨.bytes, nested, .bytes, .bytes⟩
  have taken := readItem_encode whole fits []
  have header := readItem_encode (nested_protectedHeader 255) (by decide +kernel) []
  rw [List.append_nil] at taken header
  exact (parse_cose_sign1_iff firstItem_streams).mpr ⟨slot, [], [], taken, header⟩

/-- Two tokens that verify beside the one that was built: a byte follows it, or a number stands in
    its unprotected slot. -/
theorem second_form_verified :
    (verifyEat firstItem stamped (sampleToken [5] 1700000000 ++ [0]) () defaultSwname
        (some "sha256:1f") (some [5]) =
        .ok ⟨[5], defaultSwname, "sha256:1f", "intel-tdx", 1700000000⟩ ∧
      ¬ OneForm firstItem (readItem 256) stamped (sampleToken [5] 1700000000 ++ [0])) ∧
    verifyEat firstItem stamped (reslotted (.integer 0)).encode () defaultSwname
      (some "sha256:1f") (some [5]) =
      .ok ⟨[5], defaultSwname, "sha256:1f", "intel-tdx", 1700000000⟩ := by
  have first : (Value.map []).Nested 255 := nested_entries (by simp)
  have second : (Value.integer 0).Nested 255 := .integer (by decide) (by decide)
  have built := reslotted_parsed first (by decide +kernel)
  have altered := reslotted_parsed second (by decide +kernel)
  rw [← sampleToken_eq] at built
  have longer := parse_append firstItem_streams built [0]
  refine ⟨⟨?_, ?_⟩, ?_⟩
  · rw [verifyEat_congr (longer.trans built.symm)]
    exact sampleToken_verified
  · intro form
    exact form.appended (sampleToken [5] 1700000000) [0] rfl (by decide) ⟨_, built⟩ ⟨_, longer⟩
  · rw [verifyEat_congr (altered.trans built.symm)]
    exact sampleToken_verified

theorem one_form_iff_sample :
    Streams firstItem (readItem 256) ∧
    (OneForm firstItem (readItem 256) stamped (sampleToken [5] 1700000000 ++ [0]) ↔
      ¬ Lax (readItem 256) (sampleToken [5] 1700000000 ++ [0])) :=
  ⟨firstItem_streams, one_form_iff firstItem_streams stamped _⟩

end Sample

end Attestation
