import VerifiableRag.Flare.FdcEncoder
import VerifiableRag.Library.Results

/-!
What `decode_web2json_request` accepts, against what `encode_web2json_request` produces.
-/
namespace Flare
open Bytes Json Results

section Reading
variable {data : List UInt8} {r : RequestBody}

/-- The seven strings that standard ABI decoding finds behind a header of 96 bytes. -/
def Reads (data : List UInt8) (r : RequestBody) : Prop :=
  96 ≤ data.length ∧ ∃ fields strings, Abi.decodeTuple 7 (data.drop 96) = some fields ∧
    fields.mapM decodeUtf8 = some strings ∧ RequestBody.ofStrings strings = some r

theorem decode_ok_iff : decodeWeb2JsonRequest data = .ok r ↔ Reads data r := by
  rw [decodeWeb2JsonRequest, Reads]
  by_cases short : data.length < 96
  · rw [if_pos short]
    refine iff_of_false ?_ fun h => absurd h.1 (Nat.not_le.mpr short)
    intro ok
    cases ok
  · rw [if_neg short, and_iff_right (Nat.not_lt.mp short)]
    dsimp only
    split
    · rename_i body found
      rw [Except.ok.injEq]
      simp only [Option.bind_eq_bind, Option.bind_eq_some_iff] at found
      obtain ⟨fields, decoded, strings, read, given⟩ := found
      constructor
      · rintro rfl
        exact ⟨fields, strings, decoded, read, given⟩
      · rintro ⟨fields', strings', decoded', read', given'⟩
        rw [decoded] at decoded'
        cases decoded'
        rw [read] at read'
        cases read'
        rw [given] at given'
        exact Option.some.inj given'
    · rename_i failed
      constructor
      · intro ok
        cases ok
      · rintro ⟨fields, strings, decoded, read, given⟩
        simp [decoded, read, given] at failed

theorem decode_raises {e : FdcRaised} (failed : decodeWeb2JsonRequest data = .error e) :
    ∃ error, e = .encoding error := by
  rw [decodeWeb2JsonRequest] at failed
  split at failed
  · cases failed
    exact ⟨_, rfl⟩
  · dsimp only at failed
    split at failed
    · cases failed
    · cases failed
      exact ⟨_, rfl⟩

theorem decodeUtf8_encodable {b : List UInt8} {s : UniText} (read : decodeUtf8 b = some s) :
    s.Encodable := by
  unfold decodeUtf8 at read
  split at read
  · rename_i given
    cases read
    exact (Bool.and_eq_true_iff.mp given.1).2
  · cases read

theorem mapM_decodeUtf8_encodable {fields : List (List UInt8)} {strings : List UniText}
    (read : fields.mapM decodeUtf8 = some strings) : ∀ s ∈ strings, s.Encodable := by
  induction fields generalizing strings with
  | nil =>
    cases read
    simp
  | cons field fields ih =>
    simp only [List.mapM_cons, Option.bind_eq_bind, Option.bind_eq_some_iff] at read
    obtain ⟨s, first, rest, later, same⟩ := read
    cases same
    exact List.forall_mem_cons.mpr ⟨decodeUtf8_encodable first, ih later⟩

theorem ofStrings_strings {strings : List UniText} (given : RequestBody.ofStrings strings = some r) :
    r.strings = strings := by
  unfold RequestBody.ofStrings at given
  split at given
  · cases given
    rfl
  · cases given

theorem reads_encodable (read : Reads data r) : r.Encodable := by
  obtain ⟨_, fields, strings, _, decoded, given⟩ := read
  rw [RequestBody.Encodable, ofStrings_strings given]
  exact mapM_decodeUtf8_encodable decoded

end Reading

section Encoding
variable {depth : Nat} {r : RequestBody} {type source : UniText} {code data : List UInt8}

theorem padUtf8Bytes32_iff {value : UniText} {word : List UInt8} :
    padUtf8Bytes32 value = .ok word ↔ IsId value ∧ padTo32 value.bytes = word := by
  constructor
  · intro ok
    unfold padUtf8Bytes32 at ok
    split at ok
    · cases ok
    · rename_i given
      obtain ⟨raw, encoded, ok⟩ := except_bind_ok.mp ok
      have encodable : value.Encodable := by
        by_contra lone
        rw [encodeUtf8_error lone] at encoded
        cases encoded
      rw [encodeUtf8_ok encodable] at encoded
      cases encoded
      split at ok
      · cases ok
      · rename_i fits
        cases ok
        exact ⟨⟨encodable, given, Nat.not_lt.mp fits⟩, rfl⟩
  · rintro ⟨id, rfl⟩
    exact padUtf8Bytes32_ok id

/-- What the encoder produces, of what it accepts. -/
theorem encode_ok_iff : encodeWeb2JsonRequest depth r type source (some code) = .ok data ↔
    validateRequestBody depth r = .ok () ∧ code.length = 32 ∧ IsId type ∧ IsId source ∧
      r.Encodable ∧ requestBytes type source code r = data := by
  constructor
  · intro ok
    rw [encodeWeb2JsonRequest] at ok
    obtain ⟨_, valid, ok⟩ := except_bind_ok.mp ok
    rw [Option.getD_some] at ok
    by_cases size : code.length = 32
    · rw [if_neg (not_not.mpr size)] at ok
      obtain ⟨first, padded, ok⟩ := except_bind_ok.mp ok
      obtain ⟨second, padded', ok⟩ := except_bind_ok.mp ok
      obtain ⟨fields, encoded, same⟩ := except_bind_ok.mp ok
      cases same
      obtain ⟨typeId, rfl⟩ := padUtf8Bytes32_iff.mp padded
      obtain ⟨sourceId, rfl⟩ := padUtf8Bytes32_iff.mp padded'
      have encodable : r.Encodable := by
        by_contra lone
        rw [mapM_encodeUtf8_error lone] at encoded
        cases encoded
      rw [mapM_encodeUtf8 encodable] at encoded
      cases encoded
      exact ⟨valid, size, typeId, sourceId, encodable, rfl⟩
    · rw [if_pos size] at ok
      cases ok
  · rintro ⟨valid, size, typeId, sourceId, encodable, rfl⟩
    rw [@encode_validated depth r type source valid typeId sourceId (some code) size,
      mapM_encodeUtf8 encodable]
    rfl

/-- Standard decoding behind any header. -/
theorem reads_header {header : List UInt8} (size : header.length = 96) (encodable : r.Encodable) :
    Reads (header ++ Abi.encodeTuple (r.strings.map UniText.bytes)) r := by
  refine ⟨by rw [List.length_append, size]; omega, _, _, ?_, mapM_decodeUtf8 encodable, rfl⟩
  rw [List.drop_left' size]
  exact encodeTuple_strings r

end Encoding

section Validation
variable (depth : Nat) (data : List UInt8)

/-- Only encodings of requests are decoded, and to the request that encodes to them again; the
    rest raises the typed error. -/
structure Validates : Prop where
  accepts : ∀ r, decodeWeb2JsonRequest data = .ok r → ∃ type source code,
    encodeWeb2JsonRequest depth r type source (some code) = .ok data
  raises : ∀ e, decodeWeb2JsonRequest data = .error e → ∃ error, e = .encoding error

def IsIdWord (word : List UInt8) : Prop := ∃ value, IsId value ∧ padTo32 value.bytes = word

/-- The checks that the decoder leaves out, on the strings found in the data. -/
structure Sound (r : RequestBody) : Prop where
  type : IsIdWord (data.take 32)
  source : IsIdWord ((data.drop 32).take 32)
  rules : validateRequestBody depth r = .ok ()
  canonical : data.drop 96 = Abi.encodeTuple (r.strings.map UniText.bytes)

variable {depth data} {r : RequestBody}

theorem header_split (data : List UInt8) : data.take 32 ++ (data.drop 32).take 32 ++
    (data.drop 64).take 32 ++ data.drop 96 = data := by
  have third : (data.drop 64).take 32 ++ data.drop 96 = data.drop 64 := by
    have tail : data.drop 96 = (data.drop 64).drop 32 := by rw [List.drop_drop]
    rw [tail, List.take_append_drop]
  have second : (data.drop 32).take 32 ++ data.drop 64 = data.drop 32 := by
    have tail : data.drop 64 = (data.drop 32).drop 32 := by rw [List.drop_drop]
    rw [tail, List.take_append_drop]
  rw [List.append_assoc, third, List.append_assoc, second, List.take_append_drop]

theorem sound_iff (read : Reads data r) : Sound depth data r ↔
    ∃ type source code, encodeWeb2JsonRequest depth r type source (some code) = .ok data := by
  constructor
  · intro sound
    obtain ⟨type, typeId, first⟩ := sound.type
    obtain ⟨source, sourceId, second⟩ := sound.source
    refine ⟨type, source, (data.drop 64).take 32, ?_⟩
    rw [encode_ok_iff]
    refine ⟨sound.rules, ?_, typeId, sourceId, reads_encodable read, ?_⟩
    · have long := read.1
      rw [List.length_take, List.length_drop]
      omega
    · rw [requestBytes, first, second, ← sound.canonical]
      exact header_split data
  · rintro ⟨type, source, code, ok⟩
    obtain ⟨valid, size, typeId, sourceId, _, rfl⟩ := encode_ok_iff.mp ok
    have first := padTo32_length typeId.fits
    have second := padTo32_length sourceId.fits
    rw [requestBytes]
    refine ⟨⟨type, typeId, ?_⟩, ⟨source, sourceId, ?_⟩, valid, ?_⟩
    · rw [List.append_assoc, List.append_assoc, List.take_left' first]
    · rw [List.append_assoc, List.append_assoc, List.drop_left' first, List.take_left' second]
    · rw [List.drop_left']
      rw [List.length_append, List.length_append, first, second, size]

/-- The decoder checks the length and the ABI shape, and nothing else. -/
theorem validates_iff (depth : Nat) (data : List UInt8) :
    Validates depth data ↔ ∀ r, Reads data r → Sound depth data r := by
  constructor
  · intro validates r read
    exact (sound_iff read).mpr (validates.accepts r (decode_ok_iff.mpr read))
  · intro sound
    refine ⟨?_, fun e => decode_raises⟩
    intro r decoded
    have read := decode_ok_iff.mp decoded
    exact (sound_iff read).mp (sound r read)

/-- A request for the price of an API. -/
def sampleRequest : RequestBody where
  url := ⟨utf8 "https://api.example.com", by decide, by decide⟩
  httpMethod := methodGet
  headers := emptyMembers
  queryParams := emptyMembers
  body := emptyMembers
  postProcessJq := ⟨utf8 ".price", by decide, by decide⟩
  abiSignature := ⟨utf8 "uint256", by decide, by decide⟩

/-- Behind a header of bytes that are no text, the request is decoded all the same. -/
theorem headerless_accepted : ¬ Validates 900
    (List.replicate 96 0xFF ++ Abi.encodeTuple (sampleRequest.strings.map UniText.bytes)) := by
  intro validates
  have read := @reads_header sampleRequest (List.replicate 96 0xFF) rfl (by decide)
  obtain ⟨type, source, code, ok⟩ := validates.accepts _ (decode_ok_iff.mpr read)
  obtain ⟨value, id, same⟩ := ((sound_iff read).mpr ⟨type, source, code, ok⟩).type
  have text := value.wellFormed
  have given := id.given
  cases first : value.bytes with
  | nil => exact given first
  | cons b rest =>
    rw [first] at same text
    have same' : b :: (rest ++ List.replicate (32 - (b :: rest).length) 0) = List.replicate 32 0xFF :=
      same
    injection same' with here _
    rw [here] at text
    unfold Unicode.wellFormed at text
    cases text

end Validation

end Flare
