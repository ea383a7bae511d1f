import VerifiableRag.Processor.Payload

/-!
The two inbound paths: `EphemeralProcessor` behind `/v1/query` and `ClientPayloadCipher`
behind `/v1/attestation-proof`, on the same envelopes.
-/
namespace Processor
open Bytes CodePoints Json Crypto Results

/-- The plaintext an envelope authenticates under a key. -/
def opened (aesgcm : AESGCM) (key : Key GCM_KEY_LEN) (envelope : List UInt8) :
    Option (List UInt8) :=
  if GCM_MIN_WIRE_LEN ≤ envelope.length ∧ envelope.length ≤ MAX_ENCRYPTED_PAYLOAD_BYTES then
    aesgcm.decrypt key (envelope.take GCM_NONCE_LEN) AES_GCM_AAD (envelope.drop GCM_NONCE_LEN)
  else none

section Framing
variable {aesgcm : AESGCM} {key : Key GCM_KEY_LEN} {envelope plain : List UInt8}

theorem opened_some :
    opened aesgcm key envelope = some plain ↔
      GCM_MIN_WIRE_LEN ≤ envelope.length ∧ envelope.length ≤ MAX_ENCRYPTED_PAYLOAD_BYTES ∧
        aesgcm.decrypt key (envelope.take GCM_NONCE_LEN) AES_GCM_AAD
          (envelope.drop GCM_NONCE_LEN) = some plain := by
  unfold opened
  split
  · rename_i within
    exact ⟨fun same => ⟨within.1, within.2, same⟩, fun h => h.2.2⟩
  · rename_i outside
    exact ⟨nofun, fun h => absurd ⟨h.1, h.2.1⟩ outside⟩

theorem checkEnvelope_ok {u : Unit} :
    checkEnvelope envelope = .ok u ↔
      GCM_MIN_WIRE_LEN ≤ envelope.length ∧ envelope.length ≤ MAX_ENCRYPTED_PAYLOAD_BYTES := by
  have cap : Crypto.MAX_ENCRYPTED_PAYLOAD_BYTES = MAX_ENCRYPTED_PAYLOAD_BYTES := rfl
  unfold checkEnvelope
  rw [cap]
  split
  · exact ⟨nofun, fun h => absurd h.1 (by omega)⟩
  split
  · exact ⟨nofun, fun h => absurd h.2 (by omega)⟩
  · exact ⟨fun _ => ⟨by omega, by omega⟩, fun _ => rfl⟩

theorem decryptAesGcm_ok (long : GCM_MIN_WIRE_LEN ≤ envelope.length) :
    decryptAesGcm aesgcm key envelope Crypto.AES_GCM_AAD = .ok plain ↔
      aesgcm.decrypt key (envelope.take GCM_NONCE_LEN) AES_GCM_AAD
        (envelope.drop GCM_NONCE_LEN) = some plain := by
  have aad : Crypto.AES_GCM_AAD = AES_GCM_AAD := rfl
  rw [decryptAesGcm, validateAesKey_ok key.property, aad]
  change (if _ then _ else _) = _ ↔ _
  rw [if_neg (by omega)]
  cases aesgcm.decrypt key (envelope.take GCM_NONCE_LEN) AES_GCM_AAD
    (envelope.drop GCM_NONCE_LEN) with
  | none =>
    constructor
    · intro ok
      cases ok
    · intro found
      cases found
  | some plaintext => exact ok_iff_some

theorem decryptBytes_ok :
    (ClientPayloadCipher.mk key).decryptBytes aesgcm envelope = .ok plain ↔
      opened aesgcm key envelope = some plain := by
  rw [opened_some]
  simp only [ClientPayloadCipher.decryptBytes, except_bind_ok, checkEnvelope_ok, mapError_ok]
  constructor
  · intro ok
    obtain ⟨_, ⟨long, short⟩, decrypted⟩ := ok
    exact ⟨long, short, (decryptAesGcm_ok long).mp decrypted⟩
  · intro ok
    obtain ⟨long, short, decrypted⟩ := ok
    exact ⟨(), ⟨long, short⟩, (decryptAesGcm_ok long).mpr decrypted⟩

theorem checkCap_ok {u : Unit} :
    checkCap envelope = .ok u ↔ envelope.length ≤ MAX_ENCRYPTED_PAYLOAD_BYTES := by
  unfold checkCap
  split
  · exact ⟨nofun, fun _ => by omega⟩
  · exact ⟨fun _ => by omega, fun _ => rfl⟩

theorem decryptPayload_ok :
    decryptPayload aesgcm key envelope = .ok plain ↔
      GCM_MIN_WIRE_LEN ≤ envelope.length ∧
        aesgcm.decrypt key (envelope.take GCM_NONCE_LEN) AES_GCM_AAD
          (envelope.drop GCM_NONCE_LEN) = some plain := by
  have framing : GCM_NONCE_LEN + 16 = GCM_MIN_WIRE_LEN := rfl
  unfold decryptPayload
  rw [framing]
  split
  · exact ⟨nofun, fun h => absurd h.1 (by omega)⟩
  · rename_i long
    rw [Nat.not_lt] at long
    cases aesgcm.decrypt key (envelope.take GCM_NONCE_LEN) AES_GCM_AAD
      (envelope.drop GCM_NONCE_LEN) with
    | none => exact ⟨nofun, fun h => nomatch h.2⟩
    | some plaintext => exact ok_iff_some.trans (and_iff_right long).symm

theorem openPayload_ok {limit : Nat} {validationText : List UInt8 → Str}
    {payload : DecryptedPayload} :
    openPayload aesgcm limit validationText key envelope = .ok payload ↔
      ∃ plain, opened aesgcm key envelope = some plain ∧
        DecryptedPayload.modelValidateJson limit plain = some payload := by
  have validated : ∀ plain, validatePayload limit validationText plain = .ok payload ↔
      DecryptedPayload.modelValidateJson limit plain = some payload := by
    intro plain
    unfold validatePayload
    cases DecryptedPayload.modelValidateJson limit plain with
    | none => exact ⟨nofun, nofun⟩
    | some found => exact ok_iff_some
  simp only [openPayload, except_bind_ok, checkCap_ok, decryptPayload_ok, validated, opened_some]
  constructor
  · intro ok
    obtain ⟨_, short, plain, ⟨long, decrypted⟩, payload⟩ := ok
    exact ⟨plain, ⟨long, short, decrypted⟩, payload⟩
  · intro ok
    obtain ⟨plain, ⟨long, short, decrypted⟩, payload⟩ := ok
    exact ⟨(), short, plain, ⟨long, decrypted⟩, payload⟩

end Framing

section Plaintext

/-- A JSON object of exactly two texts, neither of them empty. -/
structure TwoTexts (plain : List UInt8) (members : List (Text × Value)) (document prompt : Text) :
    Prop where
  utf8 : Unicode.isUtf8 plain
  reads : ∃ depth, decodeJson depth plain = .ok (.obj members)
  fields : exactFields members = some (.str document, .str prompt)
  nonempty : document ≠ [] ∧ prompt ≠ []
  encodable : Unicode.encodable document ∧ Unicode.encodable prompt

theorem exactFields_lookup {members : List (Text × Value)} {document prompt : Value}
    (fields : exactFields members = some (document, prompt)) :
    lookup members documentName = some document ∧ lookup members promptName = some prompt := by
  unfold exactFields at fields
  split at fields
  · split at fields
    · rename_i d p first second
      cases fields
      exact ⟨first, second⟩
    · cases fields
  · cases fields

theorem checkTextField_ok {name : String} {value : Value} {text : Text} :
    checkTextField name value = .ok text ↔
      value = .str text ∧ PyStr.strip text ≠ [] ∧ Unicode.encodable text ∧
        text.length ≤ MAX_CLIENT_TEXT_BYTES := by
  unfold checkTextField
  split
  · rename_i value
    split
    · rename_i blank
      constructor
      · nofun
      · intro h
        cases h.1
        exact absurd blank h.2.1
    split
    · rename_i surrogate
      constructor
      · nofun
      · intro h
        cases h.1
        exact absurd h.2.2.1 surrogate
    split
    · constructor
      · nofun
      · intro h
        cases h.1
        have := h.2.2.2
        omega
    · rename_i solid encodable short
      constructor
      · intro same
        cases same
        exact ⟨rfl, solid, not_not.mp encodable, by omega⟩
      · intro h
        cases h.1
        rfl
  · rename_i other
    exact ⟨nofun, fun h => absurd h.1 (other text)⟩

theorem parsePayload_ok {depth : Nat} {plain : List UInt8} {document prompt : Text} :
    parsePayload depth plain = .ok (document, prompt) ↔
      Unicode.isUtf8 plain ∧ ∃ members, decodeJson depth plain = .ok (.obj members) ∧
        exactFields members = some (.str document, .str prompt) ∧
          (PyStr.strip document ≠ [] ∧ Unicode.encodable document ∧
            document.length ≤ MAX_CLIENT_TEXT_BYTES) ∧
          (PyStr.strip prompt ≠ [] ∧ Unicode.encodable prompt ∧
            prompt.length ≤ MAX_CLIENT_TEXT_BYTES) := by
  constructor
  · intro ok
    unfold parsePayload at ok
    split at ok
    · rename_i utf8
      split at ok
      · rename_i members reads
        split at ok
        · rename_i d p fields
          simp only [except_bind_ok, except_pure_ok] at ok
          obtain ⟨document', first, prompt', second, same⟩ := ok
          cases same
          obtain ⟨rfl, solid⟩ := checkTextField_ok.mp first
          obtain ⟨rfl, solid'⟩ := checkTextField_ok.mp second
          exact ⟨utf8, members, reads, fields, solid, solid'⟩
        · cases ok
      all_goals cases ok
    · cases ok
  · intro h
    obtain ⟨utf8, members, reads, fields, first, second⟩ := h
    rw [parsePayload, if_pos utf8, reads]
    simp only [fields, except_bind_ok, except_pure_ok]
    exact ⟨document, checkTextField_ok.mpr ⟨rfl, first⟩, prompt, checkTextField_ok.mpr ⟨rfl, second⟩,
      rfl⟩

theorem modelValidateJson_some {limit : Nat} {plain : List UInt8} {payload : DecryptedPayload} :
    DecryptedPayload.modelValidateJson limit plain = some payload ↔
      Unicode.isUtf8 plain ∧ ∃ members, decodeJson limit plain = .ok (.obj members) ∧
        membersEncodable members ∧
          exactFields members = some (.str payload.document, .str payload.prompt) := by
  constructor
  · intro found
    obtain ⟨value, read, valid⟩ := Option.bind_eq_some_iff.mp found
    unfold readJson at read
    split at read
    · rename_i utf8
      split at read
      · rename_i value' reads
        split at read
        · rename_i clean
          cases read
          unfold DecryptedPayload.validate at valid
          split at valid
          · rename_i members
            split at valid
            · rename_i document prompt fields
              split at valid
              · cases valid
                exact ⟨utf8, members, reads, clean, fields⟩
              · cases valid
            · cases valid
          · cases valid
        · cases read
      · cases read
    · cases read
  · intro h
    obtain ⟨utf8, members, reads, clean, fields⟩ := h
    have value : (Value.obj members).encodable = true := clean
    have sized := And.intro payload.documentSized payload.promptSized
    simp only [DecryptedPayload.modelValidateJson, readJson, utf8, if_true, reads, value,
      Option.bind_some, DecryptedPayload.validate, fields, dif_pos sized]

theorem TwoTexts.lengths {plain : List UInt8} {members : List (Text × Value)}
    {document prompt : Text} (texts : TwoTexts plain members document prompt) :
    document.length ≤ plain.length ∧ prompt.length ≤ plain.length := by
  obtain ⟨depth, reads⟩ := texts.reads
  obtain ⟨first, second⟩ := exactFields_lookup texts.fields
  exact ⟨(decodeJson_fit reads).lookup first, (decodeJson_fit reads).lookup second⟩

theorem sized_of {t : Text} (nonempty : t ≠ []) (short : t.length ≤ MAX_ENCRYPTED_PAYLOAD_BYTES) :
    Sized t := ⟨Unicode.chars_pos.mpr nonempty, Nat.le_trans (Unicode.chars_le t) short⟩

/-- The schema takes a plaintext of two texts that pydantic's reader gets through. -/
theorem validates_within {limit : Nat} {plain : List UInt8} {document prompt : Text}
    (short : plain.length ≤ MAX_ENCRYPTED_PAYLOAD_BYTES) :
    (DecryptedPayload.modelValidateJson limit plain).map (fun p => (p.document, p.prompt)) =
        some (document, prompt) ↔
      ∃ members, TwoTexts plain members document prompt ∧
        decodeJson limit plain = .ok (.obj members) ∧ membersEncodable members := by
  rw [Option.map_eq_some_iff]
  constructor
  · intro accepted
    obtain ⟨payload, found, same⟩ := accepted
    cases same
    obtain ⟨utf8, members, reads, clean, fields⟩ := modelValidateJson_some.mp found
    obtain ⟨first, second⟩ := exactFields_lookup fields
    have nonempty : payload.document ≠ [] ∧ payload.prompt ≠ [] :=
      ⟨Unicode.chars_pos.mp payload.documentSized.1, Unicode.chars_pos.mp payload.promptSized.1⟩
    exact ⟨members, ⟨utf8, ⟨limit, reads⟩, fields, nonempty, lookup_encodable clean first,
      lookup_encodable clean second⟩, reads, clean⟩
  · intro accepted
    obtain ⟨members, texts, reads, clean⟩ := accepted
    obtain ⟨first, second⟩ := texts.lengths
    let payload : DecryptedPayload :=
      ⟨document, prompt, sized_of texts.nonempty.1 (Nat.le_trans first short),
        sized_of texts.nonempty.2 (Nat.le_trans second short)⟩
    exact ⟨payload, modelValidateJson_some.mpr ⟨texts.utf8, members, reads, clean, texts.fields⟩, rfl⟩

theorem strip_nonempty {t : Text} (solid : PyStr.strip t ≠ []) : t ≠ [] := by
  intro empty
  rw [empty] at solid
  exact solid rfl

/-- `_parse_payload` takes a plaintext of two texts, neither of white space only. -/
theorem parses_iff {depth : Nat} {plain : List UInt8} {document prompt : Text}
    (short : plain.length ≤ MAX_CLIENT_TEXT_BYTES) :
    parsePayload depth plain = .ok (document, prompt) ↔
      ∃ members, TwoTexts plain members document prompt ∧
        decodeJson depth plain = .ok (.obj members) ∧
          PyStr.strip document ≠ [] ∧ PyStr.strip prompt ≠ [] := by
  rw [parsePayload_ok]
  constructor
  · intro accepted
    obtain ⟨utf8, members, reads, fields, ⟨solid, clean, _⟩, solid', clean', _⟩ := accepted
    exact ⟨members, ⟨utf8, ⟨depth, reads⟩, fields, ⟨strip_nonempty solid, strip_nonempty solid'⟩,
      clean, clean'⟩, reads, solid, solid'⟩
  · intro accepted
    obtain ⟨members, texts, reads, solid, solid'⟩ := accepted
    obtain ⟨first, second⟩ := texts.lengths
    exact ⟨texts.utf8, members, reads, texts.fields,
      ⟨solid, texts.encodable.1, Nat.le_trans first short⟩,
      solid', texts.encodable.2, Nat.le_trans second short⟩

/-- On a plaintext of two texts, pydantic's reader gets through it just when `json.loads`
    does and neither text is white space only. -/
def SameReading (limit depth : Nat) (plain : List UInt8) : Prop :=
  ∀ members document prompt, TwoTexts plain members document prompt →
    ((decodeJson limit plain = .ok (.obj members) ∧ membersEncodable members) ↔
      (decodeJson depth plain = .ok (.obj members) ∧
        PyStr.strip document ≠ [] ∧ PyStr.strip prompt ≠ []))

theorem TwoTexts.same_members {plain : List UInt8} {members members' : List (Text × Value)}
    {document prompt : Text} {depth : Nat} (texts : TwoTexts plain members document prompt)
    (reads : decodeJson depth plain = .ok (.obj members')) : members' = members := by
  obtain ⟨depth', reads'⟩ := texts.reads
  exact Value.obj.inj (decodeJson_agree reads reads')

theorem sameReading_iff {limit depth : Nat} {plain : List UInt8}
    (short : plain.length ≤ MAX_CLIENT_TEXT_BYTES) :
    (∀ document prompt,
        (DecryptedPayload.modelValidateJson limit plain).map (fun p => (p.document, p.prompt)) =
            some (document, prompt) ↔
          parsePayload depth plain = .ok (document, prompt)) ↔
      SameReading limit depth plain := by
  have cap : plain.length ≤ MAX_ENCRYPTED_PAYLOAD_BYTES := short
  simp only [validates_within cap, parses_iff short]
  constructor
  · intro agree members document prompt texts
    constructor
    · intro accepted
      obtain ⟨members', _, reads, solid⟩ := (agree document prompt).mp ⟨members, texts, accepted⟩
      cases texts.same_members reads
      exact ⟨reads, solid⟩
    · intro accepted
      obtain ⟨members', _, reads, clean⟩ := (agree document prompt).mpr ⟨members, texts, accepted⟩
      cases texts.same_members reads
      exact ⟨reads, clean⟩
  · intro same document prompt
    constructor
    · intro accepted
      obtain ⟨members, texts, accepted⟩ := accepted
      exact ⟨members, texts, (same members document prompt texts).mp accepted⟩
    · intro accepted
      obtain ⟨members, texts, accepted⟩ := accepted
      exact ⟨members, texts, (same members document prompt texts).mpr accepted⟩

end Plaintext

section Paths
variable {aesgcm : AESGCM} {key : Key GCM_KEY_LEN} {envelope : List UInt8}

theorem openPayload_texts {limit : Nat} {validationText : List UInt8 → Str} {texts : Text × Text} :
    (openPayload aesgcm limit validationText key envelope).toOption.map
        (fun p => (p.document, p.prompt)) = some texts ↔
      ∃ plain, opened aesgcm key envelope = some plain ∧
        (DecryptedPayload.modelValidateJson limit plain).map (fun p => (p.document, p.prompt)) =
          some texts := by
  simp only [Option.map_eq_some_iff, toOption_some, openPayload_ok]
  constructor
  · intro accepted
    obtain ⟨payload, ⟨plain, opened, found⟩, same⟩ := accepted
    exact ⟨plain, opened, payload, found, same⟩
  · intro accepted
    obtain ⟨plain, opened, payload, found, same⟩ := accepted
    exact ⟨payload, ⟨plain, opened, found⟩, same⟩

theorem decryptPayload_texts {depth : Nat} {texts : Text × Text} :
    ((ClientPayloadCipher.mk key).decryptPayload aesgcm depth envelope).toOption.map
        (fun p => (p.document, p.prompt)) = some texts ↔
      ∃ plain, opened aesgcm key envelope = some plain ∧ parsePayload depth plain = .ok texts := by
  simp only [Option.map_eq_some_iff, toOption_some, ClientPayloadCipher.decryptPayload,
    except_bind_ok, except_pure_ok, decryptBytes_ok]
  constructor
  · intro accepted
    obtain ⟨payload, ⟨plain, opened, parsed, ok, rfl⟩, rfl⟩ := accepted
    exact ⟨plain, opened, ok⟩
  · intro accepted
    obtain ⟨plain, opened, ok⟩ := accepted
    exact ⟨⟨texts.1, texts.2, plain⟩, ⟨plain, opened, texts, ok, rfl⟩, rfl⟩

/-- The processor and the gateway's cipher accept an envelope alike, with the same texts, just
    when its plaintext reads the same on both sides. -/
theorem inbound_paths_agree_iff
    (sized : ∀ k n a c m, aesgcm.decrypt k n a c = some m → m.length + GCM_TAG_LEN ≤ c.length)
    (limit depth : Nat) (validationText : List UInt8 → Str) (key : Key GCM_KEY_LEN)
    (envelope : List UInt8) :
    (openPayload aesgcm limit validationText key envelope).toOption.map
          (fun p => (p.document, p.prompt)) =
        ((ClientPayloadCipher.mk key).decryptPayload aesgcm depth envelope).toOption.map
          (fun p => (p.document, p.prompt)) ↔
      ∀ plain, opened aesgcm key envelope = some plain → SameReading limit depth plain := by
  rw [Option.ext_iff]
  simp only [openPayload_texts, decryptPayload_texts]
  cases found : opened aesgcm key envelope with
  | none => exact ⟨fun _ => nofun, fun _ texts => ⟨nofun, nofun⟩⟩
  | some plain =>
    obtain ⟨_, within, decrypted⟩ := opened_some.mp found
    have short : plain.length ≤ MAX_CLIENT_TEXT_BYTES := by
      have fits := sized _ _ _ _ _ decrypted
      rw [List.length_drop] at fits
      exact Nat.le_trans (by omega) within
    simp only [Option.some.injEq, exists_eq_left', forall_eq', Prod.forall]
    exact sameReading_iff short

end Paths

section Examples

def sampleKey : Key GCM_KEY_LEN := ⟨List.replicate 32 7, rfl⟩

/-- The envelope of a plaintext whose document is one space, under the nonce of all ones. -/
def blankEnvelope : List UInt8 :=
  List.replicate 12 1 ++
    Aead.transparent.encrypt sampleKey (List.replicate 12 1) AES_GCM_AAD
      (utf8 "\x7b\"document\":\" \",\"prompt\":\"q\"\x7d")

theorem inbound_paths_agree_iff_blank :
    (openPayload Aead.transparent 200 (fun _ => []) sampleKey blankEnvelope).toOption.map
          (fun p => (p.document, p.prompt)) =
        ((ClientPayloadCipher.mk sampleKey).decryptPayload Aead.transparent 900
          blankEnvelope).toOption.map (fun p => (p.document, p.prompt)) ↔
      ∀ plain, opened Aead.transparent sampleKey blankEnvelope = some plain →
        SameReading 200 900 plain :=
  inbound_paths_agree_iff Aead.transparent_sized 200 900 (fun _ => []) sampleKey blankEnvelope

theorem blank_document_parts :
    (openPayload Aead.transparent 200 (fun _ => []) sampleKey blankEnvelope).toOption.map
        (fun p => (p.document, p.prompt)) = some (utf8 " ", utf8 "q") ∧
      (ClientPayloadCipher.mk sampleKey).decryptPayload Aead.transparent 900 blankEnvelope =
        .error (notText "document") := by
  decide +kernel

end Examples

end Processor
