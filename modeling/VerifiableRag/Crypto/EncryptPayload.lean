import VerifiableRag.Library.JsonAscii
import VerifiableRag.Processor.InboundPaths

/-!
`ClientPayloadCipher` from both ends: the envelope that `encrypt_payload` writes, what
`decrypt_payload` makes of it, and the plaintext buffer that it leaves behind.
-/
namespace Crypto
open Bytes (forall_listed)
open CodePoints Json Results

section Buffers

def zeroize (buffer : List UInt8) : List UInt8 := List.replicate buffer.length 0

def IsZero (buffer : List UInt8) : Prop := ∀ b ∈ buffer, b = 0

theorem zeroize_zero (buffer : List UInt8) : IsZero (zeroize buffer) := by
  intro b listed
  exact List.eq_of_mem_replicate listed

namespace DecryptedClientPayload

def scrub (payload : DecryptedClientPayload) : DecryptedClientPayload :=
  { payload with plaintext := zeroize payload.plaintext }

/-- `with payload as p: body(p)`: what the block ends with, and the payload behind it. -/
def within {α ε : Type} (payload : DecryptedClientPayload)
    (body : DecryptedClientPayload → Except ε α) : Except ε α × DecryptedClientPayload :=
  (body payload, payload.scrub)

end DecryptedClientPayload

namespace ClientPayloadCipher
variable (cipher : ClientPayloadCipher) (aesgcm : AESGCM)

/-- `decrypt_payload`, and the plaintext buffer, where it has come to one. -/
def decryptPayloadBuffer (depth : Nat) (envelope : List UInt8) :
    Except PayloadError DecryptedClientPayload × Option (List UInt8) :=
  match cipher.decryptBytes aesgcm envelope with
  | .error e => (.error e, none)
  | .ok plain =>
    match parsePayload depth plain with
    | .error e => (.error e, some (zeroize plain))
    | .ok (document, prompt) => (.ok ⟨document, prompt, plain⟩, some plain)

theorem decryptPayloadBuffer_fst (depth : Nat) (envelope : List UInt8) :
    (cipher.decryptPayloadBuffer aesgcm depth envelope).1 =
      cipher.decryptPayload aesgcm depth envelope := by
  rw [decryptPayloadBuffer, decryptPayload]
  cases cipher.decryptBytes aesgcm envelope with
  | error e => rfl
  | ok plain =>
    simp only [bind, Except.bind]
    cases parsePayload depth plain <;> rfl

end ClientPayloadCipher

end Buffers

section Encryption

/-- `json.dumps(members, separators=(",", ":"), ensure_ascii=True)` of a `dict` of strings. -/
def dumps (members : List (Str × Str)) : Text :=
  0x7B :: (List.intercalate [0x2C] (members.map fun (name, value) =>
    encodeBasestringAscii name ++ 0x3A :: encodeBasestringAscii value) ++ [0x7D])

def payloadJson (document prompt : Str) : Text :=
  dumps [(ofString "document", document), (ofString "prompt", prompt)]

/-- `nonce` is what `os.urandom` draws. -/
def ClientPayloadCipher.encryptPayload (cipher : ClientPayloadCipher) (aesgcm : AESGCM)
    (nonce : List UInt8) (document prompt : Str) : Except PayloadError (List UInt8) := do
  let _ ← checkTextField "document" (.str (toUtf8 document))
  let _ ← checkTextField "prompt" (.str (toUtf8 prompt))
  let plaintext := payloadJson document prompt
  if MAX_ENCRYPTED_PAYLOAD_BYTES - GCM_MIN_WIRE_LEN < plaintext.length then
    .error (.format (ofString "client payload plaintext of " ++ decimal plaintext.length ++
      ofString " bytes exceeds the " ++ decimal (MAX_ENCRYPTED_PAYLOAD_BYTES - GCM_MIN_WIRE_LEN) ++
      ofString "-byte cap"))
  else (encryptAesGcm aesgcm nonce cipher.key plaintext AES_GCM_AAD).mapError .crypto

end Encryption

section Reading
variable {document prompt : Str}

theorem encodeBasestringAscii_ascii (s : Str) : ∀ b ∈ encodeBasestringAscii s, b < 0x80 := by
  rw [encodeBasestringAscii, List.forall_mem_cons, List.forall_mem_append, List.forall_mem_singleton]
  refine ⟨by decide, ?_, by decide⟩
  intro b listed
  obtain ⟨c, _, inside⟩ := List.mem_flatMap.mp listed
  exact escapeAscii_ascii c b inside

theorem payloadJson_eq (document prompt : Str) : payloadJson document prompt =
    0x7B :: (encodeBasestringAscii (ofString "document") ++ 0x3A :: (encodeBasestringAscii document ++
      0x2C :: (encodeBasestringAscii (ofString "prompt") ++ 0x3A ::
        (encodeBasestringAscii prompt ++ [0x7D])))) := by
  simp [payloadJson, dumps, List.intercalate]

theorem payloadJson_utf8 (document prompt : Str) :
    Unicode.isUtf8 (payloadJson document prompt) = true := by
  apply isUtf8_ascii
  rw [payloadJson_eq]
  simp only [List.forall_mem_cons, List.forall_mem_append]
  have ascii := encodeBasestringAscii_ascii
  exact ⟨by decide, ascii _, by decide, ascii _, by decide, ascii _, by decide, ascii _, by decide,
    List.forall_mem_nil _⟩

theorem parsePayload_payloadJson (depth : Nat) (scalars : Scalars document) (scalars' : Scalars prompt)
    (document? : checkTextField "document" (.str (toUtf8 document)) = .ok (toUtf8 document))
    (prompt? : checkTextField "prompt" (.str (toUtf8 prompt)) = .ok (toUtf8 prompt)) :
    parsePayload (depth + 1) (payloadJson document prompt) =
      .ok (toUtf8 document, toUtf8 prompt) := by
  obtain ⟨first, source, value⟩ := escapeAscii_literal scalars
  obtain ⟨second, source', value'⟩ := escapeAscii_literal scalars'
  obtain ⟨name, nameSource, nameValue⟩ :=
    @escapeAscii_literal (ofString "document") (forall_listed (by decide))
  obtain ⟨name', nameSource', nameValue'⟩ :=
    @escapeAscii_literal (ofString "prompt") (forall_listed (by decide))
  have names : toUtf8 (ofString "document") = documentName ∧ toUtf8 (ofString "prompt") = promptName := by
    decide +kernel
  have read := decodeJson_pair name first name' second depth
  rw [source, source', nameSource, nameSource', value, value', nameValue, nameValue', names.1,
    names.2] at read
  have fields : exactFields [(documentName, .str (toUtf8 document)), (promptName, .str (toUtf8 prompt))] =
      some (.str (toUtf8 document), .str (toUtf8 prompt)) := rfl
  have text : payloadJson document prompt = _ := payloadJson_eq document prompt
  rw [parsePayload, if_pos (payloadJson_utf8 document prompt), text]
  simp only [encodeBasestringAscii, List.cons_append, List.append_assoc, List.nil_append]
  rw [read]
  simp only [fields, document?, prompt?]
  rfl

end Reading

section RoundTrip
variable {cipher : ClientPayloadCipher} {aesgcm : AESGCM} {nonce envelope : List UInt8}
  {document prompt : Str}

/-- What an accepted pair of texts passes, and its envelope. -/
structure Accepted (cipher : ClientPayloadCipher) (aesgcm : AESGCM) (nonce : List UInt8)
    (document prompt : Str) (envelope : List UInt8) : Prop where
  documentOk : checkTextField "document" (.str (toUtf8 document)) = .ok (toUtf8 document)
  promptOk : checkTextField "prompt" (.str (toUtf8 prompt)) = .ok (toUtf8 prompt)
  capped : (payloadJson document prompt).length ≤ MAX_ENCRYPTED_PAYLOAD_BYTES - GCM_MIN_WIRE_LEN
  framed : envelope =
    nonce ++ aesgcm.encrypt cipher.key nonce AES_GCM_AAD (payloadJson document prompt)

theorem checkTextField_same {name : String} {value text : Text}
    (ok : checkTextField name (.str value) = .ok text) :
    checkTextField name (.str value) = .ok value ∧ Unicode.encodable value = true := by
  obtain ⟨same, _, encodable, _⟩ := Processor.checkTextField_ok.mp ok
  cases same
  exact ⟨ok, encodable⟩

theorem encryptPayload_accepted
    (accepted : cipher.encryptPayload aesgcm nonce document prompt = .ok envelope) :
    Accepted cipher aesgcm nonce document prompt envelope := by
  simp only [ClientPayloadCipher.encryptPayload, except_bind_ok] at accepted
  obtain ⟨_, first, _, second, rest⟩ := accepted
  split at rest
  · cases rest
  · rename_i capped
    rw [encryptAesGcm_ok cipher.key.property] at rest
    cases rest
    exact ⟨(checkTextField_same first).1, (checkTextField_same second).1, Nat.not_lt.mp capped, rfl⟩

/-- An envelope within the cap is opened to the JSON text it was written for. -/
theorem decryptBytes_framed (tagged : Aead.Tagged aesgcm GCM_TAG_LEN)
    (nonceSize : nonce.length = GCM_NONCE_LEN) {plain : List UInt8}
    (capped : plain.length ≤ MAX_ENCRYPTED_PAYLOAD_BYTES - GCM_MIN_WIRE_LEN) :
    (nonce ++ aesgcm.encrypt cipher.key nonce AES_GCM_AAD plain).length ≤ MAX_ENCRYPTED_PAYLOAD_BYTES ∧
      cipher.decryptBytes aesgcm (nonce ++ aesgcm.encrypt cipher.key nonce AES_GCM_AAD plain) =
        .ok plain := by
  have size := tagged.sized cipher.key nonce AES_GCM_AAD plain
  have whole : (nonce ++ aesgcm.encrypt cipher.key nonce AES_GCM_AAD plain).length =
      GCM_MIN_WIRE_LEN + plain.length := by
    rw [List.length_append, nonceSize, size, GCM_MIN_WIRE_LEN]
    omega
  have cap : GCM_MIN_WIRE_LEN ≤ MAX_ENCRYPTED_PAYLOAD_BYTES := by decide
  have within : (nonce ++ aesgcm.encrypt cipher.key nonce AES_GCM_AAD plain).length ≤
      MAX_ENCRYPTED_PAYLOAD_BYTES := by omega
  refine ⟨within, ?_⟩
  have framing : checkEnvelope (nonce ++ aesgcm.encrypt cipher.key nonce AES_GCM_AAD plain) = .ok () := by
    rw [checkEnvelope, if_neg (by omega), if_neg (by omega)]
  rw [ClientPayloadCipher.decryptBytes, framing,
    decryptAesGcm_framed cipher.key.property nonceSize (by omega), tagged.opens]
  rfl

/-- What `encrypt_payload` accepts comes back through `decrypt_payload`, within the cap, and no
    plaintext is left behind. -/
theorem encrypt_payload_round_trip (tagged : Aead.Tagged aesgcm GCM_TAG_LEN)
    (nonceSize : nonce.length = GCM_NONCE_LEN) (depth : Nat)
    (accepted : cipher.encryptPayload aesgcm nonce document prompt = .ok envelope) :
    envelope.length ≤ MAX_ENCRYPTED_PAYLOAD_BYTES ∧
      ∃ payload, cipher.decryptPayload aesgcm (depth + 1) envelope = .ok payload ∧
        payload.document = toUtf8 document ∧ payload.prompt = toUtf8 prompt ∧
        IsZero payload.scrub.plaintext ∧
        ∀ {α ε : Type} (body : DecryptedClientPayload → Except ε α),
          IsZero (payload.within body).2.plaintext := by
  obtain ⟨first, second, capped, rfl⟩ := encryptPayload_accepted accepted
  obtain ⟨within, opened⟩ := @decryptBytes_framed cipher _ _ tagged nonceSize _ capped
  have scalars := (encodable_toUtf8 document).mp (checkTextField_same first).2
  have scalars' := (encodable_toUtf8 prompt).mp (checkTextField_same second).2
  have parsed := parsePayload_payloadJson depth scalars scalars' first second
  refine ⟨within, ⟨toUtf8 document, toUtf8 prompt, payloadJson document prompt⟩, ?_, rfl, rfl,
    zeroize_zero _, fun body => zeroize_zero _⟩
  rw [ClientPayloadCipher.decryptPayload, opened]
  simp only [bind, Except.bind, parsed]
  rfl

def sampleCipher : ClientPayloadCipher := ⟨⟨List.replicate 32 9, rfl⟩⟩

theorem encrypt_payload_round_trip_sample : ∃ envelope payload,
    sampleCipher.encryptPayload Aead.zeroTagged (List.replicate 12 1) (ofString "Price é")
        (ofString "what \"price\"?") = .ok envelope ∧
      sampleCipher.decryptPayload Aead.zeroTagged 1 envelope = .ok payload ∧
      payload.document = toUtf8 (ofString "Price é") := by
  have accepted : (sampleCipher.encryptPayload Aead.zeroTagged (List.replicate 12 1)
      (ofString "Price é") (ofString "what \"price\"?")).toOption.isSome = true := by
    decide +kernel
  obtain ⟨envelope, ok⟩ := Option.isSome_iff_exists.mp accepted
  have ok := toOption_some.mp ok
  obtain ⟨_, payload, opened, same, _⟩ :=
    encrypt_payload_round_trip Aead.zeroTagged_tagged rfl 0 ok
  exact ⟨envelope, payload, ok, opened, same⟩

end RoundTrip

end Crypto
