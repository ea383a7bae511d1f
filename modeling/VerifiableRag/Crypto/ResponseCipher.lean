import VerifiableRag.Crypto.EncryptPayload

/-!
The outbound half of `ClientPayloadCipher`: responses bound to the context of a request, and
which of the envelopes under one key or several opens where.
-/
namespace Crypto
open Bytes (utf8)
open CodePoints Results

/-- `context: bytes | str`. -/
inductive Context where
  | bytes (context : List UInt8)
  | str (context : Str)

/-- `none` is the `UnicodeEncodeError` of a lone surrogate. -/
def Context.encoded : Context → Option (List UInt8)
  | .bytes context => some context
  | .str context => if Unicode.encodable (toUtf8 context) then some (toUtf8 context) else none

def AAD_SEPARATOR : List UInt8 := [0x7C]

def composeAad (context : Context) : Except PayloadError (List UInt8) :=
  match context.encoded with
  | some context => .ok (AES_GCM_AAD ++ AAD_SEPARATOR ++ context)
  | none => .error .unicodeEncode

def checkPlaintext (plaintext : List UInt8) : Except PayloadError Unit :=
  if MAX_ENCRYPTED_PAYLOAD_BYTES - GCM_MIN_WIRE_LEN < plaintext.length then
    .error (.format (ofString "plaintext of " ++ decimal plaintext.length ++
      ofString " bytes exceeds the " ++ decimal (MAX_ENCRYPTED_PAYLOAD_BYTES - GCM_MIN_WIRE_LEN) ++
      ofString "-byte cap"))
  else .ok ()

namespace ClientPayloadCipher
variable (cipher : ClientPayloadCipher) (aesgcm : AESGCM)

/-- `nonce` is what `os.urandom` draws. -/
def encryptBytes (nonce aad plaintext : List UInt8) : Except PayloadError (List UInt8) := do
  checkPlaintext plaintext
  (encryptAesGcm aesgcm nonce cipher.key plaintext aad).mapError .crypto

def encryptResponse (nonce plaintext : List UInt8) (context : Context) :
    Except PayloadError (List UInt8) := do
  checkPlaintext plaintext
  let aad ← composeAad context
  (encryptAesGcm aesgcm nonce cipher.key plaintext aad).mapError .crypto

def decryptResponse (envelope : List UInt8) (context : Context) :
    Except PayloadError (List UInt8) := do
  checkEnvelope envelope
  let aad ← composeAad context
  (decryptAesGcm aesgcm cipher.key envelope aad).mapError .crypto

/-- `proxy_decrypted`: what the consumer makes of the plaintext, and the buffer behind it. -/
def proxyDecrypted {α : Type} (envelope : List UInt8)
    (consumer : List UInt8 → Except PayloadError α) :
    Except PayloadError α × Option (List UInt8) :=
  match cipher.decryptBytes aesgcm envelope with
  | .error e => (.error e, none)
  | .ok plain => (consumer plain, some (zeroize plain))

end ClientPayloadCipher

/-- What an envelope is for. -/
inductive Purpose where
  | inbound
  | response (context : Context)

namespace Purpose

def aad : Purpose → Except PayloadError (List UInt8)
  | .inbound => .ok AES_GCM_AAD
  | .response context => composeAad context

/-- Inbound both, or responses to one context, whether it was given as bytes or as text. -/
def Same : Purpose → Purpose → Prop
  | .inbound, .inbound => True
  | .response context, .response context' =>
    context.encoded.isSome ∧ context.encoded = context'.encoded
  | _, _ => False

theorem composeAad_ok {context : Context} {aad : List UInt8} :
    composeAad context = .ok aad ↔
      ∃ bytes, context.encoded = some bytes ∧ AES_GCM_AAD ++ AAD_SEPARATOR ++ bytes = aad := by
  unfold composeAad
  cases context.encoded with
  | none => simp
  | some bytes => simp

/-- The separator keeps a response from the bare protocol tag, and the rest is the context. -/
theorem same_iff {purpose purpose' : Purpose} {bound bound' : List UInt8}
    (binds : purpose.aad = .ok bound) (binds' : purpose'.aad = .ok bound') :
    bound = bound' ↔ purpose.Same purpose' := by
  cases purpose with
  | inbound =>
    cases binds
    cases purpose' with
    | inbound =>
      cases binds'
      exact iff_of_true rfl trivial
    | response context' =>
      obtain ⟨bytes, _, rfl⟩ := composeAad_ok.mp binds'
      refine iff_of_false ?_ (fun same => same)
      intro same
      have sizes := congrArg List.length same
      simp [AAD_SEPARATOR] at sizes
  | response context =>
    obtain ⟨bytes, encoded, rfl⟩ := composeAad_ok.mp binds
    cases purpose' with
    | inbound =>
      cases binds'
      refine iff_of_false ?_ (fun same => same)
      intro same
      have sizes := congrArg List.length same
      simp [AAD_SEPARATOR] at sizes
    | response context' =>
      obtain ⟨bytes', encoded', rfl⟩ := composeAad_ok.mp binds'
      rw [List.append_right_inj, Same, encoded, encoded', Option.some.injEq]
      exact (and_iff_right rfl).symm

end Purpose

namespace ClientPayloadCipher
variable (cipher : ClientPayloadCipher) (aesgcm : AESGCM)

/-- An end of the wire writes an envelope. -/
def write (nonce : List UInt8) : Purpose → List UInt8 → Except PayloadError (List UInt8)
  | .inbound, plaintext => cipher.encryptBytes aesgcm nonce AES_GCM_AAD plaintext
  | .response context, plaintext => cipher.encryptResponse aesgcm nonce plaintext context

/-- An end of the wire reads an envelope. -/
def read : Purpose → List UInt8 → Except PayloadError (List UInt8)
  | .inbound, envelope => cipher.decryptBytes aesgcm envelope
  | .response context, envelope => cipher.decryptResponse aesgcm envelope context

end ClientPayloadCipher

section Channel
variable {aesgcm : AESGCM} {writer reader : ClientPayloadCipher} {nonce : List UInt8}
  {purpose purpose' : Purpose} {plain envelope found : List UInt8}

theorem checkPlaintext_ok {u : Unit} : checkPlaintext plain = .ok u ↔
    plain.length ≤ MAX_ENCRYPTED_PAYLOAD_BYTES - GCM_MIN_WIRE_LEN := by
  unfold checkPlaintext
  split
  · simp; omega
  · simp; omega

/-- All writing is one: a plaintext within the cap, under the data its purpose binds. -/
theorem write_ok : writer.write aesgcm nonce purpose plain = .ok envelope ↔
    plain.length ≤ MAX_ENCRYPTED_PAYLOAD_BYTES - GCM_MIN_WIRE_LEN ∧
      ∃ bound, purpose.aad = .ok bound ∧
        nonce ++ aesgcm.encrypt writer.key nonce bound plain = envelope := by
  cases purpose with
  | inbound =>
    simp only [ClientPayloadCipher.write, ClientPayloadCipher.encryptBytes, Purpose.aad,
      except_bind_ok, checkPlaintext_ok, mapError_ok, encryptAesGcm_ok writer.key.property,
      Except.ok.injEq, exists_const, exists_eq_left']
  | response context =>
    simp only [ClientPayloadCipher.write, ClientPayloadCipher.encryptResponse, Purpose.aad,
      except_bind_ok, checkPlaintext_ok, mapError_ok, encryptAesGcm_ok writer.key.property,
      Except.ok.injEq, exists_const]

theorem read_eq (purpose : Purpose) (envelope : List UInt8) :
    reader.read aesgcm purpose envelope = (do
      checkEnvelope envelope
      let bound ← purpose.aad
      (decryptAesGcm aesgcm reader.key envelope bound).mapError .crypto) := by
  cases purpose <;> rfl

/-- All reading is one. -/
theorem read_ok : reader.read aesgcm purpose envelope = .ok found ↔
    checkEnvelope envelope = .ok () ∧ ∃ bound, purpose.aad = .ok bound ∧
      decryptAesGcm aesgcm reader.key envelope bound = .ok found := by
  simp only [read_eq, except_bind_ok, mapError_ok]
  constructor
  · intro ok
    obtain ⟨_, framed, rest⟩ := ok
    exact ⟨framed, rest⟩
  · intro ok
    exact ⟨(), ok⟩

theorem checkEnvelope_error {e : CryptoError} : checkEnvelope envelope ≠ .error (.crypto e) := by
  unfold checkEnvelope
  intro failed
  split at failed
  · cases failed
  split at failed <;> cases failed

theorem aad_error {e : CryptoError} : purpose.aad ≠ .error (.crypto e) := by
  intro failed
  cases purpose with
  | inbound => cases failed
  | response context =>
    have composed : composeAad context = .error (.crypto e) := failed
    unfold composeAad at composed
    split at composed <;> cases composed

/-- Only the decryption raises an error of the `crypto` package. -/
theorem read_crypto {e : CryptoError} : reader.read aesgcm purpose envelope = .error (.crypto e) ↔
    checkEnvelope envelope = .ok () ∧ ∃ bound, purpose.aad = .ok bound ∧
      decryptAesGcm aesgcm reader.key envelope bound = .error e := by
  rw [read_eq]
  cases framing : checkEnvelope envelope with
  | error f =>
    have other : f ≠ .crypto e := by
      intro same
      rw [same] at framing
      exact checkEnvelope_error framing
    simp [bind, Except.bind, other]
  | ok u =>
    cases binding : purpose.aad with
    | error f =>
      have other : f ≠ .crypto e := by
        intro same
        rw [same] at binding
        exact aad_error binding
      simp [bind, Except.bind, other]
    | ok bound =>
      cases decrypted : decryptAesGcm aesgcm reader.key envelope bound <;>
        simp [bind, Except.bind, Except.mapError, decrypted]

/-- A ciphertext opens under its own key and data, and under nothing else fails in another way. -/
theorem decryptAesGcm_written (ideal : Aead.Ideal aesgcm)
    (tagged : ∀ k n a m, GCM_TAG_LEN ≤ (aesgcm.encrypt k n a m).length)
    (nonceSize : nonce.length = GCM_NONCE_LEN) (bound bound' : List UInt8) :
    decryptAesGcm aesgcm reader.key (nonce ++ aesgcm.encrypt writer.key nonce bound plain) bound' =
      if reader = writer ∧ bound' = bound then .ok plain else .error authenticationFailed := by
  rw [decryptAesGcm_framed reader.key.property nonceSize (tagged writer.key nonce bound plain)]
  split
  · rename_i found opened
    obtain ⟨keys, _, data⟩ := ideal.binds opened
    obtain ⟨key⟩ := reader
    obtain ⟨key'⟩ := writer
    have same : key = key' := Subtype.ext keys
    subst same data
    rw [ideal.opens, Option.some.injEq] at opened
    rw [if_pos ⟨rfl, rfl⟩, opened]
  · rename_i refused
    rw [if_neg]
    rintro ⟨rfl, rfl⟩
    rw [ideal.opens] at refused
    cases refused

theorem envelope_long (tagged : ∀ k n a m, GCM_TAG_LEN ≤ (aesgcm.encrypt k n a m).length)
    (nonceSize : nonce.length = GCM_NONCE_LEN) (key bound plain : List UInt8) :
    GCM_MIN_WIRE_LEN ≤ (nonce ++ aesgcm.encrypt key nonce bound plain).length := by
  have size := tagged key nonce bound plain
  rw [List.length_append, nonceSize, GCM_MIN_WIRE_LEN]
  omega

theorem Purpose.Same.bound {bound : List UInt8} (same : purpose'.Same purpose)
    (binds : purpose.aad = .ok bound) : purpose'.aad = .ok bound := by
  cases purpose' with
  | inbound =>
    cases purpose with
    | inbound => exact binds
    | response context => exact absurd same (fun same => same)
  | response context' =>
    cases purpose with
    | inbound => exact absurd same (fun same => same)
    | response context =>
      have composed : composeAad context = .ok bound := binds
      obtain ⟨bytes, encoded, whole⟩ := composeAad_ok.mp composed
      exact composeAad_ok.mpr ⟨bytes, same.2.trans encoded, whole⟩

/-- An envelope within the cap opens for the holder of its key and for what it was written
    for, to its own plaintext; for anyone and anything else its tag does not fit. Handed on
    behind the decryption it leaves zeros, and no response is handed on at all. -/
theorem envelope_opens_iff (ideal : Aead.Ideal aesgcm)
    (tagged : ∀ k n a m, GCM_TAG_LEN ≤ (aesgcm.encrypt k n a m).length)
    (nonceSize : nonce.length = GCM_NONCE_LEN)
    (written : writer.write aesgcm nonce purpose plain = .ok envelope) :
    (∀ found, reader.read aesgcm purpose' envelope = .ok found ↔
      envelope.length ≤ MAX_ENCRYPTED_PAYLOAD_BYTES ∧ reader = writer ∧ purpose'.Same purpose ∧
        found = plain) ∧
    (reader.read aesgcm purpose' envelope = .error (.crypto authenticationFailed) ↔
      envelope.length ≤ MAX_ENCRYPTED_PAYLOAD_BYTES ∧ (∃ bound, purpose'.aad = .ok bound) ∧
        ¬ (reader = writer ∧ purpose'.Same purpose)) ∧
    ∀ {α : Type} (consumer : List UInt8 → Except PayloadError α) (buffer : List UInt8),
      (reader.proxyDecrypted aesgcm envelope consumer).2 = some buffer →
        purpose = .inbound ∧ buffer = List.replicate plain.length 0 := by
  obtain ⟨_, bound, binds, rfl⟩ := write_ok.mp written
  have long := envelope_long tagged nonceSize writer.key bound plain
  have framed : checkEnvelope (nonce ++ aesgcm.encrypt writer.key nonce bound plain) = .ok () ↔
      (nonce ++ aesgcm.encrypt writer.key nonce bound plain).length ≤ MAX_ENCRYPTED_PAYLOAD_BYTES :=
    Processor.checkEnvelope_ok.trans (and_iff_right long)
  -- the tag decides by key and data
  have decrypted : ∀ bound', decryptAesGcm aesgcm reader.key
      (nonce ++ aesgcm.encrypt writer.key nonce bound plain) bound' =
        if reader = writer ∧ bound' = bound then .ok plain else .error authenticationFailed :=
    decryptAesGcm_written ideal tagged nonceSize bound
  have opens : ∀ purpose' found,
      reader.read aesgcm purpose' (nonce ++ aesgcm.encrypt writer.key nonce bound plain) = .ok found ↔
        (nonce ++ aesgcm.encrypt writer.key nonce bound plain).length ≤ MAX_ENCRYPTED_PAYLOAD_BYTES ∧
          reader = writer ∧ purpose'.Same purpose ∧ found = plain := by
    intro purpose' found
    rw [read_ok, framed]
    refine and_congr_right fun _ => ?_
    constructor
    · intro ok
      obtain ⟨bound', binds', ok⟩ := ok
      rw [decrypted] at ok
      split at ok
      · rename_i fits
        cases ok
        exact ⟨fits.1, (Purpose.same_iff binds' binds).mp fits.2, rfl⟩
      · cases ok
    · intro fits
      obtain ⟨keys, same, rfl⟩ := fits
      exact ⟨bound, same.bound binds, by rw [decrypted, if_pos ⟨keys, rfl⟩]⟩
  refine ⟨opens purpose', ?_, ?_⟩
  · rw [read_crypto, framed]
    refine and_congr_right fun _ => ?_
    constructor
    · intro refused
      obtain ⟨bound', binds', refused⟩ := refused
      rw [decrypted] at refused
      split at refused
      · cases refused
      · rename_i other
        rw [Purpose.same_iff binds' binds] at other
        exact ⟨⟨bound', binds'⟩, other⟩
    · intro other
      obtain ⟨⟨bound', binds'⟩, other⟩ := other
      rw [← Purpose.same_iff binds' binds] at other
      exact ⟨bound', binds', by rw [decrypted, if_neg other]⟩
  · intro α consumer buffer left
    unfold ClientPayloadCipher.proxyDecrypted at left
    split at left
    · cases left
    · rename_i found ok
      obtain ⟨_, _, same, rfl⟩ := (opens .inbound found).mp ok
      cases purpose with
      | inbound =>
        cases left
        exact ⟨rfl, rfl⟩
      | response context => exact absurd same (fun same => same)

/-- A response to `/v1/query` opens for the same context as bytes, and not as a payload. -/
theorem envelope_opens_iff_query : ∃ envelope,
    sampleCipher.write Aead.transparent (List.replicate 12 1) (.response (.str (ofString "/v1/query")))
        (utf8 "proof") = .ok envelope ∧
      sampleCipher.read Aead.transparent (.response (.bytes (utf8 "/v1/query"))) envelope =
        .ok (utf8 "proof") ∧
      sampleCipher.read Aead.transparent .inbound envelope = .error (.crypto authenticationFailed) := by
  have encoded : (Context.str (ofString "/v1/query")).encoded = some (utf8 "/v1/query") := by
    decide +kernel
  have written : sampleCipher.write Aead.transparent (List.replicate 12 1)
      (.response (.str (ofString "/v1/query"))) (utf8 "proof") =
        .ok (List.replicate 12 1 ++ Aead.transparent.encrypt sampleCipher.key (List.replicate 12 1)
          (AES_GCM_AAD ++ AAD_SEPARATOR ++ utf8 "/v1/query") (utf8 "proof")) :=
    write_ok.mpr ⟨by decide, _, Purpose.composeAad_ok.mpr ⟨_, encoded, rfl⟩, rfl⟩
  refine ⟨_, written, ?_, ?_⟩
  · have opens := @envelope_opens_iff _ _ sampleCipher _ _ (.response (.bytes (utf8 "/v1/query"))) _ _
      Aead.transparent_ideal Aead.transparent_tagged rfl written
    refine (opens.1 _).mpr ⟨by decide +kernel, rfl, ⟨rfl, encoded.symm⟩, rfl⟩
  · have opens := @envelope_opens_iff _ _ sampleCipher _ _ .inbound _ _ Aead.transparent_ideal
      Aead.transparent_tagged rfl written
    exact opens.2.1.mpr ⟨by decide +kernel, ⟨_, rfl⟩, fun same => same.2⟩

/-- What is written opens at the other end, and it is never too long for it. -/
theorem read_written (tagged : Aead.Tagged aesgcm GCM_TAG_LEN)
    (nonceSize : nonce.length = GCM_NONCE_LEN)
    (written : writer.write aesgcm nonce purpose plain = .ok envelope) :
    envelope.length ≤ MAX_ENCRYPTED_PAYLOAD_BYTES ∧
      writer.read aesgcm purpose envelope = .ok plain := by
  obtain ⟨capped, bound, binds, rfl⟩ := write_ok.mp written
  have size := tagged.sized writer.key nonce bound plain
  have whole : (nonce ++ aesgcm.encrypt writer.key nonce bound plain).length =
      GCM_MIN_WIRE_LEN + plain.length := by
    rw [List.length_append, nonceSize, size, GCM_MIN_WIRE_LEN]
    omega
  have cap : GCM_MIN_WIRE_LEN ≤ MAX_ENCRYPTED_PAYLOAD_BYTES := by decide
  have short : (nonce ++ aesgcm.encrypt writer.key nonce bound plain).length ≤
      MAX_ENCRYPTED_PAYLOAD_BYTES := by omega
  refine ⟨short, read_ok.mpr ⟨Processor.checkEnvelope_ok.mpr ⟨by omega, short⟩, bound, binds, ?_⟩⟩
  rw [decryptAesGcm_framed writer.key.property nonceSize (by omega), tagged.opens]

end Channel

end Crypto
