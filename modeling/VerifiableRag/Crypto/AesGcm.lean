import VerifiableRag.Library.Aead
import VerifiableRag.Library.Bytes
import VerifiableRag.Library.CodePoints

/-!
The AES-GCM envelope as the enclave's `crypto` package and the browser's
`client_encryption.ts` write and read it.
-/
namespace Crypto
open Bytes CodePoints

def GCM_KEY_LEN : Nat := 32
def GCM_NONCE_LEN : Nat := 12
def GCM_TAG_LEN : Nat := 16
def GCM_MIN_WIRE_LEN : Nat := GCM_NONCE_LEN + GCM_TAG_LEN

def AES_GCM_AAD : List UInt8 := utf8 "flare-verifiable-rag:enclave:v1"

/-- `AESGCM` of the cryptography package and of Web Crypto: key, nonce, associated data,
    plaintext and the ciphertext with its tag. -/
abbrev AESGCM :=
  Aead.Scheme (List UInt8) (List UInt8) (List UInt8) (List UInt8) (List UInt8)

inductive CryptoError where
  /-- `KeyConfigError` -/
  | keyConfig (message : Str)
  /-- `DecryptionError` -/
  | decryption (message : Str)
  deriving DecidableEq

section Enclave

def validateAesKey (key : List UInt8) : Except CryptoError (List UInt8) :=
  if key.length ≠ GCM_KEY_LEN then
    .error (.keyConfig (ofString "AES-256 key must be exactly " ++ decimal GCM_KEY_LEN ++
      ofString " bytes, got " ++ decimal key.length))
  else .ok key

/-- `nonce` is what `os.urandom` draws. -/
def encryptAesGcm (aesgcm : AESGCM) (nonce key plaintext aad : List UInt8) :
    Except CryptoError (List UInt8) := do
  let key ← validateAesKey key
  return nonce ++ aesgcm.encrypt key nonce aad plaintext

def payloadTooShort (payload : List UInt8) : CryptoError :=
  .decryption (ofString "AES-GCM payload too short: need nonce(" ++ decimal GCM_NONCE_LEN ++
    ofString ") + tag(" ++ decimal GCM_TAG_LEN ++ ofString "), got " ++ decimal payload.length ++
    ofString " bytes")

def authenticationFailed : CryptoError :=
  .decryption (ofString
    "AES-GCM authentication failed: tampered ciphertext, wrong key, or mismatched AAD")

def decryptAesGcm (aesgcm : AESGCM) (key payload aad : List UInt8) :
    Except CryptoError (List UInt8) := do
  let key ← validateAesKey key
  if payload.length < GCM_MIN_WIRE_LEN then .error (payloadTooShort payload)
  else
    match aesgcm.decrypt key (payload.take GCM_NONCE_LEN) aad (payload.drop GCM_NONCE_LEN) with
    | some plaintext => .ok plaintext
    | none => .error authenticationFailed

end Enclave

section Browser

/-- Web Crypto takes no `additionalData` for an empty one. -/
def encryptBytes (aesgcm : AESGCM) (data key iv : List UInt8) : List UInt8 :=
  aesgcm.encrypt key iv [] data

def decryptBytes (aesgcm : AESGCM) (ciphertext key iv : List UInt8) : Option (List UInt8) :=
  aesgcm.decrypt key iv [] ciphertext

end Browser

section Envelopes
variable {aesgcm : AESGCM} {key nonce : List UInt8}

theorem validateAesKey_ok (size : key.length = GCM_KEY_LEN) : validateAesKey key = .ok key := by
  rw [validateAesKey, if_neg (not_not.mpr size)]

theorem encryptAesGcm_ok (size : key.length = GCM_KEY_LEN) (plaintext aad : List UInt8) :
    encryptAesGcm aesgcm nonce key plaintext aad =
      .ok (nonce ++ aesgcm.encrypt key nonce aad plaintext) := by
  rw [encryptAesGcm, validateAesKey_ok size]
  rfl

/-- What is left of decryption on a framed ciphertext. -/
theorem decryptAesGcm_framed (size : key.length = GCM_KEY_LEN)
    (nonceSize : nonce.length = GCM_NONCE_LEN) {ciphertext : List UInt8}
    (tagged : GCM_TAG_LEN ≤ ciphertext.length) (aad : List UInt8) :
    decryptAesGcm aesgcm key (nonce ++ ciphertext) aad =
      match aesgcm.decrypt key nonce aad ciphertext with
      | some plaintext => .ok plaintext
      | none => .error authenticationFailed := by
  have long : ¬ (nonce ++ ciphertext).length < GCM_MIN_WIRE_LEN := by
    rw [List.length_append, nonceSize, GCM_MIN_WIRE_LEN]
    omega
  rw [decryptAesGcm, validateAesKey_ok size]
  change (if _ then _ else _) = _
  rw [if_neg long, List.take_left' nonceSize, List.drop_left' nonceSize]

/-- Each end reads its own envelopes, under the associated data they were written with only. -/
theorem decryptAesGcm_encrypt_iff (ideal : Aead.Ideal aesgcm)
    (tagged : ∀ k n a m, GCM_TAG_LEN ≤ (aesgcm.encrypt k n a m).length)
    (size : key.length = GCM_KEY_LEN) (nonceSize : nonce.length = GCM_NONCE_LEN)
    (aad aad' data : List UInt8) :
    decryptAesGcm aesgcm key (nonce ++ aesgcm.encrypt key nonce aad' data) aad = .ok data ↔
      aad = aad' := by
  rw [decryptAesGcm_framed size nonceSize (tagged key nonce aad' data)]
  constructor
  · intro ok
    split at ok
    · rename_i opened
      exact (ideal.binds opened).2.2
    · cases ok
  · intro same
    rw [same, ideal.opens]

theorem decryptBytes_encryptBytes (ideal : Aead.Ideal aesgcm) (data key iv : List UInt8) :
    decryptBytes aesgcm (encryptBytes aesgcm data key iv) key iv = some data :=
  ideal.opens key iv [] data

theorem aad_nonempty : AES_GCM_AAD ≠ [] := by decide +kernel

/-- The browser binds no associated data, the enclave its protocol tag: neither end ever
    opens an envelope of the other. -/
theorem envelopes_never_cross (ideal : Aead.Ideal aesgcm)
    (tagged : ∀ k n a m, GCM_TAG_LEN ≤ (aesgcm.encrypt k n a m).length)
    (size : key.length = GCM_KEY_LEN) (nonceSize : nonce.length = GCM_NONCE_LEN)
    (data : List UInt8) :
    decryptAesGcm aesgcm key (nonce ++ encryptBytes aesgcm data key nonce) AES_GCM_AAD =
        .error authenticationFailed ∧
      ∃ ciphertext,
        encryptAesGcm aesgcm nonce key data AES_GCM_AAD = .ok (nonce ++ ciphertext) ∧
          decryptBytes aesgcm ciphertext key nonce = none := by
  constructor
  · rw [encryptBytes, decryptAesGcm_framed size nonceSize (tagged key nonce [] data),
      ideal.refuses aad_nonempty]
  · refine ⟨aesgcm.encrypt key nonce AES_GCM_AAD data, encryptAesGcm_ok size data AES_GCM_AAD, ?_⟩
    exact ideal.refuses aad_nonempty.symm data

theorem envelopes_never_cross_hello :
    Aead.Ideal Aead.transparent ∧
      (∀ k n a m, GCM_TAG_LEN ≤ (Aead.transparent.encrypt k n a m).length) ∧
      decryptAesGcm Aead.transparent (List.replicate 32 7)
          (List.replicate 12 1 ++
            encryptBytes Aead.transparent (utf8 "hello") (List.replicate 32 7)
              (List.replicate 12 1)) AES_GCM_AAD =
        .error authenticationFailed :=
  ⟨Aead.transparent_ideal, Aead.transparent_tagged,
    (@envelopes_never_cross Aead.transparent (List.replicate 32 7) (List.replicate 12 1)
      Aead.transparent_ideal Aead.transparent_tagged rfl rfl (utf8 "hello")).1⟩

theorem browser_envelope_refused :
    ¬ ∀ aesgcm : AESGCM, Aead.Ideal aesgcm →
      (∀ k n a m, GCM_TAG_LEN ≤ (aesgcm.encrypt k n a m).length) →
      ∀ key iv data : List UInt8, key.length = GCM_KEY_LEN → iv.length = GCM_NONCE_LEN →
        decryptAesGcm aesgcm key (iv ++ encryptBytes aesgcm data key iv) AES_GCM_AAD = .ok data := by
  intro claimed
  have opened := claimed Aead.transparent Aead.transparent_ideal Aead.transparent_tagged
    (List.replicate 32 7) (List.replicate 12 1) (utf8 "hello") rfl rfl
  revert opened
  decide +kernel

end Envelopes

end Crypto
