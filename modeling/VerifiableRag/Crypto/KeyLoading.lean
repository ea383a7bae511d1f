import VerifiableRag.Crypto.AesGcm

/-!
Key material from the environment: `load_hex_key` and the cipher that is built on it.
-/
namespace Crypto
open CodePoints

def ENCLAVE_PAYLOAD_KEY_ENV : Str := ofString "ENCLAVE_PAYLOAD_KEY"

/-- `Py_ISSPACE`. -/
def asciiSpace (c : CodePoint) : Bool := c = 0x20 ∨ (0x9 ≤ c ∧ c ≤ 0xD)

/-- `bytearray.fromhex`: white space counts between the bytes only. -/
def fromhex : Str → Option (List UInt8)
  | [] => some []
  | [c] => if asciiSpace c then some [] else none
  | c :: d :: rest =>
    if asciiSpace c then fromhex (d :: rest)
    else match hexValue c, hexValue d with
      | some high, some low => (fromhex rest).map (UInt8.ofNat (16 * high + low) :: ·)
      | _, _ => none

def dropHexPrefix (s : Str) : Str :=
  if (ofString "0x").isPrefixOf s ∨ (ofString "0X").isPrefixOf s then s.drop 2 else s

/-- What the text of a key decodes to. -/
def decodeKey (raw : Str) : Option (List UInt8) := fromhex (dropHexPrefix (strip raw))

abbrev Key (n : Nat) := {key : List UInt8 // key.length = n}

section LoadHexKey
variable (isprintable : CodePoint → Bool) (envVar : Str) (expectedLen : Nat)

def notSet : Str := envVar ++ ofString " is not set: cannot load key material"

def notHexText (raw : Str) : Str :=
  envVar ++ ofString " must be hex text (" ++ decimal (expectedLen * 2) ++
    ofString " chars), got " ++ repr isprintable raw

def wrongSize (got : Nat) : Str :=
  envVar ++ ofString " must decode to exactly " ++ decimal expectedLen ++
    ofString " bytes, got " ++ decimal got

/-- `raw` is `os.environ.get(env_var)`. -/
def loadHexKey (raw : Option Str) : Except CryptoError (Key expectedLen) :=
  match raw with
  | none => .error (.keyConfig (notSet envVar))
  | some [] => .error (.keyConfig (notSet envVar))
  | some raw =>
    match decodeKey raw with
    | none => .error (.keyConfig (notHexText isprintable envVar expectedLen raw))
    | some key =>
      if size : key.length = expectedLen then .ok ⟨key, size⟩
      else .error (.keyConfig (wrongSize envVar expectedLen key.length))

end LoadHexKey

/-- `PayloadKeyError`, with its message. -/
structure PayloadKeyError where
  message : Str
  deriving DecidableEq

structure ClientPayloadCipher where
  key : Key GCM_KEY_LEN
  deriving DecidableEq

/-- `ClientPayloadCipher.__init__`. -/
def ClientPayloadCipher.init (isprintable : CodePoint → Bool) (environ : Option Str)
    (key : Option (List UInt8)) : Except PayloadKeyError ClientPayloadCipher :=
  match key with
  | none =>
    match loadHexKey isprintable ENCLAVE_PAYLOAD_KEY_ENV GCM_KEY_LEN environ with
    | .ok key => .ok ⟨key⟩
    | .error (.keyConfig message) => .error ⟨message⟩
    | .error (.decryption message) => .error ⟨message⟩
  | some key =>
    if size : key.length = GCM_KEY_LEN then .ok ⟨key, size⟩
    else .error ⟨ofString "client-payload key must be exactly 32 bytes, got " ++ decimal key.length⟩

section Rejections

/-- Why a value is no key. -/
inductive Rejection where
  | unset | notHex | wrongLength (got : Nat)
  deriving DecidableEq

def rejection (expectedLen : Nat) : Option Str → Option Rejection
  | none => some .unset
  | some [] => some .unset
  | some raw =>
    match decodeKey raw with
    | none => some .notHex
    | some key => if key.length = expectedLen then none else some (.wrongLength key.length)

/-- The message of a rejection; only text that is not hexadecimal is shown in it. -/
def Rejection.message (isprintable : CodePoint → Bool) (envVar : Str) (expectedLen : Nat)
    (raw : Option Str) : Rejection → Str
  | .unset => notSet envVar
  | .notHex => notHexText isprintable envVar expectedLen (raw.getD [])
  | .wrongLength got => wrongSize envVar expectedLen got

variable {isprintable : CodePoint → Bool} {envVar : Str} {expectedLen : Nat}

theorem loadHexKey_rejected {raw : Option Str} {reason : Rejection}
    (rejected : rejection expectedLen raw = some reason) :
    loadHexKey isprintable envVar expectedLen raw =
      .error (.keyConfig (reason.message isprintable envVar expectedLen raw)) := by
  unfold rejection at rejected
  split at rejected
  · cases rejected
    rfl
  · cases rejected
    rfl
  · rename_i raw nonempty
    simp only [loadHexKey]
    split at rejected
    · cases rejected
      rfl
    · split at rejected
      · cases rejected
      · rename_i size
        cases rejected
        exact dif_neg size

theorem notHexText_inj {raw raw' : Str}
    (same : notHexText isprintable envVar expectedLen raw =
      notHexText isprintable envVar expectedLen raw') : raw = raw' :=
  repr_injective isprintable (List.append_cancel_left same)

theorem rejection_notHex {raw : Option Str} (rejected : rejection expectedLen raw = some .notHex) :
    ∃ text, raw = some text := by
  cases raw with
  | none => cases rejected
  | some text => exact ⟨text, rfl⟩

/-- Two rejections for one reason read alike unless the reason shows the text. -/
theorem message_eq_iff {raw raw' : Option Str} {reason : Rejection}
    (rejected : rejection expectedLen raw = some reason)
    (rejected' : rejection expectedLen raw' = some reason) :
    reason.message isprintable envVar expectedLen raw =
        reason.message isprintable envVar expectedLen raw' ↔
      (reason = .notHex → raw = raw') := by
  cases reason with
  | unset => exact ⟨fun _ => nofun, fun _ => rfl⟩
  | wrongLength got => exact ⟨fun _ => nofun, fun _ => rfl⟩
  | notHex =>
    obtain ⟨text, rfl⟩ := rejection_notHex rejected
    obtain ⟨text', rfl⟩ := rejection_notHex rejected'
    constructor
    · intro same _
      exact congrArg some (notHexText_inj same)
    · intro same
      rw [same rfl]

end Rejections

end Crypto
