import VerifiableRag.Crypto.KeyLoading

/-!
`config.py`: the enclave's settings, read once from its environment.
-/
namespace Config
open CodePoints Crypto

def COSTON2_RPC_URL_ENV : Str := ofString "COSTON2_RPC_URL"
def CONTRACT_REGISTRY_ADDR_ENV : Str := ofString "CONTRACT_REGISTRY_ADDR"
def FLARE_CONTRACT_REGISTRY_ENV : Str := ofString "FLARE_CONTRACT_REGISTRY"
def LOG_LEVEL_ENV : Str := ofString "LOG_LEVEL"
def ENCLAVE_ATTESTER_KEY_ENV : Str := ofString "ENCLAVE_ATTESTER_KEY"

def DEFAULT_COSTON2_RPC_URL : Str := ofString "https://coston2-api.flare.network/ext/C/rpc"
def DEFAULT_CONTRACT_REGISTRY_ADDR : Str := ofString "0xaD67FE66660Fb8dFE9d6b1b4240d8650e30F6019"
def DEFAULT_LOG_LEVEL : Str := ofString "INFO"

def VALID_LOG_LEVELS : List Str :=
  [ofString "DEBUG", ofString "INFO", ofString "WARNING", ofString "ERROR", ofString "CRITICAL"]

inductive SettingsError where
  | settings (message : Str)
  | secretMissing (message : Str)
  | invalidLogLevel (message : Str)
  deriving DecidableEq

section Text

def lowerChar (c : CodePoint) : CodePoint :=
  if 0x41 ≤ c ∧ c ≤ 0x5A then Fin.ofNat _ (c.val + 0x20) else c

/-- `str.lower` of ASCII text. -/
def lower (s : Str) : Str := s.map lowerChar

/-- `str.upper` of the characters whose upper case is in ASCII; no other matters to a
    comparison with a level. -/
def upper (s : Str) : Str :=
  s.flatMap fun c =>
    if 0x61 ≤ c ∧ c ≤ 0x7A then [Fin.ofNat _ (c.val - 0x20)]
    else if c = 0x131 then ofString "I"
    else if c = 0x17F then ofString "S"
    else if c = 0xDF then ofString "SS"
    else if c = 0xFB00 then ofString "FF"
    else if c = 0xFB01 then ofString "FI"
    else if c = 0xFB02 then ofString "FL"
    else if c = 0xFB03 then ofString "FFI"
    else if c = 0xFB04 then ofString "FFL"
    else if c = 0xFB05 ∨ c = 0xFB06 then ofString "ST"
    else [c]

/-- `re.IGNORECASE`, for a letter of the scheme pattern: a long s is an s. -/
def ignoreCase (letter c : CodePoint) : Bool :=
  lowerChar c = letter ∨ (letter = 0x73 ∧ c = 0x17F)

def startsIgnoringCase : Str → Str → Bool
  | [], _ => true
  | _ :: _, [] => false
  | letter :: pattern, c :: s => ignoreCase letter c && startsIgnoringCase pattern s

def rpcUrlSchemeRe (s : Str) : Bool :=
  [ofString "http://", ofString "https://", ofString "ws://", ofString "wss://"].any
    (startsIgnoringCase · s)

def hexLetters : Str := ofString "0123456789abcdefABCDEF"

/-- `_EVM_ADDRESS_RE`; the `$` also matches before a final newline. -/
def evmAddressRe (s : Str) : Bool :=
  (ofString "0x").isPrefixOf s ∧ ((s.drop 2).take 40).length = 40 ∧
    ((s.drop 2).take 40).all (· ∈ hexLetters) ∧ (s.drop 42 = [] ∨ s.drop 42 = [0x0A])

end Text

section Validators
variable (isprintable : CodePoint → Bool)

def validateRpcUrl (value : Str) : Except SettingsError Str :=
  if rpcUrlSchemeRe (strip value) then .ok (strip value)
  else .error (.settings (COSTON2_RPC_URL_ENV ++
    ofString " must start with http(s):// or ws(s)://, got " ++ repr isprintable (strip value)))

/-- `checksum` is `Web3.to_checksum_address`. -/
def validateEvmAddress (checksum : Str → Str) (value : Str) : Except SettingsError Str :=
  if evmAddressRe (strip value) then .ok (checksum (lower (strip value)))
  else .error (.settings (CONTRACT_REGISTRY_ADDR_ENV ++
    ofString " must be 0x followed by 40 hex chars, got " ++ repr isprintable (strip value)))

def validateLogLevel (value : Str) : Except SettingsError Str :=
  if upper (strip value) ∈ VALID_LOG_LEVELS then .ok (upper (strip value))
  else .error (.invalidLogLevel (LOG_LEVEL_ENV ++
    ofString " must be one of DEBUG, INFO, WARNING, ERROR, CRITICAL, got " ++
      repr isprintable value))

/-- The text of a secret: stripped, and less a `0x` where that is allowed. -/
def secretText (value : Str) (allow0xPrefix : Bool) : Str :=
  if allow0xPrefix ∧ (ofString "0x").isPrefixOf (strip value) then (strip value).drop 2
  else strip value

def IsSecretHex (key : Str) : Prop := key.length = 64 ∧ ∀ c ∈ key, c ∈ hexLetters

instance (key : Str) : Decidable (IsSecretHex key) := inferInstanceAs (Decidable (_ ∧ _))

def validateSecretHex (name value : Str) (allow0xPrefix : Bool) : Except SettingsError Str :=
  let key := secretText value allow0xPrefix
  if IsSecretHex key then .ok (lower key)
  else .error (.settings (name ++ ofString
    " must decode to exactly 32 bytes (64 hex chars), got " ++ decimal key.length ++
    ofString " chars"))

end Validators

structure Settings where
  coston2RpcUrl : Str
  contractRegistryAddr : Str
  logLevel : Str
  payloadKeyHex : Str
  attesterKeyHex : Str

section FromEnv
variable (isprintable : CodePoint → Bool) (checksum : Str → Str)

/-- A secret that is set; the empty text counts as none. -/
def secret (message : Str) : Option Str → Except SettingsError Str
  | some (c :: value) => .ok (c :: value)
  | _ => .error (.secretMissing message)

def payloadKeyMissing : Str :=
  ENCLAVE_PAYLOAD_KEY_ENV ++ ofString (" is not set: the enclave refuses " ++
    "to process payloads without a configured AES key")

def attesterKeyMissing : Str :=
  ENCLAVE_ATTESTER_KEY_ENV ++ ofString (" is not set: the enclave cannot " ++
    "sign attestations without its signer key")

/-- `a or b`, of texts that may be absent or empty. -/
def orElse (a b : Option Str) : Option Str :=
  match a with
  | some (c :: value) => some (c :: value)
  | _ => b

def registryOf (environ : Str → Option Str) : Str :=
  (orElse (orElse (environ CONTRACT_REGISTRY_ADDR_ENV) (environ FLARE_CONTRACT_REGISTRY_ENV))
    (some DEFAULT_CONTRACT_REGISTRY_ADDR)).getD []

def Settings.fromEnv (environ : Str → Option Str) : Except SettingsError Settings := do
  let rpcUrl := (environ COSTON2_RPC_URL_ENV).getD DEFAULT_COSTON2_RPC_URL
  let logLevel := (environ LOG_LEVEL_ENV).getD DEFAULT_LOG_LEVEL
  let payloadKey ← secret payloadKeyMissing (environ ENCLAVE_PAYLOAD_KEY_ENV)
  let attesterKey ← secret attesterKeyMissing (environ ENCLAVE_ATTESTER_KEY_ENV)
  let coston2RpcUrl ← validateRpcUrl isprintable rpcUrl
  let contractRegistryAddr ← validateEvmAddress isprintable checksum (registryOf environ)
  let logLevel ← validateLogLevel isprintable logLevel
  let payloadKeyHex ← validateSecretHex ENCLAVE_PAYLOAD_KEY_ENV payloadKey false
  let attesterKeyHex ← validateSecretHex ENCLAVE_ATTESTER_KEY_ENV attesterKey true
  return { coston2RpcUrl, contractRegistryAddr, logLevel, payloadKeyHex, attesterKeyHex }

end FromEnv

end Config
