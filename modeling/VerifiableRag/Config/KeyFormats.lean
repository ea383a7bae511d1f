import VerifiableRag.Config.Settings
import VerifiableRag.Processor.Payload
import VerifiableRag.Library.Results

/-!
Four readers of the secret keys: the settings, the processor, the `crypto` package and the
Flare client.
-/
namespace Config
open CodePoints Crypto Results

section Hex

theorem hexValue_unspaced {c : CodePoint} {d : Nat} (digit : hexValue c = some d) :
    asciiSpace c = false := by
  have range : 0x30 ≤ c := by
    by_contra below
    have high : ¬ 0x41 ≤ c := fun above => below (le_trans (by decide) above)
    have high' : ¬ 0x61 ≤ c := fun above => below (le_trans (by decide) above)
    simp only [hexValue, below, high, high', false_and, if_false] at digit
    cases digit
  have value : 0x30 ≤ c.val := Fin.le_def.mp range
  simp only [asciiSpace, Fin.ext_iff, Fin.le_def, decide_eq_false_iff_not]
  change ¬ (c.val = 0x20 ∨ (0x9 ≤ c.val ∧ c.val ≤ 0xD))
  omega

theorem mem_hexLetters {c : CodePoint} : c ∈ hexLetters ↔ ∃ d, hexValue c = some d := by
  have listed : hexLetters = [0x30, 0x31, 0x32, 0x33, 0x34, 0x35, 0x36, 0x37, 0x38, 0x39, 0x61, 0x62,
      0x63, 0x64, 0x65, 0x66, 0x41, 0x42, 0x43, 0x44, 0x45, 0x46] := by decide +kernel
  rw [listed]
  constructor
  · intro member
    rw [← Option.isSome_iff_exists]
    revert c
    rw [← List.all_eq_true]
    decide +kernel
  · rintro ⟨d, digit⟩
    unfold hexValue at digit
    simp only [List.mem_cons, List.not_mem_nil, or_false, Fin.ext_iff]
    simp only [Fin.le_def] at digit
    change c.val = 0x30 ∨ c.val = 0x31 ∨ c.val = 0x32 ∨ c.val = 0x33 ∨ c.val = 0x34 ∨ c.val = 0x35 ∨
      c.val = 0x36 ∨ c.val = 0x37 ∨ c.val = 0x38 ∨ c.val = 0x39 ∨ c.val = 0x61 ∨ c.val = 0x62 ∨
      c.val = 0x63 ∨ c.val = 0x64 ∨ c.val = 0x65 ∨ c.val = 0x66 ∨ c.val = 0x41 ∨ c.val = 0x42 ∨
      c.val = 0x43 ∨ c.val = 0x44 ∨ c.val = 0x45 ∨ c.val = 0x46
    split at digit
    · rename_i range
      change 0x30 ≤ c.val ∧ c.val ≤ 0x39 at range
      omega
    split at digit
    · rename_i range
      change 0x61 ≤ c.val ∧ c.val ≤ 0x66 at range
      omega
    split at digit
    · rename_i range
      change 0x41 ≤ c.val ∧ c.val ≤ 0x46 at range
      omega
    · cases digit

theorem fromhex_space {c : CodePoint} (space : asciiSpace c) (s : Str) :
    fromhex (c :: s) = fromhex s := by
  cases s with
  | nil => simp [fromhex, space]
  | cons d s => rw [fromhex, if_pos space]

/-- The text of a key: digits in pairs, and white space. -/
theorem fromhex_some {s : Str} {key : List UInt8} (read : fromhex s = some key) :
    2 * key.length + s.countP asciiSpace = s.length ∧
      ∀ c ∈ s, asciiSpace c ∨ c ∈ hexLetters := by
  induction s using fromhex.induct generalizing key with
  | case1 =>
    cases read
    exact ⟨rfl, by simp⟩
  | case2 c space =>
    rw [fromhex, if_pos space] at read
    cases read
    simp [space]
  | case3 c solid =>
    rw [fromhex, if_neg solid] at read
    cases read
  | case4 c d rest space ih =>
    rw [fromhex, if_pos space] at read
    obtain ⟨size, members⟩ := ih read
    rw [List.countP_cons_of_pos space, List.length_cons]
    exact ⟨by omega, List.forall_mem_cons.mpr ⟨Or.inl space, members⟩⟩
  | case5 c d rest solid high low second first ih =>
    rw [fromhex, if_neg solid, first, second] at read
    obtain ⟨key', read', rfl⟩ := Option.map_eq_some_iff.mp read
    obtain ⟨size, members⟩ := ih read'
    have solid' : ¬ asciiSpace d := by simp [hexValue_unspaced second]
    rw [List.countP_cons_of_neg solid, List.countP_cons_of_neg solid', List.length_cons,
      List.length_cons, List.length_cons]
    refine ⟨by omega, ?_⟩
    rw [List.forall_mem_cons, List.forall_mem_cons]
    exact ⟨Or.inr (mem_hexLetters.mpr ⟨high, first⟩), Or.inr (mem_hexLetters.mpr ⟨low, second⟩),
      members⟩
  | case6 c d rest solid other =>
    rw [fromhex, if_neg solid] at read
    split at read
    · rename_i high low first second
      exact absurd second (other high low first)
    · cases read

theorem fromhex_digits {s : Str} {n : Nat} (even : s.length = 2 * n)
    (digits : ∀ c ∈ s, c ∈ hexLetters) : ∃ key, fromhex s = some key ∧ key.length = n := by
  induction n generalizing s with
  | zero =>
    rw [List.length_eq_zero_iff] at even
    rw [even]
    exact ⟨[], rfl, rfl⟩
  | succ n ih =>
    obtain ⟨c, d, rest, rfl⟩ : ∃ c d rest, s = c :: d :: rest := by
      match s, even with
      | c :: d :: rest, _ => exact ⟨c, d, rest, rfl⟩
    rw [List.forall_mem_cons, List.forall_mem_cons] at digits
    obtain ⟨high, first⟩ := mem_hexLetters.mp digits.1
    obtain ⟨low, second⟩ := mem_hexLetters.mp digits.2.1
    rw [List.length_cons, List.length_cons] at even
    obtain ⟨key, read, size⟩ := ih (by omega) digits.2.2
    refine ⟨UInt8.ofNat (16 * high + low) :: key, ?_, by rw [List.length_cons, size]⟩
    rw [fromhex, if_neg (by simp [hexValue_unspaced first]), first, second, read]
    rfl

theorem lowerChar_val (c : CodePoint) : (lowerChar c).val =
    if 0x41 ≤ c.val ∧ c.val ≤ 0x5A then c.val + 0x20 else c.val := by
  unfold lowerChar
  simp only [Fin.le_def]
  split
  · rename_i upper
    change 0x41 ≤ c.val ∧ c.val ≤ 0x5A at upper
    rw [if_pos upper]
    exact Nat.mod_eq_of_lt (by omega)
  · rename_i other
    change ¬ (0x41 ≤ c.val ∧ c.val ≤ 0x5A) at other
    rw [if_neg other]

theorem hexValue_lower (c : CodePoint) : hexValue (lowerChar c) = hexValue c := by
  simp only [hexValue, Fin.le_def, lowerChar_val]
  change (if 0x30 ≤ _ ∧ _ ≤ 0x39 then some (_ - 0x30) else if 0x61 ≤ _ ∧ _ ≤ 0x66 then some (_ - 0x57)
      else if 0x41 ≤ _ ∧ _ ≤ 0x46 then some (_ - 0x37) else none) =
    if 0x30 ≤ c.val ∧ c.val ≤ 0x39 then some (c.val - 0x30)
    else if 0x61 ≤ c.val ∧ c.val ≤ 0x66 then some (c.val - 0x57)
    else if 0x41 ≤ c.val ∧ c.val ≤ 0x46 then some (c.val - 0x37) else none
  grind

theorem asciiSpace_lower (c : CodePoint) : asciiSpace (lowerChar c) = asciiSpace c := by
  simp only [asciiSpace, Fin.ext_iff, Fin.le_def, lowerChar_val, decide_eq_decide]
  change (_ = 0x20 ∨ (0x9 ≤ _ ∧ _ ≤ 0xD)) ↔ (c.val = 0x20 ∨ (0x9 ≤ c.val ∧ c.val ≤ 0xD))
  split <;> omega

theorem fromhex_lower (s : Str) : fromhex (lower s) = fromhex s := by
  unfold lower
  induction s using fromhex.induct with
  | case1 => rfl
  | case2 c space => simp [fromhex, asciiSpace_lower]
  | case3 c solid => simp [fromhex, asciiSpace_lower]
  | case4 c d rest space ih =>
    rw [List.map_cons, fromhex_space (by rw [asciiSpace_lower]; exact space), ih,
      fromhex_space space]
  | case5 c d rest solid high low second first ih =>
    rw [List.map_cons, List.map_cons, fromhex, fromhex, asciiSpace_lower, if_neg solid, if_neg solid,
      hexValue_lower, hexValue_lower, first, second, ih]
  | case6 c d rest solid other =>
    rw [List.map_cons, List.map_cons, fromhex, fromhex, asciiSpace_lower, if_neg solid, if_neg solid,
      hexValue_lower, hexValue_lower]
    split
    · rename_i high low first second
      exact absurd second (other high low first)
    · rfl

theorem isSecretHex_iff {s : Str} : IsSecretHex s ↔
    (∃ key, fromhex s = some key ∧ key.length = 32) ∧ ∀ c ∈ s, ¬ asciiSpace c := by
  constructor
  · intro secret
    refine ⟨fromhex_digits secret.1 secret.2, ?_⟩
    intro c member
    obtain ⟨d, digit⟩ := mem_hexLetters.mp (secret.2 c member)
    simp [hexValue_unspaced digit]
  · intro h
    obtain ⟨⟨key, read, size⟩, solid⟩ := h
    obtain ⟨length, members⟩ := fromhex_some read
    rw [List.countP_eq_zero.mpr solid] at length
    exact ⟨by omega, fun c member => (members c member).resolve_left (solid c member)⟩

end Hex

/-- `SignerNotConfiguredError`, with its message. -/
structure SignerNotConfiguredError where
  message : Str
  deriving DecidableEq

/-- `FlareCoston2Client.attester_key`; `raw` is `os.environ.get(ENCLAVE_ATTESTER_KEY_ENV)`. -/
def attesterKey (raw : Option Str) : Except SignerNotConfiguredError Str :=
  match raw with
  | some (c :: raw) =>
    let key := secretText (c :: raw) true
    if IsSecretHex key then .ok key
    else .error ⟨ENCLAVE_ATTESTER_KEY_ENV ++ ofString (" must be a 32-byte hex key (64 hex " ++
      "chars), got ") ++ decimal key.length ++ ofString " chars"⟩
  | _ => .error ⟨ENCLAVE_ATTESTER_KEY_ENV ++ ofString (" is not set: set it to the enclave's " ++
      "32-byte attestation signer key (see REAL-DATA-SOURCES.md)")⟩

section Readers
variable (isprintable : CodePoint → Bool) (checksum : Str → Str)

/-- The settings of some environment take the text as the payload key. -/
def SettingsPayload (s : Str) (key : List UInt8) : Prop :=
  ∃ environ settings, environ ENCLAVE_PAYLOAD_KEY_ENV = some s ∧
    Settings.fromEnv isprintable checksum environ = .ok settings ∧
    fromhex settings.payloadKeyHex = some key

def SettingsAttester (s : Str) (key : List UInt8) : Prop :=
  ∃ environ settings, environ ENCLAVE_ATTESTER_KEY_ENV = some s ∧
    Settings.fromEnv isprintable checksum environ = .ok settings ∧
    fromhex settings.attesterKeyHex = some key

def ProcessorPayload (s : Str) (key : List UInt8) : Prop :=
  ∃ loaded, Processor.loadPayloadKey (some s) = .ok loaded ∧ loaded.val = key

def PackagePayload (s : Str) (key : List UInt8) : Prop :=
  ∃ loaded, loadHexKey isprintable ENCLAVE_PAYLOAD_KEY_ENV GCM_KEY_LEN (some s) = .ok loaded ∧
    loaded.val = key

def ClientAttester (s : Str) (key : List UInt8) : Prop :=
  ∃ hex, attesterKey (some s) = .ok hex ∧ fromhex hex = some key

variable {isprintable checksum} {s : Str} {key : List UInt8}

theorem validateSecretHex_ok {name : Str} {allow0xPrefix : Bool} {hex : Str} :
    validateSecretHex name s allow0xPrefix = .ok hex ↔
      IsSecretHex (secretText s allow0xPrefix) ∧ lower (secretText s allow0xPrefix) = hex := by
  unfold validateSecretHex
  by_cases secret : IsSecretHex (secretText s allow0xPrefix)
  · rw [if_pos secret, Except.ok.injEq]
    exact (and_iff_right secret).symm
  · rw [if_neg secret]
    exact iff_of_false nofun fun h => secret h.1

theorem secret_ok {message : Str} {raw : Option Str} :
    secret message raw = .ok s ↔ raw = some s ∧ s ≠ [] := by
  rcases raw with _ | _ | ⟨c, value⟩
  · exact iff_of_false nofun nofun
  · refine iff_of_false nofun ?_
    rintro ⟨same, nonempty⟩
    exact nonempty (Option.some.inj same).symm
  · rw [secret, Except.ok.injEq, Option.some.injEq]
    constructor
    · rintro rfl
      exact ⟨rfl, nofun⟩
    · exact And.left

/-- What the settings hold of the two secrets. -/
theorem fromEnv_secrets {environ : Str → Option Str} {settings : Settings}
    (ok : Settings.fromEnv isprintable checksum environ = .ok settings) :
    (∃ value, environ ENCLAVE_PAYLOAD_KEY_ENV = some value ∧ IsSecretHex (secretText value false) ∧
      lower (secretText value false) = settings.payloadKeyHex) ∧
    ∃ value, environ ENCLAVE_ATTESTER_KEY_ENV = some value ∧ IsSecretHex (secretText value true) ∧
      lower (secretText value true) = settings.attesterKeyHex := by
  simp only [Settings.fromEnv, except_bind_ok] at ok
  obtain ⟨payload, payloadSet, attester, attesterSet, _, _, _, _, _, _, payloadHex, payloadOk,
    attesterHex, attesterOk, same⟩ := ok
  cases same
  exact ⟨⟨payload, (secret_ok.mp payloadSet).1, validateSecretHex_ok.mp payloadOk⟩,
    ⟨attester, (secret_ok.mp attesterSet).1, validateSecretHex_ok.mp attesterOk⟩⟩

/-- An environment with the two secrets and nothing else. -/
def twoSecrets (payload attester name : Str) : Option Str :=
  if name = ENCLAVE_PAYLOAD_KEY_ENV then some payload
  else if name = ENCLAVE_ATTESTER_KEY_ENV then some attester
  else none

theorem twoSecrets_payload (payload attester : Str) :
    twoSecrets payload attester ENCLAVE_PAYLOAD_KEY_ENV = some payload := if_pos rfl

theorem twoSecrets_attester (payload attester : Str) :
    twoSecrets payload attester ENCLAVE_ATTESTER_KEY_ENV = some attester := by
  rw [twoSecrets, if_neg (by decide +kernel), if_pos rfl]

theorem twoSecrets_absent (payload attester : Str) {name : Str}
    (other : name ≠ ENCLAVE_PAYLOAD_KEY_ENV) (other' : name ≠ ENCLAVE_ATTESTER_KEY_ENV) :
    twoSecrets payload attester name = none := by
  rw [twoSecrets, if_neg other, if_neg other']

theorem fromEnv_twoSecrets {payload attester : Str}
    (payloadHex : IsSecretHex (secretText payload false))
    (attesterHex : IsSecretHex (secretText attester true)) :
    ∃ settings, Settings.fromEnv isprintable checksum (twoSecrets payload attester) = .ok settings ∧
      settings.payloadKeyHex = lower (secretText payload false) ∧
      settings.attesterKeyHex = lower (secretText attester true) := by
  have nonempty : ∀ {value : Str} {allowed : Bool}, IsSecretHex (secretText value allowed) →
      value ≠ [] := by
    rintro value allowed hex rfl
    have size := hex.1
    cases allowed <;> cases size
  have rpc : validateRpcUrl isprintable DEFAULT_COSTON2_RPC_URL =
      .ok (strip DEFAULT_COSTON2_RPC_URL) := if_pos (by decide +kernel)
  have registry : validateEvmAddress isprintable checksum DEFAULT_CONTRACT_REGISTRY_ADDR =
      .ok (checksum (lower (strip DEFAULT_CONTRACT_REGISTRY_ADDR))) := if_pos (by decide +kernel)
  have level : validateLogLevel isprintable DEFAULT_LOG_LEVEL =
      .ok (upper (strip DEFAULT_LOG_LEVEL)) := if_pos (by decide +kernel)
  have payloadSet : secret payloadKeyMissing (some payload) = .ok payload :=
    secret_ok.mpr ⟨rfl, nonempty payloadHex⟩
  have attesterSet : secret attesterKeyMissing (some attester) = .ok attester :=
    secret_ok.mpr ⟨rfl, nonempty attesterHex⟩
  have payloadOk : validateSecretHex ENCLAVE_PAYLOAD_KEY_ENV payload false =
      .ok (lower (secretText payload false)) := validateSecretHex_ok.mpr ⟨payloadHex, rfl⟩
  have attesterOk : validateSecretHex ENCLAVE_ATTESTER_KEY_ENV attester true =
      .ok (lower (secretText attester true)) := validateSecretHex_ok.mpr ⟨attesterHex, rfl⟩
  have default : registryOf (twoSecrets payload attester) = DEFAULT_CONTRACT_REGISTRY_ADDR := by
    rw [registryOf, twoSecrets_absent payload attester (by decide +kernel) (by decide +kernel),
      twoSecrets_absent payload attester (by decide +kernel) (by decide +kernel)]
    rfl
  refine ⟨⟨strip DEFAULT_COSTON2_RPC_URL, checksum (lower (strip DEFAULT_CONTRACT_REGISTRY_ADDR)),
    upper (strip DEFAULT_LOG_LEVEL), lower (secretText payload false),
    lower (secretText attester true)⟩, ?_, rfl, rfl⟩
  rw [Settings.fromEnv, twoSecrets_payload, twoSecrets_attester,
    twoSecrets_absent payload attester (by decide +kernel) (by decide +kernel),
    twoSecrets_absent payload attester (by decide +kernel) (by decide +kernel),
    ok_bind payloadSet, ok_bind attesterSet, Option.getD_none, ok_bind rpc, default,
    ok_bind registry, Option.getD_none, ok_bind level, ok_bind payloadOk, ok_bind attesterOk]
  rfl

def zeroSecret : Str := List.replicate 64 0x30

theorem zeroSecret_hex (allow0xPrefix : Bool) : IsSecretHex (secretText zeroSecret allow0xPrefix) := by
  have whole : secretText zeroSecret allow0xPrefix = zeroSecret := by
    cases allow0xPrefix <;> decide +kernel
  rw [whole]
  refine ⟨rfl, ?_⟩
  intro c member
  rw [List.eq_of_mem_replicate member]
  exact mem_hexLetters.mpr ⟨0, rfl⟩

theorem settingsPayload_iff : SettingsPayload isprintable checksum s key ↔
    IsSecretHex (strip s) ∧ fromhex (strip s) = some key := by
  constructor
  · rintro ⟨environ, settings, given, ok, read⟩
    obtain ⟨⟨value, found, hex, same⟩, _⟩ := fromEnv_secrets ok
    rw [given] at found
    cases found
    rw [← same, fromhex_lower] at read
    exact ⟨hex, read⟩
  · rintro ⟨hex, read⟩
    obtain ⟨settings, ok, same, _⟩ := @fromEnv_twoSecrets isprintable checksum s zeroSecret hex
      (zeroSecret_hex true)
    refine ⟨_, settings, twoSecrets_payload s zeroSecret, ok, ?_⟩
    rw [same, fromhex_lower]
    exact read

theorem settingsAttester_iff : SettingsAttester isprintable checksum s key ↔
    IsSecretHex (secretText s true) ∧ fromhex (secretText s true) = some key := by
  constructor
  · rintro ⟨environ, settings, given, ok, read⟩
    obtain ⟨_, value, found, hex, same⟩ := fromEnv_secrets ok
    rw [given] at found
    cases found
    rw [← same, fromhex_lower] at read
    exact ⟨hex, read⟩
  · rintro ⟨hex, read⟩
    obtain ⟨settings, ok, _, same⟩ := @fromEnv_twoSecrets isprintable checksum zeroSecret s
      (zeroSecret_hex false) hex
    refine ⟨_, settings, twoSecrets_attester zeroSecret s, ok, ?_⟩
    rw [same, fromhex_lower]
    exact read

theorem clientAttester_iff : ClientAttester s key ↔
    IsSecretHex (secretText s true) ∧ fromhex (secretText s true) = some key := by
  unfold ClientAttester
  cases s with
  | nil =>
    refine iff_of_false ?_ ?_
    · rintro ⟨hex, ok, _⟩
      cases ok
    · rintro ⟨hex, _⟩
      cases hex.1
  | cons c raw =>
    rw [attesterKey]
    by_cases secret : IsSecretHex (secretText (c :: raw) true)
    · rw [if_pos secret]
      constructor
      · rintro ⟨hex, ok, read⟩
        cases ok
        exact ⟨secret, read⟩
      · rintro ⟨_, read⟩
        exact ⟨_, rfl, read⟩
    · rw [if_neg secret]
      refine iff_of_false ?_ (fun h => secret h.1)
      rintro ⟨hex, ok, _⟩
      cases ok

theorem sized_ok {ε : Type} {n : Nat} {found key : List UInt8} {size : key.length = n} {e : ε} :
    (if fits : found.length = n then .ok ⟨found, fits⟩ else .error e : Except ε (Key n)) = .ok ⟨key, size⟩ ↔
      some found = some key := by
  split
  · rw [Except.ok.injEq, Option.some.injEq, Subtype.mk.injEq]
  · rename_i other
    refine iff_of_false (by simp) ?_
    intro same
    cases same
    exact other size

theorem loadPayloadKey_ok {loaded : Key GCM_KEY_LEN} : Processor.loadPayloadKey (some s) = .ok loaded ↔
    s ≠ [] ∧ fromhex (strip s) = some loaded.val := by
  obtain ⟨key, size⟩ := loaded
  cases s with
  | nil => simp [Processor.loadPayloadKey]
  | cons c raw =>
    rw [Processor.loadPayloadKey, and_iff_right (List.cons_ne_nil c raw)]
    · cases fromhex (strip (c :: raw)) with
      | none => simp only [reduceCtorEq]
      | some found => exact sized_ok
    · exact List.cons_ne_nil c raw

theorem loadHexKey_ok {loaded : Key GCM_KEY_LEN} :
    loadHexKey isprintable ENCLAVE_PAYLOAD_KEY_ENV GCM_KEY_LEN (some s) = .ok loaded ↔
      s ≠ [] ∧ decodeKey s = some loaded.val := by
  obtain ⟨key, size⟩ := loaded
  cases s with
  | nil => simp [loadHexKey]
  | cons c raw =>
    rw [loadHexKey, and_iff_right (List.cons_ne_nil c raw)]
    · cases decodeKey (c :: raw) with
      | none => simp only [reduceCtorEq]
      | some found => exact sized_ok
    · exact List.cons_ne_nil c raw

/-- A loader that reads the text of a key reads 32 bytes. -/
theorem loaded_iff {ε : Type} {loader : Except ε (Key GCM_KEY_LEN)} {read : Option (List UInt8)}
    (ok : ∀ loaded, loader = .ok loaded ↔ s ≠ [] ∧ read = some loaded.val)
    (empty : s = [] → read = some []) :
    (∃ loaded, loader = .ok loaded ∧ loaded.val = key) ↔ read = some key ∧ key.length = 32 := by
  constructor
  · rintro ⟨⟨key', size⟩, loaded, rfl⟩
    exact ⟨((ok _).mp loaded).2, size⟩
  · rintro ⟨found, size⟩
    refine ⟨⟨key, size⟩, (ok _).mpr ⟨?_, found⟩, rfl⟩
    intro none
    rw [empty none] at found
    cases found
    cases size

theorem processorPayload_iff : ProcessorPayload s key ↔
    fromhex (strip s) = some key ∧ key.length = 32 := by
  apply loaded_iff fun _ => loadPayloadKey_ok
  rintro rfl
  rfl

theorem packagePayload_iff : PackagePayload isprintable s key ↔
    decodeKey s = some key ∧ key.length = 32 := by
  apply loaded_iff fun _ => loadHexKey_ok
  rintro rfl
  rfl

end Readers

section Formats
variable (isprintable : CodePoint → Bool) (checksum : Str → Str) (s : Str)

/-- The readers of a key accept the same texts and read the same bytes. -/
structure OneFormat : Prop where
  settings_processor : ∀ key, SettingsPayload isprintable checksum s key ↔ ProcessorPayload s key
  processor_package : ∀ key, ProcessorPayload s key ↔ PackagePayload isprintable s key
  attester : ∀ key, SettingsAttester isprintable checksum s key ↔ ClientAttester s key

/-- A key behind `0x` or `0X`. -/
def Prefixed : Prop :=
  ∃ text key, (strip s = ofString "0x" ++ text ∨ strip s = ofString "0X" ++ text) ∧
    fromhex text = some key ∧ key.length = 32

/-- A key with white space between its bytes. -/
def Spaced : Prop :=
  (∃ key, fromhex (strip s) = some key ∧ key.length = 32) ∧ ∃ c ∈ strip s, asciiSpace c

theorem fromhex_prefixed {t text : Str}
    (marked : t = ofString "0x" ++ text ∨ t = ofString "0X" ++ text) :
    fromhex t = none ∧ dropHexPrefix t = text := by
  have small : ofString "0x" = [0x30, 0x78] := by decide +kernel
  have large : ofString "0X" = [0x30, 0x58] := by decide +kernel
  rcases marked with rfl | rfl
  · rw [small]
    refine ⟨rfl, ?_⟩
    rw [dropHexPrefix, small, if_pos (Or.inl (by simp))]
    rfl
  · rw [large]
    refine ⟨rfl, ?_⟩
    rw [dropHexPrefix, large, if_pos (Or.inr (by simp))]
    rfl

theorem dropHexPrefix_cases (t : Str) :
    (∃ text, t = ofString "0x" ++ text ∨ t = ofString "0X" ++ text) ∨ dropHexPrefix t = t := by
  by_cases marked : (ofString "0x").isPrefixOf t ∨ (ofString "0X").isPrefixOf t
  · left
    rcases marked with small | large
    · obtain ⟨text, same⟩ := List.isPrefixOf_iff_prefix.mp small
      exact ⟨text, Or.inl same.symm⟩
    · obtain ⟨text, same⟩ := List.isPrefixOf_iff_prefix.mp large
      exact ⟨text, Or.inr same.symm⟩
  · right
    exact if_neg marked

variable {isprintable checksum s} in
theorem prefixed_splits (marked : Prefixed s) : ¬ OneFormat isprintable checksum s := by
  intro format
  obtain ⟨text, key, marked, read, size⟩ := marked
  obtain ⟨unread, dropped⟩ := fromhex_prefixed marked
  have package : PackagePayload isprintable s key := by
    rw [packagePayload_iff, decodeKey, dropped]
    exact ⟨read, size⟩
  have processor := processorPayload_iff.mp ((format.processor_package key).mpr package)
  rw [unread] at processor
  cases processor.1

variable {isprintable checksum s} in
theorem spaced_splits (spaced : Spaced s) : ¬ OneFormat isprintable checksum s := by
  intro format
  obtain ⟨⟨key, read, size⟩, c, member, space⟩ := spaced
  have processor : ProcessorPayload s key := processorPayload_iff.mpr ⟨read, size⟩
  have settings := settingsPayload_iff.mp ((format.settings_processor key).mpr processor)
  exact (isSecretHex_iff.mp settings.1).2 c member space

theorem one_format_iff : OneFormat isprintable checksum s ↔ ¬ Prefixed s ∧ ¬ Spaced s := by
  constructor
  · intro format
    exact ⟨fun marked => prefixed_splits marked format, fun spaced => spaced_splits spaced format⟩
  · rintro ⟨bare, solid⟩
    constructor
    · intro key
      rw [settingsPayload_iff, processorPayload_iff, and_comm]
      apply and_congr_right
      intro read
      constructor
      · intro secret
        obtain ⟨⟨key', read', size⟩, _⟩ := isSecretHex_iff.mp secret
        rw [read] at read'
        cases read'
        exact size
      · intro size
        refine isSecretHex_iff.mpr ⟨⟨key, read, size⟩, ?_⟩
        intro c member space
        exact solid ⟨⟨key, read, size⟩, c, member, space⟩
    · intro key
      rw [processorPayload_iff, packagePayload_iff, decodeKey]
      rcases dropHexPrefix_cases (strip s) with ⟨text, marked⟩ | same
      · obtain ⟨unread, dropped⟩ := fromhex_prefixed marked
        rw [unread, dropped]
        refine iff_of_false (fun h => nomatch h.1) ?_
        rintro ⟨read, size⟩
        exact bare ⟨text, key, marked, read, size⟩
      · rw [same]
    · intro key
      rw [settingsAttester_iff, clientAttester_iff]

def sampleIsprintable (c : CodePoint) : Bool := 0x20 ≤ c ∧ c ≤ 0x7E

def sampleChecksum (_ : Str) : Str := DEFAULT_CONTRACT_REGISTRY_ADDR

/-- The package reads the key that the settings and the processor refuse. -/
theorem prefixed_key_split :
    ¬ OneFormat sampleIsprintable sampleChecksum (ofString "0x" ++ zeroSecret) := by
  apply prefixed_splits
  exact ⟨zeroSecret, List.replicate 32 0, Or.inl (by decide +kernel), by decide +kernel, rfl⟩

end Formats

end Config
