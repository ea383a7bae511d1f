import VerifiableRag.Jwt.IntelToken

/-!
The fetches of `AttestationEngine` against an arbitrary token endpoint: what they send,
what they take for the raw token, and which raw tokens they accept over a run.
-/
namespace Jwt
open Bytes Json Float64 Results

inductive Verifier where
  | oidc
  | ita
  deriving DecidableEq

structure TokenRequest where
  endpoint : Text
  audience : Text
  nonces : List Text
  tokenType : Text

inductive Transport where
  | body (bytes : List UInt8)
  /-- An exception of the opener, by the name of its type. -/
  | failed (exception : String)
  | timedOut

inductive Unavailable where
  | timeout
  | unreachable (exception : String)
  | emptyBody

inductive FetchError where
  | unavailable (cause : Unavailable)
  /-- The exceptions of `json.loads` that no handler of the transport names. -/
  | valueError
  | recursionError
  | token (error : TokenError)
  | intel (error : IntelError)

/-- No fetch writes to the engine. -/
structure AttestationEngine where
  endpoint : Text
  intelEndpoint : Text
  audience : Text
  nonces : List Text
  demands : nonces ≠ []

def defaultAudience : Text := utf8 "flare-verifiable-rag"

/-- `__init__`; `random` is `random_hex(16)`. -/
def AttestationEngine.init (endpoint intelEndpoint : Text) (audience : Option Text)
    (nonces : Option (List Text)) (random : Text) : AttestationEngine where
  endpoint := endpoint
  intelEndpoint := intelEndpoint
  audience :=
    match audience with
    | none | some [] => defaultAudience
    | some given => given
  nonces :=
    match nonces with
    | none | some [] => [random]
    | some given => given
  demands := by split <;> simp_all

/-- `_fetch_raw` of one request: the clock of the parser that follows, and the endpoint. -/
structure Reply where
  clock : F64
  answer : TokenRequest → Transport

/-- `bytes.decode("utf-8")`: no surrogates. -/
def strictUtf8 (b : List UInt8) : Bool :=
  Unicode.wellFormed b && (b.zip b.tail).all fun p => !(p.1 == 0xED && 0xA0 ≤ p.2)

/-- The raw token in a payload: the string itself, or the `token` of a JSON object. -/
def unwrapToken (depth : Nat) (payload : Text) : Except FetchError Text :=
  match decodeJson depth payload with
  | .ok (.obj members) =>
    match lookup members (utf8 "token") with
    | some (.str token) => .ok token
    | _ => .ok payload
  | .ok _ | .error .decode | .error .unicode => .ok payload
  | .error .digits => .error .valueError
  | .error .recursion => .error .recursionError

def fetchRawToken (depth : Nat) : Transport → Except FetchError Text
  | .timedOut => .error (.unavailable .timeout)
  | .failed exception => .error (.unavailable (.unreachable exception))
  | .body bytes =>
    if strictUtf8 bytes then
      let payload := PyStr.strip bytes
      if payload = [] then .error (.unavailable .emptyBody) else unwrapToken depth payload
    else .error (.unavailable (.unreachable "UnicodeDecodeError"))

namespace AttestationEngine
variable (engine : AttestationEngine) (py : Interpreter)

/-- An empty endpoint is the primary one. -/
def target : Verifier → Text
  | .oidc => engine.endpoint
  | .ita => if engine.intelEndpoint = [] then engine.endpoint else engine.intelEndpoint

def request (verifier : Verifier) : TokenRequest :=
  ⟨engine.target verifier, engine.audience, engine.nonces, utf8 "OIDC"⟩

def fetchRaw (verifier : Verifier) (reply : Reply) : Except FetchError Text :=
  fetchRawToken py.depth (reply.answer (engine.request verifier))

def fetchToken (reply : Reply) : Except FetchError AttestationToken := do
  let raw ← engine.fetchRaw py .oidc reply
  (parseToken { py with now := reply.clock } raw (some engine.audience)
    (some engine.nonces)).mapError .token

def fetchIntelAttestation (reply : Reply) : Except FetchError IntelAttestationToken := do
  let raw ← engine.fetchRaw py .ita reply
  (parseIntelToken { py with now := reply.clock } raw (some engine.audience)
    (some engine.nonces)).mapError .intel

def isTdxHardware (token : AttestationToken) : Bool := isString token.hwmodel expectedTdxHwmodel

/-- The fallback is mandatory once the primary token says TDX. -/
def fetchTokenWithFallback (first second : Reply) :
    Except FetchError (AttestationToken × Option IntelAttestationToken) := do
  let primary ← engine.fetchToken py first
  if isTdxHardware primary then
    let intel ← engine.fetchIntelAttestation py second
    return (primary, some intel)
  else return (primary, none)

end AttestationEngine

inductive Fetch where
  | token (reply : Reply)
  | intelAttestation (reply : Reply)
  | tokenWithFallback (first second : Reply)

namespace AttestationEngine
variable (engine : AttestationEngine) (py : Interpreter)

/-- The exchanges of a fetch: the second of a fallback needs a primary token of TDX. -/
def exchanges : Fetch → List (Verifier × Reply)
  | .token reply => [(.oidc, reply)]
  | .intelAttestation reply => [(.ita, reply)]
  | .tokenWithFallback first second =>
    match engine.fetchToken py first with
    | .ok primary =>
      if isTdxHardware primary then [(.oidc, first), (.ita, second)] else [(.oidc, first)]
    | .error _ => [(.oidc, first)]

def acceptedBy : Verifier × Reply → Option Text
  | (.oidc, reply) => (engine.fetchToken py reply).toOption.map (·.rawToken)
  | (.ita, reply) => (engine.fetchIntelAttestation py reply).toOption.map (·.rawToken)

def accepted (fetch : Fetch) : List Text := (engine.exchanges py fetch).filterMap (engine.acceptedBy py)

theorem returned_accepted {first second : Reply} {primary : AttestationToken}
    {intel : Option IntelAttestationToken}
    (ok : engine.fetchTokenWithFallback py first second = .ok (primary, intel)) :
    primary.rawToken ∈ engine.accepted py (.tokenWithFallback first second) ∧
      ∀ token ∈ intel, token.rawToken ∈ engine.accepted py (.tokenWithFallback first second) := by
  simp only [fetchTokenWithFallback, except_bind_ok] at ok
  obtain ⟨primary', fetched, ok⟩ := ok
  split at ok
  next tdx =>
    simp only [except_bind_ok] at ok
    obtain ⟨token, second_fetched, same⟩ := ok
    cases same
    simp [accepted, exchanges, fetched, tdx, acceptedBy, second_fetched, Except.toOption]
  next other =>
    cases ok
    simp [accepted, exchanges, fetched, other, acceptedBy, Except.toOption]

end AttestationEngine

end Jwt
