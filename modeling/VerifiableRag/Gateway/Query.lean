import VerifiableRag.Gateway.AttestationProof
import VerifiableRag.Processor.Query
import Mathlib.Data.List.Infix

/-!
The error responses of `POST /v1/query`.
-/
namespace Gateway
open Bytes CodePoints Crypto Processor RagEngine

section Responses
variable {ρ : Type}

/-- `_map_engine_error`: the status and the title that go with a message. -/
def mapEngineError (message : Str) : Nat × String :=
  if ofString "authentication tag mismatch" <:+: message then (401, "authentication_failed")
  else if ofString "not set" <:+: message ∨ ofString "wheel is not installed" <:+: message then
    (503, "enclave_not_configured")
  else (400, "query_failed")

/-- The `except` clauses of `v1_query`. -/
def queryFailure : Raised → ProblemDetail
  | .valueError message => ⟨400, "invalid_envelope", message⟩
  | .runtimeError message => ⟨(mapEngineError message).1, (mapEngineError message).2, message⟩

def payloadTooLarge (size : Nat) : ProblemDetail :=
  ⟨413, "payload_too_large",
    ofString "envelope of " ++ decimal size ++ ofString " bytes exceeds the " ++
      decimal Processor.MAX_ENCRYPTED_PAYLOAD_BYTES ++ ofString "-byte cap"⟩

/-- `v1_query` on a decoded envelope, up to the response of a success. -/
def v1Query (aesgcm : AESGCM) (limit : Nat) (validationText : List UInt8 → Str)
    (prove : List UInt8 → List UInt8 → List GraphMatch → Except Str ρ) (raw : Option Str)
    (envelope : List UInt8) : Except ProblemDetail ρ :=
  if Processor.MAX_ENCRYPTED_PAYLOAD_BYTES < envelope.length then
    .error (payloadTooLarge envelope.length)
  else (executeQuery aesgcm limit validationText prove raw envelope).mapError queryFailure

end Responses

end Gateway
