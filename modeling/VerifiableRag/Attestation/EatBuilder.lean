import VerifiableRag.Library.Cbor

/-!
The EAT claim set and its COSE_Sign1 envelope (`eat_builder.rs`). The ES256
signer is a parameter.
-/
namespace Attestation
open Bytes Cbor

structure EatClaims where
  nonce : List UInt8
  swname : String
  imageDigest : String
  hardware : String
  instanceId : Block 16
  iat : UInt64
  measurements : List (Block 32)
  deriving DecidableEq

/-- A failure of the CBOR reader is its text. -/
inductive EatError where
  | cborDe (e : String)
  | incompleteClaims (message : String)
  | malformed (message : String)
  deriving DecidableEq

def EatError.message : EatError → String
  | .cborDe e => "cbor decode error: " ++ e
  | .incompleteClaims message => "incomplete claims: " ++ message
  | .malformed message => "malformed token: " ++ message

def defaultSwname : String := "CONFIDENTIAL_SPACE"

def claimIat : Int := 6
def claimNonce : Int := 10
def claimUeid : Int := 256
def claimSubmods : Int := 266
def claimSwname : Int := 342
def algEs256 : Int := -7
def coseHeaderAlg : Int := 1
def coseHeaderKid : Int := 4

/-- An `i128` cast `as i64`. -/
def int (i : Int) : Value := .integer (BitVec.ofInt 64 i).toInt

/-- `submods.container` -/
def container (claims : EatClaims) : List (Value × Value) :=
  [(.text "image_digest", .text claims.imageDigest), (.text "hardware", .text claims.hardware),
    (.text "instance_id", .bytes claims.instanceId.toList)] ++
  claims.measurements.zipIdx.map fun (m, i) => (.text ("rtmr" ++ toString i), .bytes m.toList)

def encodeClaims (claims : EatClaims) : Value :=
  let nonce := if claims.nonce.isEmpty then [] else [(int claimNonce, .bytes claims.nonce)]
  .map ([(int claimIat, int claims.iat.toNat)] ++ nonce ++
    [(int claimUeid, .bytes (0x02 :: claims.instanceId.toList)),
      (int claimSwname, .text claims.swname),
      (int claimSubmods, .map [(.text "container", .map (container claims))])])

def sigStructure (protectedHeader payload : List UInt8) : Value :=
  .array [.text "Signature1", .bytes protectedHeader, .bytes [], .bytes payload]

/-- The `White_Space` characters that `str::trim` removes. -/
def isWhitespace (c : Char) : Bool :=
  (9 ≤ c.val && c.val ≤ 13) || c.val == 0x20 || c.val == 0x85 || c.val == 0xa0 ||
    c.val == 0x1680 || (0x2000 ≤ c.val && c.val ≤ 0x200a) || c.val == 0x2028 ||
    c.val == 0x2029 || c.val == 0x202f || c.val == 0x205f || c.val == 0x3000

/-- `s.trim().is_empty()` -/
def isBlank (s : String) : Bool := s.toList.all isWhitespace

def protectedHeader : Value :=
  .map [(int coseHeaderAlg, int algEs256), (int coseHeaderKid, .bytes (utf8 "enclave-v1"))]

/-- The payload is signed inside its `Sig_structure`. -/
def buildEat {Key : Type} (es256 : Key → List UInt8 → Block 64) (claims : EatClaims) (key : Key) :
    Except EatError (List UInt8) :=
  if isBlank claims.swname then .error (.incompleteClaims "swname must not be empty")
  else if isBlank claims.imageDigest then
    .error (.incompleteClaims "image_digest must not be empty")
  else
    let payload := (encodeClaims claims).encode
    let signature := es256 key (sigStructure protectedHeader.encode payload).encode
    .ok (Value.array [.bytes protectedHeader.encode, .map [], .bytes payload,
      .bytes signature.toList]).encode

/-- The report data binds SHA-256 of the caller's nonce. -/
def nonceToReportdata (sha256 : List UInt8 → Block 32) (nonce : List UInt8) : Block 64 :=
  ⟨(sha256 nonce).toList ++ List.replicate 32 0, by simp⟩

end Attestation
