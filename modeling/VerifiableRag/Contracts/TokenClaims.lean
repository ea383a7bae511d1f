import VerifiableRag.Library.Bytes

/-!
How the contract reads a vTPM token (`VerifiableRAG.sol`): it cuts the payload out
of the JWT, decodes it and searches the bytes. `none` is the revert `InvalidToken`.
-/
namespace VerifiableRag
open Bytes

namespace TokenClaims

/-- The search loop of `_indexOf`, from position `i` with the bytes left there. -/
def scan (needle : List UInt8) : Nat → List UInt8 → Option Nat
  | i, [] => if needle.isPrefixOf [] then some i else none
  | i, b :: rest => if needle.isPrefixOf (b :: rest) then some i else scan needle (i + 1) rest

/-- `_indexOf`; `none` stands for the result -1. -/
def indexOf (haystack needle : List UInt8) (start : Nat) : Option Nat :=
  if needle.isEmpty then some start else scan needle start (haystack.drop start)

/-- A base64url character as its 6-bit value; 255 is invalid and `=` counts as 0. -/
def b64Value (c : UInt8) : Nat :=
  if c ≥ 0x41 ∧ c ≤ 0x5A then c.toNat - 0x41
  else if c ≥ 0x61 ∧ c ≤ 0x7A then c.toNat - 0x61 + 26
  else if c ≥ 0x30 ∧ c ≤ 0x39 then c.toNat - 0x30 + 52
  else if c = 0x2D then 62
  else if c = 0x5F then 63
  else if c = 0x3D then 0
  else 255

def hexValue (c : UInt8) : Nat :=
  if c ≥ 0x30 ∧ c ≤ 0x39 then c.toNat - 0x30
  else if c ≥ 0x61 ∧ c ≤ 0x66 then c.toNat - 0x61 + 10
  else if c ≥ 0x41 ∧ c ≤ 0x46 then c.toNat - 0x41 + 10
  else 0xFF

def byte0 (b0 b1 : Nat) : UInt8 := UInt8.ofNat (b0 <<< 2 ||| b1 >>> 4)
def byte1 (b1 b2 : Nat) : UInt8 := UInt8.ofNat ((b1 &&& 0x0F) <<< 4 ||| b2 >>> 2)
def byte2 (b2 b3 : Nat) : UInt8 := UInt8.ofNat ((b2 &&& 0x03) <<< 6 ||| b3)

/-- The decoding loop on the unpadded input. A last group of two or three characters
    fills one or two bytes of the output. -/
def decodeGroups : List UInt8 → Option (List UInt8)
  | [] => some []
  | [_] => none
  | [c0, c1] =>
    if b64Value c0 > 63 ∨ b64Value c1 > 63 then none
    else some [byte0 (b64Value c0) (b64Value c1)]
  | [c0, c1, c2] =>
    if b64Value c0 > 63 ∨ b64Value c1 > 63 ∨ b64Value c2 > 63 then none
    else some [byte0 (b64Value c0) (b64Value c1), byte1 (b64Value c1) (b64Value c2)]
  | c0 :: c1 :: c2 :: c3 :: rest =>
    if b64Value c0 > 63 ∨ b64Value c1 > 63 ∨ b64Value c2 > 63 ∨ b64Value c3 > 63 then none
    else (decodeGroups rest).map fun out =>
      byte0 (b64Value c0) (b64Value c1) :: byte1 (b64Value c1) (b64Value c2) ::
        byte2 (b64Value c2) (b64Value c3) :: out

def stripPadding (input : List UInt8) : List UInt8 :=
  (input.reverse.dropWhile (· == 0x3D)).reverse

def b64UrlDecode (input : List UInt8) : Option (List UInt8) :=
  let clean := stripPadding input
  if clean.length % 4 = 1 then none else decodeGroups clean

def jwtPayload (token : List UInt8) : Option (List UInt8) := do
  let firstDot ← indexOf token (utf8 ".") 0
  let secondDot ← indexOf token (utf8 ".") (firstDot + 1)
  let start := firstDot + 1
  if secondDot ≤ start then none
  else b64UrlDecode ((token.drop start).take (secondDot - start))

def hasSwname (json : List UInt8) : Bool :=
  (indexOf json (utf8 "\"swname\":\"CONFIDENTIAL_SPACE\"") 0).isSome

/-- The digit loop of `_extractImageDigest`. -/
def hexWord : Nat → List UInt8 → Word → Option Word
  | 0, _, v => some v
  | _ + 1, [], _ => none
  | count + 1, c :: rest, v =>
    if hexValue c > 15 then none
    else hexWord count rest (v <<< 4 ||| BitVec.ofNat 256 (hexValue c))

def extractImageDigest (json : List UInt8) : Option Word := do
  let key := utf8 "\"image_digest\""
  let ki ← indexOf json key 0
  let p := ki + key.length
  if json[p]? ≠ some 0x3A then none
  else if json[p + 1]? ≠ some 0x22 then none
  else
    let p := p + 2
    let pre := utf8 "sha256:"
    if !pre.isPrefixOf (json.drop p) then none
    else hexWord 64 (json.drop (p + pre.length)) 0

end TokenClaims

end VerifiableRag
