import VerifiableRag.Attestation.EatBuilder
import Mathlib.Data.UInt

/-!
Offline verification of EAT tokens (`verifier.rs`). The CBOR reader and the check of
ES256 signatures are parameters.
-/
namespace Attestation
open Bytes Cbor

structure ParsedCoseSign1 where
  protectedHeader : List UInt8
  protectedMap : Value
  payload : List UInt8
  signature : List UInt8

inductive EatVerifyError where
  | malformed (message : String)
  | unsupportedAlg (alg : Int)
  | badSignature
  | policy (message : String)
  | missingClaim (message : String)
  deriving DecidableEq

structure VerifiedEat where
  nonce : List UInt8
  swname : String
  imageDigest : String
  hardware : String
  iat : UInt64
  deriving DecidableEq

def bstr (name : String) : Value → Except EatError (List UInt8)
  | .bytes data => .ok data
  | _ => .error (.malformed (name ++ " must be a bstr"))

def asText : Value → Option String
  | .text s => some s
  | _ => none

def asBytes : Value → Option (List UInt8)
  | .bytes data => some data
  | _ => none

/-- The key is an `i128` cast `as i64`. -/
def isKey (key : Int) : Value → Bool
  | .integer i => i == (BitVec.ofInt 64 key).toInt
  | _ => false

/-- The value of the first entry with an integer key. -/
def claim (claims : Value) (key : Int) : Option Value :=
  match claims with
  | .map entries => (entries.find? fun entry => isKey key entry.1).map Prod.snd
  | _ => none

def isName (name : String) : Value → Bool
  | .text s => s == name
  | _ => false

/-- The first text under a name inside `submods.container`. -/
def containerText (claims : Value) (name : String) : Option String :=
  match claim claims claimSubmods with
  | some (.map entries) =>
    match (entries.find? fun entry => isName "container" entry.1).map Prod.snd with
    | some (.map entries) =>
      entries.findSome? fun entry => if isName name entry.1 then asText entry.2 else none
    | _ => none
  | _ => none

def containerDigest (claims : Value) : Option String := containerText claims "image_digest"
def containerHardware (claims : Value) : Option String := containerText claims "hardware"

/-- A non-negative `i128`, cast `as u64`. -/
def asIat : Value → Option UInt64
  | .integer n => if 0 ≤ n then some (UInt64.ofNat n.toNat) else none
  | _ => none

section Checks
variable (fromReader : List UInt8 → Except String Value)

def parseCoseSign1 (token : List UInt8) : Except EatError ParsedCoseSign1 :=
  match fromReader token with
  | .error e => .error (.cborDe e)
  | .ok (.array [first, _, third, fourth]) => do
    let protectedHeader ← bstr "protected" first
    let protectedMap ← (fromReader protectedHeader).mapError EatError.cborDe
    let payload ← bstr "payload" third
    let signature ← bstr "signature" fourth
    return ⟨protectedHeader, protectedMap, payload, signature⟩
  | .ok _ => .error (.malformed "COSE_Sign1 must be an array of 4 elements")

def decodeClaims (payload : List UInt8) : Except EatError Value :=
  (fromReader payload).mapError EatError.cborDe

/-- `validate_claims`; an expectation that is `none` is not compared. -/
def validateClaims (payload : List UInt8) (expectedSwname : String)
    (expectedDigest : Option String) (expectedNonce : Option (List UInt8)) :
    Except EatVerifyError VerifiedEat :=
  match decodeClaims fromReader payload with
  | .error _ => .error (.malformed "claims decode failed")
  | .ok claims =>
    match (claim claims claimSwname).bind asText with
    | none => .error (.missingClaim "swname")
    | some swname =>
      if swname ≠ expectedSwname then .error (.policy "swname does not match expected value")
      else
        match containerDigest claims with
        | none => .error (.missingClaim "submods.container.image_digest")
        | some imageDigest =>
          if expectedDigest.any (imageDigest != ·) then
            .error (.policy "image_digest does not match expected build digest")
          else
            match (claim claims claimNonce).bind asBytes with
            | none => .error (.missingClaim "nonce")
            | some nonce =>
              if expectedNonce.any (nonce != ·) then
                .error (.policy "nonce does not match session nonce")
              else
                match (claim claims claimIat).bind asIat with
                | none => .error (.missingClaim "iat")
                | some iat =>
                  .ok ⟨nonce, swname, imageDigest, (containerHardware claims).getD "", iat⟩

/-- `Signature::from_slice` accepts `isSignature`. -/
structure Es256 (VerifyingKey : Type) where
  isSignature : Block 64 → Bool
  verify : VerifyingKey → List UInt8 → Block 64 → Bool

variable {VerifyingKey : Type} (es256 : Es256 VerifyingKey)

def verifyCoseSign1 (token : List UInt8) (verifyingKey : VerifyingKey) :
    Except EatVerifyError (List UInt8) :=
  match parseCoseSign1 fromReader token with
  | .error _ => .error (.malformed "parse failed")
  | .ok parsed =>
    match claim parsed.protectedMap coseHeaderAlg with
    | none => .error (.malformed "protected header missing alg")
    | some (.integer alg) =>
      if alg ≠ algEs256 then .error (.unsupportedAlg alg)
      else if size : parsed.signature.length = 64 then
        let signature : Block 64 := ⟨parsed.signature, size⟩
        if es256.isSignature signature then
          if es256.verify verifyingKey
              (sigStructure parsed.protectedHeader parsed.payload).encode signature then
            .ok parsed.payload
          else .error .badSignature
        else .error (.malformed "invalid signature encoding")
      else .error (.malformed "signature must be 64 bytes (r||s)")
    | some _ => .error (.malformed "alg must be an integer")

def verifyEat (token : List UInt8) (verifyingKey : VerifyingKey) (expectedSwname : String)
    (expectedDigest : Option String) (expectedNonce : Option (List UInt8)) :
    Except EatVerifyError VerifiedEat := do
  let payload ← verifyCoseSign1 fromReader es256 token verifyingKey
  validateClaims fromReader payload expectedSwname expectedDigest expectedNonce

end Checks

section Contents
variable (claims : EatClaims)

theorem claim_iat : claim (encodeClaims claims) claimIat = some (int claims.iat.toNat) := by
  simp [encodeClaims, claim, isKey, int, claimIat]

theorem claim_nonce : claim (encodeClaims claims) claimNonce =
    if claims.nonce = [] then none else some (.bytes claims.nonce) := by
  by_cases empty : claims.nonce = []
  · simp [encodeClaims, claim, isKey, int, claimIat, claimNonce, claimUeid, claimSwname,
      claimSubmods, empty]
  · simp [encodeClaims, claim, isKey, int, claimIat, claimNonce, empty]

theorem claim_swname : claim (encodeClaims claims) claimSwname = some (.text claims.swname) := by
  by_cases empty : claims.nonce = []
  · simp [encodeClaims, claim, isKey, int, claimIat, claimUeid, claimSwname, empty]
  · simp [encodeClaims, claim, isKey, int, claimIat, claimNonce, claimUeid, claimSwname, empty]

theorem claim_submods : claim (encodeClaims claims) claimSubmods =
    some (.map [(.text "container", .map (container claims))]) := by
  by_cases empty : claims.nonce = []
  · simp [encodeClaims, claim, isKey, int, claimIat, claimUeid, claimSwname, claimSubmods, empty,
      container]
  · simp [encodeClaims, claim, isKey, int, claimIat, claimNonce, claimUeid, claimSwname,
      claimSubmods, empty, container]

theorem containerDigest_encodeClaims :
    containerDigest (encodeClaims claims) = some claims.imageDigest := by
  simp [containerDigest, containerText, claim_submods, isName, container, asText]

theorem containerHardware_encodeClaims :
    containerHardware (encodeClaims claims) = some claims.hardware := by
  simp [containerHardware, containerText, claim_submods, isName, container, asText]

/-- The cast to `i64` keeps the lower half of the `u64` numbers and makes the others negative. -/
theorem asIat_int (iat : UInt64) :
    asIat (int iat.toNat) = if iat.toNat < 2 ^ 63 then some iat else none := by
  have bound := iat.toNat_lt
  have cast : (BitVec.ofInt 64 (iat.toNat : Int)).toInt =
      if iat.toNat < 2 ^ 63 then (iat.toNat : Int) else iat.toNat - 2 ^ 64 := by
    rw [BitVec.ofInt_natCast, BitVec.toInt_ofNat', Int.bmod_def]
    omega
  rw [int, asIat, cast]
  split
  · simp
  · rw [if_neg (by omega)]

theorem nested_int (depth : Nat) (i : Int) : (int i).Nested depth := by
  have least := BitVec.le_toInt (BitVec.ofInt 64 i)
  have most := BitVec.toInt_lt (x := BitVec.ofInt 64 i)
  exact .integer (by omega) (by omega)

theorem nested_entries {depth : Nat} {entries : List (Value × Value)}
    (each : ∀ e ∈ entries, e.1.Nested depth ∧ e.2.Nested depth) :
    (Value.map entries).Nested (depth + 1) :=
  .map (fun e member => (each e member).1) (fun e member => (each e member).2)

theorem nested_protectedHeader (depth : Nat) : protectedHeader.Nested (depth + 1) := by
  apply nested_entries
  simp only [List.forall_mem_cons, List.not_mem_nil, false_implies, implies_true, and_true]
  exact ⟨⟨nested_int _ _, nested_int _ _⟩, nested_int _ _, .bytes⟩

theorem nested_container (depth : Nat) : (Value.map (container claims)).Nested (depth + 1) := by
  apply nested_entries
  intro e member
  rcases List.mem_append.mp member with named | register
  · simp only [List.mem_cons, List.not_mem_nil, or_false] at named
    rcases named with rfl | rfl | rfl
    · exact ⟨.text, .text⟩
    · exact ⟨.text, .text⟩
    · exact ⟨.text, .bytes⟩
  · obtain ⟨_, _, rfl⟩ := List.mem_map.mp register
    exact ⟨.text, .bytes⟩

theorem nested_encodeClaims (depth : Nat) : (encodeClaims claims).Nested (depth + 3) := by
  have submods : (Value.map [(.text "container", .map (container claims))]).Nested (depth + 2) := by
    apply nested_entries
    simp only [List.forall_mem_singleton]
    exact ⟨.text, nested_container claims depth⟩
  apply nested_entries
  simp only [List.mem_append]
  intro e member
  rcases member with (iat | nonce) | others
  · rw [List.mem_singleton.mp iat]
    exact ⟨nested_int _ _, nested_int _ _⟩
  · split at nonce
    · cases nonce
    · rw [List.mem_singleton.mp nonce]
      exact ⟨nested_int _ _, .bytes⟩
  · simp only [List.mem_cons, List.not_mem_nil, or_false] at others
    rcases others with rfl | rfl | rfl
    · exact ⟨nested_int _ _, .bytes⟩
    · exact ⟨nested_int _ _, .text⟩
    · exact ⟨nested_int _ _, submods⟩

end Contents

section RoundTrip
variable {fromReader : List UInt8 → Except String Value} {Key VerifyingKey : Type}
  {sign : Key → List UInt8 → Block 64} {es256 : Es256 VerifyingKey} {claims : EatClaims} {key : Key}
  {verifyingKey : VerifyingKey} {token : List UInt8}

/-- `ciborium::de::from_reader` on what was written by `into_writer`. -/
def ReadsBack (fromReader : List UInt8 → Except String Value) : Prop :=
  ∀ v : Value, v.Nested 256 → v.encode.length < 2 ^ 64 → fromReader v.encode = .ok v

/-- The verifying key of a signing key. -/
def Matches (sign : Key → List UInt8 → Block 64) (es256 : Es256 VerifyingKey) (key : Key)
    (verifyingKey : VerifyingKey) : Prop :=
  ∀ message, es256.isSignature (sign key message) ∧
    es256.verify verifyingKey message (sign key message)

def envelope (payload signature : List UInt8) : Value :=
  .array [.bytes protectedHeader.encode, .map [], .bytes payload, .bytes signature]

theorem buildEat_ok (built : buildEat sign claims key = .ok token) :
    token = (envelope (encodeClaims claims).encode
      (sign key (sigStructure protectedHeader.encode (encodeClaims claims).encode).encode).toList).encode := by
  rw [buildEat] at built
  split at built
  · cases built
  split at built
  · cases built
  · cases built
    rfl

theorem payload_length_le (payload signature : List UInt8) :
    payload.length ≤ (envelope payload signature).encode.length := by
  simp only [envelope, Value.encode, encodeItems, List.length_append]
  omega

theorem verifyCoseSign1_built (reads : ReadsBack fromReader) (pair : Matches sign es256 key verifyingKey)
    (built : buildEat sign claims key = .ok token) (fits : token.length < 2 ^ 64) :
    verifyCoseSign1 fromReader es256 token verifyingKey = .ok (encodeClaims claims).encode := by
  obtain rfl := buildEat_ok built
  generalize signed : sign key (sigStructure protectedHeader.encode (encodeClaims claims).encode).encode
    = signature at fits ⊢
  have whole : (envelope (encodeClaims claims).encode signature.toList).Nested 256 := by
    refine .array ?_
    simp only [List.forall_mem_cons, List.not_mem_nil, false_implies, implies_true, and_true]
    exact ⟨.bytes, nested_entries (by simp), .bytes, .bytes⟩
  have header := reads protectedHeader (nested_protectedHeader 255) (by decide +kernel)
  have accepted := pair (sigStructure protectedHeader.encode (encodeClaims claims).encode).encode
  rw [signed] at accepted
  have alg : claim protectedHeader coseHeaderAlg = some (.integer algEs256) := by
    simp [claim, protectedHeader, isKey, int, coseHeaderAlg, algEs256]
  have parsed : parseCoseSign1 fromReader (envelope (encodeClaims claims).encode signature.toList).encode
      = .ok ⟨protectedHeader.encode, protectedHeader, (encodeClaims claims).encode, signature.toList⟩ := by
    rw [parseCoseSign1, reads _ whole fits]
    simp [envelope, bstr, header, Except.mapError, Bind.bind, Except.bind, Pure.pure, Except.pure]
  have size : signature.toList.length = 64 := signature.toList_length
  have same : (⟨signature.toList, size⟩ : Block 64) = signature := rfl
  rw [verifyCoseSign1, parsed]
  simp only [alg, ne_eq, not_true_eq_false, if_false, dif_pos size, same, accepted, if_true]

/-- The checks of an encoded claim set, in their order. -/
theorem validateClaims_encodeClaims (reads : ReadsBack fromReader)
    (fits : (encodeClaims claims).encode.length < 2 ^ 64) (swname : String)
    (digest : Option String) (nonce : Option (List UInt8)) :
    validateClaims fromReader (encodeClaims claims).encode swname digest nonce =
      if claims.swname ≠ swname then .error (.policy "swname does not match expected value")
      else if digest.any (claims.imageDigest != ·) then
        .error (.policy "image_digest does not match expected build digest")
      else if claims.nonce = [] then .error (.missingClaim "nonce")
      else if nonce.any (claims.nonce != ·) then
        .error (.policy "nonce does not match session nonce")
      else if claims.iat.toNat < 2 ^ 63 then
        .ok ⟨claims.nonce, claims.swname, claims.imageDigest, claims.hardware, claims.iat⟩
      else .error (.missingClaim "iat") := by
  have read := reads _ (nested_encodeClaims claims 253) fits
  rw [validateClaims, decodeClaims, read]
  simp only [Except.mapError, claim_swname, Option.bind_some, asText, containerDigest_encodeClaims,
    claim_nonce, claim_iat, asIat_int, containerHardware_encodeClaims, Option.getD_some]
  congr 2
  by_cases empty : claims.nonce = []
  · simp only [empty, if_true, Option.bind_none]
  · simp only [empty, if_false, Option.bind_some, asBytes]
    by_cases early : claims.iat.toNat < 2 ^ 63
    · simp only [early, if_true]
    · simp only [early, if_false]

theorem verifyEat_built (reads : ReadsBack fromReader) (pair : Matches sign es256 key verifyingKey)
    (built : buildEat sign claims key = .ok token) (fits : token.length < 2 ^ 64) (swname : String)
    (digest : Option String) (nonce : Option (List UInt8)) :
    verifyEat fromReader es256 token verifyingKey swname digest nonce =
      validateClaims fromReader (encodeClaims claims).encode swname digest nonce := by
  rw [verifyEat, verifyCoseSign1_built reads pair built fits]
  rfl

/-- A verifier of one token under the three expectations. -/
abbrev Verdict := String → Option String → Option (List UInt8) → Except EatVerifyError VerifiedEat

def Rejects (claims : EatClaims) (verdict : Verdict) : Prop :=
  ∀ swname digest nonce, swname ≠ claims.swname ∨ (∃ d ∈ digest, d ≠ claims.imageDigest) ∨
    (∃ n ∈ nonce, n ≠ claims.nonce) → ∃ e, verdict swname digest nonce = .error e

/-- What a token of the claims should give under its verifier. -/
structure RoundTrips (claims : EatClaims) (verdict : Verdict) : Prop where
  returns : verdict claims.swname (some claims.imageDigest) (some claims.nonce) =
    .ok ⟨claims.nonce, claims.swname, claims.imageDigest, claims.hardware, claims.iat⟩
  rejects : Rejects claims verdict

/-- A token verifies under the claims it was built from just when it has a nonce and an `iat`
    that an `i64` holds; a wrong expectation never passes. -/
theorem verify_eat_round_trip_iff (reads : ReadsBack fromReader)
    (pair : Matches sign es256 key verifyingKey) (built : buildEat sign claims key = .ok token)
    (fits : token.length < 2 ^ 64) :
    (RoundTrips claims (verifyEat fromReader es256 token verifyingKey) ↔
      claims.nonce ≠ [] ∧ claims.iat.toNat < 2 ^ 63) ∧
    Rejects claims (verifyEat fromReader es256 token verifyingKey) := by
  have within : (encodeClaims claims).encode.length < 2 ^ 64 := by
    have part := payload_length_le (encodeClaims claims).encode
      (sign key (sigStructure protectedHeader.encode (encodeClaims claims).encode).encode).toList
    rw [← buildEat_ok built] at part
    omega
  have verdict (swname : String) (digest : Option String) (nonce : Option (List UInt8)) :=
    (verifyEat_built reads pair built fits swname digest nonce).trans
      (validateClaims_encodeClaims reads within swname digest nonce)
  have rejects : Rejects claims (verifyEat fromReader es256 token verifyingKey) := by
    intro swname digest nonce differs
    rw [verdict]
    split_ifs with other wrong empty stale late
    · exact ⟨_, rfl⟩
    · exact ⟨_, rfl⟩
    · exact ⟨_, rfl⟩
    · exact ⟨_, rfl⟩
    · rcases differs with name | ⟨d, expected, foreign⟩ | ⟨n, expected, foreign⟩
      · exact absurd (not_not.mp other).symm name
      · rw [Option.mem_def.mp expected] at wrong
        simp [Ne.symm foreign] at wrong
      · rw [Option.mem_def.mp expected] at stale
        simp [Ne.symm foreign] at stale
    · exact ⟨_, rfl⟩
  refine ⟨?_, rejects⟩
  have own := verdict claims.swname (some claims.imageDigest) (some claims.nonce)
  simp only [ne_eq, not_true_eq_false, if_false, Option.any_some, bne_self_eq_false,
    Bool.false_eq_true] at own
  constructor
  · intro trips
    have accepted := trips.returns
    rw [own] at accepted
    by_cases empty : claims.nonce = []
    · rw [if_pos empty] at accepted
      cases accepted
    by_cases early : claims.iat.toNat < 2 ^ 63
    · exact ⟨empty, early⟩
    · rw [if_neg empty, if_neg early] at accepted
      cases accepted
  · intro complete
    rw [if_neg complete.1, if_pos complete.2] at own
    exact ⟨own, rejects⟩

/-- A reader of whole items; what follows one is not read. -/
def firstItem (s : List UInt8) : Except String Value :=
  match readItem 256 s with
  | some (v, _) => .ok v
  | none => .error "Semantic(None, \"invalid\")"

theorem firstItem_readsBack : ReadsBack firstItem := by
  intro v nested fits
  have read := readItem_encode nested fits []
  rw [List.append_nil] at read
  rw [firstItem, read]

/-- One signature for every message. -/
def stamp (_ : Unit) (_ : List UInt8) : Block 64 := List.Vector.replicate 64 1

def stamped : Es256 Unit := ⟨fun _ => true, fun key message signature => signature = stamp key message⟩

theorem stamped_matches : Matches stamp stamped () () := by
  intro message
  simp [stamped]

def sampleClaims (nonce : List UInt8) (iat : UInt64) : EatClaims :=
  ⟨nonce, defaultSwname, "sha256:1f", "intel-tdx", List.Vector.replicate 16 7, iat,
    [List.Vector.replicate 32 9]⟩

def sampleToken (nonce : List UInt8) (iat : UInt64) : List UInt8 :=
  ((buildEat stamp (sampleClaims nonce iat) ()).toOption).getD []

theorem verify_eat_round_trip_iff_sample :
    (RoundTrips (sampleClaims [5] 1700000000)
        (verifyEat firstItem stamped (sampleToken [5] 1700000000) ()) ↔
      (sampleClaims [5] 1700000000).nonce ≠ [] ∧
        (sampleClaims [5] 1700000000).iat.toNat < 2 ^ 63) ∧
    Rejects (sampleClaims [5] 1700000000)
      (verifyEat firstItem stamped (sampleToken [5] 1700000000) ()) :=
  verify_eat_round_trip_iff firstItem_readsBack stamped_matches
    (by decide +kernel : buildEat stamp (sampleClaims [5] 1700000000) () =
      .ok (sampleToken [5] 1700000000)) (by decide +kernel)

/-- Two claim sets whose own token is not accepted: an `iat` that turns negative, and an empty
    nonce. -/
theorem own_claims_rejected :
    (∃ token, buildEat stamp (sampleClaims [5] (2 ^ 63)) () = .ok token ∧
      verifyEat firstItem stamped token () defaultSwname (some "sha256:1f") (some [5]) =
        .error (.missingClaim "iat")) ∧
    ∃ token, buildEat stamp (sampleClaims [] 1700000000) () = .ok token ∧
      verifyEat firstItem stamped token () defaultSwname (some "sha256:1f") (some []) =
        .error (.missingClaim "nonce") := by
  constructor
  · have built : buildEat stamp (sampleClaims [5] (2 ^ 63)) () = .ok (sampleToken [5] (2 ^ 63)) := by
      decide +kernel
    refine ⟨_, built, ?_⟩
    rw [verifyEat_built firstItem_readsBack stamped_matches built (by decide +kernel),
      validateClaims_encodeClaims firstItem_readsBack (by decide +kernel)]
    decide +kernel
  · have built : buildEat stamp (sampleClaims [] 1700000000) () = .ok (sampleToken [] 1700000000) := by
      decide +kernel
    refine ⟨_, built, ?_⟩
    rw [verifyEat_built firstItem_readsBack stamped_matches built (by decide +kernel),
      validateClaims_encodeClaims firstItem_readsBack (by decide +kernel)]
    decide +kernel

end RoundTrip

end Attestation
