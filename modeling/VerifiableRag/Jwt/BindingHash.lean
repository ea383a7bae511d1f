import VerifiableRag.Jwt.Readings
import VerifiableRag.Jwt.Recognisers
import VerifiableRag.Library.Hexadecimal

/-!
`AttestationProof` of `attestation.py` and its binding hash.
-/
namespace Jwt
open Bytes Json Results

/-- The 32-byte representations of `H_doc`, `H_prompt` and `H_out`. -/
structure PublicInputs where
  doc : Block 32
  prompt : Block 32
  out : Block 32
  deriving DecidableEq

namespace PublicInputs

/-- In circuit order. -/
def inputs (p : PublicInputs) : List (Block 32) := [p.doc, p.prompt, p.out]

def bytes (p : PublicInputs) : List UInt8 := p.inputs.flatMap List.Vector.toList

theorem bytes_eq (p : PublicInputs) :
    p.bytes = p.doc.toList ++ (p.prompt.toList ++ (p.out.toList ++ [])) := rfl

theorem bytes_length (p : PublicInputs) : p.bytes.length = 96 := by
  simp only [bytes_eq, List.length_append, List.Vector.toList_length, List.length_nil]

theorem bytes_injective {p q : PublicInputs} (same : p.bytes = q.bytes) : p = q := by
  have sizes (a b : Block 32) : a.toList.length = b.toList.length := by
    rw [a.toList_length, b.toList_length]
  rw [bytes_eq, bytes_eq] at same
  obtain ⟨doc, same⟩ := List.append_inj same (sizes _ _)
  obtain ⟨prompt, same⟩ := List.append_inj same (sizes _ _)
  obtain ⟨out, _⟩ := List.append_inj same (sizes _ _)
  cases p
  cases q
  rw [mk.injEq]
  exact ⟨List.Vector.toList_injective doc, List.Vector.toList_injective prompt,
    List.Vector.toList_injective out⟩

end PublicInputs

/-- `bytes.hex()` -/
def hex (data : List UInt8) : Text := Hexadecimal.ofBytes data

/-- `s.encode("ascii")`; `none` where it raises a `UnicodeEncodeError`. -/
def encodeAscii (s : Text) : Option (List UInt8) := if s.all (· < 0x80) then some s else none

section Binding
variable (sha256 : List UInt8 → Block 32)

def computeBindingHash (imageDigest : Text) (zkProof : List UInt8) (publicInputs : PublicInputs) :
    Option Text := do
  let digest ← encodeAscii imageDigest
  return hex (sha256 (digest ++ zkProof ++ publicInputs.bytes)).toList

/-- What the hash commits to. -/
structure BindingParts where
  imageDigest : Text
  zkProof : List UInt8
  publicInputs : PublicInputs
  deriving DecidableEq

namespace BindingParts

def bindingHash (p : BindingParts) : Option Text :=
  computeBindingHash sha256 p.imageDigest p.zkProof p.publicInputs

def preimage (p : BindingParts) : List UInt8 := p.imageDigest ++ (p.zkProof ++ p.publicInputs.bytes)

/-- Equal hashes come from equal parts. -/
def Commits (p q : BindingParts) : Prop := p.bindingHash sha256 = q.bindingHash sha256 → p = q

/-- The newline behind the digest of `q` starts the proof of `p`. -/
structure NewlineMoved (p q : BindingParts) : Prop where
  digest : q.imageDigest = p.imageDigest ++ [0x0A]
  proof : p.zkProof = 0x0A :: q.zkProof
  inputs : p.publicInputs = q.publicInputs

end BindingParts

end Binding

section Commitment
variable {sha256 : List UInt8 → Block 32} {p q : BindingParts}
open BindingParts

theorem ImageDigest.length {s : Text} (image : ImageDigest s) : s.length = 71 := by
  obtain ⟨hex, long, _, rfl⟩ := image
  rw [List.length_append, long]
  rfl

theorem imageDigest_ascii {s : Text} (accepted : imageDigestRe s) : encodeAscii s = some s := by
  have hex_ascii : ∀ c : UInt8, isLowerHex c → c < 0x80 := forall_byte (by decide +kernel)
  have plain : ∀ t, ImageDigest t → ∀ c ∈ t, c < 0x80 := by
    intro t image c member
    obtain ⟨hex, _, digits, rfl⟩ := image
    rcases List.mem_append.mp member with start | digit
    · have start_ascii : ∀ c ∈ utf8 "sha256:", c < 0x80 := forall_listed (by decide)
      exact start_ascii c start
    · exact hex_ascii c (digits c digit)
  rw [encodeAscii]
  apply if_pos
  rw [List.all_eq_true]
  intro c member
  apply decide_eq_true
  rcases (imageDigestRe_iff s).mp accepted with image | ⟨t, rfl, image⟩
  · exact plain s image c member
  · rcases List.mem_append.mp member with inside | newline
    · exact plain t image c inside
    · rw [List.mem_singleton.mp newline]
      decide

theorem bindingHash_accepted (accepted : imageDigestRe p.imageDigest) :
    p.bindingHash sha256 = some (hex (sha256 p.preimage).toList) := by
  rw [bindingHash, computeBindingHash, imageDigest_ascii accepted, preimage, ← List.append_assoc]
  rfl

theorem BindingParts.NewlineMoved.preimage (moved : NewlineMoved p q) : p.preimage = q.preimage := by
  rw [BindingParts.preimage, BindingParts.preimage, moved.digest, moved.proof, moved.inputs,
    List.append_assoc]
  rfl

theorem BindingParts.NewlineMoved.different (moved : NewlineMoved p q) : p ≠ q := by
  rintro rfl
  have sizes := congrArg List.length moved.digest
  rw [List.length_append, List.length_singleton] at sizes
  omega

/-- Behind equal digests the proof and the inputs are told apart by the size of the inputs. -/
theorem rest_injective {proof proof' : List UInt8} {inputs inputs' : PublicInputs}
    (same : proof ++ inputs.bytes = proof' ++ inputs'.bytes) : proof = proof' ∧ inputs = inputs' := by
  obtain ⟨proofs, bytes⟩ := List.append_inj' same (by rw [inputs.bytes_length, inputs'.bytes_length])
  exact ⟨proofs, PublicInputs.bytes_injective bytes⟩

theorem same_or_moved (accepted : imageDigestRe p.imageDigest)
    (accepted' : imageDigestRe q.imageDigest) (same : p.preimage = q.preimage) :
    p = q ∨ NewlineMoved p q ∨ NewlineMoved q p := by
  have equal (sizes : p.imageDigest.length = q.imageDigest.length) : p = q := by
    obtain ⟨digests, rest⟩ := List.append_inj same sizes
    obtain ⟨proofs, inputs⟩ := rest_injective rest
    cases p
    cases q
    rw [mk.injEq]
    exact ⟨digests, proofs, inputs⟩
  rcases (imageDigestRe_iff _).mp accepted with image | ⟨t, split, image⟩
  · rcases (imageDigestRe_iff _).mp accepted' with image' | ⟨t', split', image'⟩
    · exact Or.inl (equal (by rw [image.length, image'.length]))
    · rw [BindingParts.preimage, BindingParts.preimage, split', List.append_assoc] at same
      obtain ⟨digests, rest⟩ := List.append_inj same (by rw [image.length, image'.length])
      obtain ⟨proofs, inputs⟩ := @rest_injective _ (0x0A :: _) _ _ rest
      exact Or.inr (Or.inl ⟨by rw [split', digests], proofs, inputs⟩)
  · rcases (imageDigestRe_iff _).mp accepted' with image' | ⟨t', split', image'⟩
    · rw [BindingParts.preimage, BindingParts.preimage, split, List.append_assoc] at same
      obtain ⟨digests, rest⟩ := List.append_inj same.symm (by rw [image.length, image'.length])
      obtain ⟨proofs, inputs⟩ := @rest_injective _ (0x0A :: _) _ _ rest
      exact Or.inr (Or.inr ⟨by rw [split, digests], proofs, inputs⟩)
    · apply Or.inl (equal _)
      rw [split, split', List.length_append, List.length_append, image.length, image'.length]

/-- Between accepted digests the hash commits to its parts unless a newline has moved from the
    end of one digest to the start of the other's proof. -/
theorem binding_hash_commits_iff (accepted : imageDigestRe p.imageDigest)
    (accepted' : imageDigestRe q.imageDigest)
    (collision_free : sha256 p.preimage = sha256 q.preimage → p.preimage = q.preimage) :
    Commits sha256 p q ↔ ¬ NewlineMoved p q ∧ ¬ NewlineMoved q p := by
  rw [Commits, bindingHash_accepted accepted, bindingHash_accepted accepted']
  constructor
  · intro commits
    constructor
    · intro moved
      exact moved.different (commits (by rw [moved.preimage]))
    · intro moved
      exact moved.different (commits (by rw [moved.preimage])).symm
  · intro h same
    have hashes : sha256 p.preimage = sha256 q.preimage :=
      List.Vector.toList_injective (Hexadecimal.ofBytes_injective (Option.some.inj same))
    rcases same_or_moved accepted accepted' (collision_free hashes) with equal | moved | moved
    · exact equal
    · exact absurd moved h.1
    · exact absurd moved h.2

/-- A token whose digest claim ends in a newline. -/
def newlineSegment : Text := utf8 <|
  "eyJpc3MiOiJodHRwczovL2NvbmZpZGVudGlhbGNvbXB1dGluZy5nb29nbGVhcGlzLmNvbSIsImV4cCI6NDEwMjQ0NDgwMCwi" ++
  "c3duYW1lIjoiQ09ORklERU5USUFMX1NQQUNFIiwic3VibW9kcyI6eyJjb250YWluZXIiOnsiaW1hZ2VfZGlnZXN0Ijoic2hh" ++
  "MjU2OmFiYWJhYmFiYWJhYmFiYWJhYmFiYWJhYmFiYWJhYmFiYWJhYmFiYWJhYmFiYWJhYmFiYWJhYmFiYWJhYmFiYWJcbiJ9" ++
  "fX0"

def sampleImage : Text := utf8 "sha256:abababababababababababababababababababababababababababababababab"

def zeroInputs : PublicInputs :=
  ⟨List.Vector.replicate 32 0, List.Vector.replicate 32 0, List.Vector.replicate 32 0⟩

/-- The proof starts with the newline, or the digest ends in it. -/
def proofNewline : BindingParts := ⟨sampleImage, [0x0A, 1], zeroInputs⟩
def digestNewline : BindingParts := ⟨newlineDigest, [1], zeroInputs⟩

/-- A proof of no bytes behind the digest with the newline. -/
def emptyProof : BindingParts := ⟨newlineDigest, [], zeroInputs⟩

/-- SHA-256 of the preimages of these samples. -/
def sampleSha256 (data : List UInt8) : Block 32 :=
  let digest : Nat :=
    if data = proofNewline.preimage then
      0xbe51945b119aa8f4d401db7486f8d50932354004fa1381608a5509fc9495a101
    else if data = emptyProof.preimage then
      0x082f437a60b0e1613b36df3a4b1d9fbca35c014a052b235bad4f4fe33d5bdf21
    else 0
  ⟨encode 32 digest, encode_length 32 digest⟩

theorem binding_hash_commits_iff_sample :
    Commits sampleSha256 proofNewline emptyProof ↔
      ¬ NewlineMoved proofNewline emptyProof ∧ ¬ NewlineMoved emptyProof proofNewline :=
  binding_hash_commits_iff (by decide +kernel) (by decide +kernel) (by decide +kernel)

/-- Both digests are those of tokens that are accepted. -/
theorem newline_moves_between :
    (∃ att, parseToken samplePython (tokenOf plainSegment) none none = .ok att ∧
      att.imageDigest = proofNewline.imageDigest) ∧
    (∃ att, parseToken samplePython (tokenOf newlineSegment) none none = .ok att ∧
      att.imageDigest = digestNewline.imageDigest) ∧
    ∀ sha256, ¬ Commits sha256 proofNewline digestNewline := by
  have read (segment image : Text)
      (parsed : (parseToken samplePython (tokenOf segment) none none).toOption.map
        AttestationToken.imageDigest = some image) :
      ∃ att, parseToken samplePython (tokenOf segment) none none = .ok att ∧
        att.imageDigest = image := by
    obtain ⟨att, found, same⟩ := Option.map_eq_some_iff.mp parsed
    exact ⟨att, toOption_some.mp found, same⟩
  have moved : NewlineMoved proofNewline digestNewline := ⟨by decide +kernel, rfl, rfl⟩
  refine ⟨read _ _ (by decide +kernel), read _ _ (by decide +kernel), ?_⟩
  intro sha256 commits
  apply moved.different (commits _)
  rw [bindingHash_accepted (by decide +kernel), bindingHash_accepted (by decide +kernel),
    moved.preimage]

end Commitment

end Jwt
