import VerifiableRag.ZkTls.Proof
import VerifiableRag.ZkTls.Relayer

/-!
The Rust encoder and the Solidity assembly decoder speak one wire format.
-/
namespace ZkTls
open Bytes Transaction

theorem bytes_length (c : CalldataBytes) : c.bytes.length = c.length := by
  have := c.inside
  simp only [CalldataBytes.bytes, List.length_take, List.length_drop]
  omega

theorem hasAt_data {c : CalldataBytes} {start : Nat} {part : List UInt8}
    (inside : start + part.length ≤ c.length) (held : HasAt c.bytes start part) :
    HasAt c.data (c.offset + start) part := by
  obtain ⟨rest, same⟩ := held
  refine ⟨rest ++ c.data.drop (c.offset + c.length), ?_⟩
  have split : c.data.drop c.offset = c.bytes ++ c.data.drop (c.offset + c.length) := by
    rw [CalldataBytes.bytes, ← List.drop_drop, List.take_append_drop]
  have short : start ≤ c.bytes.length := by
    rw [bytes_length]
    omega
  rw [← List.drop_drop, split, List.drop_append_of_le_length short, same, List.append_assoc]

theorem take_calldataload {data part : List UInt8} {i : Nat} (held : HasAt data i part)
    (short : part.length ≤ 32) : ((calldataload data i).bytes).take part.length = part := by
  obtain ⟨rest, same⟩ := held
  rw [calldataload, Word.bytes_ofBytes (by simp), List.take_take, Nat.min_eq_left short, same,
    List.append_assoc, List.take_left]

namespace ZkTlsRelayer

/-- A decoded proof against the proof it was serialized from. -/
structure Agrees (p : ZkTlsProof) (f : ProofFields) : Prop where
  version : f.version = p.version
  urlHash : f.urlHash.bytes = p.urlHash.toList
  dataHash : f.dataHash.bytes = p.dataHash.toList
  responseHash : f.responseHash.bytes = p.responseHash.toList
  certFingerprint : f.certFingerprint.bytes = p.certFingerprint.toList
  ts : f.ts = p.timestamp
  nonce : bytes16 f.nonce = p.nonce.toList
  /-- The low half of the nonce slot is dirty: it repeats the start of `r`. -/
  dirty : f.nonce.bytes.drop 16 = p.r.toList.take 16
  r : f.r.bytes = p.r.toList
  s : f.s.bytes = p.s.toList
  v : f.v = p.v

theorem packed_of_agrees {p : ZkTlsProof} {f : ProofFields} (agrees : Agrees p f) :
    f.packed = p.payload := by
  rw [ProofFields.packed, agrees.version, agrees.urlHash, agrees.dataHash, agrees.responseHash,
    agrees.certFingerprint, agrees.ts, agrees.nonce]
  rfl

theorem decodeProof_malformed {proof : CalldataBytes} (size : proof.bytes.length ≠ 218) :
    decodeProof proof = .error (.error .malformedProof) := by
  rw [bytes_length] at size
  rw [decodeProof, if_pos (by simpa using size)]

theorem decodeProof_agrees {p : ZkTlsProof} (version : p.version = 1) {proof : CalldataBytes}
    (same : proof.bytes = p.toBytes) : ∃ f, decodeProof proof = .ok f ∧ Agrees p f := by
  have layout := p.toBytes_layout
  rw [← same] at layout
  have size : proof.length = 218 := by rw [← bytes_length, same, p.toBytes_length]
  have load : ∀ {start : Nat} {part : List UInt8} (held : HasAt proof.bytes start part)
      (inside : start + part.length ≤ 218) (short : part.length ≤ 32),
      ((calldataload proof.data (proof.offset + start)).bytes).take part.length = part := by
    intro start part held inside short
    exact take_calldataload (hasAt_data (size ▸ inside) held) short
  have word : ∀ {start : Nat} {b : Block 32} (held : HasAt proof.bytes start b.toList)
      (inside : start + 32 ≤ 218),
      (calldataload proof.data (proof.offset + start)).bytes = b.toList := by
    intro start b held inside
    have first := load held (by simpa using inside) (by simp)
    rwa [List.take_of_length_le (by simp)] at first
  have first : proof.bytes[0]? = some 1 := by rw [getElem?_of_hasAt layout.version, version]
  have stamp := load layout.timestamp (by simp) (by simp)
  have slot := load (hasAt_append layout.nonce (hasAt_take (by simpa using layout.r) 16))
    (by simp) (by simp)
  have last := load layout.v (by simp) (by simp)
  rw [encode_length] at stamp
  rw [List.length_singleton] at last
  rw [List.take_of_length_le (by simp)] at slot
  refine ⟨_, by simp only [decodeProof, size, first, proofVersion]; rfl, ?_⟩
  constructor
  · exact version.symm
  · exact word layout.urlHash (by omega)
  · exact word layout.dataHash (by omega)
  · exact word layout.responseHash (by omega)
  · exact word layout.certFingerprint (by omega)
  · have shifted := Word.shift_bytes (calldataload proof.data (proof.offset + 129)) 8
    rw [stamp, decode_encode] at shifted
    have bound := p.timestamp.isLt
    apply BitVec.eq_of_toNat_eq
    simp only [BitVec.toNat_setWidth, BitVec.toNat_ushiftRight, Nat.shiftRight_eq_div_pow]
    norm_num at shifted ⊢
    omega
  · rw [bytes16, slot, List.take_left' p.nonce.toList_length]
  · rw [slot, List.drop_left' p.nonce.toList_length]
  · exact word layout.r (by omega)
  · exact word layout.s (by omega)
  · have shifted := Word.shift_bytes (calldataload proof.data (proof.offset + 217)) 1
    rw [last] at shifted
    apply UInt8.toNat_inj.mp
    simp only [UInt8.toNat_ofNat', BitVec.toNat_ushiftRight, Nat.shiftRight_eq_div_pow]
    norm_num [decode] at shifted ⊢
    have bound := p.v.toNat_lt
    omega

/-- The encoder and both decoders agree on every offset, width and byte order, and
    the relayer hashes what the enclave signed. -/
theorem wire_agreement {p : ZkTlsProof} (version : p.version = 1) :
    ZkTlsProof.fromBytes p.toBytes = .ok p ∧
    (∀ proof : CalldataBytes, proof.bytes = p.toBytes →
      ∃ f, decodeProof proof = .ok f ∧ Agrees p f ∧ f.packed = p.payload) ∧
    (∀ bytes : List UInt8, bytes.length ≠ p.toBytes.length →
      (∃ e, ZkTlsProof.fromBytes bytes = .error e) ∧
      ∀ proof : CalldataBytes, proof.bytes = bytes →
        decodeProof proof = .error (.error .malformedProof)) := by
  refine ⟨p.fromBytes_toBytes, ?_, ?_⟩
  · intro proof same
    obtain ⟨f, decoded, agrees⟩ := decodeProof_agrees version same
    exact ⟨f, decoded, agrees, packed_of_agrees agrees⟩
  · intro bytes other
    rw [p.toBytes_length] at other
    refine ⟨⟨_, ZkTlsProof.fromBytes_malformed other⟩, ?_⟩
    rintro proof rfl
    exact decodeProof_malformed other

def sample : ZkTlsProof where
  version := 1
  urlHash := List.Vector.replicate 32 0x11
  dataHash := List.Vector.replicate 32 0x22
  responseHash := List.Vector.replicate 32 0x33
  certFingerprint := List.Vector.replicate 32 0x44
  timestamp := 1000
  nonce := List.Vector.replicate 16 0x55
  r := List.Vector.replicate 32 0x66
  s := List.Vector.replicate 32 0x77
  v := 1

theorem wire_agreement_sample :
    ZkTlsProof.fromBytes sample.toBytes = .ok sample ∧
      (∀ proof : CalldataBytes, proof.bytes = sample.toBytes →
        ∃ f, decodeProof proof = .ok f ∧ f.packed = sample.payload) ∧
      ∃ e, ZkTlsProof.fromBytes [] = .error e := by
  have agreement := @wire_agreement sample rfl
  refine ⟨agreement.1, ?_, (agreement.2.2 [] (by simp [ZkTlsProof.toBytes_length])).1⟩
  intro proof same
  obtain ⟨f, decoded, _, packed⟩ := agreement.2.1 proof same
  exact ⟨f, decoded, packed⟩

end ZkTlsRelayer

end ZkTls
