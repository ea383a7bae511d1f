import VerifiableRag.Library.Bytes

/-!
The zkTLS proof of the enclave (`proof_generator.rs`): its wire format and the
canonical payload that gets signed.
-/
namespace ZkTls
open Bytes

inductive ProofError where
  | invalidJson (e : String)
  | jqCompile (e : String)
  | emptySelection (selector : String)
  | build (e : String)
  | decode (message : String)
  deriving DecidableEq, Repr

def ProofError.message : ProofError → String
  | invalidJson e => "response is not valid JSON: " ++ e
  | jqCompile e => "jq filter failed to compile: " ++ e
  | emptySelection selector => "jq selector produced no output: " ++ selector
  | build e => "proof build failed: " ++ e
  | decode message => "proof decode failed: " ++ message

structure ZkTlsProof where
  version : UInt8
  urlHash : Block 32
  dataHash : Block 32
  responseHash : Block 32
  certFingerprint : Block 32
  timestamp : BitVec 64
  nonce : Block 16
  r : Block 32
  s : Block 32
  v : UInt8
  deriving DecidableEq

def canonicalPayload (version : UInt8) (urlHash dataHash responseHash certFingerprint : Block 32)
    (timestamp : BitVec 64) (nonce : Block 16) : List UInt8 :=
  [version] ++ urlHash.toList ++ dataHash.toList ++ responseHash.toList ++ certFingerprint.toList ++
    encode 8 timestamp.toNat ++ nonce.toList

theorem canonicalPayload_injective {version version' : UInt8}
    {urlHash dataHash responseHash fingerprint urlHash' dataHash' responseHash' fingerprint' :
      Block 32} {timestamp timestamp' : BitVec 64} {nonce nonce' : Block 16}
    (same : canonicalPayload version urlHash dataHash responseHash fingerprint timestamp nonce =
      canonicalPayload version' urlHash' dataHash' responseHash' fingerprint' timestamp' nonce') :
    urlHash = urlHash' ∧ dataHash = dataHash' ∧ responseHash = responseHash' ∧
      fingerprint = fingerprint' ∧ timestamp = timestamp' ∧ nonce = nonce' := by
  simp only [canonicalPayload, List.append_assoc] at same
  obtain ⟨_, same⟩ := List.append_inj same rfl
  obtain ⟨url, same⟩ := List.append_inj same (by simp)
  obtain ⟨data, same⟩ := List.append_inj same (by simp)
  obtain ⟨response, same⟩ := List.append_inj same (by simp)
  obtain ⟨cert, same⟩ := List.append_inj same (by simp)
  obtain ⟨stamp, nonces⟩ := List.append_inj same (by simp)
  exact ⟨Subtype.ext url, Subtype.ext data, Subtype.ext response, Subtype.ext cert,
    BitVec.eq_of_toNat_eq (encode_inj timestamp.isLt timestamp'.isLt stamp), Subtype.ext nonces⟩

/-- The length of the header that precedes `r`. -/
def hdr : Nat := 1 + 32 * 4 + 8 + 16

/-- `copy_from_slice(&bytes[start..start + n])` -/
def slice (bytes : List UInt8) (start n : Nat) (inside : start + n ≤ bytes.length) : Block n :=
  ⟨(bytes.drop start).take n, by simp; omega⟩

namespace ZkTlsProof

def payload (p : ZkTlsProof) : List UInt8 :=
  canonicalPayload p.version p.urlHash p.dataHash p.responseHash p.certFingerprint p.timestamp
    p.nonce

def toBytes (p : ZkTlsProof) : List UInt8 :=
  [p.version] ++ p.urlHash.toList ++ p.dataHash.toList ++ p.responseHash.toList ++
    p.certFingerprint.toList ++ encode 8 p.timestamp.toNat ++ p.nonce.toList ++ p.r.toList ++
    p.s.toList ++ [p.v]

def fromBytes (bytes : List UInt8) : Except ProofError ZkTlsProof :=
  if size : bytes.length = hdr + 32 + 32 + 1 then
    have fits : ∀ {k}, k ≤ 218 → k ≤ bytes.length := by
      intro k le
      simp only [size, hdr]
      omega
    .ok {
      version := bytes.get ⟨0, fits (by omega)⟩
      urlHash := slice bytes 1 32 (fits (by omega))
      dataHash := slice bytes 33 32 (fits (by omega))
      responseHash := slice bytes 65 32 (fits (by omega))
      certFingerprint := slice bytes 97 32 (fits (by omega))
      timestamp := BitVec.ofNat 64 (decode (slice bytes 129 8 (fits (by omega))).toList)
      nonce := slice bytes 137 16 (fits (by omega))
      r := slice bytes hdr 32 (fits (by simp [hdr]))
      s := slice bytes (hdr + 32) 32 (fits (by simp [hdr]))
      v := bytes.get ⟨hdr + 64, fits (by simp [hdr])⟩ }
  else .error (.decode s!"expected {hdr + 65} bytes, got {bytes.length}")

theorem toBytes_length (p : ZkTlsProof) : p.toBytes.length = 218 := by
  simp [toBytes]

theorem fromBytes_malformed {bytes : List UInt8} (other : bytes.length ≠ 218) :
    fromBytes bytes = .error (.decode s!"expected {hdr + 65} bytes, got {bytes.length}") :=
  dif_neg other

structure Layout (p : ZkTlsProof) (bytes : List UInt8) : Prop where
  version : HasAt bytes 0 [p.version]
  urlHash : HasAt bytes 1 p.urlHash.toList
  dataHash : HasAt bytes 33 p.dataHash.toList
  responseHash : HasAt bytes 65 p.responseHash.toList
  certFingerprint : HasAt bytes 97 p.certFingerprint.toList
  timestamp : HasAt bytes 129 (encode 8 p.timestamp.toNat)
  nonce : HasAt bytes 137 p.nonce.toList
  r : HasAt bytes 153 p.r.toList
  s : HasAt bytes 185 p.s.toList
  v : HasAt bytes 217 [p.v]

theorem toBytes_layout (p : ZkTlsProof) : Layout p p.toBytes := by
  constructor <;> simp [HasAt, toBytes, List.drop_append, List.drop_eq_nil_of_le]

theorem timestamp_encode (t : BitVec 64) : BitVec.ofNat 64 (decode (encode 8 t.toNat)) = t := by
  have bound := t.isLt
  apply BitVec.eq_of_toNat_eq
  rw [decode_encode, BitVec.toNat_ofNat]
  omega

theorem fromBytes_toBytes (p : ZkTlsProof) : fromBytes p.toBytes = .ok p := by
  have layout := toBytes_layout p
  have size : p.toBytes.length = hdr + 32 + 32 + 1 := toBytes_length p
  have block : ∀ {n start : Nat} {b : Block n} (held : HasAt p.toBytes start b.toList)
      (inside : start + n ≤ p.toBytes.length), slice p.toBytes start n inside = b := by
    intro n start b held inside
    exact Subtype.ext (take_of_hasAt held b.toList_length)
  have byte : ∀ {start : Nat} {b : UInt8} (held : HasAt p.toBytes start [b])
      (inside : start < p.toBytes.length), p.toBytes[start] = b := by
    intro start b held inside
    exact Option.some.inj ((List.getElem?_eq_getElem inside).symm.trans (getElem?_of_hasAt held))
  have stamp : (slice p.toBytes 129 8 (by rw [size]; simp [hdr])).toList =
      encode 8 p.timestamp.toNat := take_of_hasAt layout.timestamp (encode_length _ _)
  rw [fromBytes, dif_pos size]
  simp only [List.get_eq_getElem, byte layout.version, block layout.urlHash, block layout.dataHash,
    block layout.responseHash, block layout.certFingerprint, stamp, timestamp_encode,
    block layout.nonce, hdr, block layout.r, block layout.s, byte layout.v]

end ZkTlsProof

end ZkTls
