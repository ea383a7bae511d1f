import Mathlib.Logic.Function.Basic
import VerifiableRag.Library.Bytes
import VerifiableRag.Library.Ownable

/-!
The on-chain verifier of zkTLS proofs (`ZkTlsRelayer.sol`). Keccak-256 and the
`ecrecover` precompile are parameters; a recovery failure is the zero address.
-/
namespace ZkTls
open Bytes Transaction Ownable

def proofVersion : UInt8 := 1
def proofMaxAge : Nat := 300

/-- A `bytes calldata` argument: a range of the call data. -/
structure CalldataBytes where
  data : List UInt8
  offset : Nat
  length : Nat
  inside : offset + length ≤ data.length

def CalldataBytes.bytes (c : CalldataBytes) : List UInt8 := (c.data.drop c.offset).take c.length

/-- The word at an offset of the call data; past its end there are zeros. -/
def calldataload (data : List UInt8) (i : Nat) : Word :=
  Word.ofBytes ((data.drop i ++ List.replicate 32 0).take 32)

namespace ZkTlsRelayer

inductive Error where
  | zeroAddress
  | zkTlsSignerAlreadyRegistered (signer : Address)
  | zkTlsSignerNotRegistered (signer : Address)
  | unsupportedProofVersion (version : UInt8)
  | malformedProof
  | proofHashMismatch
  | unauthorizedZkTlsSigner (recovered : Address)
  | zeroZkTlsSigner
  | staleProof
  | proofAlreadyUsed (digest : Word)
  | ownable (violation : Violation)
  deriving DecidableEq

inductive Event where
  | zkTlsSignerRegistered (signer : Address)
  | zkTlsSignerDeregistered (signer : Address)
  | web2DataRelayed (urlHash dataHash : Word) (signer : Address)
      (responseHash certFingerprint timestamp : Word)
  | ownershipTransferred (previousOwner newOwner : Address)
  deriving DecidableEq

structure VerifiedData where
  dataHash : Word
  verifiedAt : Word
  deriving DecidableEq

structure State where
  owner : Address
  zkTlsSigners : Address → Bool
  verifiedWeb2Data : Word → VerifiedData
  usedProofs : Word → Bool
  log : List Event

instance : Owned State Error where
  owner := State.owner
  setOwner newOwner s :=
    { s with owner := newOwner, log := s.log ++ [.ownershipTransferred s.owner newOwner] }
  refuse := .ownable

def emit (event : Event) : Call State Error Unit :=
  modify fun s => { s with log := s.log ++ [event] }

def deploy (initialOwner : Address) : View Error State :=
  if initialOwner = 0 then .error (.error (.ownable (.invalidOwner 0)))
  else .ok ⟨initialOwner, fun _ => false, fun _ => ⟨0, 0⟩, fun _ => false,
    [.ownershipTransferred 0 initialOwner]⟩

def registerZkTlsSigner (sender signer : Address) : Call State Error Unit := do
  onlyOwner sender
  revertIf (signer = 0) .zeroAddress
  let s ← get
  revertIf (s.zkTlsSigners signer = true) (.zkTlsSignerAlreadyRegistered signer)
  modify fun s => { s with zkTlsSigners := Function.update s.zkTlsSigners signer true }
  emit (.zkTlsSignerRegistered signer)

def deregisterZkTlsSigner (sender signer : Address) : Call State Error Unit := do
  onlyOwner sender
  let s ← get
  revertIf (s.zkTlsSigners signer = false) (.zkTlsSignerNotRegistered signer)
  modify fun s => { s with zkTlsSigners := Function.update s.zkTlsSigners signer false }
  emit (.zkTlsSignerDeregistered signer)

/-- The decoded fields. `nonce` is the raw memory slot: the assembly fills its
    low half with the bytes that follow the nonce. -/
structure ProofFields where
  version : UInt8
  urlHash : Word
  dataHash : Word
  responseHash : Word
  certFingerprint : Word
  ts : BitVec 64
  nonce : Word
  r : Word
  s : Word
  v : UInt8

def decodeProof (proof : CalldataBytes) : View Error ProofFields :=
  if proof.length ≠ 1 + 32 * 4 + 8 + 16 + 32 + 32 + 1 then .error (.error .malformedProof)
  else
    match proof.bytes[0]? with
    | none => .error (.panic 0x32)
    | some version =>
      if version ≠ proofVersion then .error (.error (.unsupportedProofVersion version))
      else
        let load := fun i => calldataload proof.data (proof.offset + i)
        .ok {
          version := version
          urlHash := load 0x01
          dataHash := load 0x21
          responseHash := load 0x41
          certFingerprint := load 0x61
          ts := (load 0x81 >>> 192).setWidth 64
          nonce := load 0x89
          r := load 0x99
          s := load 0xB9
          v := UInt8.ofNat (load 0xD9 >>> 248).toNat }

/-- A `bytes16` value is the high half of its slot. -/
def bytes16 (slot : Word) : List UInt8 := slot.bytes.take 16

/-- `abi.encodePacked` of the signed fields. -/
def ProofFields.packed (f : ProofFields) : List UInt8 :=
  [f.version] ++ f.urlHash.bytes ++ f.dataHash.bytes ++ f.responseHash.bytes ++
    f.certFingerprint.bytes ++ encode 8 f.ts.toNat ++ bytes16 f.nonce

structure Crypto where
  keccak256 : List UInt8 → Word
  ecrecover : Word → UInt8 → Word → Word → Address

variable (crypto : Crypto)

def relayVerifiedWeb2Data (now : Word) (proof : CalldataBytes) (urlHash dataHash : Word) :
    Call State Error Bool := do
  let f ← decodeProof proof
  revertIf (f.urlHash ≠ urlHash ∨ f.dataHash ≠ dataHash) .proofHashMismatch
  -- the left side adds in uint256, the right side in uint64
  let latest ← checked 256 (now.toNat + proofMaxAge)
  revertIf (f.ts.toNat > latest) .staleProof
  let expiry ← checked 64 (f.ts.toNat + proofMaxAge)
  revertIf (now.toNat > expiry) .staleProof
  let digest := crypto.keccak256 f.packed
  let s ← get
  revertIf (s.usedProofs digest = true) (.proofAlreadyUsed digest)
  modify fun s => { s with usedProofs := Function.update s.usedProofs digest true }
  let v ← checked 8 (27 + f.v.toNat)
  let signer := crypto.ecrecover digest (UInt8.ofNat v) f.r f.s
  revertIf (signer = 0) .zeroZkTlsSigner
  let s ← get
  revertIf (s.zkTlsSigners signer = false) (.unauthorizedZkTlsSigner signer)
  modify fun s => { s with
    verifiedWeb2Data := Function.update s.verifiedWeb2Data urlHash ⟨dataHash, now⟩ }
  emit (.web2DataRelayed urlHash dataHash signer f.responseHash f.certFingerprint now)
  return true

inductive Method where
  | registerZkTlsSigner (signer : Address)
  | deregisterZkTlsSigner (signer : Address)
  | relayVerifiedWeb2Data (proof : CalldataBytes) (urlHash dataHash : Word)
  | transferOwnership (newOwner : Address)
  | renounceOwnership

structure Tx where
  sender : Address
  now : Word
  call : Method

def exec (tx : Tx) : Call State Error Bool :=
  match tx.call with
  | .registerZkTlsSigner signer => do registerZkTlsSigner tx.sender signer; return true
  | .deregisterZkTlsSigner signer => do deregisterZkTlsSigner tx.sender signer; return true
  | .relayVerifiedWeb2Data proof urlHash dataHash =>
    relayVerifiedWeb2Data crypto tx.now proof urlHash dataHash
  | .transferOwnership newOwner => do transferOwnership tx.sender newOwner; return true
  | .renounceOwnership => do renounceOwnership tx.sender; return true

def machine : Machine State Tx Bool Error := ⟨exec crypto⟩

end ZkTlsRelayer

end ZkTls
