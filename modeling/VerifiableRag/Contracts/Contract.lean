import Mathlib.Logic.Function.Basic
import VerifiableRag.Library.Abi
import VerifiableRag.Library.Ownable
import VerifiableRag.Library.IntegerCasts
import VerifiableRag.Contracts.TokenClaims

/-!
The settlement contract (`VerifiableRAG.sol`). Keccak-256, `ecrecover` and the
decoding of a Web2Json proof are parameters; the answers of the registry, the FDC
verifier, the relay and the FTSO feed are arbitrary in every transaction. These
calls are all to `view` functions, so none re-enters a function that writes, and
the status slot of `nonReentrant` is left out.
-/
namespace VerifiableRag
open Bytes Transaction Ownable IntegerCasts

abbrev FeedId := BitVec 168

def realtimeMaxAge : Nat := 300

inductive Error where
  | duplicateProof (proofId : Word)
  | unregisteredContract (name : String)
  | zeroRegistry
  | zeroAddress
  | unchangedImageDigest
  | invalidToken
  | unauthorizedImage (digest : Word)
  | unconfiguredFeed
  | staleFeed
  | queryConflict (queryHash : Word)
  | zeroQueryHash
  | unverifiedWeb2Data
  | zeroFeedId
  | zeroSettlementQuantity
  | unchangedFeedId
  | emptyAttestationData
  | zeroZkTlsRelayer
  | unchangedZkTlsRelayer
  | zeroKmsSigner
  | kmsSignerAlreadyRegistered (signer : Address)
  | kmsSignerNotRegistered (signer : Address)
  | zeroSigner
  | unauthorizedSigner (recovered : Address)
  | ownable (violation : Violation)
  deriving DecidableEq

inductive Event where
  | imageDigestUpdated (oldDigest newDigest : Word)
  | zkTlsRelayerUpdated (oldRelayer newRelayer : Address)
  | priceFeedIdUpdated (oldFeedId newFeedId : FeedId)
  | kmsSignerRegistered (signer : Address)
  | kmsSignerDeregistered (signer : Address)
  | kmsActionExecuted (signer : Address) (actionId timestamp : Word)
  | attestationSubmitted (proofId : Word) (submitter : Address) (bindingHash : Word)
  | priceSettled (feedId : FeedId) (price timestamp : Word)
  | querySettled (queryHash : Word) (feedId : FeedId) (price : Word) (decimals : BitVec 8)
      (quantity valuation timestamp : Word)
  | proofVerified (queryHash imageDigest timestamp : Word)
  | ownershipTransferred (previousOwner newOwner : Address)
  deriving DecidableEq

structure QueryRecord where
  verified : Bool
  bindingHash : Word
  verifiedAt : Word
  deriving DecidableEq

structure State where
  owner : Address
  contractRegistry : Address
  approvedImageDigest : Word
  priceFeedId : FeedId
  zkTlsRelayer : Address
  latestProofHash : Word
  latestVerifiedWeb2Hash : Word
  lastSettlementPrice : Word
  lastSettlementValuation : Word
  submittedProofs : Word → Bool
  verifiedQueries : Word → QueryRecord
  kmsSigners : Address → Bool
  log : List Event

instance : Owned State Error where
  owner := State.owner
  setOwner newOwner s :=
    { s with owner := newOwner, log := s.log ++ [.ownershipTransferred s.owner newOwner] }
  refuse := .ownable

def emit (event : Event) : Call State Error Unit :=
  modify fun s => { s with log := s.log ++ [event] }

/-- The three results of `getFeedById`; `decimals` is an `int8`. -/
structure Feed where
  value : Word
  decimals : BitVec 8
  timestamp : Word
  deriving DecidableEq

/-- What the contracts around this one answer during a transaction; `none` is a
    call that reverts. `Proof` is `IWeb2Json.Proof`. -/
structure Answers (Proof : Type) where
  getContractAddressByName : Address → String → Option Address
  verifyWeb2Json : Address → Proof → Option Bool
  relay : Address → Option Address
  fdcProtocolId : Address → Option UInt8
  merkleRoots : Address → UInt8 → BitVec 64 → Option Word
  getFeedById : Address → FeedId → Option Feed

/-- Code outside the contract whose answers do not change. -/
structure Primitives (Proof : Type) where
  keccak256 : List UInt8 → Word
  ecrecover : Word → UInt8 → Word → Word → Address
  /-- `abi.decode(_, (IWeb2Json.Proof))`; `none` when it reverts. -/
  decodeProof : List UInt8 → Option Proof
  votingRound : Proof → BitVec 64

def deploy (initialOwner contractRegistry : Address) (initialApprovedImageDigest : Word) :
    View Error State :=
  if initialOwner = 0 then .error (.error (.ownable (.invalidOwner 0)))
  else if contractRegistry = 0 then .error (.error .zeroRegistry)
  else if initialApprovedImageDigest = 0 then .error (.error .zeroAddress)
  else .ok {
    owner := initialOwner
    contractRegistry := contractRegistry
    approvedImageDigest := initialApprovedImageDigest
    priceFeedId := 0
    zkTlsRelayer := 0
    latestProofHash := 0
    latestVerifiedWeb2Hash := 0
    lastSettlementPrice := 0
    lastSettlementValuation := 0
    submittedProofs := fun _ => false
    verifiedQueries := fun _ => ⟨false, 0, 0⟩
    kmsSigners := fun _ => false
    log := [.ownershipTransferred 0 initialOwner] }

section Administration

def updateApprovedImageDigest (sender : Address) (newDigest : Word) : Call State Error Unit := do
  onlyOwner sender
  revertIf (newDigest = 0) .zeroAddress
  let s ← get
  revertIf (newDigest = s.approvedImageDigest) .unchangedImageDigest
  emit (.imageDigestUpdated s.approvedImageDigest newDigest)
  modify fun s => { s with approvedImageDigest := newDigest }

def updateZkTlsRelayer (sender newRelayer : Address) : Call State Error Unit := do
  onlyOwner sender
  revertIf (newRelayer = 0) .zeroZkTlsRelayer
  let s ← get
  revertIf (newRelayer = s.zkTlsRelayer) .unchangedZkTlsRelayer
  emit (.zkTlsRelayerUpdated s.zkTlsRelayer newRelayer)
  modify fun s => { s with zkTlsRelayer := newRelayer }

def updatePriceFeedId (sender : Address) (newFeedId : FeedId) : Call State Error Unit := do
  onlyOwner sender
  revertIf (newFeedId = 0) .zeroFeedId
  let s ← get
  revertIf (newFeedId = s.priceFeedId) .unchangedFeedId
  emit (.priceFeedIdUpdated s.priceFeedId newFeedId)
  modify fun s => { s with priceFeedId := newFeedId }

def registerKmsSigner (sender signer : Address) : Call State Error Unit := do
  onlyOwner sender
  revertIf (signer = 0) .zeroKmsSigner
  let s ← get
  revertIf (s.kmsSigners signer = true) (.kmsSignerAlreadyRegistered signer)
  modify fun s => { s with kmsSigners := Function.update s.kmsSigners signer true }
  emit (.kmsSignerRegistered signer)

def deregisterKmsSigner (sender signer : Address) : Call State Error Unit := do
  onlyOwner sender
  let s ← get
  revertIf (s.kmsSigners signer = false) (.kmsSignerNotRegistered signer)
  modify fun s => { s with kmsSigners := Function.update s.kmsSigners signer false }
  emit (.kmsSignerDeregistered signer)

end Administration

section Calls
variable {Proof : Type} (prim : Primitives Proof) (answers : Answers Proof) (now : Word)

def requireKmsSignature (state : State) (hash : Word) (v : UInt8) (r s : Word) :
    View Error Address := do
  let signer := prim.ecrecover hash v r s
  revertIf (signer = 0) .zeroSigner
  revertIf (state.kmsSigners signer = false) (.unauthorizedSigner signer)
  return signer

def executeKmsSignedAction (actionHash : Word) (v : UInt8) (r s : Word) :
    Call State Error Address := do
  revertIf (actionHash = 0) .zeroQueryHash
  let state ← get
  let signer ← requireKmsSignature prim state actionHash v r s
  emit (.kmsActionExecuted signer actionHash now)
  return signer

/-- `fdcVerification` and `ftsoV2`: a registered, nonzero address of that name. -/
def resolve (state : State) (name : String) : View Error Address := do
  let target ← expect (answers.getContractAddressByName state.contractRegistry name) .bare
  revertIf (target = 0) (.unregisteredContract name)
  return target

def fdcVerification (state : State) : View Error Address :=
  resolve answers state "FdcVerification"

def ftsoV2 (state : State) : View Error Address := resolve answers state "FtsoV2"

def verifiedWeb2RootImpl (state : State) (fdcProof : List UInt8) :
    View Error Word := do
  let proof ← expect (prim.decodeProof fdcProof) .bare
  let fdc ← fdcVerification answers state
  let verified ← expect (answers.verifyWeb2Json fdc proof) .bare
  revertIf (verified = false) .unverifiedWeb2Data
  let relay ← expect (answers.relay fdc) .bare
  let protocol ← expect (answers.fdcProtocolId fdc) .bare
  expect (answers.merkleRoots relay protocol (prim.votingRound proof)) .bare

/-- The `try`/`catch` around the external self-call. -/
def verifiedWeb2Root (state : State) (fdcProof : List UInt8) : View Error Word :=
  match verifiedWeb2RootImpl prim answers state fdcProof with
  | .ok root => .ok root
  | .error _ => .error (.error .unverifiedWeb2Data)

def readFeed (state : State) (feedId : FeedId) : View Error Feed := do
  let ftso ← ftsoV2 answers state
  expect (answers.getFeedById ftso feedId) .bare

def liveFeed (state : State) (feedId : FeedId) : View Error Feed := do
  let feed ← readFeed answers state feedId
  let latest ← checked 256 (now.toNat + realtimeMaxAge)
  revertIf (feed.timestamp.toNat > latest) .staleFeed
  let expiry ← checked 256 (feed.timestamp.toNat + realtimeMaxAge)
  revertIf (now.toNat > expiry) .staleFeed
  return feed

/-- `uint256(uint8(_))` of a scale from zero on; below zero the chain of casts is
    `uint256(uint8(uint256(-int256(_))))`. -/
def scaleValuation (quantity price : Word) (decimals : BitVec 8) : View Error Word := do
  let product ← checked 256 (quantity.toNat * price.toNat)
  if 0 ≤ decimals.toInt then
    let scale ← checked 256 (10 ^ (decimals.setWidth 256).toNat)
    return BitVec.ofNat 256 (product / scale)
  else
    let magnitude ← checkedNeg (decimals.signExtend 256)
    let scale ← checked 256 (10 ^ ((magnitude.setWidth 8).setWidth 256).toNat)
    let valuation ← checked 256 (product * scale)
    return BitVec.ofNat 256 valuation

def settleAgainstFeed (queryHash settlementQuantity : Word) : Call State Error Unit := do
  revertIf (settlementQuantity = 0) .zeroSettlementQuantity
  let state ← get
  revertIf (state.priceFeedId = 0) .unconfiguredFeed
  let live ← liveFeed answers now state state.priceFeedId
  let valuation ← scaleValuation settlementQuantity live.value live.decimals
  modify fun s => { s with
    lastSettlementPrice := live.value
    lastSettlementValuation := valuation }
  emit (.priceSettled state.priceFeedId live.value now)
  emit (.querySettled queryHash state.priceFeedId live.value live.decimals settlementQuantity
    valuation now)

structure AttestationProof where
  bindingHash : Word
  zkProof : List UInt8
  publicInputs : List.Vector Word 3

def attestationId (proof : AttestationProof) : Word :=
  prim.keccak256 (Abi.abiEncode [.static [proof.bindingHash], .bytes proof.zkProof,
    .static proof.publicInputs.toList])

def submitAttestation (sender : Address) (proof : AttestationProof)
    (attestationData : List UInt8) : Call State Error Word := do
  let proofId := attestationId prim proof
  revertIf (attestationData.length = 0) .emptyAttestationData
  let s ← get
  revertIf (s.submittedProofs proofId = true) (.duplicateProof proofId)
  modify fun s => { s with
    submittedProofs := Function.update s.submittedProofs proofId true
    latestProofHash := proofId }
  emit (.attestationSubmitted proofId sender proof.bindingHash)
  return proofId

/-- The arguments of `verifyAndSettleRAG`. -/
structure Settlement where
  vtpmToken : List UInt8
  zkpProof : List UInt8
  queryHash : Word
  settlementQuantity : Word
  fdcProof : List UInt8

def Settlement.proofId (r : Settlement) : Word :=
  prim.keccak256 (Abi.abiEncode [.bytes r.vtpmToken, .bytes r.zkpProof, .static [r.queryHash]])

def Settlement.bindingHash (r : Settlement) (digest : Word) : Word :=
  prim.keccak256 (Abi.abiEncode [.static [r.queryHash], .bytes r.zkpProof, .static [digest]])

/-- The claim checks on the token: the image digest it attests. -/
def tokenDigest (vtpmToken : List UInt8) : View Error Word := do
  let payload ← expect (TokenClaims.jwtPayload vtpmToken) (.error .invalidToken)
  revertIf (TokenClaims.hasSwname payload = false) .invalidToken
  expect (TokenClaims.extractImageDigest payload) (.error .invalidToken)

/-- The record of a query, written at its first verification. -/
def recordQuery (queryHash bindingHash : Word) : Call State Error Unit := do
  let s ← get
  if (s.verifiedQueries queryHash).verified then
    revertIf ((s.verifiedQueries queryHash).bindingHash ≠ bindingHash) (.queryConflict queryHash)
  else
    modify fun s => { s with
      verifiedQueries := Function.update s.verifiedQueries queryHash ⟨true, bindingHash, now⟩ }

def verifyAndSettleRAG (r : Settlement) : Call State Error Bool := do
  revertIf (r.vtpmToken.length = 0 ∨ r.zkpProof.length = 0) .invalidToken
  revertIf (r.queryHash = 0) .zeroQueryHash
  let digest ← tokenDigest r.vtpmToken
  let s ← get
  revertIf (digest ≠ s.approvedImageDigest) (.unauthorizedImage digest)
  let root ← verifiedWeb2Root prim answers s r.fdcProof
  modify fun s => { s with latestVerifiedWeb2Hash := root }
  let proofId := r.proofId prim
  revertIf (s.submittedProofs proofId = true) (.duplicateProof proofId)
  modify fun s => { s with
    submittedProofs := Function.update s.submittedProofs proofId true
    latestProofHash := proofId }
  recordQuery now r.queryHash (r.bindingHash prim digest)
  settleAgainstFeed answers now r.queryHash r.settlementQuantity
  emit (.proofVerified r.queryHash digest now)
  return true

end Calls

inductive Method where
  | updateApprovedImageDigest (newDigest : Word)
  | updateZkTlsRelayer (newRelayer : Address)
  | updatePriceFeedId (newFeedId : FeedId)
  | registerKmsSigner (signer : Address)
  | deregisterKmsSigner (signer : Address)
  | executeKmsSignedAction (actionHash : Word) (v : UInt8) (r s : Word)
  | submitAttestation (proof : AttestationProof) (attestationData : List UInt8)
  | verifyAndSettleRAG (settlement : Settlement)
  | transferOwnership (newOwner : Address)
  | renounceOwnership

/-- A transaction: `msg.sender`, `block.timestamp`, the answers it gets, the call. -/
structure Tx (Proof : Type) where
  sender : Address
  now : Word
  answers : Answers Proof
  call : Method

inductive Returned where
  | nothing
  | bool (b : Bool)
  | word (w : Word)
  | signer (a : Address)
  deriving DecidableEq

section Exec
variable {Proof : Type} (prim : Primitives Proof)

def exec (tx : Tx Proof) : Call State Error Returned :=
  match tx.call with
  | .updateApprovedImageDigest newDigest => do
    updateApprovedImageDigest tx.sender newDigest
    return .nothing
  | .updateZkTlsRelayer newRelayer => do
    updateZkTlsRelayer tx.sender newRelayer
    return .nothing
  | .updatePriceFeedId newFeedId => do
    updatePriceFeedId tx.sender newFeedId
    return .nothing
  | .registerKmsSigner signer => do
    registerKmsSigner tx.sender signer
    return .nothing
  | .deregisterKmsSigner signer => do
    deregisterKmsSigner tx.sender signer
    return .nothing
  | .executeKmsSignedAction actionHash v r s => do
    let signer ← executeKmsSignedAction prim tx.now actionHash v r s
    return .signer signer
  | .submitAttestation proof attestationData => do
    let proofId ← submitAttestation prim tx.sender proof attestationData
    return .word proofId
  | .verifyAndSettleRAG settlement => do
    let settled ← verifyAndSettleRAG prim tx.answers tx.now settlement
    return .bool settled
  | .transferOwnership newOwner => do
    transferOwnership tx.sender newOwner
    return .nothing
  | .renounceOwnership => do
    renounceOwnership tx.sender
    return .nothing

def machine : Machine State (Tx Proof) Returned Error := ⟨exec prim⟩

end Exec

end VerifiableRag
