import VerifiableRag.Kms.NodeView

/-!
The transactions of the price provider, signed by the wallet of two shares, and what a node makes
of them.
-/
namespace Ftso
open Bytes Ownable Kms Kms.Standard
variable {Point : Type} [AddCommGroup Point] [Module Scalar Point] [DecidableEq Point]

section Signing
variable (curve : Secp256k1 Point) (keccak256 : List UInt8 → Word)

def priceTx (calldata : Buffer) (chainId nonce : UInt64) (recipient : Block 20)
    (maxFeePerGas maxPriorityFeePerGas : BitVec 128) (gasLimit : UInt64) : Eip1559Tx where
  chainId := chainId
  nonce := nonce
  maxPriorityFeePerGas := maxPriorityFeePerGas
  maxFeePerGas := maxFeePerGas
  gasLimit := gasLimit
  recipient := recipient
  value := List.Vector.replicate 32 0
  data := calldata

/-- `none` is a panic of the signer. -/
def signPriceTx (s1 s2 : KeyShare) (calldata : Buffer) (chainId nonce : UInt64)
    (recipient : Block 20) (maxFeePerGas maxPriorityFeePerGas : BitVec 128) (gasLimit : UInt64) :
    Option (SignatureParts × List UInt8) := do
  let tx := priceTx calldata chainId nonce recipient maxFeePerGas maxPriorityFeePerGas gasLimit
  let sig ← curve.signEip1559 keccak256 s1 s2 tx
  return (sig, rawSignedTx tx sig)

def composedProviderAddress (s1 s2 : KeyShare) : Option Address :=
  composedAddress curve.k256 keccak256 s1 s2

end Signing

section Wallet
variable {curve : Secp256k1 Point} {keccak256 : List UInt8 → Word} {s1 s2 : KeyShare}
  {wallet : Address}

theorem provider_shares (composed : composedProviderAddress curve keccak256 s1 s2 = some wallet) :
    s1.toScalar + s2.toScalar ≠ 0 := by
  simp only [composedProviderAddress, composedAddress, publicKeyOf, Option.bind_eq_bind,
    Option.bind_eq_some_iff, Option.ite_none_left_eq_some, Option.some.injEq] at composed
  obtain ⟨p1, ⟨_, rfl⟩, p2, ⟨_, rfl⟩, point, _⟩ := composed
  intro zero
  rw [← add_smul, zero, zero_smul] at point
  exact point rfl

/-- Whatever the signature, a node cannot read the amount of nothing in 32 bytes. -/
theorem priceTx_unread {calldata : Buffer} {chainId nonce : UInt64} {recipient : Block 20}
    {maxFeePerGas maxPriorityFeePerGas : BitVec 128} {gasLimit : UInt64} (sig : SignatureParts) :
    decodeRaw (rawSignedTx (priceTx calldata chainId nonce recipient maxFeePerGas
      maxPriorityFeePerGas gasLimit) sig) = none := by
  rw [Option.eq_none_iff_forall_ne_some]
  intro both read
  obtain ⟨⟨value, _, _⟩, _⟩ := decodeRaw_iff.mp read
  exact full_iff.mp value rfl

/-- A node reads a transaction of the wallet as it was signed or not at all, and takes it for one of
    the wallet exactly when the amount and both parts of the signature fill their 32 bytes and the
    nonce point needed no reduction. No transaction of the price provider, which sends no
    amount, is read at all. -/
theorem wallet_transaction_iff
    (composed : composedProviderAddress curve keccak256 s1 s2 = some wallet) :
    addressOf curve.k256 keccak256 ((s1.toScalar + s2.toScalar) • curve.generator) = wallet ∧
    (∀ tx, ∃ sig, curve.signEip1559 keccak256 s1 s2 tx = some sig ∧
      (∀ fields key, curve.readTransaction keccak256 (rawSignedTx tx sig) = some (fields, key) →
        fields = tx.fields) ∧
      (curve.readTransaction keccak256 (rawSignedTx tx sig) =
          some (tx.fields, (s1.toScalar + s2.toScalar) • curve.generator) ↔
        (Full tx.value ∧ Full sig.r ∧ Full sig.s) ∧
          curve.SmallNonce (s1.toScalar + s2.toScalar) (eip1559SigningHash keccak256 tx))) ∧
    ∀ calldata chainId nonce recipient maxFeePerGas maxPriorityFeePerGas gasLimit, ∃ sig raw,
      signPriceTx curve keccak256 s1 s2 calldata chainId nonce recipient maxFeePerGas
        maxPriorityFeePerGas gasLimit = some (sig, raw) ∧
      decodeRaw raw = none := by
  have whole := provider_shares composed
  have signed (tx : Eip1559Tx) := curve.signDigest_signature whole (eip1559SigningHash keccak256 tx)
  refine ⟨(composedAddress_eq curve.k256 composed).symm, ?_, ?_⟩
  · intro tx
    refine ⟨_, signed tx, ?_, Secp256k1.readTransaction_key whole⟩
    intro fields key read
    exact ((Secp256k1.readTransaction_signed whole).mp read).2.1
  · intro calldata chainId nonce recipient maxFeePerGas maxPriorityFeePerGas gasLimit
    obtain ⟨sig, price⟩ : ∃ sig, curve.signEip1559 keccak256 s1 s2 (priceTx calldata chainId nonce
        recipient maxFeePerGas maxPriorityFeePerGas gasLimit) = some sig := ⟨_, signed _⟩
    have sent : signPriceTx curve keccak256 s1 s2 calldata chainId nonce recipient maxFeePerGas
        maxPriorityFeePerGas gasLimit = some (sig, rawSignedTx (priceTx calldata chainId nonce
        recipient maxFeePerGas maxPriorityFeePerGas gasLimit) sig) := by
      rw [signPriceTx, price]
      rfl
    exact ⟨sig, _, sent, priceTx_unread sig⟩

theorem wallet_transaction_iff_sample : ∃ sig raw,
    signPriceTx sampleCurve oneWeiKeccak (.fromScalar 1) (.fromScalar 2) ⟨[], by decide⟩ 114 7
      (List.Vector.replicate 20 0x11) 25000000000 0 21000 = some (sig, raw) ∧
    decodeRaw raw = none := by
  obtain ⟨first, second, whole⟩ := sample_shares
  have composed : composedProviderAddress sampleCurve oneWeiKeccak (.fromScalar 1) (.fromScalar 2) =
      some _ := sampleCurve.composedAddress_some oneWeiKeccak first second whole
  exact (wallet_transaction_iff composed).2.2 _ _ _ _ _ _ _

end Wallet

end Ftso
