import SolanaPrograms.Token2022.ExtensionData

/-!
# The fee of a confidential transfer

On a mint with transfer fees the proof of a confidential transfer carries the fee parameters, and
`process_transfer` of the confidential extension compares them with the ones of the mint. It selects
the older fee after the newer one has begun, where the plain transfer selects the newer one, so that
the two agree only in the first epoch of the newer fee or if there is nothing to select.
-/

namespace SolanaPrograms.Token2022

open Outcome SolanaPrograms.Runtime TokenError

/-- What a proof of a transfer with a fee says about the mint. -/
structure TransferWithFeeData where
  auditorPubkey : Blob elGamalPubkeyLen
  withdrawWithheldAuthorityPubkey : Blob elGamalPubkeyLen
  maximumFee : UInt64
  feeRateBasisPoints : UInt16

def TransferFee.parameters (fee : TransferFee) : UInt64 × UInt16 :=
  (fee.maximumFee, fee.transferFeeBasisPoints)

def TransferFeeConfig.confidentialParameters (config : TransferFeeConfig) (epoch : UInt64) :
    UInt64 × UInt16 :=
  if config.newerTransferFee.epoch < epoch then config.olderTransferFee.parameters
  else config.newerTransferFee.parameters

def checkTransferWithFee (mint : ConfidentialTransferMint) (config : TransferFeeConfig)
    (epoch : UInt64) (proof : TransferWithFeeData) : Except Fault Unit := do
  failIf (proof.auditorPubkey ≠ mint.auditorPubkey) confidentialTransferElGamalPubkeyMismatch
  failIf (proof.withdrawWithheldAuthorityPubkey ≠ mint.withdrawWithheldAuthorityPubkey)
    confidentialTransferElGamalPubkeyMismatch
  let (maximumFee, transferFeeBasisPoints) := config.confidentialParameters epoch
  failIf (proof.maximumFee ≠ maximumFee ∨ proof.feeRateBasisPoints ≠ transferFeeBasisPoints)
    feeParametersMismatch

variable {mint : ConfidentialTransferMint} {config : TransferFeeConfig} {epoch : UInt64}
  {proof : TransferWithFeeData}

/-- A proof passes if and only if it carries the keys of the mint and the selected parameters. -/
theorem checkTransferWithFee_eq_ok :
    checkTransferWithFee mint config epoch proof = .ok () ↔
      proof.auditorPubkey = mint.auditorPubkey ∧
      proof.withdrawWithheldAuthorityPubkey = mint.withdrawWithheldAuthorityPubkey ∧
      (proof.maximumFee, proof.feeRateBasisPoints) = config.confidentialParameters epoch := by
  simp only [checkTransferWithFee, failIf_bind_eq_ok, failIf_eq_ok, not_or, not_not, ne_eq,
    Prod.ext_iff]

/-- The selections agree at the boundary, and on equal parameters. -/
theorem confidentialParameters_eq_iff :
    config.confidentialParameters epoch = (config.getEpochFee epoch).parameters ↔
      epoch = config.newerTransferFee.epoch ∨
        config.olderTransferFee.parameters = config.newerTransferFee.parameters := by
  unfold TransferFeeConfig.confidentialParameters TransferFeeConfig.getEpochFee
  by_cases hlt : config.newerTransferFee.epoch < epoch
  · rw [if_pos hlt, if_pos (UInt64.le_of_lt hlt)]
    simp [(UInt64.ne_of_lt hlt).symm]
  rw [if_neg hlt]
  by_cases hle : config.newerTransferFee.epoch ≤ epoch
  · rw [if_pos hle]
    simp [UInt64.le_antisymm (UInt64.not_lt.mp hlt) hle]
  · have hne : epoch ≠ config.newerTransferFee.epoch := fun heq => hle (heq ▸ UInt64.le_refl _)
    rw [if_neg hle, eq_comm]
    simp [hne]

/-- **The confidential and the plain fee.** The proofs that pass are those with the fee of the
epoch if and only if the newer fee begins in this epoch or does not differ from the older one. -/
theorem confidential_fee_iff (mint : ConfidentialTransferMint) (config : TransferFeeConfig)
    (epoch : UInt64) :
    (∀ proof, checkTransferWithFee mint config epoch proof = .ok () ↔
      proof.auditorPubkey = mint.auditorPubkey ∧
      proof.withdrawWithheldAuthorityPubkey = mint.withdrawWithheldAuthorityPubkey ∧
      (proof.maximumFee, proof.feeRateBasisPoints) = (config.getEpochFee epoch).parameters) ↔
    epoch = config.newerTransferFee.epoch ∨
      config.olderTransferFee.parameters = config.newerTransferFee.parameters := by
  rw [← confidentialParameters_eq_iff]
  constructor
  · intro h
    have hselected := (h ⟨mint.auditorPubkey, mint.withdrawWithheldAuthorityPubkey,
      (config.confidentialParameters epoch).1, (config.confidentialParameters epoch).2⟩).mp
      (checkTransferWithFee_eq_ok.mpr ⟨rfl, rfl, rfl⟩)
    exact hselected.2.2
  · intro h proof
    rw [checkTransferWithFee_eq_ok, h]

/-- In epoch six the fee of epoch five applies, and the confidential transfer asks for the fee
before it. -/
theorem confidential_fee_outdated : ¬ ∀ (mint : ConfidentialTransferMint)
    (config : TransferFeeConfig) (epoch : UInt64) (proof : TransferWithFeeData),
    checkTransferWithFee mint config epoch proof = .ok () →
      (proof.maximumFee, proof.feeRateBasisPoints) = (config.getEpochFee epoch).parameters := by
  intro h
  have hfee := h ⟨.replicate 0, 0, .zeroed _, .zeroed _, .zeroed _⟩
    ⟨⟨.replicate 0⟩, ⟨.replicate 0⟩, 0, ⟨0, 10, 100⟩, ⟨5, 20, 200⟩⟩ 6
    ⟨.zeroed _, .zeroed _, 10, 100⟩ (by decide)
  exact absurd hfee (by decide)

end SolanaPrograms.Token2022
