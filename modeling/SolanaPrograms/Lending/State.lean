import SolanaPrograms.Lending.Math

/-!
# Reserves and obligations

A reserve lends one token. Who deposits it gets collateral tokens for a share of the reserve, and an
obligation holds collateral of some reserves against what it borrows from others. The reserve and
each borrow keep a cumulative rate, from which the interest follows.
-/

namespace SolanaPrograms.Lending

open Outcome LendingError

/-! ## Addresses -/

/-- Addresses. -/
inductive Address
  | key (n : ℕ)
  /-- The address of 32 zero bytes, which is the one of the system program. -/
  | default
  /-- This program. -/
  | program
  | splToken
  | rent
  | clock
  /-- `create_program_address` for a lending market and a bump seed. -/
  | authority (lendingMarket : Address) (bumpSeed : UInt8)
deriving DecidableEq, Repr

/-! ## Last updates -/

structure LastUpdate where
  slot : UInt64
  stale : Bool
deriving DecidableEq

namespace LastUpdate

def new (slot : UInt64) : LastUpdate := ⟨slot, true⟩

def slotsElapsed (self : LastUpdate) (slot : UInt64) : Except Fault UInt64 :=
  checkedSub slot self.slot

def updateSlot (_ : LastUpdate) (slot : UInt64) : LastUpdate := ⟨slot, false⟩

def markStale (self : LastUpdate) : LastUpdate := { self with stale := true }

def isStale (self : LastUpdate) (slot : UInt64) : Except Fault Bool :=
  if self.stale then .ok true
  else do
    let elapsed ← self.slotsElapsed slot
    return decide (1 ≤ elapsed)

end LastUpdate

structure LendingMarket where
  version : UInt8
  bumpSeed : UInt8
  owner : Address
  quoteCurrency : List UInt8
  tokenProgramId : Address
  oracleProgramId : Address
deriving DecidableEq

/-! ## Fees -/

structure ReserveFees where
  borrowFeeWad : UInt64
  flashLoanFeeWad : UInt64
  hostFeePercentage : UInt8
deriving DecidableEq

inductive FeeCalculation
  /-- The fee is added to the amount. -/
  | exclusive
  /-- The fee is a part of the amount. -/
  | inclusive

namespace ReserveFees

/-- The rate by which an amount is multiplied, by who bears the fee. -/
def feeRate (borrowFeeRate : Rate) : FeeCalculation → Except Fault Rate
  | .exclusive => .ok borrowFeeRate
  | .inclusive => do
    let sum ← borrowFeeRate.tryAdd Rate.one
    borrowFeeRate.tryDiv sum

variable (self : ReserveFees)

/-- `calculate_fees`: the fee and the part of it that goes to the host. -/
def calculateFees (amount : Decimal) (feeWad : UInt64) (feeCalculation : FeeCalculation) :
    Except Fault (UInt64 × UInt64) :=
  let borrowFeeRate := Rate.fromScaledVal feeWad
  let hostFeeRate := Rate.fromPercent self.hostFeePercentage
  if Rate.zero < borrowFeeRate ∧ Decimal.zero < amount then do
    let minimumFee : UInt64 := if Rate.zero < hostFeeRate then 2 else 1
    let rate ← feeRate borrowFeeRate feeCalculation
    let borrowFeeAmount ← amount.tryMulRate rate
    let borrowFeeDecimal := max borrowFeeAmount (Decimal.ofU64 minimumFee)
    failIf (amount ≤ borrowFeeDecimal) borrowTooSmall
    let borrowFee ← borrowFeeDecimal.tryRoundU64
    if Rate.zero < hostFeeRate then do
      let hostFeeDecimal ← borrowFeeDecimal.tryMulRate hostFeeRate
      let hostFee ← hostFeeDecimal.tryRoundU64
      return (borrowFee, max hostFee 1)
    else return (borrowFee, 0)
  else .ok (0, 0)

def calculateBorrowFees (borrowAmount : Decimal) (feeCalculation : FeeCalculation) :
    Except Fault (UInt64 × UInt64) :=
  self.calculateFees borrowAmount self.borrowFeeWad feeCalculation

def calculateFlashLoanFees (flashLoanAmount : Decimal) : Except Fault (UInt64 × UInt64) :=
  self.calculateFees flashLoanAmount self.flashLoanFeeWad .exclusive

end ReserveFees

structure ReserveConfig where
  optimalUtilizationRate : UInt8
  loanToValueRatio : UInt8
  liquidationBonus : UInt8
  liquidationThreshold : UInt8
  minBorrowRate : UInt8
  optimalBorrowRate : UInt8
  maxBorrowRate : UInt8
  fees : ReserveFees
deriving DecidableEq

/-! ## The liquidity of a reserve -/

def slotsPerYear : UInt64 := 160 / 64 * 86400 * 365

structure ReserveLiquidity where
  mintPubkey : Address
  mintDecimals : UInt8
  supplyPubkey : Address
  feeReceiver : Address
  oraclePubkey : Address
  availableAmount : UInt64
  borrowedAmountWads : Decimal
  cumulativeBorrowRateWads : Decimal
  marketPrice : Decimal
deriving DecidableEq

namespace ReserveLiquidity

def new (mintPubkey : Address) (mintDecimals : UInt8)
    (supplyPubkey feeReceiver oraclePubkey : Address) (marketPrice : Decimal) :
    ReserveLiquidity where
  mintPubkey
  mintDecimals
  supplyPubkey
  feeReceiver
  oraclePubkey
  availableAmount := 0
  borrowedAmountWads := .zero
  cumulativeBorrowRateWads := .one
  marketPrice

variable (self : ReserveLiquidity)

def totalSupply : Except Fault Decimal :=
  (Decimal.ofU64 self.availableAmount).tryAdd self.borrowedAmountWads

variable (liquidityAmount : UInt64)

def deposit : Except Fault ReserveLiquidity := do
  let availableAmount ← checkedAdd self.availableAmount liquidityAmount
  return { self with availableAmount }

def withdraw : Except Fault ReserveLiquidity := do
  failIf (self.availableAmount < liquidityAmount) insufficientLiquidity
  let availableAmount ← checkedSub self.availableAmount liquidityAmount
  return { self with availableAmount }

def borrow (borrowDecimal : Decimal) : Except Fault ReserveLiquidity := do
  let borrowAmount ← borrowDecimal.tryFloorU64
  failIf (self.availableAmount < borrowAmount) insufficientLiquidity
  let availableAmount ← checkedSub self.availableAmount borrowAmount
  let borrowedAmountWads ← self.borrowedAmountWads.tryAdd borrowDecimal
  return { self with availableAmount, borrowedAmountWads }

def repay (repayAmount : UInt64) (settleAmount : Decimal) : Except Fault ReserveLiquidity := do
  let availableAmount ← checkedAdd self.availableAmount repayAmount
  let borrowedAmountWads ← self.borrowedAmountWads.trySub settleAmount
  return { self with availableAmount, borrowedAmountWads }

def utilizationRate : Except Fault Rate := do
  let totalSupply ← self.totalSupply
  if totalSupply = .zero then return Rate.zero
  else do
    let rate ← self.borrowedAmountWads.tryDiv totalSupply
    rate.toRate

def compoundInterest (currentBorrowRate : Rate) (slotsElapsed : UInt64) :
    Except Fault ReserveLiquidity := do
  let slotInterestRate ← currentBorrowRate.tryDivU64 slotsPerYear
  let base ← Rate.one.tryAdd slotInterestRate
  let compoundedInterestRate ← base.tryPow slotsElapsed
  let cumulativeBorrowRateWads ← self.cumulativeBorrowRateWads.tryMulRate compoundedInterestRate
  let borrowedAmountWads ← self.borrowedAmountWads.tryMulRate compoundedInterestRate
  return { self with cumulativeBorrowRateWads, borrowedAmountWads }

end ReserveLiquidity

/-! ## The collateral of a reserve -/

/-- `CollateralExchangeRate`: collateral tokens per token. -/
structure CollateralExchangeRate where
  rate : Rate
deriving DecidableEq

namespace CollateralExchangeRate

variable (self : CollateralExchangeRate)

def decimalCollateralToLiquidity (collateralAmount : Decimal) : Except Fault Decimal :=
  collateralAmount.tryDivRate self.rate

def collateralToLiquidity (collateralAmount : UInt64) : Except Fault UInt64 := do
  let liquidity ← self.decimalCollateralToLiquidity (.ofU64 collateralAmount)
  liquidity.tryFloorU64

def decimalLiquidityToCollateral (liquidityAmount : Decimal) : Except Fault Decimal :=
  liquidityAmount.tryMulRate self.rate

def liquidityToCollateral (liquidityAmount : UInt64) : Except Fault UInt64 := do
  let collateral ← self.decimalLiquidityToCollateral (.ofU64 liquidityAmount)
  collateral.tryFloorU64

end CollateralExchangeRate

structure ReserveCollateral where
  mintPubkey : Address
  mintTotalSupply : UInt64
  supplyPubkey : Address
deriving DecidableEq

def initialCollateralRate : UInt64 := 1000000000000000000

namespace ReserveCollateral

def new (mintPubkey supplyPubkey : Address) : ReserveCollateral := ⟨mintPubkey, 0, supplyPubkey⟩

variable (self : ReserveCollateral) (collateralAmount : UInt64)

def mint : Except Fault ReserveCollateral := do
  let mintTotalSupply ← checkedAdd self.mintTotalSupply collateralAmount
  return { self with mintTotalSupply }

def burn : Except Fault ReserveCollateral := do
  let mintTotalSupply ← checkedSub self.mintTotalSupply collateralAmount
  return { self with mintTotalSupply }

def exchangeRate (self : ReserveCollateral) (totalLiquidity : Decimal) :
    Except Fault CollateralExchangeRate :=
  if self.mintTotalSupply = 0 ∨ totalLiquidity = .zero then
    .ok ⟨Rate.fromScaledVal initialCollateralRate⟩
  else do
    let ratio ← (Decimal.ofU64 self.mintTotalSupply).tryDiv totalLiquidity
    let rate ← ratio.toRate
    return ⟨rate⟩

end ReserveCollateral

/-! ## Obligations -/

def maxObligationReserves : ℕ := 10

def liquidationCloseFactor : UInt8 := 50

def liquidationCloseAmount : UInt64 := 2

structure ObligationCollateral where
  depositReserve : Address
  depositedAmount : UInt64
  marketValue : Decimal
deriving DecidableEq

namespace ObligationCollateral

def new (depositReserve : Address) : ObligationCollateral := ⟨depositReserve, 0, .zero⟩

def deposit (self : ObligationCollateral) (collateralAmount : UInt64) :
    Except Fault ObligationCollateral := do
  let depositedAmount ← checkedAdd self.depositedAmount collateralAmount
  return { self with depositedAmount }

def withdraw (self : ObligationCollateral) (collateralAmount : UInt64) :
    Except Fault ObligationCollateral := do
  let depositedAmount ← checkedSub self.depositedAmount collateralAmount
  return { self with depositedAmount }

end ObligationCollateral

structure ObligationLiquidity where
  borrowReserve : Address
  cumulativeBorrowRateWads : Decimal
  borrowedAmountWads : Decimal
  marketValue : Decimal
deriving DecidableEq

namespace ObligationLiquidity

def new (borrowReserve : Address) : ObligationLiquidity := ⟨borrowReserve, .one, .zero, .zero⟩

def repay (self : ObligationLiquidity) (settleAmount : Decimal) :
    Except Fault ObligationLiquidity := do
  let borrowedAmountWads ← self.borrowedAmountWads.trySub settleAmount
  return { self with borrowedAmountWads }

def borrow (self : ObligationLiquidity) (borrowAmount : Decimal) :
    Except Fault ObligationLiquidity := do
  let borrowedAmountWads ← self.borrowedAmountWads.tryAdd borrowAmount
  return { self with borrowedAmountWads }

def accrueInterest (self : ObligationLiquidity) (cumulativeBorrowRateWads : Decimal) :
    Except Fault ObligationLiquidity :=
  match compare cumulativeBorrowRateWads self.cumulativeBorrowRateWads with
  | .lt => .error negativeInterestRate
  | .eq => .ok self
  | .gt => do
    let growth ← cumulativeBorrowRateWads.tryDiv self.cumulativeBorrowRateWads
    let compoundedInterestRate ← growth.toRate
    let borrowedAmountWads ← self.borrowedAmountWads.tryMulRate compoundedInterestRate
    return { self with borrowedAmountWads, cumulativeBorrowRateWads }

end ObligationLiquidity

structure Obligation where
  version : UInt8
  lastUpdate : LastUpdate
  lendingMarket : Address
  owner : Address
  deposits : List ObligationCollateral
  borrows : List ObligationLiquidity
  depositedValue : Decimal
  borrowedValue : Decimal
  allowedBorrowValue : Decimal
  unhealthyBorrowValue : Decimal
deriving DecidableEq

namespace Obligation

/-- `repay`: an entry that is settled leaves the list. -/
def repay (self : Obligation) (settleAmount : Decimal) (liquidityIndex : ℕ) :
    Except Fault Obligation :=
  match self.borrows[liquidityIndex]? with
  | none => .error .panic
  | some liquidity =>
    if settleAmount = liquidity.borrowedAmountWads then
      .ok { self with borrows := self.borrows.eraseIdx liquidityIndex }
    else do
      let liquidity ← liquidity.repay settleAmount
      return { self with borrows := self.borrows.set liquidityIndex liquidity }

/-- `withdraw`: an entry that is emptied leaves the list. -/
def withdraw (self : Obligation) (withdrawAmount : UInt64) (collateralIndex : ℕ) :
    Except Fault Obligation :=
  match self.deposits[collateralIndex]? with
  | none => .error .panic
  | some collateral =>
    if withdrawAmount = collateral.depositedAmount then
      .ok { self with deposits := self.deposits.eraseIdx collateralIndex }
    else do
      let collateral ← collateral.withdraw withdrawAmount
      return { self with deposits := self.deposits.set collateralIndex collateral }

variable (self : Obligation)

def maxWithdrawValue : Except Fault Decimal := do
  let weighted ← self.borrowedValue.tryMul self.depositedValue
  let requiredDepositValue ← weighted.tryDiv self.allowedBorrowValue
  if self.depositedValue ≤ requiredDepositValue then return .zero
  else self.depositedValue.trySub requiredDepositValue

def remainingBorrowValue : Except Fault Decimal :=
  self.allowedBorrowValue.trySub self.borrowedValue

def maxLiquidationAmount (liquidity : ObligationLiquidity) : Except Fault Decimal := do
  let closable ← self.borrowedValue.tryMulRate (Rate.fromPercent liquidationCloseFactor)
  let maxLiquidationPct ← (min closable liquidity.marketValue).tryDiv liquidity.marketValue
  liquidity.borrowedAmountWads.tryMul maxLiquidationPct

def findCollateralInDeposits (depositReserve : Address) :
    Except Fault (ObligationCollateral × ℕ) := do
  failIf (self.deposits = []) obligationDepositsEmpty
  let index ← okOr (self.deposits.findIdx? fun c => c.depositReserve = depositReserve)
    invalidObligationCollateral
  let collateral ← okOr self.deposits[index]? .panic
  return (collateral, index)

def findLiquidityInBorrows (borrowReserve : Address) : Except Fault (ObligationLiquidity × ℕ) := do
  failIf (self.borrows = []) obligationBorrowsEmpty
  let index ← okOr (self.borrows.findIdx? fun l => l.borrowReserve = borrowReserve)
    invalidObligationLiquidity
  let liquidity ← okOr self.borrows[index]? .panic
  return (liquidity, index)

def findOrAddCollateralToDeposits (depositReserve : Address) :
    Except Fault (List ObligationCollateral × ℕ) :=
  match self.deposits.findIdx? fun c => c.depositReserve = depositReserve with
  | some index => .ok (self.deposits, index)
  | none => do
    failIf (maxObligationReserves ≤ self.deposits.length + self.borrows.length)
      obligationReserveLimit
    return (self.deposits ++ [.new depositReserve], self.deposits.length)

def findOrAddLiquidityToBorrows (borrowReserve : Address) :
    Except Fault (List ObligationLiquidity × ℕ) :=
  match self.borrows.findIdx? fun l => l.borrowReserve = borrowReserve with
  | some index => .ok (self.borrows, index)
  | none => do
    failIf (maxObligationReserves ≤ self.deposits.length + self.borrows.length)
      obligationReserveLimit
    return (self.borrows ++ [.new borrowReserve], self.borrows.length)

end Obligation

/-! ## Reserves -/

structure Reserve where
  version : UInt8
  lastUpdate : LastUpdate
  lendingMarket : Address
  liquidity : ReserveLiquidity
  collateral : ReserveCollateral
  config : ReserveConfig
deriving DecidableEq

structure CalculateBorrowResult where
  borrowAmount : Decimal
  receiveAmount : UInt64
  borrowFee : UInt64
  hostFee : UInt64
deriving DecidableEq

structure CalculateRepayResult where
  settleAmount : Decimal
  repayAmount : UInt64
deriving DecidableEq

structure CalculateLiquidationResult where
  settleAmount : Decimal
  repayAmount : UInt64
  withdrawAmount : UInt64
deriving DecidableEq

/-- `u64::MAX`, which stands for as much as possible. -/
def u64Max : UInt64 := 18446744073709551615

namespace Reserve

variable (self : Reserve)

def collateralExchangeRate : Except Fault CollateralExchangeRate := do
  let totalLiquidity ← self.liquidity.totalSupply
  self.collateral.exchangeRate totalLiquidity

def depositLiquidity (liquidityAmount : UInt64) : Except Fault (Reserve × UInt64) := do
  let rate ← self.collateralExchangeRate
  let collateralAmount ← rate.liquidityToCollateral liquidityAmount
  let liquidity ← self.liquidity.deposit liquidityAmount
  let collateral ← self.collateral.mint collateralAmount
  return ({ self with liquidity, collateral }, collateralAmount)

/-- `redeem_collateral`: the reserve and the tokens to pay. -/
def redeemCollateral (collateralAmount : UInt64) : Except Fault (Reserve × UInt64) := do
  let collateralExchangeRate ← self.collateralExchangeRate
  let liquidityAmount ← collateralExchangeRate.collateralToLiquidity collateralAmount
  let collateral ← self.collateral.burn collateralAmount
  let liquidity ← self.liquidity.withdraw liquidityAmount
  return ({ self with liquidity, collateral }, liquidityAmount)

/-- The part of the way from one percentage to another, which must not be below it. -/
def rateBetween (normalizedRate : Rate) (low high : UInt8) : Except Fault Rate := do
  failIf (high < low) mathOverflow
  let part ← normalizedRate.tryMul (Rate.fromPercent (high - low))
  part.tryAdd (Rate.fromPercent low)

variable (self : Reserve)

def currentBorrowRate : Except Fault Rate := do
  let utilizationRate ← self.liquidity.utilizationRate
  let optimalUtilizationRate := Rate.fromPercent self.config.optimalUtilizationRate
  if utilizationRate < optimalUtilizationRate ∨ self.config.optimalUtilizationRate = 100 then do
    let normalizedRate ← utilizationRate.tryDiv optimalUtilizationRate
    rateBetween normalizedRate self.config.minBorrowRate self.config.optimalBorrowRate
  else do
    let excess ← utilizationRate.trySub optimalUtilizationRate
    failIf (100 < self.config.optimalUtilizationRate) mathOverflow
    let normalizedRate ←
      excess.tryDiv (Rate.fromPercent (100 - self.config.optimalUtilizationRate))
    rateBetween normalizedRate self.config.optimalBorrowRate self.config.maxBorrowRate

def accrueInterest (currentSlot : UInt64) : Except Fault Reserve := do
  let slotsElapsed ← self.lastUpdate.slotsElapsed currentSlot
  if 0 < slotsElapsed then do
    let currentBorrowRate ← self.currentBorrowRate
    let liquidity ← self.liquidity.compoundInterest currentBorrowRate slotsElapsed
    return { self with liquidity }
  else return self

def calculateBorrow (amountToBorrow : UInt64) (maxBorrowValue : Decimal) :
    Except Fault CalculateBorrowResult := do
  let decimals ← tenPow self.liquidity.mintDecimals.toNat
  if amountToBorrow = u64Max then do
    let scaled ← maxBorrowValue.tryMulU64 decimals
    let affordable ← scaled.tryDiv self.liquidity.marketPrice
    let borrowAmount := min affordable (.ofU64 self.liquidity.availableAmount)
    let (borrowFee, hostFee) ← self.config.fees.calculateBorrowFees borrowAmount .inclusive
    let whole ← borrowAmount.tryFloorU64
    let receiveAmount ← checkedSub whole borrowFee
    return { borrowAmount, receiveAmount, borrowFee, hostFee }
  else do
    let receiveAmount := amountToBorrow
    let (borrowFee, hostFee) ←
      self.config.fees.calculateBorrowFees (.ofU64 receiveAmount) .exclusive
    let borrowAmount ← (Decimal.ofU64 receiveAmount).tryAdd (.ofU64 borrowFee)
    let product ← borrowAmount.tryMul self.liquidity.marketPrice
    let borrowValue ← product.tryDivU64 decimals
    failIf (maxBorrowValue < borrowValue) borrowTooLarge
    return { borrowAmount, receiveAmount, borrowFee, hostFee }

/-- The market value of deposited collateral, as `process_refresh_obligation` computes it. -/
def collateralValue (depositedAmount : UInt64) : Except Fault Decimal := do
  let decimals ← tenPow self.liquidity.mintDecimals.toNat
  let rate ← self.collateralExchangeRate
  let liquidity ← rate.decimalCollateralToLiquidity (.ofU64 depositedAmount)
  let product ← liquidity.tryMul self.liquidity.marketPrice
  product.tryDivU64 decimals

def liquidityValue (borrowedAmountWads : Decimal) : Except Fault Decimal := do
  let decimals ← tenPow self.liquidity.mintDecimals.toNat
  let product ← borrowedAmountWads.tryMul self.liquidity.marketPrice
  product.tryDivU64 decimals

/-- The most that a repayment or a liquidation of an amount can settle. -/
def maxSettled (amount : UInt64) (borrowedAmount : Decimal) : Decimal :=
  if amount = u64Max then borrowedAmount else min (.ofU64 amount) borrowedAmount

def calculateRepay (amountToRepay : UInt64) (borrowedAmount : Decimal) :
    Except Fault CalculateRepayResult := do
  let settleAmount := maxSettled amountToRepay borrowedAmount
  let repayAmount ← settleAmount.tryCeilU64
  return { settleAmount, repayAmount }

/-- The branch of `calculate_liquidation` that closes out borrows too small to liquidate normally:
the settled amount is fixed. -/
def closeOut (maxAmount bonusValue : Decimal) (liquidity : ObligationLiquidity)
    (collateral : ObligationCollateral) : Except Fault CalculateLiquidationResult := do
  let settleAmount := liquidity.borrowedAmountWads
  match compare bonusValue collateral.marketValue with
  | .gt => do
    let repayPct ← collateral.marketValue.tryDiv bonusValue
    let repaid ← maxAmount.tryMul repayPct
    let repayAmount ← repaid.tryCeilU64
    return { settleAmount, repayAmount, withdrawAmount := collateral.depositedAmount }
  | .eq => do
    let repayAmount ← maxAmount.tryCeilU64
    return { settleAmount, repayAmount, withdrawAmount := collateral.depositedAmount }
  | .lt => do
    let withdrawPct ← bonusValue.tryDiv collateral.marketValue
    let repayAmount ← maxAmount.tryFloorU64
    let part ← (Decimal.ofU64 collateral.depositedAmount).tryMul withdrawPct
    let withdrawAmount ← part.tryFloorU64
    return { settleAmount, repayAmount, withdrawAmount }

/-- The branch of `calculate_liquidation` for the other borrows. -/
def liquidatePart (liquidationAmount liquidationValue : Decimal)
    (collateral : ObligationCollateral) : Except Fault CalculateLiquidationResult :=
  match compare liquidationValue collateral.marketValue with
  | .gt => do
    let repayPct ← collateral.marketValue.tryDiv liquidationValue
    let settleAmount ← liquidationAmount.tryMul repayPct
    let repayAmount ← settleAmount.tryCeilU64
    return { settleAmount, repayAmount, withdrawAmount := collateral.depositedAmount }
  | .eq => do
    let settleAmount := liquidationAmount
    let repayAmount ← settleAmount.tryCeilU64
    return { settleAmount, repayAmount, withdrawAmount := collateral.depositedAmount }
  | .lt => do
    let withdrawPct ← liquidationValue.tryDiv collateral.marketValue
    let settleAmount := liquidationAmount
    let repayAmount ← settleAmount.tryFloorU64
    let part ← (Decimal.ofU64 collateral.depositedAmount).tryMul withdrawPct
    let withdrawAmount ← part.tryFloorU64
    return { settleAmount, repayAmount, withdrawAmount }

def calculateLiquidation (self : Reserve) (amountToLiquidate : UInt64) (obligation : Obligation)
    (liquidity : ObligationLiquidity) (collateral : ObligationCollateral) :
    Except Fault CalculateLiquidationResult := do
  let bonusRate ← (Rate.fromPercent self.config.liquidationBonus).tryAdd Rate.one
  let maxAmount := maxSettled amountToLiquidate liquidity.borrowedAmountWads
  if liquidity.borrowedAmountWads < .ofU64 liquidationCloseAmount then do
    let liquidationValue ← liquidity.marketValue.tryMulRate bonusRate
    closeOut maxAmount liquidationValue liquidity collateral
  else do
    let largest ← obligation.maxLiquidationAmount liquidity
    let liquidationAmount := min largest maxAmount
    let liquidationPct ← liquidationAmount.tryDiv liquidity.borrowedAmountWads
    let value ← liquidity.marketValue.tryMul liquidationPct
    let liquidationValue ← value.tryMulRate bonusRate
    liquidatePart liquidationAmount liquidationValue collateral

end Reserve

end SolanaPrograms.Lending
