import SolanaPrograms.Lending.World

/-!
# The handlers

One definition for each handler of the processor, in the order of its checks. The checks that most
handlers make in the same way, of the market, its authority, a reserve or an obligation, are
definitions of their own.

What the receiver of a flash loan does is a list of events outside this program: it cannot call
back.
-/

namespace SolanaPrograms.Lending

open Outcome LendingError

/-! ## Events outside the program -/

/-- What others do. -/
inductive Outside
  /-- An instruction of the token program that no market signs. -/
  | token (instruction : Tokens.Instruction Address)
  /-- The decimals of a mint that is not yet there. -/
  | decimals (mint : Address) (decimals : UInt8)
  /-- A new account of this program. -/
  | allocate (account : Address) (kind : Kind)
  /-- Another program writes an account of its own. -/
  | write (account : Address) (new : Account)

/-- One of them, if it succeeds. -/
def World.outside (w : World) : Outside → Except Fault World
  | .token instruction =>
    w.callToken .splToken (fun b => Tokens.exec Address.canSign Address.canSign b instruction)
      .tokenTransferFailed
  | .decimals mint decimals => do
    failIf (w.tokens mint ≠ .free) .rejected
    return { w with decimals := Function.update w.decimals mint decimals }
  | .allocate account kind => do
    failIf (w.IsOwn account) .rejected
    return { w with accounts := Function.update w.accounts account ⟨.program, .zeroed kind⟩ }
  | .write account new => do
    failIf (w.IsOwn account ∨ new.owner = .program) .rejected
    return { w with accounts := Function.update w.accounts account new }

/-- Several of them, all of which succeed. -/
def World.outsides (w : World) : List Outside → Except Fault World
  | [] => .ok w
  | o :: os => do
    let w ← w.outside o
    w.outsides os

section Handlers

variable (env : Environment) (w : World)

/-! ## Checks that handlers share -/

def checkClock (clock : AccountMeta) : Except Fault Unit :=
  failIf (clock.key ≠ .clock) .invalidArgument

def checkRent (rent : AccountMeta) : Except Fault Unit :=
  failIf (rent.key ≠ .rent) .invalidArgument

def assertRentExempt (k : Address) : Except Fault Unit :=
  failIf (env.rentExempt k = false) notRentExempt

def marketOf (lendingMarket tokenProgram : AccountMeta) : Except Fault LendingMarket := do
  let market ← w.readMarket lendingMarket.key
  w.checkOwner lendingMarket.key
  failIf (market.tokenProgramId ≠ tokenProgram.key) invalidTokenProgram
  return market

def checkMarketOwner (market : LendingMarket) (owner : AccountMeta) : Except Fault Unit := do
  failIf (market.owner ≠ owner.key) invalidMarketOwner
  failIf (owner.isSigner = false) invalidSigner

/-- `create_program_address` for the market, compared with the listed account. -/
def checkAuthority (lendingMarket authority : AccountMeta) (bumpSeed : UInt8) :
    Except Fault Unit := do
  failIf (env.validBump lendingMarket.key bumpSeed = false) .invalidSeeds
  failIf (authority.key ≠ .authority lendingMarket.key bumpSeed) invalidMarketAuthority

def reserveOf (reserve lendingMarket : AccountMeta) : Except Fault Reserve := do
  let r ← w.readReserve reserve.key
  w.checkOwner reserve.key
  failIf (r.lendingMarket ≠ lendingMarket.key) invalidAccountInput
  return r

def obligationOf (obligation lendingMarket : AccountMeta) : Except Fault Obligation := do
  let o ← w.readObligation obligation.key
  w.checkOwner obligation.key
  failIf (o.lendingMarket ≠ lendingMarket.key) invalidAccountInput
  return o

def checkObligationOwner (o : Obligation) (owner : AccountMeta) : Except Fault Unit := do
  failIf (o.owner ≠ owner.key) invalidObligationOwner
  failIf (owner.isSigner = false) invalidSigner

def checkReserveFresh (r : Reserve) : Except Fault Unit := do
  let stale ← r.lastUpdate.isStale w.slot
  failIf (stale = true) reserveStale

def checkObligationFresh (o : Obligation) : Except Fault Unit := do
  let stale ← o.lastUpdate.isStale w.slot
  failIf (stale = true) obligationStale

/-- An address that must, or must not, be the listed one. -/
def checkInput (wrong : Prop) [Decidable wrong] : Except Fault Unit :=
  failIf wrong invalidAccountInput

/-! ## Markets -/

def processInitLendingMarket (owner : Address) (quoteCurrency : List UInt8)
    (accounts : List AccountMeta) : Except Fault World :=
  match accounts with
  | lendingMarket :: rent :: tokenProgram :: oracleProgram :: _ => do
    checkRent rent
    assertRentExempt env lendingMarket.key
    w.assertUninitialized .market lendingMarket.key
    w.checkOwner lendingMarket.key
    w.writeMarket lendingMarket.key
      { version := 1
        bumpSeed := env.findBump lendingMarket.key
        owner
        quoteCurrency
        tokenProgramId := tokenProgram.key
        oracleProgramId := oracleProgram.key }
  | _ => .error .notEnoughAccountKeys

def processSetLendingMarketOwner (newOwner : Address) (accounts : List AccountMeta) :
    Except Fault World :=
  match accounts with
  | lendingMarket :: lendingMarketOwner :: _ => do
    let market ← w.readMarket lendingMarket.key
    w.checkOwner lendingMarket.key
    checkMarketOwner market lendingMarketOwner
    w.writeMarket lendingMarket.key { market with owner := newOwner }
  | _ => .error .notEnoughAccountKeys

/-! ## Reserves -/

/-- The checks of a configuration, the same for both kinds of reserves. -/
def checkConfig (config : ReserveConfig) : Except Fault Unit := do
  failIf (100 < config.optimalUtilizationRate) invalidConfig
  failIf (100 ≤ config.loanToValueRatio) invalidConfig
  failIf (100 < config.liquidationBonus) invalidConfig
  failIf (config.liquidationThreshold ≤ config.loanToValueRatio ∨
    100 < config.liquidationThreshold) invalidConfig
  failIf (config.optimalBorrowRate < config.minBorrowRate) invalidConfig
  failIf (config.maxBorrowRate < config.optimalBorrowRate) invalidConfig
  failIf (wad ≤ config.fees.borrowFeeWad.toNat) invalidConfig
  failIf (wad ≤ config.fees.flashLoanFeeWad.toNat) invalidConfig
  failIf (100 < config.fees.hostFeePercentage) invalidConfig

def checkOracle (market : LendingMarket) (product price : Address) : Except Fault Unit := do
  failIf (market.oracleProgramId ≠ (w.accounts product).owner) invalidOracleConfig
  failIf (market.oracleProgramId ≠ (w.accounts price).owner) invalidOracleConfig
  match (w.accounts product).content with
  | .product p => do
    failIf (p.magic ≠ 0xa1b2c3d4) invalidOracleConfig
    failIf (p.ver ≠ 2) invalidOracleConfig
    failIf (p.atype ≠ 2) invalidOracleConfig
    failIf (p.pxAcc ≠ price) invalidOracleConfig
    let quoteCurrency ← getPythProductQuoteCurrency p
    failIf (market.quoteCurrency ≠ quoteCurrency) invalidOracleConfig
  | _ => .error .invalidAccountData

structure ReserveAccounts where
  destinationCollateral : Address
  reserve : Address
  liquidityMint : Address
  liquiditySupply : Address
  liquidityFeeReceiver : Address
  collateralMint : Address
  collateralSupply : Address
  oracle : Address
  lendingMarket : Address
  lendingMarketAuthority : Address
  userTransferAuthority : Address
  tokenProgram : Address

variable (a : ReserveAccounts)

def newReserve (marketPrice : Decimal) (config : ReserveConfig) : Reserve where
  version := 1
  lastUpdate := .new w.slot
  lendingMarket := a.lendingMarket
  liquidity := .new a.liquidityMint (w.decimals a.liquidityMint) a.liquiditySupply
    a.liquidityFeeReceiver a.oracle marketPrice
  collateral := .new a.collateralMint a.collateralSupply
  config

def checkMint : Except Fault Unit := do
  failIf (w.tokens.mint? a.liquidityMint = none) invalidTokenMint
  failIf (a.tokenProgram ≠ .splToken) invalidTokenOwner

def initReserveTokens : Except Fault World := do
  let w ← w.splTokenInitAccount a.tokenProgram a.liquiditySupply a.liquidityMint
    a.lendingMarketAuthority
  let w ← w.splTokenInitAccount a.tokenProgram a.liquidityFeeReceiver a.liquidityMint
    a.lendingMarketAuthority
  let w ← w.splTokenInitMint a.tokenProgram a.collateralMint a.lendingMarketAuthority
    (w.decimals a.liquidityMint)
  let w ← w.splTokenInitAccount a.tokenProgram a.collateralSupply a.collateralMint
    a.lendingMarketAuthority
  w.splTokenInitAccount a.tokenProgram a.destinationCollateral a.collateralMint
    a.userTransferAuthority

def processInitReserve (liquidityAmount : UInt64) (config : ReserveConfig)
    (accounts : List AccountMeta) : Except Fault World := do
  failIf (liquidityAmount = 0) invalidAmount
  checkConfig config
  match accounts with
  | sourceLiquidity :: destinationCollateral :: reserve :: reserveLiquidityMint ::
      reserveLiquiditySupply :: reserveLiquidityFeeReceiver :: reserveCollateralMint ::
      reserveCollateralSupply :: pythProduct :: pythPrice :: lendingMarket ::
      lendingMarketAuthority :: lendingMarketOwner :: userTransferAuthority :: clock :: rent ::
      tokenProgram :: _ => do
    checkClock clock
    checkRent rent
    assertRentExempt env reserve.key
    w.assertUninitialized .reserve reserve.key
    w.checkOwner reserve.key
    checkInput (reserveLiquiditySupply.key = sourceLiquidity.key)
    let market ← marketOf w lendingMarket tokenProgram
    checkMarketOwner market lendingMarketOwner
    checkOracle w market pythProduct.key pythPrice.key
    let marketPrice ← w.getPythPrice pythPrice.key
    checkAuthority env lendingMarket lendingMarketAuthority market.bumpSeed
    let a : ReserveAccounts := ⟨destinationCollateral.key, reserve.key, reserveLiquidityMint.key,
      reserveLiquiditySupply.key, reserveLiquidityFeeReceiver.key, reserveCollateralMint.key,
      reserveCollateralSupply.key, pythPrice.key, lendingMarket.key, lendingMarketAuthority.key,
      userTransferAuthority.key, tokenProgram.key⟩
    checkMint w a
    let (r, collateralAmount) ← (newReserve w a marketPrice config).depositLiquidity liquidityAmount
    let w ← w.writeReserve reserve.key r
    let w ← initReserveTokens w a
    let w ← w.splTokenTransfer tokenProgram.key sourceLiquidity.key reserveLiquiditySupply.key
      userTransferAuthority none liquidityAmount
    w.splTokenMintTo tokenProgram.key reserveCollateralMint.key destinationCollateral.key
      lendingMarketAuthority (some (lendingMarket.key, market.bumpSeed)) collateralAmount
  | _ => .error .notEnoughAccountKeys

def processInitNftReserve (config : ReserveConfig) (accounts : List AccountMeta) :
    Except Fault World := do
  checkConfig config
  match accounts with
  | destinationCollateral :: reserve :: reserveLiquidityMint :: reserveLiquiditySupply ::
      reserveLiquidityFeeReceiver :: reserveCollateralMint :: reserveCollateralSupply ::
      oraclePrice :: lendingMarket :: lendingMarketAuthority :: lendingMarketOwner ::
      userTransferAuthority :: clock :: rent :: tokenProgram :: _ => do
    checkClock clock
    checkRent rent
    assertRentExempt env reserve.key
    w.assertUninitialized .reserve reserve.key
    w.checkOwner reserve.key
    let market ← marketOf w lendingMarket tokenProgram
    checkMarketOwner market lendingMarketOwner
    let marketPrice ← w.getPrice lendingMarket.key oraclePrice.key
    checkAuthority env lendingMarket lendingMarketAuthority market.bumpSeed
    let a : ReserveAccounts := ⟨destinationCollateral.key, reserve.key, reserveLiquidityMint.key,
      reserveLiquiditySupply.key, reserveLiquidityFeeReceiver.key, reserveCollateralMint.key,
      reserveCollateralSupply.key, oraclePrice.key, lendingMarket.key, lendingMarketAuthority.key,
      userTransferAuthority.key, tokenProgram.key⟩
    checkMint w a
    let w ← w.writeReserve reserve.key (newReserve w a marketPrice config)
    initReserveTokens w a
  | _ => .error .notEnoughAccountKeys

def processRefreshReserve (accounts : List AccountMeta) : Except Fault World :=
  match accounts with
  | reserve :: reserveLiquidityOracle :: lendingMarket :: clock :: _ => do
    checkClock clock
    let r ← w.readReserve reserve.key
    w.checkOwner reserve.key
    checkInput (r.liquidity.oraclePubkey ≠ reserveLiquidityOracle.key)
    let marketPrice ← w.getPrice lendingMarket.key reserveLiquidityOracle.key
    let r ← { r with liquidity := { r.liquidity with marketPrice } }.accrueInterest w.slot
    w.writeReserve reserve.key { r with lastUpdate := r.lastUpdate.updateSlot w.slot }
  | _ => .error .notEnoughAccountKeys

def processDepositReserveLiquidity (liquidityAmount : UInt64) (accounts : List AccountMeta) :
    Except Fault World := do
  failIf (liquidityAmount = 0) invalidAmount
  match accounts with
  | sourceLiquidity :: destinationCollateral :: reserve :: reserveLiquiditySupply ::
      reserveCollateralMint :: lendingMarket :: lendingMarketAuthority :: userTransferAuthority ::
      clock :: tokenProgram :: _ => do
    checkClock clock
    let market ← marketOf w lendingMarket tokenProgram
    let r ← reserveOf w reserve lendingMarket
    checkInput (r.liquidity.supplyPubkey ≠ reserveLiquiditySupply.key)
    checkInput (r.collateral.mintPubkey ≠ reserveCollateralMint.key)
    checkInput (r.liquidity.supplyPubkey = sourceLiquidity.key)
    checkInput (r.collateral.supplyPubkey = destinationCollateral.key)
    checkReserveFresh w r
    checkAuthority env lendingMarket lendingMarketAuthority market.bumpSeed
    let (r, collateralAmount) ← r.depositLiquidity liquidityAmount
    let w ← w.writeReserve reserve.key { r with lastUpdate := r.lastUpdate.markStale }
    let w ← w.splTokenTransfer tokenProgram.key sourceLiquidity.key reserveLiquiditySupply.key
      userTransferAuthority none liquidityAmount
    w.splTokenMintTo tokenProgram.key reserveCollateralMint.key destinationCollateral.key
      lendingMarketAuthority (some (lendingMarket.key, market.bumpSeed)) collateralAmount
  | _ => .error .notEnoughAccountKeys

def processRedeemReserveCollateral (collateralAmount : UInt64) (accounts : List AccountMeta) :
    Except Fault World := do
  failIf (collateralAmount = 0) invalidAmount
  match accounts with
  | sourceCollateral :: destinationLiquidity :: reserve :: reserveCollateralMint ::
      reserveLiquiditySupply :: lendingMarket :: lendingMarketAuthority :: userTransferAuthority ::
      clock :: tokenProgram :: _ => do
    checkClock clock
    let market ← marketOf w lendingMarket tokenProgram
    let r ← reserveOf w reserve lendingMarket
    checkInput (r.collateral.mintPubkey ≠ reserveCollateralMint.key)
    checkInput (r.collateral.supplyPubkey = sourceCollateral.key)
    checkInput (r.liquidity.supplyPubkey ≠ reserveLiquiditySupply.key)
    checkInput (r.liquidity.supplyPubkey = destinationLiquidity.key)
    checkReserveFresh w r
    checkAuthority env lendingMarket lendingMarketAuthority market.bumpSeed
    let (r, liquidityAmount) ← r.redeemCollateral collateralAmount
    let w ← w.writeReserve reserve.key { r with lastUpdate := r.lastUpdate.markStale }
    let w ← w.splTokenBurn tokenProgram.key sourceCollateral.key reserveCollateralMint.key
      userTransferAuthority none collateralAmount
    w.splTokenTransfer tokenProgram.key reserveLiquiditySupply.key destinationLiquidity.key
      lendingMarketAuthority (some (lendingMarket.key, market.bumpSeed)) liquidityAmount
  | _ => .error .notEnoughAccountKeys

/-! ## Obligations -/

def processInitObligation (accounts : List AccountMeta) : Except Fault World :=
  match accounts with
  | obligation :: lendingMarket :: obligationOwner :: clock :: rent :: tokenProgram :: _ => do
    checkClock clock
    checkRent rent
    assertRentExempt env obligation.key
    w.assertUninitialized .obligation obligation.key
    w.checkOwner obligation.key
    let _ ← marketOf w lendingMarket tokenProgram
    failIf (obligationOwner.isSigner = false) invalidSigner
    w.writeObligation obligation.key
      { version := 1
        lastUpdate := .new w.slot
        lendingMarket := lendingMarket.key
        owner := obligationOwner.key
        deposits := []
        borrows := []
        depositedValue := .zero
        borrowedValue := .zero
        allowedBorrowValue := .zero
        unhealthyBorrowValue := .zero }
  | _ => .error .notEnoughAccountKeys

/-- The sums of `process_refresh_obligation` over the deposits. -/
structure DepositTotals where
  depositedValue : Decimal
  allowedBorrowValue : Decimal
  unhealthyBorrowValue : Decimal
deriving DecidableEq

/-- A reserve listed for an entry of an obligation, refreshed in this slot. -/
def entryReserve (entry : Address) (info : AccountMeta) : Except Fault Reserve := do
  w.checkOwner info.key
  checkInput (entry ≠ info.key)
  let r ← w.readReserve info.key
  checkReserveFresh w r
  return r

/-- One round of the loop over the deposits. -/
def refreshDeposit (collateral : ObligationCollateral) (info : AccountMeta)
    (totals : DepositTotals) : Except Fault (ObligationCollateral × DepositTotals) := do
  let r ← entryReserve w collateral.depositReserve info
  let marketValue ← r.collateralValue collateral.depositedAmount
  let depositedValue ← totals.depositedValue.tryAdd marketValue
  let allowed ← marketValue.tryMulRate (.fromPercent r.config.loanToValueRatio)
  let allowedBorrowValue ← totals.allowedBorrowValue.tryAdd allowed
  let unhealthy ← marketValue.tryMulRate (.fromPercent r.config.liquidationThreshold)
  let unhealthyBorrowValue ← totals.unhealthyBorrowValue.tryAdd unhealthy
  return ({ collateral with marketValue }, ⟨depositedValue, allowedBorrowValue,
    unhealthyBorrowValue⟩)

/-- The loop over the deposits: their new entries, the accounts that are left and the sums. -/
def refreshDeposits : List ObligationCollateral → List AccountMeta → DepositTotals →
    Except Fault (List ObligationCollateral × List AccountMeta × DepositTotals)
  | [], it, totals => .ok ([], it, totals)
  | _ :: _, [], _ => .error .notEnoughAccountKeys
  | collateral :: rest, info :: it, totals => do
    let (collateral, totals) ← refreshDeposit w collateral info totals
    let (rest, it, totals) ← refreshDeposits rest it totals
    .ok (collateral :: rest, it, totals)

/-- One round of the loop over the borrows. -/
def refreshBorrow (liquidity : ObligationLiquidity) (info : AccountMeta) (borrowedValue : Decimal) :
    Except Fault (ObligationLiquidity × Decimal) := do
  let r ← entryReserve w liquidity.borrowReserve info
  let liquidity ← liquidity.accrueInterest r.liquidity.cumulativeBorrowRateWads
  let marketValue ← r.liquidityValue liquidity.borrowedAmountWads
  let borrowedValue ← borrowedValue.tryAdd marketValue
  return ({ liquidity with marketValue }, borrowedValue)

/-- The loop over the borrows: their new entries, the accounts that are left and the sum. -/
def refreshBorrows : List ObligationLiquidity → List AccountMeta → Decimal →
    Except Fault (List ObligationLiquidity × List AccountMeta × Decimal)
  | [], it, borrowedValue => .ok ([], it, borrowedValue)
  | _ :: _, [], _ => .error .notEnoughAccountKeys
  | liquidity :: rest, info :: it, borrowedValue => do
    let (liquidity, borrowedValue) ← refreshBorrow w liquidity info borrowedValue
    let (rest, it, borrowedValue) ← refreshBorrows rest it borrowedValue
    .ok (liquidity :: rest, it, borrowedValue)

def refreshedObligation (o : Obligation) (it : List AccountMeta) : Except Fault Obligation := do
  let (deposits, it, totals) ← refreshDeposits w o.deposits it ⟨.zero, .zero, .zero⟩
  let (borrows, it, borrowedValue) ← refreshBorrows w o.borrows it .zero
  checkInput (it ≠ [])
  return { o with
    deposits
    borrows
    depositedValue := totals.depositedValue
    borrowedValue
    allowedBorrowValue := totals.allowedBorrowValue
    unhealthyBorrowValue := totals.unhealthyBorrowValue
    lastUpdate := o.lastUpdate.updateSlot w.slot }

def processRefreshObligation (accounts : List AccountMeta) : Except Fault World :=
  match accounts with
  | obligation :: clock :: it => do
    checkClock clock
    let o ← w.readObligation obligation.key
    w.checkOwner obligation.key
    let o ← refreshedObligation w o it
    w.writeObligation obligation.key o
  | _ => .error .notEnoughAccountKeys

def processDepositObligationCollateral (collateralAmount : UInt64) (accounts : List AccountMeta) :
    Except Fault World := do
  failIf (collateralAmount = 0) invalidAmount
  match accounts with
  | sourceCollateral :: destinationCollateral :: depositReserve :: obligation :: lendingMarket ::
      obligationOwner :: userTransferAuthority :: clock :: tokenProgram :: _ => do
    checkClock clock
    let _ ← marketOf w lendingMarket tokenProgram
    let r ← reserveOf w depositReserve lendingMarket
    checkInput (r.collateral.supplyPubkey = sourceCollateral.key)
    checkInput (r.collateral.supplyPubkey ≠ destinationCollateral.key)
    checkReserveFresh w r
    failIf (r.config.loanToValueRatio = 0) reserveCollateralDisabled
    let o ← obligationOf w obligation lendingMarket
    checkObligationOwner o obligationOwner
    let (deposits, index) ← o.findOrAddCollateralToDeposits depositReserve.key
    let collateral ← okOr deposits[index]? .panic
    let collateral ← collateral.deposit collateralAmount
    let w ← w.writeObligation obligation.key
      { o with deposits := deposits.set index collateral, lastUpdate := o.lastUpdate.markStale }
    w.splTokenTransfer tokenProgram.key sourceCollateral.key destinationCollateral.key
      userTransferAuthority none collateralAmount
  | _ => .error .notEnoughAccountKeys

/-- The amount a withdrawal takes from an entry of an obligation with borrows, by the value that may
be withdrawn. -/
def limitedWithdrawAmount (maxWithdrawValue : Decimal) (collateral : ObligationCollateral)
    (collateralAmount : UInt64) : Except Fault UInt64 :=
  if collateralAmount = u64Max then do
    let withdrawPct ← (min maxWithdrawValue collateral.marketValue).tryDiv collateral.marketValue
    let part ← withdrawPct.tryMulU64 collateral.depositedAmount
    let whole ← part.tryFloorU64
    return min whole collateral.depositedAmount
  else do
    let withdrawAmount := min collateralAmount collateral.depositedAmount
    let withdrawPct ← (Decimal.ofU64 withdrawAmount).tryDivU64 collateral.depositedAmount
    let withdrawValue ← collateral.marketValue.tryMul withdrawPct
    failIf (maxWithdrawValue < withdrawValue) withdrawTooLarge
    return withdrawAmount

def withdrawAmount (o : Obligation) (collateral : ObligationCollateral)
    (collateralAmount : UInt64) : Except Fault UInt64 :=
  if o.borrows = [] then
    .ok (if collateralAmount = u64Max then collateral.depositedAmount
      else min collateral.depositedAmount collateralAmount)
  else if o.depositedValue = .zero then .error obligationDepositsZero
  else do
    let maxWithdrawValue ← o.maxWithdrawValue
    failIf (maxWithdrawValue = .zero) withdrawTooLarge
    let amount ← limitedWithdrawAmount maxWithdrawValue collateral collateralAmount
    failIf (amount = 0) withdrawTooSmall
    return amount

def processWithdrawObligationCollateral (collateralAmount : UInt64) (accounts : List AccountMeta) :
    Except Fault World := do
  failIf (collateralAmount = 0) invalidAmount
  match accounts with
  | sourceCollateral :: destinationCollateral :: withdrawReserve :: obligation :: lendingMarket ::
      lendingMarketAuthority :: obligationOwner :: clock :: tokenProgram :: _ => do
    checkClock clock
    let market ← marketOf w lendingMarket tokenProgram
    let r ← reserveOf w withdrawReserve lendingMarket
    checkInput (r.collateral.supplyPubkey ≠ sourceCollateral.key)
    checkInput (r.collateral.supplyPubkey = destinationCollateral.key)
    checkReserveFresh w r
    let o ← obligationOf w obligation lendingMarket
    checkObligationOwner o obligationOwner
    checkObligationFresh w o
    let (collateral, index) ← o.findCollateralInDeposits withdrawReserve.key
    failIf (collateral.depositedAmount = 0) obligationCollateralEmpty
    checkAuthority env lendingMarket lendingMarketAuthority market.bumpSeed
    let amount ← withdrawAmount o collateral collateralAmount
    let o ← o.withdraw amount index
    let w ← w.writeObligation obligation.key { o with lastUpdate := o.lastUpdate.markStale }
    w.splTokenTransfer tokenProgram.key sourceCollateral.key destinationCollateral.key
      lendingMarketAuthority (some (lendingMarket.key, market.bumpSeed)) amount
  | _ => .error .notEnoughAccountKeys

def payHostFee (tokenProgram source : Address) (host : Option AccountMeta) (authority : AccountMeta)
    (seeds : Option (Address × UInt8)) (fee hostFee : UInt64) : Except Fault (World × UInt64) :=
  match host with
  | none => .ok (w, fee)
  | some host =>
    if 0 < hostFee then do
      let ownerFee ← checkedSub fee hostFee
      let w ← w.splTokenTransfer tokenProgram source host.key authority seeds hostFee
      return (w, ownerFee)
    else .ok (w, fee)

def payOwnerFee (tokenProgram source receiver : Address) (authority : AccountMeta)
    (seeds : Option (Address × UInt8)) (ownerFee : UInt64) : Except Fault World :=
  if 0 < ownerFee then w.splTokenTransfer tokenProgram source receiver authority seeds ownerFee
  else .ok w

def borrowed (o : Obligation) (reserve : Address) (borrowAmount : Decimal) :
    Except Fault Obligation := do
  let (borrows, index) ← o.findOrAddLiquidityToBorrows reserve
  let liquidity ← okOr borrows[index]? .panic
  let liquidity ← liquidity.borrow borrowAmount
  return { o with borrows := borrows.set index liquidity, lastUpdate := o.lastUpdate.markStale }

variable (liquidityAmount : UInt64) (accounts : List AccountMeta)

def processBorrowObligationLiquidity : Except Fault World := do
  failIf (liquidityAmount = 0) invalidAmount
  match accounts with
  | sourceLiquidity :: destinationLiquidity :: borrowReserve :: feeReceiver :: obligation ::
      lendingMarket :: lendingMarketAuthority :: obligationOwner :: clock :: tokenProgram ::
      it => do
    checkClock clock
    let market ← marketOf w lendingMarket tokenProgram
    let r ← reserveOf w borrowReserve lendingMarket
    checkInput (r.liquidity.supplyPubkey ≠ sourceLiquidity.key)
    checkInput (r.liquidity.supplyPubkey = destinationLiquidity.key)
    checkInput (r.liquidity.feeReceiver ≠ feeReceiver.key)
    checkReserveFresh w r
    let o ← obligationOf w obligation lendingMarket
    checkObligationOwner o obligationOwner
    checkObligationFresh w o
    failIf (o.deposits = []) obligationDepositsEmpty
    failIf (o.depositedValue = .zero) obligationDepositsZero
    checkAuthority env lendingMarket lendingMarketAuthority market.bumpSeed
    let remainingBorrowValue ← o.remainingBorrowValue
    failIf (remainingBorrowValue = .zero) borrowTooLarge
    let res ← r.calculateBorrow liquidityAmount remainingBorrowValue
    failIf (res.receiveAmount = 0) borrowTooSmall
    let liquidity ← r.liquidity.borrow res.borrowAmount
    let w ← w.writeReserve borrowReserve.key
      { r with liquidity, lastUpdate := r.lastUpdate.markStale }
    let o ← borrowed o borrowReserve.key res.borrowAmount
    let w ← w.writeObligation obligation.key o
    let seeds := some (lendingMarket.key, market.bumpSeed)
    let (w, ownerFee) ← payHostFee w tokenProgram.key sourceLiquidity.key it.head?
      lendingMarketAuthority seeds res.borrowFee res.hostFee
    let w ← payOwnerFee w tokenProgram.key sourceLiquidity.key feeReceiver.key
      lendingMarketAuthority seeds ownerFee
    w.splTokenTransfer tokenProgram.key sourceLiquidity.key destinationLiquidity.key
      lendingMarketAuthority seeds res.receiveAmount
  | _ => .error .notEnoughAccountKeys

def processRepayObligationLiquidity : Except Fault World := do
  failIf (liquidityAmount = 0) invalidAmount
  match accounts with
  | sourceLiquidity :: destinationLiquidity :: repayReserve :: obligation :: lendingMarket ::
      userTransferAuthority :: clock :: tokenProgram :: _ => do
    checkClock clock
    let _ ← marketOf w lendingMarket tokenProgram
    let r ← reserveOf w repayReserve lendingMarket
    checkInput (r.liquidity.supplyPubkey = sourceLiquidity.key)
    checkInput (r.liquidity.supplyPubkey ≠ destinationLiquidity.key)
    checkReserveFresh w r
    let o ← obligationOf w obligation lendingMarket
    checkObligationFresh w o
    let (liquidity, index) ← o.findLiquidityInBorrows repayReserve.key
    failIf (liquidity.borrowedAmountWads = .zero) obligationLiquidityEmpty
    let res ← Reserve.calculateRepay liquidityAmount liquidity.borrowedAmountWads
    failIf (res.repayAmount = 0) repayTooSmall
    let reserveLiquidity ← r.liquidity.repay res.repayAmount res.settleAmount
    let w ← w.writeReserve repayReserve.key
      { r with liquidity := reserveLiquidity, lastUpdate := r.lastUpdate.markStale }
    let o ← o.repay res.settleAmount index
    let w ← w.writeObligation obligation.key { o with lastUpdate := o.lastUpdate.markStale }
    w.splTokenTransfer tokenProgram.key sourceLiquidity.key destinationLiquidity.key
      userTransferAuthority none res.repayAmount
  | _ => .error .notEnoughAccountKeys

def checkUnhealthy (o : Obligation) : Except Fault Unit := do
  failIf (o.depositedValue = .zero) obligationDepositsZero
  failIf (o.borrowedValue = .zero) obligationBorrowsZero
  failIf (o.borrowedValue < o.unhealthyBorrowValue) obligationHealthy

variable (liquidityAmount : UInt64)

def processLiquidateObligation (accounts : List AccountMeta) : Except Fault World := do
  failIf (liquidityAmount = 0) invalidAmount
  match accounts with
  | sourceLiquidity :: destinationCollateral :: repayReserve :: repayReserveLiquiditySupply ::
      withdrawReserve :: withdrawReserveCollateralSupply :: obligation :: lendingMarket ::
      lendingMarketAuthority :: userTransferAuthority :: clock :: tokenProgram :: _ => do
    checkClock clock
    let market ← marketOf w lendingMarket tokenProgram
    let repayR ← reserveOf w repayReserve lendingMarket
    checkInput (repayR.liquidity.supplyPubkey ≠ repayReserveLiquiditySupply.key)
    checkInput (repayR.liquidity.supplyPubkey = sourceLiquidity.key)
    checkInput (repayR.collateral.supplyPubkey = destinationCollateral.key)
    checkReserveFresh w repayR
    let withdrawR ← reserveOf w withdrawReserve lendingMarket
    checkInput (withdrawR.collateral.supplyPubkey ≠ withdrawReserveCollateralSupply.key)
    checkInput (withdrawR.liquidity.supplyPubkey = sourceLiquidity.key)
    checkInput (withdrawR.collateral.supplyPubkey = destinationCollateral.key)
    checkReserveFresh w withdrawR
    let o ← obligationOf w obligation lendingMarket
    checkObligationFresh w o
    checkUnhealthy o
    let (liquidity, liquidityIndex) ← o.findLiquidityInBorrows repayReserve.key
    failIf (liquidity.marketValue = .zero) obligationLiquidityEmpty
    let (collateral, collateralIndex) ← o.findCollateralInDeposits withdrawReserve.key
    failIf (collateral.marketValue = .zero) obligationCollateralEmpty
    checkAuthority env lendingMarket lendingMarketAuthority market.bumpSeed
    let res ← withdrawR.calculateLiquidation liquidityAmount o liquidity collateral
    failIf (res.repayAmount = 0) liquidationTooSmall
    failIf (res.withdrawAmount = 0) liquidationTooSmall
    let reserveLiquidity ← repayR.liquidity.repay res.repayAmount res.settleAmount
    let w ← w.writeReserve repayReserve.key
      { repayR with liquidity := reserveLiquidity, lastUpdate := repayR.lastUpdate.markStale }
    let o ← o.repay res.settleAmount liquidityIndex
    let o ← o.withdraw res.withdrawAmount collateralIndex
    let w ← w.writeObligation obligation.key { o with lastUpdate := o.lastUpdate.markStale }
    let w ← w.splTokenTransfer tokenProgram.key sourceLiquidity.key repayReserveLiquiditySupply.key
      userTransferAuthority none res.repayAmount
    w.splTokenTransfer tokenProgram.key withdrawReserveCollateralSupply.key
      destinationCollateral.key lendingMarketAuthority (some (lendingMarket.key, market.bumpSeed))
      res.withdrawAmount
  | _ => .error .notEnoughAccountKeys

/-! ## Flash loans -/

/-- `process_flash_loan`; `receiver` is what the program that receives the loan does. -/
def processFlashLoan (receiver : List Outside) (accounts : List AccountMeta) :
    Except Fault World := do
  failIf (liquidityAmount = 0) invalidAmount
  match accounts with
  | sourceLiquidity :: destinationLiquidity :: reserve :: feeReceiver :: hostFeeReceiver ::
      lendingMarket :: lendingMarketAuthority :: tokenProgram :: receiverProgram :: _ => do
    failIf (receiverProgram.key = .program) invalidFlashLoanReceiverProgram
    let market ← marketOf w lendingMarket tokenProgram
    checkAuthority env lendingMarket lendingMarketAuthority market.bumpSeed
    let r ← reserveOf w reserve lendingMarket
    checkInput (r.liquidity.supplyPubkey ≠ sourceLiquidity.key)
    checkInput (r.liquidity.feeReceiver ≠ feeReceiver.key)
    let amount := if liquidityAmount = u64Max then r.liquidity.availableAmount else liquidityAmount
    let (originationFee, hostFee) ← r.config.fees.calculateFlashLoanFees (.ofU64 amount)
    let before ← w.readTokenAccount sourceLiquidity.key
    let balanceBefore ← toU64 before.amount
    let expected ← checkedAdd balanceBefore originationFee
    let _ ← checkedAdd amount originationFee
    let liquidity ← r.liquidity.borrow (.ofU64 amount)
    let w ← w.writeReserve reserve.key { r with liquidity }
    let seeds := some (lendingMarket.key, market.bumpSeed)
    let w ← w.splTokenTransfer tokenProgram.key sourceLiquidity.key destinationLiquidity.key
      lendingMarketAuthority seeds amount
    let w ← w.outsides receiver
    let r ← w.readReserve reserve.key
    let liquidity ← r.liquidity.repay amount (.ofU64 amount)
    let w ← w.writeReserve reserve.key { r with liquidity }
    let after ← w.readTokenAccount sourceLiquidity.key
    failIf (after.amount < expected.toNat) notEnoughLiquidityAfterFlashLoan
    let (w, ownerFee) ← payHostFee w tokenProgram.key sourceLiquidity.key (some hostFeeReceiver)
      lendingMarketAuthority seeds originationFee hostFee
    payOwnerFee w tokenProgram.key sourceLiquidity.key feeReceiver.key lendingMarketAuthority seeds
      ownerFee
  | _ => .error .notEnoughAccountKeys

/-! ## Instructions and runs -/

/-- `LendingInstruction`, with what the receiver of a flash loan does. -/
inductive LendingInstruction
  | initLendingMarket (owner : Address) (quoteCurrency : List UInt8)
  | setLendingMarketOwner (newOwner : Address)
  | initReserve (liquidityAmount : UInt64) (config : ReserveConfig)
  | initNftReserve (config : ReserveConfig)
  | refreshReserve
  | depositReserveLiquidity (liquidityAmount : UInt64)
  | redeemReserveCollateral (collateralAmount : UInt64)
  | initObligation
  | refreshObligation
  | depositObligationCollateral (collateralAmount : UInt64)
  | withdrawObligationCollateral (collateralAmount : UInt64)
  | borrowObligationLiquidity (liquidityAmount : UInt64)
  | repayObligationLiquidity (liquidityAmount : UInt64)
  | liquidateObligation (liquidityAmount : UInt64)
  | flashLoan (amount : UInt64) (receiver : List Outside)

def process (accounts : List AccountMeta) : LendingInstruction → Except Fault World
  | .initLendingMarket owner quoteCurrency =>
    processInitLendingMarket env w owner quoteCurrency accounts
  | .setLendingMarketOwner newOwner => processSetLendingMarketOwner w newOwner accounts
  | .initReserve liquidityAmount config => processInitReserve env w liquidityAmount config accounts
  | .initNftReserve config => processInitNftReserve env w config accounts
  | .refreshReserve => processRefreshReserve w accounts
  | .depositReserveLiquidity liquidityAmount =>
    processDepositReserveLiquidity env w liquidityAmount accounts
  | .redeemReserveCollateral collateralAmount =>
    processRedeemReserveCollateral env w collateralAmount accounts
  | .initObligation => processInitObligation env w accounts
  | .refreshObligation => processRefreshObligation w accounts
  | .depositObligationCollateral collateralAmount =>
    processDepositObligationCollateral w collateralAmount accounts
  | .withdrawObligationCollateral collateralAmount =>
    processWithdrawObligationCollateral env w collateralAmount accounts
  | .borrowObligationLiquidity liquidityAmount =>
    processBorrowObligationLiquidity env w liquidityAmount accounts
  | .repayObligationLiquidity liquidityAmount =>
    processRepayObligationLiquidity w liquidityAmount accounts
  | .liquidateObligation liquidityAmount =>
    processLiquidateObligation env w liquidityAmount accounts
  | .flashLoan amount receiver => processFlashLoan env w amount receiver accounts

/-- What can happen. -/
inductive Event
  | lending (instruction : LendingInstruction) (accounts : List AccountMeta)
  | outside (o : Outside)
  | newSlot (slot : UInt64)

/-- One event, if it succeeds. Only addresses with a private key sign, and time does not go back. -/
def World.exec : Event → Except Fault World
  | .lending instruction accounts => do
    failIf (∃ a ∈ accounts, a.isSigner = true ∧ a.key.canSign = false) .rejected
    process env w accounts instruction
  | .outside o => w.outside o
  | .newSlot slot => do
    failIf (slot < w.slot) .rejected
    return { w with slot }

/-- A failed event changes nothing. -/
def World.step (e : Event) : World :=
  match w.exec env e with
  | .ok w' => w'
  | .error _ => w

/-- No account of this program holds a record yet. -/
def World.Blank : Prop := ∀ k, w.IsOwn k → ∃ kind, (w.accounts k).content = .zeroed kind

end Handlers

end SolanaPrograms.Lending
