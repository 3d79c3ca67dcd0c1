import SolanaPrograms.Lib.Outcome
import SolanaPrograms.Math.CheckedCeilDiv

/-!
# State of the stake-pool program

A stake pool, its list of validators, its fees and the conversions between lamports and pool tokens.
Program addresses are a free type: an address derived from a pool, a vote account or a seed is told
apart from every other address by its constructor. The seeds of the source have different lengths
for each kind of address, so they cannot collide either.

The fields `lockup` and `stake_withdraw_bump_seed` of the source are left out. The first is never
read, the second only repeats which bump seed the withdraw authority has.
-/

namespace SolanaPrograms.StakePools

open Outcome Checked

/-! ## Addresses and account lists -/

inductive ProgramId
  | stakePool
  | token
  | stake
  | system
deriving DecidableEq, Repr

/-- The system variables named in account lists. -/
inductive Sysvar
  | clock
  | rent
  | stakeHistory
  | stakeConfig
deriving DecidableEq, Repr

/-- Addresses. Only the first kind has a private key. -/
inductive Address
  | key (n : ℕ)
  | program (p : ProgramId)
  | sysvar (s : Sysvar)
  /-- `find_withdraw_authority_program_address`. -/
  | withdrawAuthority (stakePool : Address)
  /-- `find_deposit_authority_program_address`. -/
  | depositAuthority (stakePool : Address)
  /-- `find_stake_program_address`. -/
  | validatorStake (vote stakePool : Address)
  /-- `find_transient_stake_program_address`. -/
  | transientStake (vote stakePool : Address) (seed : ℕ)
deriving DecidableEq, Repr

def Address.isKey : Address → Bool
  | key _ => true
  | _ => false

structure AccountMeta where
  key : Address
  isSigner : Bool
deriving DecidableEq, Repr

/-! ## Errors -/

inductive StakePoolError
  | alreadyInUse
  | invalidProgramAddress
  | invalidState
  | calculationFailure
  | feeTooHigh
  | wrongAccountMint
  | wrongManager
  | signatureMissing
  | invalidValidatorStakeList
  | invalidFeeAccount
  | wrongPoolMint
  | wrongStakeState
  | userStakeNotActive
  | validatorAlreadyAdded
  | validatorNotFound
  | invalidStakeAccountAddress
  | stakeListOutOfDate
  | stakeListAndPoolOutOfDate
  | unknownValidatorStakeAccount
  | wrongMintingAuthority
  | unexpectedValidatorListAccountSize
  | wrongStaker
  | nonZeroPoolTokenSupply
  | stakeLamportsNotEqualToMinimum
  | incorrectDepositVoteAddress
  | incorrectWithdrawVoteAddress
  | invalidMintFreezeAuthority
  | feeIncreaseTooHigh
  | withdrawalTooSmall
  | depositTooSmall
  | invalidStakeDepositAuthority
  | invalidSolDepositAuthority
  | invalidPreferredValidator
  | transientAccountInUse
  | invalidSolWithdrawAuthority
  | solWithdrawalTooLarge
deriving DecidableEq, Repr

/-- How an instruction stops without success. -/
inductive Fault
  | stakePool (e : StakePoolError)
  | notEnoughAccountKeys
  | incorrectProgramId
  | accountNotRentExempt
  | accountDataTooSmall
  | insufficientFunds
  /-- The account does not hold the data that is read from it. -/
  | invalidAccountData
  /-- A system variable was expected. -/
  | invalidArgument
  /-- A called program refused. -/
  | called (p : ProgramId)
  | panic
deriving DecidableEq, Repr

instance : Coe StakePoolError Fault := ⟨.stakePool⟩

open StakePoolError

/-! ## Constants -/

def minimumActiveStake : ℕ := 1000000

def minimumStakeLamports (rentExemptReserve : ℕ) : ℕ :=
  saturatingAdd 64 rentExemptReserve minimumActiveStake

def minimumReserveLamports (rentExemptReserve : ℕ) : ℕ := saturatingAdd 64 rentExemptReserve 1

/-! ## Fees -/

structure Fee where
  denominator : ℕ
  numerator : ℕ
deriving DecidableEq, Repr

def maxWithdrawalFeeIncrease : Fee := ⟨2, 3⟩

def withdrawalBaselineFee : Fee := ⟨1000, 1⟩

namespace Fee

def apply (self : Fee) (amt : ℕ) : Option ℕ :=
  if self.denominator = 0 then some 0
  else do
    let product ← mul 128 amt self.numerator
    div product self.denominator

/-- The fee an increase is measured against: a withdrawal fee of zero is replaced by the
baseline. -/
def baseline (self : Fee) : Fee :=
  if self.denominator = 0 ∨ self.numerator = 0 then withdrawalBaselineFee else self

/-- The order of optional numbers: nothing is less than every number. -/
def optionLt : Option ℕ → Option ℕ → Bool
  | none, some _ => true
  | some a, some b => a < b
  | _, none => false

/-- `Fee::check_withdrawal`. The inner products are compared as optional values, in which an
overflow is less than every number. -/
def checkWithdrawal (self oldWithdrawalFee : Fee) : Except Fault Unit := do
  let old := oldWithdrawalFee.baseline
  let allowed ← okOr ((mul 128 old.numerator self.denominator).map
    fun x => mul 128 x maxWithdrawalFeeIncrease.numerator) calculationFailure
  let proposed ← okOr ((mul 128 self.numerator old.denominator).map
    fun x => mul 128 x maxWithdrawalFeeIncrease.denominator) calculationFailure
  failIf (optionLt allowed proposed = true) feeIncreaseTooHigh

end Fee

inductive FeeType
  | solReferral (percentage : ℕ)
  | stakeReferral (percentage : ℕ)
  | epoch (fee : Fee)
  | stakeWithdrawal (fee : Fee)
  | solDeposit (fee : Fee)
  | stakeDeposit (fee : Fee)
  | solWithdrawal (fee : Fee)
deriving DecidableEq, Repr

namespace FeeType

def tooHigh : FeeType → Bool
  | solReferral percentage | stakeReferral percentage => 100 < percentage
  | epoch fee | stakeWithdrawal fee | solWithdrawal fee | solDeposit fee | stakeDeposit fee =>
    fee.denominator < fee.numerator

def checkTooHigh (self : FeeType) : Except Fault Unit :=
  failIf (self.tooHigh = true) feeTooHigh

def canOnlyChangeNextEpoch : FeeType → Bool
  | stakeWithdrawal _ | solWithdrawal _ | epoch _ => true
  | _ => false

end FeeType

/-! ## The pool -/

structure StakePool where
  manager : Address
  staker : Address
  stakeDepositAuthority : Address
  validatorList : Address
  reserveStake : Address
  poolMint : Address
  managerFeeAccount : Address
  tokenProgramId : Address
  totalLamports : ℕ
  poolTokenSupply : ℕ
  lastUpdateEpoch : ℕ
  epochFee : Fee
  nextEpochFee : Option Fee
  preferredDepositValidatorVoteAddress : Option Address
  preferredWithdrawValidatorVoteAddress : Option Address
  stakeDepositFee : Fee
  stakeWithdrawalFee : Fee
  nextStakeWithdrawalFee : Option Fee
  stakeReferralFee : ℕ
  solDepositAuthority : Option Address
  solDepositFee : Fee
  solReferralFee : ℕ
  solWithdrawAuthority : Option Address
  solWithdrawalFee : Fee
  nextSolWithdrawalFee : Option Fee
  lastEpochPoolTokenSupply : ℕ
  lastEpochTotalLamports : ℕ
deriving DecidableEq, Repr

namespace StakePool

def calcPoolTokensForDeposit (self : StakePool) (stakeLamports : ℕ) : Option ℕ :=
  if self.totalLamports = 0 ∨ self.poolTokenSupply = 0 then some stakeLamports
  else do
    let product ← mul 128 stakeLamports self.poolTokenSupply
    let quotient ← div product self.totalLamports
    tryFrom 64 quotient

def calcLamportsWithdrawAmount (self : StakePool) (poolTokens : ℕ) : Option ℕ := do
  let numerator ← mul 128 poolTokens self.totalLamports
  let denominator := self.poolTokenSupply
  if numerator < denominator ∨ denominator = 0 then some 0
  else do
    let (quotient, _) ← Math.checkedCeilDiv 128 numerator denominator
    tryFrom 64 quotient

def calcPoolTokensFee (fee : Fee) (poolTokens : ℕ) : Option ℕ := do
  let amount ← fee.apply poolTokens
  tryFrom 64 amount

variable (self : StakePool)

def calcPoolTokensStakeWithdrawalFee (poolTokens : ℕ) : Option ℕ :=
  calcPoolTokensFee self.stakeWithdrawalFee poolTokens

def calcPoolTokensSolWithdrawalFee (poolTokens : ℕ) : Option ℕ :=
  calcPoolTokensFee self.solWithdrawalFee poolTokens

def calcPoolTokensStakeDepositFee (poolTokensMinted : ℕ) : Option ℕ :=
  calcPoolTokensFee self.stakeDepositFee poolTokensMinted

def calcPoolTokensSolDepositFee (poolTokensMinted : ℕ) : Option ℕ :=
  calcPoolTokensFee self.solDepositFee poolTokensMinted

/-- The part of a deposit fee that goes to the referrer. -/
def calcPoolTokensReferralFee (percentage depositFee : ℕ) : Option ℕ := do
  let product ← mul 128 depositFee percentage
  let quotient ← div product 100
  tryFrom 64 quotient

variable (self : StakePool)

def calcPoolTokensStakeReferralFee (stakeDepositFee : ℕ) : Option ℕ :=
  calcPoolTokensReferralFee self.stakeReferralFee stakeDepositFee

def calcPoolTokensSolReferralFee (solDepositFee : ℕ) : Option ℕ :=
  calcPoolTokensReferralFee self.solReferralFee solDepositFee

def calcEpochFeeAmount (rewardLamports : ℕ) : Option ℕ :=
  if rewardLamports = 0 then some 0
  else do
    let totalLamports ← add 128 self.totalLamports rewardLamports
    let feeLamports ← self.epochFee.apply rewardLamports
    if totalLamports = feeLamports ∨ self.poolTokenSupply = 0 then some rewardLamports
    else do
      let product ← mul 128 self.poolTokenSupply feeLamports
      let rest ← sub totalLamports feeLamports
      let quotient ← div product rest
      tryFrom 64 quotient

def checkAuthorityWithdraw (withdrawAuthority stakePoolAddress : Address) : Except Fault Unit :=
  failIf (withdrawAuthority ≠ .withdrawAuthority stakePoolAddress) invalidProgramAddress

def checkStakeDepositAuthority (self : StakePool) (stakeDepositAuthority : Address) :
    Except Fault Unit :=
  failIf (self.stakeDepositAuthority ≠ stakeDepositAuthority) invalidStakeDepositAuthority

/-- An optional authority: if it is set, it has to be named and to sign. -/
def checkOptionalAuthority (authority : Option Address) (info : Option AccountMeta)
    (e : StakePoolError) : Except Fault Unit :=
  match authority with
  | none => .ok ()
  | some auth => do
    let info ← okOr info .notEnoughAccountKeys
    failIf (auth ≠ info.key) (e : Fault)
    failIf (info.isSigner = false) signatureMissing

variable (self : StakePool)

variable (info : Option AccountMeta)

def checkSolDepositAuthority : Except Fault Unit :=
  checkOptionalAuthority self.solDepositAuthority info .invalidSolDepositAuthority

def checkSolWithdrawAuthority : Except Fault Unit :=
  checkOptionalAuthority self.solWithdrawAuthority info .invalidSolWithdrawAuthority

def checkMint (mint : Address) : Except Fault Unit :=
  failIf (mint ≠ self.poolMint) wrongPoolMint

def checkManager (managerInfo : AccountMeta) : Except Fault Unit := do
  failIf (managerInfo.key ≠ self.manager) wrongManager
  failIf (managerInfo.isSigner = false) signatureMissing

def checkStaker (stakerInfo : AccountMeta) : Except Fault Unit := do
  failIf (stakerInfo.key ≠ self.staker) wrongStaker
  failIf (stakerInfo.isSigner = false) signatureMissing

def checkValidatorList (validatorList : Address) : Except Fault Unit :=
  failIf (validatorList ≠ self.validatorList) invalidValidatorStakeList

def checkReserveStake (reserveStake : Address) : Except Fault Unit :=
  failIf (reserveStake ≠ self.reserveStake) invalidProgramAddress

def updateFee (fee : FeeType) : Except Fault StakePool :=
  match fee with
  | .solReferral newFee => .ok { self with solReferralFee := newFee }
  | .stakeReferral newFee => .ok { self with stakeReferralFee := newFee }
  | .epoch newFee => .ok { self with nextEpochFee := some newFee }
  | .stakeWithdrawal newFee => do
    newFee.checkWithdrawal self.stakeWithdrawalFee
    .ok { self with nextStakeWithdrawalFee := some newFee }
  | .solWithdrawal newFee => do
    newFee.checkWithdrawal self.solWithdrawalFee
    .ok { self with nextSolWithdrawalFee := some newFee }
  | .solDeposit newFee => .ok { self with solDepositFee := newFee }
  | .stakeDeposit newFee => .ok { self with stakeDepositFee := newFee }

end StakePool

/-! ## The validator list -/

inductive StakeStatus
  | active
  | deactivatingTransient
  | readyForRemoval
deriving DecidableEq, Repr

/-- `ValidatorStakeInfo`. The end of the seed suffixes, which is always 0, is left out. -/
structure ValidatorStakeInfo where
  activeStakeLamports : ℕ
  transientStakeLamports : ℕ
  lastUpdateEpoch : ℕ
  transientSeedSuffixStart : ℕ
  status : StakeStatus
  voteAccountAddress : Address
deriving DecidableEq, Repr

variable (self : ValidatorStakeInfo)

def ValidatorStakeInfo.stakeLamports : Except Fault ℕ :=
  okOr (add 64 self.activeStakeLamports self.transientStakeLamports) .panic

def ValidatorStakeInfo.isNotRemoved : Bool :=
  self.status ≠ .readyForRemoval

structure ValidatorList where
  maxValidators : ℕ
  validators : List ValidatorStakeInfo
deriving DecidableEq, Repr

namespace ValidatorList

def calculateMaxValidators (bufferLength : ℕ) : ℕ := (bufferLength - 9) / 73

/-- `find` by `memcmp_pubkey`: the first entry of the vote account. -/
def find (self : ValidatorList) (vote : Address) : Option ValidatorStakeInfo :=
  self.validators.find? fun v => v.voteAccountAddress = vote

/-- The write through the reference that `find_mut` returned: the first entry of the vote account is
replaced. -/
def replaceFirst (info : ValidatorStakeInfo) (vote : Address) :
    List ValidatorStakeInfo → List ValidatorStakeInfo
  | [] => []
  | v :: vs => if v.voteAccountAddress = vote then info :: vs else v :: replaceFirst info vote vs

variable (self : ValidatorList)

def set (vote : Address) (info : ValidatorStakeInfo) : ValidatorList :=
  { self with validators := replaceFirst info vote self.validators }

def hasActiveStake : Bool :=
  self.validators.any fun v => v.activeStakeLamports ≠ 0

def hasTransientStake : Bool :=
  self.validators.any fun v => v.transientStakeLamports ≠ 0

end ValidatorList

end SolanaPrograms.StakePools
