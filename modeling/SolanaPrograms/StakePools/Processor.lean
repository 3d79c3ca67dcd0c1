import SolanaPrograms.StakePools.World

/-!
# Instructions of the stake-pool program

One definition per `process_*` function of the source, on the state passed explicitly. The checks
stand in the order of the source. Parts that two instructions share, or that branch in the middle of
an instruction, are definitions of their own.
-/

namespace SolanaPrograms.StakePools

open Outcome Checked StakePoolError StakePool Stakes World

variable (env : Environment)

variable (w : World)

def World.outOfDate (p : StakePool) : Except Fault Unit :=
  failIf (p.lastUpdateEpoch < w.epoch) stakeListAndPoolOutOfDate

/-! ## Setting up -/

/-- Read a new account of the program, and its size. -/
def World.readUninitialized (k : Address) : Except Fault ℕ :=
  match w.data k with
  | .none => .error .incorrectProgramId
  | .allocated len => .ok len
  | _ => .error alreadyInUse

/-- The lamports of the reserve beyond its minimum, if it is an initialised stake account of the
pool. -/
def World.reserveAtInitialize (reserveStake withdrawAuthority : Address) : Except Fault ℕ :=
  match w.stakes.state reserveStake with
  | none => .error .incorrectProgramId
  | some (.initialized m) => do
    failIf (m.locked = true) wrongStakeState
    failIf (m.staker ≠ withdrawAuthority) wrongStakeState
    failIf (m.withdrawer ≠ withdrawAuthority) wrongStakeState
    okOr (sub (w.lamports reserveStake) (minimumReserveLamports m.rentExemptReserve))
      calculationFailure
  | some _ => .error wrongStakeState

def World.mintIfPositive (mint destination authority : Address) (amount : ℕ) : Except Fault World :=
  if 0 < amount then w.tokenMintTo mint destination authority amount else .ok w

/-- The pool `process_initialize` writes. -/
def initialPool (stakePool manager staker validatorList reserveStake poolMint managerFee
    tokenProgram : Address) (depositAuthority : Option Address) (totalLamports epoch : ℕ)
    (epochFee withdrawalFee depositFee : Fee) (referralFee : ℕ) : StakePool where
  manager := manager
  staker := staker
  stakeDepositAuthority := depositAuthority.getD (.depositAuthority stakePool)
  validatorList := validatorList
  reserveStake := reserveStake
  poolMint := poolMint
  managerFeeAccount := managerFee
  tokenProgramId := tokenProgram
  totalLamports := totalLamports
  poolTokenSupply := 0
  lastUpdateEpoch := epoch
  epochFee := epochFee
  nextEpochFee := none
  preferredDepositValidatorVoteAddress := none
  preferredWithdrawValidatorVoteAddress := none
  stakeDepositFee := depositFee
  stakeWithdrawalFee := withdrawalFee
  nextStakeWithdrawalFee := none
  stakeReferralFee := referralFee
  solDepositAuthority := depositAuthority
  solDepositFee := depositFee
  solReferralFee := referralFee
  solWithdrawAuthority := none
  solWithdrawalFee := withdrawalFee
  nextSolWithdrawalFee := none
  lastEpochPoolTokenSupply := 0
  lastEpochTotalLamports := 0

variable (accounts : List AccountMeta)

def processInitialize (epochFee withdrawalFee depositFee : Fee) (referralFee maxValidators : ℕ)
    (w : World) : Except Fault World :=
  match accounts with
  | stakePoolInfo :: managerInfo :: stakerInfo :: withdrawAuthorityInfo :: validatorListInfo ::
      reserveStakeInfo :: poolMintInfo :: managerFeeInfo :: tokenProgramInfo :: rest => do
    failIf (managerInfo.isSigner = false) signatureMissing
    failIf (stakePoolInfo.key = validatorListInfo.key) alreadyInUse
    let poolLen ← w.readUninitialized stakePoolInfo.key
    let listLen ← w.readUninitialized validatorListInfo.key
    failIf (ValidatorList.calculateMaxValidators listLen ≠ maxValidators ∨ maxValidators = 0)
      unexpectedValidatorListAccountSize
    failIf (w.lamports stakePoolInfo.key < env.minimumBalance poolLen) .accountNotRentExempt
    failIf (w.lamports validatorListInfo.key < env.minimumBalance listLen)
      .accountNotRentExempt
    failIf (epochFee.denominator < epochFee.numerator ∨
      withdrawalFee.denominator < withdrawalFee.numerator ∨
      depositFee.denominator < depositFee.numerator ∨ 100 < referralFee) feeTooHigh
    checkProgram tokenProgramInfo.key .token
    let managerFee ← okOr (w.tokens.account? managerFeeInfo.key) .incorrectProgramId
    let poolMint ← okOr (w.tokens.mint? poolMintInfo.key) .incorrectProgramId
    failIf (poolMintInfo.key ≠ managerFee.mint) wrongAccountMint
    checkAuthorityWithdraw withdrawAuthorityInfo.key stakePoolInfo.key
    failIf (poolMint.supply ≠ 0) nonZeroPoolTokenSupply
    failIf (poolMint.mintAuthority ≠ some withdrawAuthorityInfo.key) wrongMintingAuthority
    failIf (poolMint.freezeAuthority ≠ none) invalidMintFreezeAuthority
    let totalLamports ← w.reserveAtInitialize reserveStakeInfo.key withdrawAuthorityInfo.key
    let w ← w.mintIfPositive poolMintInfo.key managerFeeInfo.key withdrawAuthorityInfo.key
      totalLamports
    let w := w.writeData validatorListInfo.key (.validatorList ⟨maxValidators, []⟩)
    return w.writeData stakePoolInfo.key (.stakePool (initialPool stakePoolInfo.key managerInfo.key
      stakerInfo.key validatorListInfo.key reserveStakeInfo.key poolMintInfo.key managerFeeInfo.key
      tokenProgramInfo.key (rest.head?.map AccountMeta.key) totalLamports w.epoch epochFee
      withdrawalFee depositFee referralFee))
  | _ => .error .notEnoughAccountKeys

/-! ## Validators -/

def processAddValidatorToPool (w : World) : Except Fault World :=
  match accounts with
  | stakePoolInfo :: stakerInfo :: funderInfo :: withdrawAuthorityInfo :: validatorListInfo ::
      stakeInfo :: validatorVoteInfo :: rentInfo :: clockInfo :: _stakeHistoryInfo ::
      _stakeConfigInfo :: systemProgramInfo :: stakeProgramInfo :: _ => do
    checkSysvar rentInfo.key .rent
    checkSysvar clockInfo.key .clock
    checkProgram systemProgramInfo.key .system
    checkProgram stakeProgramInfo.key .stake
    let stakePool ← w.readStakePool stakePoolInfo.key
    checkAuthorityWithdraw withdrawAuthorityInfo.key stakePoolInfo.key
    stakePool.checkStaker stakerInfo
    stakePool.checkValidatorList validatorListInfo.key
    w.outOfDate stakePool
    let validatorList ← w.readValidatorList validatorListInfo.key
    failIf (validatorList.maxValidators = validatorList.validators.length)
      .accountDataTooSmall
    failIf (validatorList.find validatorVoteInfo.key ≠ none) validatorAlreadyAdded
    checkValidatorStakeAddress stakePoolInfo.key stakeInfo.key validatorVoteInfo.key
    let w ← w.createPdaAccount funderInfo (minimumActiveStake + env.stake.rent) stakeInfo.key
    let w ← w.callStake env (fun _ => false)
      (.initializeAccount stakeInfo.key withdrawAuthorityInfo.key withdrawAuthorityInfo.key false)
    let w ← w.callStake env (only withdrawAuthorityInfo.key)
      (.delegate stakeInfo.key validatorVoteInfo.key)
    return w.writeData validatorListInfo.key (.validatorList { validatorList with
      validators := validatorList.validators ++
        [⟨0, 0, w.epoch, 0, .active, validatorVoteInfo.key⟩] })
  | _ => .error .notEnoughAccountKeys

def World.removedStatus (w : World) (stakePool withdrawAuthority transientStake vote : Address)
    (info : ValidatorStakeInfo) : Except Fault StakeStatus :=
  if 0 < info.transientStakeLamports then do
    checkTransientStakeAddress stakePool transientStake vote info.transientSeedSuffixStart
    match w.stakes.state transientStake with
    | some (.stake m d) =>
      if m.staker = withdrawAuthority ∧ m.withdrawer = withdrawAuthority then
        if d.deactivationEpoch = none then .error wrongStakeState
        else .ok .deactivatingTransient
      else .ok .readyForRemoval
    | _ => .ok .readyForRemoval
  else .ok .readyForRemoval

def StakePool.forget (self : StakePool) (vote : Address) : StakePool :=
  { self with
    preferredDepositValidatorVoteAddress :=
      if self.preferredDepositValidatorVoteAddress = some vote then none
      else self.preferredDepositValidatorVoteAddress
    preferredWithdrawValidatorVoteAddress :=
      if self.preferredWithdrawValidatorVoteAddress = some vote then none
      else self.preferredWithdrawValidatorVoteAddress }

def processRemoveValidatorFromPool (accounts : List AccountMeta) (w : World) :
    Except Fault World :=
  match accounts with
  | stakePoolInfo :: stakerInfo :: withdrawAuthorityInfo :: newStakeAuthorityInfo ::
      validatorListInfo :: stakeAccountInfo :: transientStakeAccountInfo ::
      destinationStakeAccountInfo :: clockInfo :: stakeProgramInfo :: _ => do
    checkSysvar clockInfo.key .clock
    checkProgram stakeProgramInfo.key .stake
    let stakePool ← w.readStakePool stakePoolInfo.key
    checkAuthorityWithdraw withdrawAuthorityInfo.key stakePoolInfo.key
    stakePool.checkStaker stakerInfo
    w.outOfDate stakePool
    stakePool.checkValidatorList validatorListInfo.key
    let validatorList ← w.readValidatorList validatorListInfo.key
    let (m, d) ← w.getStakeState stakeAccountInfo.key
    checkValidatorStakeAddress stakePoolInfo.key stakeAccountInfo.key d.voter
    let info ← okOr (validatorList.find d.voter) validatorNotFound
    failIf (w.lamports stakeAccountInfo.key ≠ minimumStakeLamports m.rentExemptReserve)
      stakeLamportsNotEqualToMinimum
    failIf (d.stake ≠ minimumActiveStake) stakeLamportsNotEqualToMinimum
    let status ← w.removedStatus stakePoolInfo.key withdrawAuthorityInfo.key
      transientStakeAccountInfo.key d.voter info
    let w ← w.callStake env (only withdrawAuthorityInfo.key)
      (.split stakeAccountInfo.key destinationStakeAccountInfo.key
        (w.lamports stakeAccountInfo.key))
    let w ← w.stakeAuthorize env destinationStakeAccountInfo.key withdrawAuthorityInfo.key
      newStakeAuthorityInfo.key
    let w := w.writeData validatorListInfo.key
      (.validatorList (validatorList.set d.voter { info with status }))
    return w.writeData stakePoolInfo.key (.stakePool (stakePool.forget d.voter))
  | _ => .error .notEnoughAccountKeys

variable (accounts : List AccountMeta) (lamports transientStakeSeed : ℕ) (w : World)

def processDecreaseValidatorStake : Except Fault World :=
  match accounts with
  | stakePoolInfo :: stakerInfo :: withdrawAuthorityInfo :: validatorListInfo ::
      validatorStakeAccountInfo :: transientStakeAccountInfo :: clockInfo :: rentInfo ::
      systemProgramInfo :: stakeProgramInfo :: _ => do
    checkSysvar clockInfo.key .clock
    checkSysvar rentInfo.key .rent
    checkProgram systemProgramInfo.key .system
    checkProgram stakeProgramInfo.key .stake
    let stakePool ← w.readStakePool stakePoolInfo.key
    checkAuthorityWithdraw withdrawAuthorityInfo.key stakePoolInfo.key
    stakePool.checkStaker stakerInfo
    w.outOfDate stakePool
    stakePool.checkValidatorList validatorListInfo.key
    let validatorList ← w.readValidatorList validatorListInfo.key
    let (m, d) ← w.getStakeState validatorStakeAccountInfo.key
    checkValidatorStakeAddress stakePoolInfo.key validatorStakeAccountInfo.key d.voter
    let info ← okOr (validatorList.find d.voter) validatorNotFound
    failIf (0 < info.transientStakeLamports) transientAccountInUse
    checkTransientStakeAddress stakePoolInfo.key transientStakeAccountInfo.key d.voter
      transientStakeSeed
    failIf (lamports ≤ env.stake.rent) .accountNotRentExempt
    let remaining ← okOr (sub (w.lamports validatorStakeAccountInfo.key) lamports)
      .insufficientFunds
    failIf (remaining < minimumStakeLamports m.rentExemptReserve) .insufficientFunds
    let w ← w.allocateStake transientStakeAccountInfo.key
    let w ← w.callStake env (only withdrawAuthorityInfo.key)
      (.split validatorStakeAccountInfo.key transientStakeAccountInfo.key lamports)
    let w ← w.callStake env (only withdrawAuthorityInfo.key)
      (.deactivate transientStakeAccountInfo.key)
    let active ← okOr (sub info.activeStakeLamports lamports) calculationFailure
    return w.writeData validatorListInfo.key (.validatorList (validatorList.set d.voter { info with
      activeStakeLamports := active
      transientStakeLamports := lamports
      transientSeedSuffixStart := transientStakeSeed }))
  | _ => .error .notEnoughAccountKeys

def processIncreaseValidatorStake : Except Fault World :=
  match accounts with
  | stakePoolInfo :: stakerInfo :: withdrawAuthorityInfo :: validatorListInfo ::
      reserveStakeAccountInfo :: transientStakeAccountInfo :: validatorVoteAccountInfo ::
      clockInfo :: rentInfo :: _stakeHistoryInfo :: _stakeConfigInfo :: systemProgramInfo ::
      stakeProgramInfo :: _ => do
    checkSysvar clockInfo.key .clock
    checkSysvar rentInfo.key .rent
    checkProgram systemProgramInfo.key .system
    checkProgram stakeProgramInfo.key .stake
    let stakePool ← w.readStakePool stakePoolInfo.key
    checkAuthorityWithdraw withdrawAuthorityInfo.key stakePoolInfo.key
    stakePool.checkStaker stakerInfo
    w.outOfDate stakePool
    stakePool.checkValidatorList validatorListInfo.key
    stakePool.checkReserveStake reserveStakeAccountInfo.key
    let validatorList ← w.readValidatorList validatorListInfo.key
    let vote := validatorVoteAccountInfo.key
    let info ← okOr (validatorList.find vote) validatorNotFound
    failIf (0 < info.transientStakeLamports) transientAccountInUse
    checkTransientStakeAddress stakePoolInfo.key transientStakeAccountInfo.key vote
      transientStakeSeed
    failIf (info.status ≠ .active) validatorNotFound
    failIf (lamports < minimumActiveStake) .accountNotRentExempt
    let totalLamports := saturatingAdd 64 lamports env.stake.rent
    failIf (w.lamports reserveStakeAccountInfo.key - totalLamports ≤ env.stake.rent)
      .insufficientFunds
    let w ← w.allocateStake transientStakeAccountInfo.key
    let w ← w.callStake env (only withdrawAuthorityInfo.key)
      (.split reserveStakeAccountInfo.key transientStakeAccountInfo.key totalLamports)
    let w ← w.callStake env (only withdrawAuthorityInfo.key)
      (.delegate transientStakeAccountInfo.key vote)
    return w.writeData validatorListInfo.key (.validatorList (validatorList.set vote { info with
      transientStakeLamports := totalLamports
      transientSeedSuffixStart := transientStakeSeed }))
  | _ => .error .notEnoughAccountKeys

inductive PreferredValidatorType
  | deposit
  | withdraw
deriving DecidableEq, Repr

def ValidatorList.checkPreferred (self : ValidatorList) : Option Address → Except Fault Unit
  | none => .ok ()
  | some vote => do
    let info ← okOr (self.find vote) validatorNotFound
    failIf (info.status ≠ .active) invalidPreferredValidator

def StakePool.prefer (self : StakePool) (validatorType : PreferredValidatorType)
    (vote : Option Address) : StakePool :=
  match validatorType with
  | .deposit => { self with preferredDepositValidatorVoteAddress := vote }
  | .withdraw => { self with preferredWithdrawValidatorVoteAddress := vote }

def processSetPreferredValidator (accounts : List AccountMeta)
    (validatorType : PreferredValidatorType) (vote : Option Address) (w : World) :
    Except Fault World :=
  match accounts with
  | stakePoolInfo :: stakerInfo :: validatorListInfo :: _ => do
    let stakePool ← w.readStakePool stakePoolInfo.key
    stakePool.checkStaker stakerInfo
    stakePool.checkValidatorList validatorListInfo.key
    let validatorList ← w.readValidatorList validatorListInfo.key
    validatorList.checkPreferred vote
    return w.writeData stakePoolInfo.key (.stakePool (stakePool.prefer validatorType vote))
  | _ => .error .notEnoughAccountKeys

/-! ## Updates -/

def World.mergeIntoReserve (w : World) (withdrawAuthority reserveStake transientStake : Address)
    (status : StakeStatus) : Except Fault (World × ℕ × StakeStatus) := do
  let w ← w.callStake env (only withdrawAuthority) (.merge reserveStake transientStake)
  return (w, 0, if status = .deactivatingTransient then .readyForRemoval else status)

variable (w : World) (withdrawAuthority reserveStake validatorStake transientStake : Address)

/-- The merge of the active transient stake into the validator stake. What is more than the
delegation goes to the reserve. -/
def World.mergeIntoValidator (delegated : ℕ) : Except Fault World := do
  let additional := w.lamports transientStake - delegated
  let w ← w.callStake env (only withdrawAuthority) (.merge validatorStake transientStake)
  if 0 < additional then
    w.callStake env (only withdrawAuthority) (.withdraw validatorStake reserveStake additional)
  else .ok w

/-- What happens to the transient stake of an entry: the world, the transient lamports and the
status. -/
def World.settleTransient (noMerge : Bool) (status : StakeStatus) :
    Except Fault (World × ℕ × StakeStatus) :=
  match w.stakes.state transientStake with
  | some (.initialized m) =>
    if m.staker = withdrawAuthority ∧ m.withdrawer = withdrawAuthority then
      if noMerge then .ok (w, w.lamports transientStake, status)
      else w.mergeIntoReserve env withdrawAuthority reserveStake transientStake status
    else .ok (w, 0, status)
  | some (.stake m d) =>
    if m.staker = withdrawAuthority ∧ m.withdrawer = withdrawAuthority then
      let accountStake := saturatingAdd 64 m.rentExemptReserve d.stake
      if noMerge then .ok (w, accountStake, status)
      else if ∃ e ∈ d.deactivationEpoch, e < w.epoch then
        w.mergeIntoReserve env withdrawAuthority reserveStake transientStake status
      else if d.activationEpoch < w.epoch then
        match w.stakes.state validatorStake with
        | some (.stake _ validatorDelegation) =>
          if validatorDelegation.activationEpoch < w.epoch then do
            let w ← w.mergeIntoValidator env withdrawAuthority reserveStake validatorStake
              transientStake d.stake
            return (w, 0, status)
          else .ok (w, accountStake, status)
        | _ => .ok (w, accountStake, status)
      else .ok (w, accountStake, status)
    else .ok (w, 0, status)
  | _ => .ok (w, 0, status)

def World.activeLamports (w : World) (validatorStake : Address) (status : StakeStatus) :
    Except Fault ℕ :=
  match w.stakes.state validatorStake with
  | some (.stake _ d) =>
    if status = .active then
      okOr (sub d.stake minimumActiveStake) calculationFailure
    else .ok 0
  | _ => .ok 0

/-- One turn of the loop of `process_update_validator_list_balance`. -/
def World.updateEntry (w : World) (stakePool withdrawAuthority reserveStake : Address)
    (noMerge : Bool) (info : ValidatorStakeInfo) (validatorStake transientStake : Address) :
    Except Fault (World × ValidatorStakeInfo) :=
  if validatorStake ≠ .validatorStake info.voteAccountAddress stakePool ∨
      transientStake ≠
        .transientStake info.voteAccountAddress stakePool info.transientSeedSuffixStart then
    .ok (w, info)
  else do
    let (w, transientLamports, status) ← w.settleTransient env withdrawAuthority reserveStake
      validatorStake transientStake noMerge info.status
    let activeLamports ← w.activeLamports validatorStake status
    return (w, { info with
      lastUpdateEpoch := w.epoch
      activeStakeLamports := activeLamports
      transientStakeLamports := transientLamports
      status })

/-- The loop of `process_update_validator_list_balance`: the entries are updated by pairs of a
validator stake and a transient stake. -/
def World.updateEntries (w : World) (stakePool withdrawAuthority reserveStake : Address)
    (noMerge : Bool) : List ValidatorStakeInfo → List AccountMeta →
    Except Fault (World × List ValidatorStakeInfo)
  | info :: infos, validatorStakeInfo :: transientStakeInfo :: accounts => do
    let (w, info) ← w.updateEntry env stakePool withdrawAuthority reserveStake noMerge info
      validatorStakeInfo.key transientStakeInfo.key
    let (w, infos) ← w.updateEntries stakePool withdrawAuthority reserveStake noMerge infos accounts
    return (w, info :: infos)
  | infos, _ => .ok (w, infos)

def processUpdateValidatorListBalance (accounts : List AccountMeta) (startIndex : ℕ)
    (noMerge : Bool) (w : World) : Except Fault World :=
  match accounts with
  | stakePoolInfo :: withdrawAuthorityInfo :: validatorListInfo :: reserveStakeInfo :: clockInfo ::
      _stakeHistoryInfo :: stakeProgramInfo :: validatorStakeAccounts => do
    checkSysvar clockInfo.key .clock
    let stakePool ← w.readStakePool stakePoolInfo.key
    stakePool.checkValidatorList validatorListInfo.key
    checkAuthorityWithdraw withdrawAuthorityInfo.key stakePoolInfo.key
    stakePool.checkReserveStake reserveStakeInfo.key
    checkProgram stakeProgramInfo.key .stake
    failIf (validatorStakeAccounts.length % 2 ≠ 0) unexpectedValidatorListAccountSize
    let validatorList ← w.readValidatorList validatorListInfo.key
    let len := validatorStakeAccounts.length / 2
    failIf (validatorList.validators.length < startIndex + len) .accountDataTooSmall
    let (w, infos) ← w.updateEntries env stakePoolInfo.key withdrawAuthorityInfo.key
      reserveStakeInfo.key noMerge ((validatorList.validators.drop startIndex).take len)
      validatorStakeAccounts
    return w.writeData validatorListInfo.key (.validatorList { validatorList with
      validators := validatorList.validators.take startIndex ++ infos ++
        validatorList.validators.drop (startIndex + len) })
  | _ => .error .notEnoughAccountKeys

def World.reserveLamports (w : World) (reserveStake : Address) : Except Fault ℕ :=
  match w.stakes.state reserveStake with
  | none => .error .invalidAccountData
  | some (.initialized m) =>
    okOr (sub (w.lamports reserveStake) (minimumReserveLamports m.rentExemptReserve))
      calculationFailure
  | some _ => .error wrongStakeState

/-- The loop of `process_update_stake_pool_balance`: the lamports of all entries, which have to be
up to date. -/
def addEntries (epoch : ℕ) : ℕ → List ValidatorStakeInfo → Except Fault ℕ
  | totalLamports, [] => .ok totalLamports
  | totalLamports, info :: infos => do
    failIf (info.lastUpdateEpoch < epoch) stakeListOutOfDate
    let stakeLamports ← info.stakeLamports
    let totalLamports ← okOr (add 64 totalLamports stakeLamports) calculationFailure
    addEntries epoch totalLamports infos

def StakePool.startEpoch (self : StakePool) (epoch : ℕ) : StakePool :=
  if self.lastUpdateEpoch < epoch then
    { self with
      epochFee := self.nextEpochFee.getD self.epochFee
      nextEpochFee := none
      stakeWithdrawalFee := self.nextStakeWithdrawalFee.getD self.stakeWithdrawalFee
      nextStakeWithdrawalFee := none
      solWithdrawalFee := self.nextSolWithdrawalFee.getD self.solWithdrawalFee
      nextSolWithdrawalFee := none
      lastUpdateEpoch := epoch
      lastEpochTotalLamports := self.totalLamports
      lastEpochPoolTokenSupply := self.poolTokenSupply }
  else self

/-- The fee of the manager for the rewards of an epoch. A manager with an invalid fee account does
not receive it. -/
def World.epochFeeTokens (w : World) (p : StakePool) (managerFeeInfo : Address)
    (rewardLamports : ℕ) : Except Fault ℕ :=
  if w.checkManagerFeeInfo p managerFeeInfo = true then
    okOr (p.calcEpochFeeAmount rewardLamports) calculationFailure
  else .ok 0

variable (accounts : List AccountMeta) (w : World)

def processUpdateStakePoolBalance : Except Fault World :=
  match accounts with
  | stakePoolInfo :: withdrawInfo :: validatorListInfo :: reserveStakeInfo :: managerFeeInfo ::
      poolMintInfo :: tokenProgramInfo :: _ => do
    let stakePool ← w.readStakePool stakePoolInfo.key
    stakePool.checkMint poolMintInfo.key
    checkAuthorityWithdraw withdrawInfo.key stakePoolInfo.key
    stakePool.checkReserveStake reserveStakeInfo.key
    failIf (stakePool.managerFeeAccount ≠ managerFeeInfo.key) invalidFeeAccount
    stakePool.checkValidatorList validatorListInfo.key
    failIf (stakePool.tokenProgramId ≠ tokenProgramInfo.key) .incorrectProgramId
    let validatorList ← w.readValidatorList validatorListInfo.key
    let reserveLamports ← w.reserveLamports reserveStakeInfo.key
    let totalLamports ← addEntries w.epoch reserveLamports validatorList.validators
    let fee ← w.epochFeeTokens stakePool managerFeeInfo.key
      (totalLamports - stakePool.totalLamports)
    let w ← w.mintIfPositive poolMintInfo.key managerFeeInfo.key withdrawInfo.key fee
    let poolMint ← okOr (w.tokens.mint? poolMintInfo.key) .invalidAccountData
    return w.writeData stakePoolInfo.key (.stakePool { stakePool.startEpoch w.epoch with
      totalLamports
      poolTokenSupply := poolMint.supply })
  | _ => .error .notEnoughAccountKeys

def processCleanupRemovedValidatorEntries : Except Fault World :=
  match accounts with
  | stakePoolInfo :: validatorListInfo :: _ => do
    let stakePool ← w.readStakePool stakePoolInfo.key
    stakePool.checkValidatorList validatorListInfo.key
    let validatorList ← w.readValidatorList validatorListInfo.key
    return w.writeData validatorListInfo.key (.validatorList { validatorList with
      validators := validatorList.validators.filter ValidatorStakeInfo.isNotRemoved })
  | _ => .error .notEnoughAccountKeys

/-! ## Deposits -/

structure DepositShares where
  user : ℕ
  manager : ℕ
  referrer : ℕ
deriving DecidableEq, Repr

/-- The user gets what is left after the fee, the manager what is left of the fee after the
referral. -/
def depositShares (newPoolTokens fee referralFee : ℕ) : Except Fault DepositShares := do
  let user ← okOr (sub newPoolTokens fee) calculationFailure
  let manager ← okOr (sub fee referralFee) calculationFailure
  failIf (saturatingAdd 64 (saturatingAdd 64 user manager) referralFee ≠ newPoolTokens)
    calculationFailure
  failIf (user = 0) depositTooSmall
  return ⟨user, manager, referralFee⟩

def World.mintShares (w : World) (mint destUserPool managerFee referrerFee withdrawAuthority :
    Address) (shares : DepositShares) : Except Fault World := do
  let w ← w.tokenMintTo mint destUserPool withdrawAuthority shares.user
  let w ← w.mintIfPositive mint managerFee withdrawAuthority shares.manager
  w.mintIfPositive mint referrerFee withdrawAuthority shares.referrer

variable (self : StakePool)

def StakePool.deposited (newPoolTokens lamports : ℕ) : Except Fault StakePool := do
  let poolTokenSupply ← okOr (add 64 self.poolTokenSupply newPoolTokens) calculationFailure
  let totalLamports ← okOr (add 64 self.totalLamports lamports) calculationFailure
  return { self with poolTokenSupply, totalLamports }

def StakePool.checkPreferredDeposit (vote : Address) : Except Fault Unit :=
  failIf (∃ preferred ∈ self.preferredDepositValidatorVoteAddress, preferred ≠ vote)
    incorrectDepositVoteAddress

/-- The tokens of a stake deposit: the number, and how they are shared. -/
def StakePool.stakeDepositTokens (totalDeposit stakeDeposit : ℕ) :
    Except Fault (ℕ × DepositShares) := do
  let newPoolTokens ← okOr (self.calcPoolTokensForDeposit totalDeposit) calculationFailure
  let fromStake ← okOr (self.calcPoolTokensForDeposit stakeDeposit) calculationFailure
  let fromSol ← okOr (sub newPoolTokens fromStake) calculationFailure
  let stakeDepositFee ← okOr (self.calcPoolTokensStakeDepositFee fromStake) calculationFailure
  let solDepositFee ← okOr (self.calcPoolTokensSolDepositFee fromSol) calculationFailure
  let totalFee ← okOr (add 64 stakeDepositFee solDepositFee) calculationFailure
  let referralFee ← okOr (self.calcPoolTokensStakeReferralFee totalFee) calculationFailure
  let shares ← depositShares newPoolTokens totalFee referralFee
  return (newPoolTokens, shares)

def World.withdrawToReserve (w : World) (withdrawAuthority validatorStake reserveStake : Address)
    (lamports : ℕ) : Except Fault World :=
  if 0 < lamports then
    w.callStake env (only withdrawAuthority) (.withdraw validatorStake reserveStake lamports)
  else .ok w

/-- The authorities of the deposited stake are replaced: the program signs for its own deposit
authority, another one has to sign. -/
def World.takeOver (w : World) (stakePool stakeAccount withdrawAuthority : Address)
    (depositAuthority : AccountMeta) : Except Fault World := do
  failIf (depositAuthority.key ≠ .depositAuthority stakePool ∧ depositAuthority.isSigner = false)
    (.called .stake)
  w.stakeAuthorize env stakeAccount depositAuthority.key withdrawAuthority

def processDepositStake (accounts : List AccountMeta) (w : World) : Except Fault World :=
  match accounts with
  | stakePoolInfo :: validatorListInfo :: stakeDepositAuthorityInfo :: withdrawAuthorityInfo ::
      stakeInfo :: validatorStakeAccountInfo :: reserveStakeAccountInfo :: destUserPoolInfo ::
      managerFeeInfo :: referrerFeeInfo :: poolMintInfo :: clockInfo :: _stakeHistoryInfo ::
      tokenProgramInfo :: stakeProgramInfo :: _ => do
    checkSysvar clockInfo.key .clock
    checkProgram stakeProgramInfo.key .stake
    let stakePool ← w.readStakePool stakePoolInfo.key
    checkAuthorityWithdraw withdrawAuthorityInfo.key stakePoolInfo.key
    stakePool.checkStakeDepositAuthority stakeDepositAuthorityInfo.key
    stakePool.checkMint poolMintInfo.key
    stakePool.checkValidatorList validatorListInfo.key
    stakePool.checkReserveStake reserveStakeAccountInfo.key
    failIf (stakePool.tokenProgramId ≠ tokenProgramInfo.key) .incorrectProgramId
    failIf (stakePool.managerFeeAccount ≠ managerFeeInfo.key) invalidFeeAccount
    w.outOfDate stakePool
    let validatorList ← w.readValidatorList validatorListInfo.key
    let (_, d) ← w.getStakeState validatorStakeAccountInfo.key
    let preAllValidatorLamports := w.lamports validatorStakeAccountInfo.key
    checkValidatorStakeAddress stakePoolInfo.key validatorStakeAccountInfo.key d.voter
    stakePool.checkPreferredDeposit d.voter
    let info ← okOr (validatorList.find d.voter) validatorNotFound
    failIf (info.status ≠ .active) validatorNotFound
    let w ← w.takeOver env stakePoolInfo.key stakeInfo.key withdrawAuthorityInfo.key
      stakeDepositAuthorityInfo
    let w ← w.callStake env (only withdrawAuthorityInfo.key)
      (.merge validatorStakeAccountInfo.key stakeInfo.key)
    let (_, post) ← w.getStakeState validatorStakeAccountInfo.key
    let totalDeposit ← okOr (sub (w.lamports validatorStakeAccountInfo.key) preAllValidatorLamports)
      calculationFailure
    let stakeDeposit ← okOr (sub post.stake d.stake) calculationFailure
    let solDeposit ← okOr (sub totalDeposit stakeDeposit) calculationFailure
    let (newPoolTokens, shares) ← stakePool.stakeDepositTokens totalDeposit stakeDeposit
    let w ← w.mintShares poolMintInfo.key destUserPoolInfo.key managerFeeInfo.key
      referrerFeeInfo.key withdrawAuthorityInfo.key shares
    let w ← w.withdrawToReserve env withdrawAuthorityInfo.key validatorStakeAccountInfo.key
      reserveStakeAccountInfo.key solDeposit
    let stakePool ← stakePool.deposited newPoolTokens totalDeposit
    let active ← okOr (sub post.stake minimumActiveStake) calculationFailure
    let w := w.writeData stakePoolInfo.key (.stakePool stakePool)
    return w.writeData validatorListInfo.key
      (.validatorList (validatorList.set d.voter { info with activeStakeLamports := active }))
  | _ => .error .notEnoughAccountKeys

/-- The tokens of a SOL deposit: the number, and how they are shared. -/
def StakePool.solDepositTokens (self : StakePool) (lamports : ℕ) :
    Except Fault (ℕ × DepositShares) := do
  let newPoolTokens ← okOr (self.calcPoolTokensForDeposit lamports) calculationFailure
  let fee ← okOr (self.calcPoolTokensSolDepositFee newPoolTokens) calculationFailure
  let referralFee ← okOr (self.calcPoolTokensSolReferralFee fee) calculationFailure
  let shares ← depositShares newPoolTokens fee referralFee
  return (newPoolTokens, shares)

def processDepositSol (accounts : List AccountMeta) (depositLamports : ℕ) (w : World) :
    Except Fault World :=
  match accounts with
  | stakePoolInfo :: withdrawAuthorityInfo :: reserveStakeAccountInfo :: fromUserLamportsInfo ::
      destUserPoolInfo :: managerFeeInfo :: referrerFeeInfo :: poolMintInfo :: systemProgramInfo ::
      tokenProgramInfo :: rest => do
    let stakePool ← w.readStakePool stakePoolInfo.key
    checkAuthorityWithdraw withdrawAuthorityInfo.key stakePoolInfo.key
    stakePool.checkSolDepositAuthority rest.head?
    stakePool.checkMint poolMintInfo.key
    stakePool.checkReserveStake reserveStakeAccountInfo.key
    failIf (stakePool.tokenProgramId ≠ tokenProgramInfo.key) .incorrectProgramId
    checkProgram systemProgramInfo.key .system
    failIf (stakePool.managerFeeAccount ≠ managerFeeInfo.key) invalidFeeAccount
    w.outOfDate stakePool
    let (newPoolTokens, shares) ← stakePool.solDepositTokens depositLamports
    let w ← w.systemTransfer fromUserLamportsInfo reserveStakeAccountInfo.key depositLamports
    let w ← w.mintShares poolMintInfo.key destUserPoolInfo.key managerFeeInfo.key
      referrerFeeInfo.key withdrawAuthorityInfo.key shares
    let stakePool ← stakePool.deposited newPoolTokens depositLamports
    return w.writeData stakePoolInfo.key (.stakePool stakePool)
  | _ => .error .notEnoughAccountKeys

/-! ## Withdrawals -/

/-- The fee of a withdrawal. The fee account itself pays none, and a faulty fee account must not
prevent withdrawals. -/
def World.withdrawalFee (w : World) (p : StakePool) (burnFrom managerFeeInfo : Address)
    (fee : Option ℕ) : Except Fault ℕ :=
  if p.managerFeeAccount = burnFrom ∨ w.checkManagerFeeInfo p managerFeeInfo = false then .ok 0
  else okOr fee calculationFailure

variable (self : StakePool)

def StakePool.payout (poolTokens fee : ℕ) : Except Fault (ℕ × ℕ) := do
  let burnt ← okOr (sub poolTokens fee) calculationFailure
  let lamports ← okOr (self.calcLamportsWithdrawAmount burnt) calculationFailure
  failIf (lamports = 0) withdrawalTooSmall
  return (burnt, lamports)

def StakePool.withdrawn (burnt lamports : ℕ) : Except Fault StakePool := do
  let poolTokenSupply ← okOr (sub self.poolTokenSupply burnt) calculationFailure
  let totalLamports ← okOr (sub self.totalLamports lamports) calculationFailure
  return { self with poolTokenSupply, totalLamports }

def StakePool.checkPreferredWithdraw (validatorList : ValidatorList) (vote : Address) :
    Except Fault Unit :=
  match self.preferredWithdrawValidatorVoteAddress with
  | none => .ok ()
  | some preferred => do
    let info ← okOr (validatorList.find preferred) validatorNotFound
    failIf (preferred ≠ vote ∧ 0 < info.activeStakeLamports) incorrectWithdrawVoteAddress

/-- As long as there is active stake, stake has to be withdrawn from an active stake account. -/
def checkWithdrawAddress (stakePoolAddress source vote : Address) (seed : ℕ)
    (hasActiveStake : Bool) : Except Fault Unit :=
  if hasActiveStake then checkValidatorStakeAddress stakePoolAddress source vote
  else checkTransientStakeAddress stakePoolAddress source vote seed

/-- The account a stake withdrawal may take from: the reserve, or the entry of a validator with
whether it is the transient stake. -/
def World.withdrawSource (w : World) (stakePoolAddress : Address) (p : StakePool)
    (validatorList : ValidatorList) (source : Address) (lamports : ℕ) :
    Except Fault (Option (Address × ValidatorStakeInfo × Bool)) :=
  if source = p.reserveStake then do
    failIf (validatorList.hasTransientStake = true ∨ validatorList.hasActiveStake = true)
      stakeLamportsNotEqualToMinimum
    let state ← okOr (w.stakes.state source) .invalidAccountData
    let m ← okOr state.meta? wrongStakeState
    let _ ← okOr (sub (w.lamports source) (minimumReserveLamports m.rentExemptReserve))
      stakeLamportsNotEqualToMinimum
    return none
  else do
    let (_, d) ← w.getStakeState source
    p.checkPreferredWithdraw validatorList d.voter
    let info ← okOr (validatorList.find d.voter) validatorNotFound
    checkWithdrawAddress stakePoolAddress source d.voter info.transientSeedSuffixStart
      validatorList.hasActiveStake
    failIf (info.status ≠ .active) validatorNotFound
    failIf (d.stake - lamports < minimumActiveStake) stakeLamportsNotEqualToMinimum
    return some (d.voter, info, !validatorList.hasActiveStake)

def World.transferFee (w : World) (source managerFee : Address) (authority : AccountMeta)
    (fee : ℕ) : Except Fault World :=
  if 0 < fee then w.tokenTransfer source managerFee authority fee else .ok w

/-- The entry a stake withdrawal took from. -/
def ValidatorStakeInfo.withdrawn (self : ValidatorStakeInfo) (fromTransient : Bool)
    (lamports : ℕ) : Except Fault ValidatorStakeInfo :=
  if fromTransient then do
    let transientStakeLamports ← okOr (sub self.transientStakeLamports lamports) calculationFailure
    return { self with transientStakeLamports }
  else do
    let activeStakeLamports ← okOr (sub self.activeStakeLamports lamports) calculationFailure
    return { self with activeStakeLamports }

def ValidatorList.withdrawn (self : ValidatorList)
    (source : Option (Address × ValidatorStakeInfo × Bool)) (lamports : ℕ) :
    Except Fault ValidatorList :=
  match source with
  | none => .ok self
  | some (vote, info, fromTransient) => do
    let info ← info.withdrawn fromTransient lamports
    return self.set vote info

def processWithdrawStake (accounts : List AccountMeta) (poolTokens : ℕ) (w : World) :
    Except Fault World :=
  match accounts with
  | stakePoolInfo :: validatorListInfo :: withdrawAuthorityInfo :: stakeSplitFrom ::
      stakeSplitTo :: userStakeAuthorityInfo :: userTransferAuthorityInfo :: burnFromPoolInfo ::
      managerFeeInfo :: poolMintInfo :: clockInfo :: tokenProgramInfo :: stakeProgramInfo :: _ => do
    checkSysvar clockInfo.key .clock
    checkProgram stakeProgramInfo.key .stake
    let stakePool ← w.readStakePool stakePoolInfo.key
    stakePool.checkMint poolMintInfo.key
    stakePool.checkValidatorList validatorListInfo.key
    checkAuthorityWithdraw withdrawAuthorityInfo.key stakePoolInfo.key
    failIf (stakePool.managerFeeAccount ≠ managerFeeInfo.key) invalidFeeAccount
    failIf (stakePool.tokenProgramId ≠ tokenProgramInfo.key) .incorrectProgramId
    w.outOfDate stakePool
    let validatorList ← w.readValidatorList validatorListInfo.key
    let fee ← w.withdrawalFee stakePool burnFromPoolInfo.key managerFeeInfo.key
      (stakePool.calcPoolTokensStakeWithdrawalFee poolTokens)
    let (burnt, lamports) ← stakePool.payout poolTokens fee
    let source ← w.withdrawSource stakePoolInfo.key stakePool validatorList stakeSplitFrom.key
      lamports
    let w ← w.tokenBurn burnFromPoolInfo.key poolMintInfo.key userTransferAuthorityInfo burnt
    let w ← w.callStake env (only withdrawAuthorityInfo.key)
      (.split stakeSplitFrom.key stakeSplitTo.key lamports)
    let w ← w.stakeAuthorize env stakeSplitTo.key withdrawAuthorityInfo.key
      userStakeAuthorityInfo.key
    let w ← w.transferFee burnFromPoolInfo.key managerFeeInfo.key userTransferAuthorityInfo fee
    let stakePool ← stakePool.withdrawn burnt lamports
    let validatorList ← validatorList.withdrawn source lamports
    let w := w.writeData stakePoolInfo.key (.stakePool stakePool)
    return w.writeData validatorListInfo.key (.validatorList validatorList)
  | _ => .error .notEnoughAccountKeys

def World.checkReserveAfter (w : World) (reserveStake : Address) (lamports : ℕ) :
    Except Fault Unit :=
  match w.stakes.state reserveStake with
  | none => .error .invalidAccountData
  | some (.initialized m) =>
    failIf (w.lamports reserveStake - lamports < minimumReserveLamports m.rentExemptReserve)
      solWithdrawalTooLarge
  | some _ => .error wrongStakeState

variable (accounts : List AccountMeta)

def processWithdrawSol (poolTokens : ℕ) (w : World) : Except Fault World :=
  match accounts with
  | stakePoolInfo :: withdrawAuthorityInfo :: userTransferAuthorityInfo :: burnFromPoolInfo ::
      reserveStakeInfo :: destinationLamportsInfo :: managerFeeInfo :: poolMintInfo ::
      _clockInfo :: _stakeHistoryInfo :: stakeProgramInfo :: tokenProgramInfo :: rest => do
    let stakePool ← w.readStakePool stakePoolInfo.key
    checkAuthorityWithdraw withdrawAuthorityInfo.key stakePoolInfo.key
    stakePool.checkSolWithdrawAuthority rest.head?
    stakePool.checkMint poolMintInfo.key
    stakePool.checkReserveStake reserveStakeInfo.key
    failIf (stakePool.tokenProgramId ≠ tokenProgramInfo.key) .incorrectProgramId
    checkProgram stakeProgramInfo.key .stake
    failIf (stakePool.managerFeeAccount ≠ managerFeeInfo.key) invalidFeeAccount
    w.outOfDate stakePool
    let fee ← w.withdrawalFee stakePool burnFromPoolInfo.key managerFeeInfo.key
      (stakePool.calcPoolTokensSolWithdrawalFee poolTokens)
    let (burnt, lamports) ← stakePool.payout poolTokens fee
    w.checkReserveAfter reserveStakeInfo.key lamports
    let w ← w.tokenBurn burnFromPoolInfo.key poolMintInfo.key userTransferAuthorityInfo burnt
    let w ← w.transferFee burnFromPoolInfo.key managerFeeInfo.key userTransferAuthorityInfo fee
    let w ← w.callStake env (only withdrawAuthorityInfo.key)
      (.withdraw reserveStakeInfo.key destinationLamportsInfo.key lamports)
    let stakePool ← stakePool.withdrawn burnt lamports
    return w.writeData stakePoolInfo.key (.stakePool stakePool)
  | _ => .error .notEnoughAccountKeys

/-! ## Settings -/

def processSetManager (w : World) : Except Fault World :=
  match accounts with
  | stakePoolInfo :: managerInfo :: newManagerInfo :: newManagerFeeInfo :: _ => do
    let stakePool ← w.readStakePool stakePoolInfo.key
    let newManagerFee ← okOr (w.tokens.account? newManagerFeeInfo.key) .incorrectProgramId
    stakePool.checkManager managerInfo
    failIf (newManagerInfo.isSigner = false) signatureMissing
    failIf (stakePool.poolMint ≠ newManagerFee.mint) wrongAccountMint
    return w.writeData stakePoolInfo.key (.stakePool { stakePool with
      manager := newManagerInfo.key
      managerFeeAccount := newManagerFeeInfo.key })
  | _ => .error .notEnoughAccountKeys

def processSetFee (fee : FeeType) (w : World) : Except Fault World :=
  match accounts with
  | stakePoolInfo :: managerInfo :: _ => do
    let stakePool ← w.readStakePool stakePoolInfo.key
    stakePool.checkManager managerInfo
    failIf (fee.canOnlyChangeNextEpoch = true ∧ stakePool.lastUpdateEpoch < w.epoch)
      stakeListAndPoolOutOfDate
    fee.checkTooHigh
    let stakePool ← stakePool.updateFee fee
    return w.writeData stakePoolInfo.key (.stakePool stakePool)
  | _ => .error .notEnoughAccountKeys

def succeeds (x : Except Fault Unit) : Bool :=
  match x with
  | .ok _ => true
  | .error _ => false

def processSetStaker (accounts : List AccountMeta) (w : World) : Except Fault World :=
  match accounts with
  | stakePoolInfo :: setStakerAuthorityInfo :: newStakerInfo :: _ => do
    let stakePool ← w.readStakePool stakePoolInfo.key
    failIf (succeeds (stakePool.checkStaker setStakerAuthorityInfo) = false ∧
      succeeds (stakePool.checkManager setStakerAuthorityInfo) = false) signatureMissing
    return w.writeData stakePoolInfo.key (.stakePool { stakePool with staker := newStakerInfo.key })
  | _ => .error .notEnoughAccountKeys

inductive FundingType
  | stakeDeposit
  | solDeposit
  | solWithdraw
deriving DecidableEq, Repr

def StakePool.withFundingAuthority (self : StakePool) (stakePool : Address)
    (fundingType : FundingType) (newAuthority : Option Address) : StakePool :=
  match fundingType with
  | .stakeDeposit =>
    { self with stakeDepositAuthority := newAuthority.getD (.depositAuthority stakePool) }
  | .solDeposit => { self with solDepositAuthority := newAuthority }
  | .solWithdraw => { self with solWithdrawAuthority := newAuthority }

def processSetFundingAuthority (accounts : List AccountMeta) (fundingType : FundingType)
    (w : World) : Except Fault World :=
  match accounts with
  | stakePoolInfo :: managerInfo :: rest => do
    let stakePool ← w.readStakePool stakePoolInfo.key
    stakePool.checkManager managerInfo
    return w.writeData stakePoolInfo.key (.stakePool (stakePool.withFundingAuthority
      stakePoolInfo.key fundingType (rest.head?.map AccountMeta.key)))
  | _ => .error .notEnoughAccountKeys

/-! ## Dispatch -/

inductive StakePoolInstruction
  | initializePool (epochFee withdrawalFee depositFee : Fee) (referralFee maxValidators : ℕ)
  | addValidatorToPool
  | removeValidatorFromPool
  | decreaseValidatorStake (lamports transientStakeSeed : ℕ)
  | increaseValidatorStake (lamports transientStakeSeed : ℕ)
  | setPreferredValidator (validatorType : PreferredValidatorType) (vote : Option Address)
  | updateValidatorListBalance (startIndex : ℕ) (noMerge : Bool)
  | updateStakePoolBalance
  | cleanupRemovedValidatorEntries
  | depositStake
  | withdrawStake (poolTokens : ℕ)
  | setManager
  | setFee (fee : FeeType)
  | setStaker
  | depositSol (lamports : ℕ)
  | setFundingAuthority (fundingType : FundingType)
  | withdrawSol (poolTokens : ℕ)
deriving DecidableEq, Repr

def process (instruction : StakePoolInstruction) (accounts : List AccountMeta) (w : World) :
    Except Fault World :=
  match instruction with
  | .initializePool epochFee withdrawalFee depositFee referralFee maxValidators =>
    processInitialize env accounts epochFee withdrawalFee depositFee referralFee maxValidators w
  | .addValidatorToPool => processAddValidatorToPool env accounts w
  | .removeValidatorFromPool => processRemoveValidatorFromPool env accounts w
  | .decreaseValidatorStake lamports transientStakeSeed =>
    processDecreaseValidatorStake env accounts lamports transientStakeSeed w
  | .increaseValidatorStake lamports transientStakeSeed =>
    processIncreaseValidatorStake env accounts lamports transientStakeSeed w
  | .setPreferredValidator validatorType vote =>
    processSetPreferredValidator accounts validatorType vote w
  | .updateValidatorListBalance startIndex noMerge =>
    processUpdateValidatorListBalance env accounts startIndex noMerge w
  | .updateStakePoolBalance => processUpdateStakePoolBalance accounts w
  | .cleanupRemovedValidatorEntries => processCleanupRemovedValidatorEntries accounts w
  | .depositStake => processDepositStake env accounts w
  | .withdrawStake poolTokens => processWithdrawStake env accounts poolTokens w
  | .setManager => processSetManager accounts w
  | .setFee fee => processSetFee accounts fee w
  | .setStaker => processSetStaker accounts w
  | .depositSol lamports => processDepositSol accounts lamports w
  | .setFundingAuthority fundingType => processSetFundingAuthority accounts fundingType w
  | .withdrawSol poolTokens => processWithdrawSol env accounts poolTokens w

end SolanaPrograms.StakePools
