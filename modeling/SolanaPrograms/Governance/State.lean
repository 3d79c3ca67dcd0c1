import SolanaPrograms.Lib.Outcome

/-!
# State of the governance program

Addresses, the records the program keeps in its accounts, and the checks and computations on one
record. Amounts and counters are natural numbers; where the source uses a checked operation on a
machine integer, so does the model.

A program-derived address is a function of the concatenation of its seeds, and two different
concatenations never give the same address. All seeds but the constants, the indices and a realm's
name are addresses of 32 bytes, so what matters is the constant in front and how many addresses
follow. A holding account, a signatory record and a vote record all come from `governance` followed
by two addresses: they are `Address.pair`.
-/

namespace SolanaPrograms.Governance

open Outcome

/-! ## Addresses -/

inductive GovernanceKind
  | account
  | program
  | mint
  | token
deriving DecidableEq, Repr

/-- Addresses: ordinary ones, and those derived from seeds. -/
inductive Address
  | wallet (n : ℕ)
  /-- `["governance", name]`. -/
  | named (name : List UInt8)
  /-- `["governance", a, b]`. -/
  | pair (a b : Address)
  /-- `["governance", a, b, c]`. -/
  | triple (a b c : Address)
  /-- `["governance", governance, mint, index]`. -/
  | proposal (governance mint : Address) (index : ℕ)
  /-- `["governance", proposal, option, index]`. -/
  | transaction (proposal : Address) (optionIndex index : ℕ)
  /-- `["account-governance", realm, governed]` and its siblings. -/
  | governance (kind : GovernanceKind) (realm governed : Address)
  /-- `["realm-config", realm]`. -/
  | realmConfig (realm : Address)
  /-- `["native-treasury", governance]`. -/
  | nativeTreasury (governance : Address)
  /-- `["metadata"]`. -/
  | metadata
  /-- The data account of a program, derived by the upgradeable loader. -/
  | programData (program : Address)
deriving DecidableEq

def getRealmAddress (name : List UInt8) : Address := .named name

def getGoverningTokenHoldingAddress (realm mint : Address) : Address := .pair realm mint

def getSignatoryRecordAddress (proposal signatory : Address) : Address := .pair proposal signatory

def getVoteRecordAddress (proposal tokenOwnerRecord : Address) : Address :=
  .pair proposal tokenOwnerRecord

def getTokenOwnerRecordAddress (realm mint owner : Address) : Address := .triple realm mint owner

/-- One entry of an instruction's account list. -/
structure AccountMeta where
  key : Address
  isSigner : Bool
deriving DecidableEq

/-! ## Errors -/

inductive GovernanceError
  | realmAlreadyExists
  | invalidGoverningTokenMint
  | governingTokenOwnerMustSign
  | governingTokenOwnerOrDelegateMustSign
  | allVotesMustBeRelinquishedToWithdrawGoverningTokens
  | invalidTokenOwnerRecordAccountAddress
  | invalidGoverningMintForTokenOwnerRecord
  | invalidRealmForTokenOwnerRecord
  | invalidProposalForProposalTransaction
  | invalidSignatoryAddress
  | signatoryAlreadySignedOff
  | signatoryMustSign
  | invalidProposalOwnerAccount
  | invalidProposalForVoterRecord
  | invalidGoverningTokenOwnerForVoteRecord
  | invalidVoteThresholdPercentage
  | proposalAlreadyExists
  | voteAlreadyExists
  | notEnoughTokensToCreateProposal
  | invalidStateCannotEditSignatories
  | invalidStateCannotEditTransactions
  | invalidStateCannotExecuteTransaction
  | cannotExecuteTransactionWithinHoldUpTime
  | transactionAlreadyExecuted
  | invalidTransactionIndex
  | transactionHoldUpTimeBelowRequiredMin
  | transactionAlreadyExists
  | invalidStateCannotSignOff
  | invalidStateCannotVote
  | invalidStateCannotFinalize
  | invalidStateCannotCancelProposal
  | voteAlreadyRelinquished
  | cannotFinalizeVotingInProgress
  | proposalVotingTimeExpired
  | invalidGovernanceForProposal
  | invalidGoverningMintForProposal
  | mintAuthorityMustSign
  | invalidMintAuthority
  | mintHasNoAuthority
  | invalidProgramDataAccountAddress
  | invalidUpgradeAuthority
  | upgradeAuthorityMustSign
  | programNotUpgradable
  | invalidTokenOwner
  | tokenOwnerMustSign
  | voteThresholdPercentageTypeNotSupported
  | voteWeightSourceNotSupported
  | proposalCoolOffTimeNotSupported
  | governancePdaMustSign
  | transactionAlreadyFlaggedWithError
  | invalidRealmForGovernance
  | invalidAuthorityForRealm
  | realmHasNoAuthority
  | realmAuthorityMustSign
  | invalidGoverningTokenHoldingAccount
  | realmCouncilMintChangeIsNotSupported
  | mintMaxVoteWeightSourceNotSupported
  | invalidMaxVoteWeightSupplyFraction
  | notEnoughTokensToCreateGovernance
  | tooManyOutstandingProposals
  | allProposalsMustBeFinalisedToWithdrawGoverningTokens
  | invalidVoterWeightRecordForRealm
  | invalidVoterWeightRecordForGoverningTokenMint
  | invalidVoterWeightRecordForTokenOwner
  | voterWeightRecordExpired
  | invalidRealmConfigForRealm
  | tokenOwnerRecordAlreadyExists
  | governingTokenDepositsNotAllowed
  | invalidVoteChoiceWeightPercentage
  | invalidProposalOptions
  | proposalIsNotExecutable
  | invalidVote
  | cannotExecuteDefeatedOption
  | voterWeightRecordInvalidAction
  | voterWeightRecordInvalidActionTarget
  | invalidMaxVoterWeightRecordForRealm
  | invalidMaxVoterWeightRecordForGoverningTokenMint
  | maxVoterWeightRecordExpired
  | notSupportedVoteType
deriving DecidableEq, Repr

/-- How an instruction stops without success. A `checked_add` or `checked_sub` that is unwrapped on
overflow is a panic of its own kind. -/
inductive Fault
  | governance (e : GovernanceError)
  | notEnoughAccountKeys
  /-- The account does not hold the expected kind of data of the expected program. -/
  | invalidAccount
  | invalidSeeds
  /-- The system program refused. -/
  | system
  /-- The token program refused. -/
  | token
  /-- A called instruction asks for a signature or an account the caller does not have. -/
  | privilegeEscalation
  | callDepth
  | overflow
  | underflow
  | panic
deriving DecidableEq, Repr

instance : Coe GovernanceError Fault := ⟨.governance⟩

open GovernanceError

/-- An unwrapped `checked_add` on integers of the given width. -/
def checkedAdd (bits a b : ℕ) : Except Fault ℕ :=
  if a + b < 2 ^ bits then .ok (a + b) else .error .overflow

def checkedSub (a b : ℕ) : Except Fault ℕ := if b ≤ a then .ok (a - b) else .error .underflow

@[simp] theorem checkedAdd_eq_ok {bits a b c : ℕ} :
    checkedAdd bits a b = .ok c ↔ a + b < 2 ^ bits ∧ a + b = c := by
  unfold checkedAdd
  split
  next h => simp [h]
  next h => simp [h]

@[simp] theorem checkedSub_eq_ok {a b c : ℕ} : checkedSub a b = .ok c ↔ b ≤ a ∧ a - b = c := by
  unfold checkedSub
  split
  next h => simp [h]
  next h => simp [h]

/-! ## Realms -/

inductive MintMaxVoteWeightSource
  | supplyFraction (fraction : ℕ)
  | absolute (weight : ℕ)
deriving DecidableEq, Repr

def supplyFractionBase : ℕ := 10000000000

structure RealmConfigArgs where
  useCouncilMint : Bool
  minCommunityWeightToCreateGovernance : ℕ
  communityMintMaxVoteWeightSource : MintMaxVoteWeightSource
  useCommunityVoterWeightAddin : Bool
  useMaxCommunityVoterWeightAddin : Bool
deriving DecidableEq

structure RealmConfig where
  useCommunityVoterWeightAddin : Bool
  useMaxCommunityVoterWeightAddin : Bool
  minCommunityWeightToCreateGovernance : ℕ
  communityMintMaxVoteWeightSource : MintMaxVoteWeightSource
  councilMint : Option Address
deriving DecidableEq

structure RealmV2 where
  communityMint : Address
  config : RealmConfig
  votingProposalCount : ℕ
  authority : Option Address
  name : List UInt8
deriving DecidableEq

structure RealmConfigAccount where
  realm : Address
  communityVoterWeightAddin : Option Address
  maxCommunityVoterWeightAddin : Option Address
deriving DecidableEq

inductive SetRealmAuthorityAction
  | setUnchecked
  | setChecked
  | remove
deriving DecidableEq, Repr

def assertValidRealmConfigArgs (args : RealmConfigArgs) : Except Fault Unit :=
  match args.communityMintMaxVoteWeightSource with
  | .supplyFraction fraction =>
    failIf (¬ (1 ≤ fraction ∧ fraction ≤ supplyFractionBase)) invalidMaxVoteWeightSupplyFraction
  | .absolute _ => .error mintMaxVoteWeightSourceNotSupported

variable (self : RealmV2)

def RealmV2.assertIsValidGoverningTokenMint (mint : Address) : Except Fault Unit :=
  failIf (self.communityMint ≠ mint ∧ self.config.councilMint ≠ some mint) invalidGoverningTokenMint

def RealmV2.assertIsValidGoverningTokenMintAndHolding (realm mint holding : Address) :
    Except Fault Unit := do
  self.assertIsValidGoverningTokenMint mint
  failIf (getGoverningTokenHoldingAddress realm mint ≠ holding) invalidGoverningTokenHoldingAccount

def RealmV2.assetGoverningTokensDepositsAllowed (mint : Address) : Except Fault Unit :=
  failIf (self.config.useCommunityVoterWeightAddin = true ∧ self.communityMint = mint)
    governingTokenDepositsNotAllowed

/-! ## Governances -/

inductive VoteThresholdPercentage
  | yesVote (percentage : ℕ)
  | quorum (percentage : ℕ)
deriving DecidableEq, Repr

inductive VoteTipping
  | strict
  | early
  | disabled
deriving DecidableEq, Repr

structure GovernanceConfig where
  voteThresholdPercentage : VoteThresholdPercentage
  minCommunityWeightToCreateProposal : ℕ
  minTransactionHoldUpTime : ℕ
  maxVotingTime : ℕ
  voteTipping : VoteTipping
  proposalCoolOffTime : ℕ
  minCouncilWeightToCreateProposal : ℕ
deriving DecidableEq

structure GovernanceV2 where
  kind : GovernanceKind
  realm : Address
  governedAccount : Address
  proposalsCount : ℕ
  config : GovernanceConfig
  votingProposalCount : ℕ
deriving DecidableEq

def GovernanceV2.address (self : GovernanceV2) : Address :=
  .governance self.kind self.realm self.governedAccount

def assertIsValidGovernanceConfig (config : GovernanceConfig) : Except Fault Unit := do
  match config.voteThresholdPercentage with
  | .yesVote percentage =>
    failIf (¬ (1 ≤ percentage ∧ percentage ≤ 100)) invalidVoteThresholdPercentage
  | .quorum _ => .error voteThresholdPercentageTypeNotSupported
  failIf (0 < config.proposalCoolOffTime) proposalCoolOffTimeNotSupported

/-! ## Token owner records -/

structure TokenOwnerRecordV2 where
  realm : Address
  governingTokenMint : Address
  governingTokenOwner : Address
  governingTokenDepositAmount : ℕ
  unrelinquishedVotesCount : ℕ
  totalVotesCount : ℕ
  outstandingProposalCount : ℕ
  governanceDelegate : Option Address
deriving DecidableEq

namespace TokenOwnerRecordV2

def new (realm mint owner : Address) (amount : ℕ) : TokenOwnerRecordV2 :=
  ⟨realm, mint, owner, amount, 0, 0, 0, none⟩

variable (self : TokenOwnerRecordV2)

def assertTokenOwnerOrDelegateIsSigner (authority : AccountMeta) : Except Fault Unit :=
  failIf (¬ (authority.isSigner = true ∧
      (self.governingTokenOwner = authority.key ∨ self.governanceDelegate = some authority.key)))
    governingTokenOwnerOrDelegateMustSign

def assertCanCreateProposal (realm : RealmV2) (config : GovernanceConfig) (voterWeight : ℕ) :
    Except Fault Unit := do
  let minWeightToCreateProposal ←
    if self.governingTokenMint = realm.communityMint then
      .ok config.minCommunityWeightToCreateProposal
    else if some self.governingTokenMint = realm.config.councilMint then
      .ok config.minCouncilWeightToCreateProposal
    else .error invalidGoverningTokenMint
  failIf (voterWeight < minWeightToCreateProposal) notEnoughTokensToCreateProposal
  failIf (10 ≤ self.outstandingProposalCount) tooManyOutstandingProposals

def assertCanCreateGovernance (realm : RealmV2) (voterWeight : ℕ) : Except Fault Unit := do
  let minWeightToCreateGovernance ←
    if self.governingTokenMint = realm.communityMint then
      .ok realm.config.minCommunityWeightToCreateGovernance
    else if some self.governingTokenMint = realm.config.councilMint then .ok 1
    else .error invalidGoverningTokenMint
  failIf (voterWeight < minWeightToCreateGovernance) notEnoughTokensToCreateGovernance

def assertCanWithdrawGoverningTokens : Except Fault Unit := do
  failIf (0 < self.unrelinquishedVotesCount) allVotesMustBeRelinquishedToWithdrawGoverningTokens
  failIf (0 < self.outstandingProposalCount) allProposalsMustBeFinalisedToWithdrawGoverningTokens

def decreaseOutstandingProposalCount : TokenOwnerRecordV2 :=
  if self.outstandingProposalCount ≠ 0 then
    { self with outstandingProposalCount := self.outstandingProposalCount - 1 }
  else self

end TokenOwnerRecordV2

/-! ## Voter weights of add-ins -/

inductive VoterWeightAction
  | castVote
  | commentProposal
  | createGovernance
  | createProposal
  | signOffProposal
deriving DecidableEq, Repr

structure VoterWeightRecord where
  realm : Address
  governingTokenMint : Address
  governingTokenOwner : Address
  voterWeight : ℕ
  voterWeightExpiry : Option ℕ
  weightAction : Option VoterWeightAction
  weightActionTarget : Option Address
deriving DecidableEq

structure MaxVoterWeightRecord where
  realm : Address
  governingTokenMint : Address
  maxVoterWeight : ℕ
  maxVoterWeightExpiry : Option ℕ
deriving DecidableEq

variable (self : VoterWeightRecord)

def VoterWeightRecord.assertForTokenOwnerRecord (record : TokenOwnerRecordV2) :
    Except Fault Unit := do
  failIf (self.realm ≠ record.realm) invalidVoterWeightRecordForRealm
  failIf (self.governingTokenMint ≠ record.governingTokenMint)
    invalidVoterWeightRecordForGoverningTokenMint
  failIf (self.governingTokenOwner ≠ record.governingTokenOwner)
    invalidVoterWeightRecordForTokenOwner

def VoterWeightRecord.assertIsValidVoterWeight (action : VoterWeightAction) (target : Address)
    (slot : ℕ) : Except Fault Unit := do
  failIf (∃ expiry ∈ self.voterWeightExpiry, expiry < slot) voterWeightRecordExpired
  failIf (∃ a ∈ self.weightAction, a ≠ action) voterWeightRecordInvalidAction
  failIf (∃ t ∈ self.weightActionTarget, t ≠ target) voterWeightRecordInvalidActionTarget

/-- The checks of `get_max_voter_weight_record_data_for_realm_and_governing_token_mint` and
`assert_is_valid_max_voter_weight`. -/
def MaxVoterWeightRecord.assertIsValid (self : MaxVoterWeightRecord) (realm mint : Address)
    (slot : ℕ) : Except Fault Unit := do
  failIf (self.realm ≠ realm) invalidMaxVoterWeightRecordForRealm
  failIf (self.governingTokenMint ≠ mint) invalidMaxVoterWeightRecordForGoverningTokenMint
  failIf (∃ expiry ∈ self.maxVoterWeightExpiry, expiry < slot) maxVoterWeightRecordExpired

/-! ## Votes -/

structure VoteChoice where
  rank : ℕ
  weightPercentage : ℕ
deriving DecidableEq, Repr

def VoteChoice.getChoiceWeight (self : VoteChoice) (voterWeight : ℕ) : Except Fault ℕ :=
  if self.weightPercentage = 100 then .ok voterWeight
  else if self.weightPercentage = 0 then .ok 0
  else .error invalidVoteChoiceWeightPercentage

inductive Vote
  | approve (choices : List VoteChoice)
  | deny
  | abstain
  | veto
deriving DecidableEq, Repr

structure VoteRecordV2 where
  proposal : Address
  governingTokenOwner : Address
  isRelinquished : Bool
  voterWeight : ℕ
  vote : Vote
deriving DecidableEq

structure SignatoryRecordV2 where
  proposal : Address
  signatory : Address
  signedOff : Bool
deriving DecidableEq

def SignatoryRecordV2.assertCanSignOff (self : SignatoryRecordV2) (signatory : AccountMeta) :
    Except Fault Unit := do
  failIf (self.signedOff = true) signatoryAlreadySignedOff
  failIf (signatory.isSigner = false) signatoryMustSign

/-! ## Proposals -/

inductive ProposalState
  | draft
  | signingOff
  | voting
  | succeeded
  | executing
  | completed
  | cancelled
  | defeated
  | executingWithErrors
deriving DecidableEq, Repr

inductive OptionVoteResult
  | none
  | succeeded
  | defeated
deriving DecidableEq, Repr

structure ProposalOption where
  label : List UInt8
  voteWeight : ℕ
  voteResult : OptionVoteResult
  transactionsExecutedCount : ℕ
  transactionsCount : ℕ
  transactionsNextIndex : ℕ
deriving DecidableEq

inductive VoteType
  | singleChoice
  | multiChoice (maxVoterOptions maxWinningOptions : ℕ)
deriving DecidableEq, Repr

/-- `ProposalV2`, without the fields that are always `None`. -/
structure ProposalV2 where
  governance : Address
  governingTokenMint : Address
  state : ProposalState
  tokenOwnerRecord : Address
  signatoriesCount : ℕ
  signatoriesSignedOffCount : ℕ
  voteType : VoteType
  options : List ProposalOption
  denyVoteWeight : Option ℕ
  draftAt : ℤ
  signingOffAt : Option ℤ
  votingAt : Option ℤ
  votingAtSlot : Option ℕ
  votingCompletedAt : Option ℤ
  executingAt : Option ℤ
  closedAt : Option ℤ
  maxVoteWeight : Option ℕ
  voteThresholdPercentage : Option VoteThresholdPercentage
  name : List UInt8
  descriptionLink : List UInt8
deriving DecidableEq

/-- `get_min_vote_threshold_weight`; the result is cut to 64 bits. -/
def getMinVoteThresholdWeight (threshold : VoteThresholdPercentage) (maxVoteWeight : ℕ) :
    Except Fault ℕ :=
  match threshold with
  | .yesVote percentage =>
    let numerator := percentage * maxVoteWeight
    let yesVoteThreshold := numerator / 100
    .ok ((if yesVoteThreshold * 100 < numerator then yesVoteThreshold + 1 else yesVoteThreshold) %
      2 ^ 64)
  | .quorum _ => .error voteThresholdPercentageTypeNotSupported

def unwrap {α : Type} (result : Except Fault α) : Except Fault α :=
  match result with
  | .ok a => .ok a
  | .error _ => .error .panic

def addSeconds (time : ℤ) (seconds : ℕ) : Except Fault ℤ := do
  failIf (2 ^ 63 ≤ time + seconds) .panic
  return time + seconds

namespace ProposalV2

def assertCanEditSignatories (self : ProposalV2) : Except Fault Unit :=
  failIf (self.state ≠ .draft) invalidStateCannotEditSignatories

def assertCanSignOff (self : ProposalV2) : Except Fault Unit :=
  failIf (self.state ≠ .draft ∧ self.state ≠ .signingOff) invalidStateCannotSignOff

variable (self : ProposalV2) (config : GovernanceConfig) (now : ℤ)

def hasVoteTimeEnded : Except Fault Bool := do
  let votingAt ← okOr self.votingAt .panic
  let votingEnd ← addSeconds votingAt config.maxVotingTime
  return decide (votingEnd < now)

def assertCanCastVote : Except Fault Unit := do
  failIf (self.state ≠ .voting) invalidStateCannotVote
  let ended ← self.hasVoteTimeEnded config now
  failIf (ended = true) proposalVotingTimeExpired

def assertCanFinalizeVote : Except Fault Unit := do
  failIf (self.state ≠ .voting) invalidStateCannotFinalize
  let ended ← self.hasVoteTimeEnded config now
  failIf (ended = false) cannotFinalizeVotingInProgress

/-- The loop over the options in `resolve_final_vote_state`: the options with their results, the
best weight that succeeded and how many options have it. -/
def countOptions (minVoteThresholdWeight denyVoteWeight : ℕ) :
    ℕ → ℕ → List ProposalOption → Except Fault (List ProposalOption × ℕ × ℕ)
  | bestWeight, bestCount, [] => .ok ([], bestWeight, bestCount)
  | bestWeight, bestCount, option :: options =>
    if minVoteThresholdWeight ≤ option.voteWeight ∧ denyVoteWeight < option.voteWeight then do
      let (bestWeight, bestCount) ←
        if bestWeight < option.voteWeight then .ok (option.voteWeight, 1)
        else if option.voteWeight = bestWeight then do
          let count ← checkedAdd 16 bestCount 1
          .ok (bestWeight, count)
        else .ok (bestWeight, bestCount)
      let (options, best) ←
        countOptions minVoteThresholdWeight denyVoteWeight bestWeight bestCount options
      .ok ({ option with voteResult := .succeeded } :: options, best)
    else do
      let (options, best) ←
        countOptions minVoteThresholdWeight denyVoteWeight bestWeight bestCount options
      .ok ({ option with voteResult := .defeated } :: options, best)

def coerceResults (winningWeight : ℕ) (options : List ProposalOption) : List ProposalOption :=
  options.map fun option =>
    { option with
      voteResult := if option.voteWeight = winningWeight then .succeeded else .defeated }

/-- The results and the final state, by the best weight and the number of options that have it: a
single choice has one winner or none. -/
def settleOptions (voteType : VoteType) (bestWeight bestCount : ℕ) (options : List ProposalOption) :
    List ProposalOption × ProposalState :=
  if bestCount = 0 then (options, .defeated)
  else
    match voteType with
    | .singleChoice =>
      if 1 < bestCount then (coerceResults (2 ^ 64 - 1) options, .defeated)
      else (coerceResults bestWeight options, .succeeded)
    | .multiChoice _ _ => (options, .succeeded)

variable (self : ProposalV2)

def resolveFinalVoteState (maxVoteWeight : ℕ) (config : GovernanceConfig) :
    Except Fault (ProposalV2 × ProposalState) := do
  let minVoteThresholdWeight ←
    unwrap (getMinVoteThresholdWeight config.voteThresholdPercentage maxVoteWeight)
  let denyVoteWeight := self.denyVoteWeight.getD 0
  let (options, bestWeight, bestCount) ←
    countOptions minVoteThresholdWeight denyVoteWeight 0 0 self.options
  let (options, finalState) := settleOptions self.voteType bestWeight bestCount options
  return ({ self with options },
    if self.denyVoteWeight = none then .completed else finalState)

def finalizeVote (maxVoterWeight : ℕ) (config : GovernanceConfig) (now : ℤ) :
    Except Fault ProposalV2 := do
  self.assertCanFinalizeVote config now
  let (self, state) ← self.resolveFinalVoteState maxVoterWeight config
  return { self with
    state
    votingCompletedAt := some now
    maxVoteWeight := some maxVoterWeight
    voteThresholdPercentage := some config.voteThresholdPercentage }

def coerceMaxVoterWeight (maxVoterWeight : ℕ) : Except Fault ℕ := do
  let maxOptionVoteWeight ← okOr (self.options.map ProposalOption.voteWeight).max? .panic
  let totalVoteWeight ← checkedAdd 64 maxOptionVoteWeight (self.denyVoteWeight.getD 0)
  return max maxVoterWeight totalVoteWeight

def getMaxVoterWeightFromMintSupply (realm : RealmV2) (supply : ℕ) : Except Fault ℕ :=
  if some self.governingTokenMint = realm.config.councilMint then .ok supply
  else
    match realm.config.communityMintMaxVoteWeightSource with
    | .supplyFraction fraction =>
      if fraction = supplyFractionBase then .ok supply
      else self.coerceMaxVoterWeight (supply * fraction / supplyFractionBase % 2 ^ 64)
    | .absolute _ => .error voteWeightSourceNotSupported

def tryGetTippedVoteState (maxVoteWeight : ℕ) (config : GovernanceConfig) :
    Except Fault (ProposalV2 × Option ProposalState) :=
  match self.voteType, self.denyVoteWeight, self.options with
  | .singleChoice, some denyVoteWeight, [yesOption] => do
    let yesVoteWeight := yesOption.voteWeight
    let tipped (result : OptionVoteResult) (state : ProposalState) :
        Except Fault (ProposalV2 × Option ProposalState) :=
      .ok ({ self with options := [{ yesOption with voteResult := result }] }, some state)
    if yesVoteWeight = maxVoteWeight then tipped .succeeded .succeeded
    else if denyVoteWeight = maxVoteWeight then tipped .defeated .defeated
    else do
      let minVoteThresholdWeight ←
        unwrap (getMinVoteThresholdWeight config.voteThresholdPercentage maxVoteWeight)
      if config.voteTipping = .strict ∧ minVoteThresholdWeight ≤ yesVoteWeight ∧
          maxVoteWeight - yesVoteWeight < yesVoteWeight then tipped .succeeded .succeeded
      else if config.voteTipping = .early ∧ minVoteThresholdWeight ≤ yesVoteWeight ∧
          denyVoteWeight < yesVoteWeight then tipped .succeeded .succeeded
      else if config.voteTipping ≠ .disabled ∧
          (maxVoteWeight - minVoteThresholdWeight < denyVoteWeight ∨
            maxVoteWeight - denyVoteWeight ≤ denyVoteWeight) then tipped .defeated .defeated
      else .ok (self, none)
  | _, _, _ => .ok (self, none)

def tryTipVote (maxVoterWeight : ℕ) (config : GovernanceConfig) (now : ℤ) :
    Except Fault (ProposalV2 × Bool) := do
  let (self, tipped) ← self.tryGetTippedVoteState maxVoterWeight config
  match tipped with
  | some state =>
    return ({ self with
      state
      votingCompletedAt := some now
      maxVoteWeight := some maxVoterWeight
      voteThresholdPercentage := some config.voteThresholdPercentage }, true)
  | none => return (self, false)

def assertCanCancel (config : GovernanceConfig) (now : ℤ) : Except Fault Unit :=
  match self.state with
  | .draft | .signingOff => .ok ()
  | .voting => do
    let ended ← self.hasVoteTimeEnded config now
    failIf (ended = true) proposalVotingTimeExpired
  | _ => .error invalidStateCannotCancelProposal

def assertCanEditInstructions : Except Fault Unit := do
  failIf (self.state ≠ .draft) invalidStateCannotEditTransactions
  failIf (self.denyVoteWeight = none) proposalIsNotExecutable

def isExecutable : Bool :=
  match self.state with
  | .succeeded | .executing | .executingWithErrors => true
  | _ => false

/-- The number of chosen options, if all choices are well formed. -/
def countChoices : ℕ → List VoteChoice → Except Fault ℕ
  | count, [] => .ok count
  | count, choice :: choices => do
    failIf (0 < choice.rank) invalidVote
    if choice.weightPercentage = 100 then do
      let count ← checkedAdd 16 count 1
      countChoices count choices
    else do
      failIf (choice.weightPercentage ≠ 0) invalidVote
      countChoices count choices

def assertValidVote (self : ProposalV2) (vote : Vote) : Except Fault Unit :=
  match vote with
  | .approve choices => do
    failIf (self.options.length ≠ choices.length) invalidVote
    let choiceCount ← countChoices 0 choices
    match self.voteType with
    | .singleChoice => failIf (choiceCount ≠ 1) invalidVote
    | .multiChoice _ _ => failIf (choiceCount = 0) invalidVote
  | .deny => failIf (self.denyVoteWeight = none) invalidVote
  | .abstain | .veto => .error notSupportedVoteType

/-- The loop over options and choices: `op` adds or subtracts a choice's weight. -/
def weighOptions (op : ℕ → ℕ → Except Fault ℕ) (voterWeight : ℕ) :
    List ProposalOption → List VoteChoice → Except Fault (List ProposalOption)
  | option :: options, choice :: choices => do
    let choiceWeight ← choice.getChoiceWeight voterWeight
    let voteWeight ← op option.voteWeight choiceWeight
    let options ← weighOptions op voterWeight options choices
    return { option with voteWeight } :: options
  | options, _ => .ok options

/-- The proposal with a vote counted (`op` is addition) or withdrawn (`op` is subtraction). -/
def weighVote (self : ProposalV2) (op : ℕ → ℕ → Except Fault ℕ) (vote : Vote) (voterWeight : ℕ) :
    Except Fault ProposalV2 :=
  match vote with
  | .approve choices => do
    let options ← weighOptions op voterWeight self.options choices
    return { self with options }
  | .deny => do
    let denyVoteWeight ← okOr self.denyVoteWeight .panic
    let weight ← op denyVoteWeight voterWeight
    return { self with denyVoteWeight := some weight }
  | .abstain | .veto => .error notSupportedVoteType

end ProposalV2

def assertValidProposalOptions (options : List (List UInt8)) (voteType : VoteType) :
    Except Fault Unit := do
  failIf (options = [] ∨ 10 < options.length) invalidProposalOptions
  match voteType with
  | .multiChoice maxVoterOptions maxWinningOptions =>
    failIf (options.length = 1 ∨ maxVoterOptions ≠ options.length ∨
      maxWinningOptions ≠ options.length) invalidProposalOptions
  | .singleChoice => .ok ()
  failIf (∃ option ∈ options, option = []) invalidProposalOptions

end SolanaPrograms.Governance
