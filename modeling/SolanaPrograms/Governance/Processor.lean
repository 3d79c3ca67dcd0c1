import SolanaPrograms.Governance.World

/-!
# The governance program's processor

One handler for each instruction, in the order of the checks and writes of the source. The account
lists are those of the source; the accounts of the system program, the token program, the loader and
the rent sysvar are read from the list and not used.

`ExecuteTransaction` runs stored instructions, which may be instructions of this program: the
runtime permits direct recursion up to its call depth. What it read before the calls is written back
after them, whatever the calls did in between.
-/

namespace SolanaPrograms.Governance

open Outcome GovernanceError

def nextAccountInfo : List AccountMeta → Except Fault (AccountMeta × List AccountMeta)
  | [] => .error .notEnoughAccountKeys
  | a :: rest => .ok (a, rest)

@[simp] theorem nextAccountInfo_eq_ok {l : List AccountMeta}
    {p : AccountMeta × List AccountMeta} : nextAccountInfo l = .ok p ↔ l = p.1 :: p.2 := by
  cases l with
  | nil => simp [nextAccountInfo]
  | cons => simp [nextAccountInfo, Prod.ext_iff, eq_comm]

/-! ## Reading records -/

namespace World

variable (w : World)

def getRealmDataForAuthority (realm authority : Address) : Except Fault RealmV2 := do
  let realmData ← w.read Account.realm? realm
  failIf (realmData.authority = none) realmHasNoAuthority
  failIf (realmData.authority ≠ some authority) invalidAuthorityForRealm
  return realmData

def getRealmDataForGoverningTokenMint (realm mint : Address) : Except Fault RealmV2 := do
  let realmData ← w.read Account.realm? realm
  realmData.assertIsValidGoverningTokenMint mint
  return realmData

def getRealmConfigDataForRealm (realmConfig realm : Address) : Except Fault RealmConfigAccount := do
  let data ← w.read Account.realmConfig? realmConfig
  failIf (data.realm ≠ realm) invalidRealmConfigForRealm
  return data

def getGovernanceDataForRealm (governance realm : Address) : Except Fault GovernanceV2 := do
  let data ← w.read Account.governance? governance
  failIf (data.realm ≠ realm) invalidRealmForGovernance
  return data

def getProposalDataForGovernance (proposal governance : Address) : Except Fault ProposalV2 := do
  let data ← w.read Account.proposal? proposal
  failIf (data.governance ≠ governance) invalidGovernanceForProposal
  return data

def getProposalDataForGovernanceAndGoverningMint (proposal governance mint : Address) :
    Except Fault ProposalV2 := do
  let data ← w.getProposalDataForGovernance proposal governance
  failIf (data.governingTokenMint ≠ mint) invalidGoverningMintForProposal
  return data

def getTokenOwnerRecordDataForSeeds (record address : Address) :
    Except Fault TokenOwnerRecordV2 := do
  failIf (address ≠ record) invalidTokenOwnerRecordAccountAddress
  w.read Account.tokenOwnerRecord? record

def getTokenOwnerRecordDataForRealm (record realm : Address) : Except Fault TokenOwnerRecordV2 := do
  let data ← w.read Account.tokenOwnerRecord? record
  failIf (data.realm ≠ realm) invalidRealmForTokenOwnerRecord
  return data

def getTokenOwnerRecordDataForRealmAndGoverningMint (record realm mint : Address) :
    Except Fault TokenOwnerRecordV2 := do
  let data ← w.getTokenOwnerRecordDataForRealm record realm
  failIf (data.governingTokenMint ≠ mint) invalidGoverningMintForTokenOwnerRecord
  return data

def getTokenOwnerRecordDataForProposalOwner (record proposalOwner : Address) :
    Except Fault TokenOwnerRecordV2 := do
  failIf (record ≠ proposalOwner) invalidProposalOwnerAccount
  w.read Account.tokenOwnerRecord? record

def getSignatoryRecordDataForSeeds (record proposal signatory : Address) :
    Except Fault SignatoryRecordV2 := do
  failIf (getSignatoryRecordAddress proposal signatory ≠ record) invalidSignatoryAddress
  w.read Account.signatoryRecord? record

def getProposalTransactionDataForProposal (transaction proposal : Address) :
    Except Fault ProposalTransactionV2 := do
  let data ← w.read Account.transaction? transaction
  failIf (data.proposal ≠ proposal) invalidProposalForProposalTransaction
  return data

def getVoteRecordDataForProposalAndTokenOwner (record proposal owner : Address) :
    Except Fault VoteRecordV2 := do
  let data ← w.read Account.voteRecord? record
  failIf (data.proposal ≠ proposal) invalidProposalForVoterRecord
  failIf (data.governingTokenOwner ≠ owner) invalidGoverningTokenOwnerForVoteRecord
  return data

def resolveVoterWeight (record : TokenOwnerRecordV2) (realmConfig : Address)
    (it : List AccountMeta) (realm : Address) (realmData : RealmV2) (action : VoterWeightAction)
    (target : Address) : Except Fault (ℕ × List AccountMeta) :=
  if realmData.config.useCommunityVoterWeightAddin = true ∧
      realmData.communityMint = record.governingTokenMint then do
    let (voterWeightRecordInfo, it) ← nextAccountInfo it
    let realmConfigData ← w.getRealmConfigDataForRealm realmConfig realm
    let program ← okOr realmConfigData.communityVoterWeightAddin .panic
    let data ← w.read (Account.voterWeightRecord? program) voterWeightRecordInfo.key
    data.assertForTokenOwnerRecord record
    data.assertIsValidVoterWeight action target w.slot
    return (data.voterWeight, it)
  else .ok (record.governingTokenDepositAmount, it)

def resolveMaxVoterWeight (proposal : ProposalV2) (realmConfig mint : Address)
    (it : List AccountMeta) (realm : Address) (realmData : RealmV2) : Except Fault ℕ :=
  if realmData.config.useMaxCommunityVoterWeightAddin = true ∧
      realmData.communityMint = proposal.governingTokenMint then do
    let realmConfigData ← w.getRealmConfigDataForRealm realmConfig realm
    let (maxVoterWeightRecordInfo, _) ← nextAccountInfo it
    let program ← okOr realmConfigData.maxCommunityVoterWeightAddin .panic
    let data ← w.read (Account.maxVoterWeightRecord? program) maxVoterWeightRecordInfo.key
    data.assertIsValid realm proposal.governingTokenMint w.slot
    proposal.coerceMaxVoterWeight data.maxVoterWeight
  else do
    failIf (proposal.governingTokenMint ≠ mint) invalidGoverningMintForProposal
    let m ← w.read Account.mint? mint
    proposal.getMaxVoterWeightFromMintSupply realmData m.supply

def assertCreateAuthorityCanCreateGovernance (realmData : RealmV2) (realm record : Address)
    (createAuthority : AccountMeta) (it : List AccountMeta) : Except Fault Unit :=
  if realmData.authority = some createAuthority.key then
    failIf (createAuthority.isSigner = false) realmAuthorityMustSign
  else do
    let recordData ← w.getTokenOwnerRecordDataForRealm record realm
    recordData.assertTokenOwnerOrDelegateIsSigner createAuthority
    let (realmConfigInfo, it) ← nextAccountInfo it
    let (voterWeight, _) ← w.resolveVoterWeight recordData realmConfigInfo.key it realm realmData
      .createGovernance realm
    recordData.assertCanCreateGovernance realmData voterWeight

end World

/-! ## Realms and deposits -/

section Handlers

variable (rent : Account → ℕ) (accounts : List AccountMeta)

def createSplTokenAccountSigned (payer info : AccountMeta) (address mint owner : Address)
    (w : World) : Except Fault World := do
  failIf (address ≠ info.key) .invalidSeeds
  let account : Account := .token ⟨mint, owner, 0, none, 0, none, false, false⟩
  let w ← w.createAccount payer info.key account (max 1 (rent account))
  let _ ← okOr (w.accounts mint).mint? .token
  return w

def nextKeyIf (use : Bool) (it : List AccountMeta) :
    Except Fault (Option Address × List AccountMeta) :=
  if use then do
    let (info, it) ← nextAccountInfo it
    return (some info.key, it)
  else .ok (none, it)

def createCouncilHolding (useCouncilMint : Bool) (payer : AccountMeta) (realm : Address)
    (it : List AccountMeta) (w : World) :
    Except Fault (Option Address × List AccountMeta × World) :=
  if useCouncilMint then do
    let (mintInfo, it) ← nextAccountInfo it
    let (holdingInfo, it) ← nextAccountInfo it
    let w ← createSplTokenAccountSigned rent payer holdingInfo
      (getGoverningTokenHoldingAddress realm mintInfo.key) mintInfo.key realm w
    return (some mintInfo.key, it, w)
  else .ok (none, it, w)

/-- The account for the add-ins of a new realm, if any is used. -/
def createRealmConfig (useAddins : Bool) (payer : AccountMeta) (config : RealmConfigAccount)
    (it : List AccountMeta) (w : World) : Except Fault World :=
  if useAddins then do
    let (realmConfigInfo, _) ← nextAccountInfo it
    w.createAndSerializeAccountSigned rent payer realmConfigInfo (.realmConfig config)
      (.realmConfig config.realm)
  else .ok w

def processCreateRealm (name : List UInt8) (configArgs : RealmConfigArgs) (w : World) :
    Except Fault World := do
  let (realmInfo, it) ← nextAccountInfo accounts
  let (realmAuthority, it) ← nextAccountInfo it
  let (mintInfo, it) ← nextAccountInfo it
  let (holdingInfo, it) ← nextAccountInfo it
  let (payer, it) ← nextAccountInfo it
  let (_, it) ← nextAccountInfo it
  let (_, it) ← nextAccountInfo it
  let (_, it) ← nextAccountInfo it
  failIf ((w.accounts realmInfo.key).isEmpty = false) realmAlreadyExists
  assertValidRealmConfigArgs configArgs
  let w ← createSplTokenAccountSigned rent payer holdingInfo
    (getGoverningTokenHoldingAddress realmInfo.key mintInfo.key) mintInfo.key realmInfo.key w
  let (councilMint, it, w) ←
    createCouncilHolding rent configArgs.useCouncilMint payer realmInfo.key it w
  let (communityVoterWeightAddin, it) ← nextKeyIf configArgs.useCommunityVoterWeightAddin it
  let (maxCommunityVoterWeightAddin, it) ← nextKeyIf configArgs.useMaxCommunityVoterWeightAddin it
  let w ← createRealmConfig rent
    (configArgs.useCommunityVoterWeightAddin || configArgs.useMaxCommunityVoterWeightAddin) payer
    ⟨realmInfo.key, communityVoterWeightAddin, maxCommunityVoterWeightAddin⟩ it w
  failIf (32 < name.length) .panic
  w.createAndSerializeAccountSigned rent payer realmInfo
    (.realm {
      communityMint := mintInfo.key
      config := ⟨configArgs.useCommunityVoterWeightAddin,
        configArgs.useMaxCommunityVoterWeightAddin,
        configArgs.minCommunityWeightToCreateGovernance,
        configArgs.communityMintMaxVoteWeightSource, councilMint⟩
      votingProposalCount := 0
      authority := some realmAuthority.key
      name })
    (getRealmAddress name)

def processDepositGoverningTokens (amount : ℕ) (w : World) : Except Fault World := do
  let (realmInfo, it) ← nextAccountInfo accounts
  let (holdingInfo, it) ← nextAccountInfo it
  let (sourceInfo, it) ← nextAccountInfo it
  let (ownerInfo, it) ← nextAccountInfo it
  let (transferAuthority, it) ← nextAccountInfo it
  let (recordInfo, it) ← nextAccountInfo it
  let (payer, it) ← nextAccountInfo it
  let (_, it) ← nextAccountInfo it
  let (_, _) ← nextAccountInfo it
  let realmData ← w.read Account.realm? realmInfo.key
  let holding ← w.read Account.token? holdingInfo.key
  realmData.assetGoverningTokensDepositsAllowed holding.mint
  realmData.assertIsValidGoverningTokenMintAndHolding realmInfo.key holding.mint holdingInfo.key
  failIf (transferAuthority.isSigner = false) .privilegeEscalation
  let w ← w.tokenProcess
    (.transfer sourceInfo.key holdingInfo.key transferAuthority.key amount)
  let address := getTokenOwnerRecordAddress realmInfo.key holding.mint ownerInfo.key
  if (w.accounts recordInfo.key).isEmpty then do
    let source ← w.read Account.token? sourceInfo.key
    failIf (¬ (source.owner = ownerInfo.key ∧ ownerInfo.isSigner = true))
      governingTokenOwnerMustSign
    w.createAndSerializeAccountSigned rent payer recordInfo
      (.tokenOwnerRecord (.new realmInfo.key holding.mint ownerInfo.key amount)) address
  else do
    let record ← w.getTokenOwnerRecordDataForSeeds recordInfo.key address
    let governingTokenDepositAmount ← checkedAdd 64 record.governingTokenDepositAmount amount
    return w.write recordInfo.key (.tokenOwnerRecord { record with governingTokenDepositAmount })

def processWithdrawGoverningTokens (w : World) : Except Fault World := do
  let (realmInfo, it) ← nextAccountInfo accounts
  let (holdingInfo, it) ← nextAccountInfo it
  let (destinationInfo, it) ← nextAccountInfo it
  let (ownerInfo, it) ← nextAccountInfo it
  let (recordInfo, it) ← nextAccountInfo it
  let (_, _) ← nextAccountInfo it
  failIf (ownerInfo.isSigner = false) governingTokenOwnerMustSign
  let realmData ← w.read Account.realm? realmInfo.key
  let holding ← w.read Account.token? holdingInfo.key
  realmData.assertIsValidGoverningTokenMintAndHolding realmInfo.key holding.mint holdingInfo.key
  let record ← w.getTokenOwnerRecordDataForSeeds recordInfo.key
    (getTokenOwnerRecordAddress realmInfo.key holding.mint ownerInfo.key)
  record.assertCanWithdrawGoverningTokens
  failIf (getRealmAddress realmData.name ≠ realmInfo.key) .invalidSeeds
  let w ← w.tokenProcess (.transfer holdingInfo.key destinationInfo.key realmInfo.key
    record.governingTokenDepositAmount)
  return w.write recordInfo.key
    (.tokenOwnerRecord { record with governingTokenDepositAmount := 0 })

def processSetGovernanceDelegate (newGovernanceDelegate : Option Address) (w : World) :
    Except Fault World := do
  let (authority, it) ← nextAccountInfo accounts
  let (recordInfo, _) ← nextAccountInfo it
  let record ← w.read Account.tokenOwnerRecord? recordInfo.key
  record.assertTokenOwnerOrDelegateIsSigner authority
  return w.write recordInfo.key
    (.tokenOwnerRecord { record with governanceDelegate := newGovernanceDelegate })

def processCreateTokenOwnerRecord (w : World) : Except Fault World := do
  let (realmInfo, it) ← nextAccountInfo accounts
  let (ownerInfo, it) ← nextAccountInfo it
  let (recordInfo, it) ← nextAccountInfo it
  let (mintInfo, it) ← nextAccountInfo it
  let (payer, it) ← nextAccountInfo it
  let (_, _) ← nextAccountInfo it
  let realmData ← w.read Account.realm? realmInfo.key
  realmData.assertIsValidGoverningTokenMint mintInfo.key
  failIf ((w.accounts recordInfo.key).isEmpty = false) tokenOwnerRecordAlreadyExists
  w.createAndSerializeAccountSigned rent payer recordInfo
    (.tokenOwnerRecord (.new realmInfo.key mintInfo.key ownerInfo.key 0))
    (getTokenOwnerRecordAddress realmInfo.key mintInfo.key ownerInfo.key)

variable (action : SetRealmAuthorityAction)

def newRealmAuthority (realm : Address) (it : List AccountMeta) (w : World) :
    Except Fault (Option Address) :=
  match action with
  | .setUnchecked => do
    let (newAuthority, _) ← nextAccountInfo it
    return some newAuthority.key
  | .setChecked => do
    let (newAuthority, _) ← nextAccountInfo it
    let _ ← w.getGovernanceDataForRealm newAuthority.key realm
    return some newAuthority.key
  | .remove => .ok none

def processSetRealmAuthority (w : World) : Except Fault World := do
  let (realmInfo, it) ← nextAccountInfo accounts
  let (authorityInfo, it) ← nextAccountInfo it
  let realmData ← w.getRealmDataForAuthority realmInfo.key authorityInfo.key
  failIf (authorityInfo.isSigner = false) realmAuthorityMustSign
  let authority ← newRealmAuthority action realmInfo.key it w
  return w.write realmInfo.key (.realm { realmData with authority })

/-- The council mint after `SetRealmConfig`: it can be kept or removed. -/
def keepCouncilMint (councilMint : Option Address) (useCouncilMint : Bool)
    (it : List AccountMeta) : Except Fault (Option Address × List AccountMeta) :=
  if useCouncilMint then do
    let (councilMintInfo, it) ← nextAccountInfo it
    let (_, it) ← nextAccountInfo it
    failIf (councilMint ≠ some councilMintInfo.key) realmCouncilMintChangeIsNotSupported
    return (councilMint, it)
  else .ok (none, it)

/-- The account for the add-ins in `SetRealmConfig`: it is created if add-ins are used and there is
none, and updated if add-ins are or were used. -/
def writeRealmConfig (used useAddins : Bool) (info : AccountMeta) (config : RealmConfigAccount)
    (it : List AccountMeta) (w : World) : Except Fault World :=
  let update : Except Fault World := do
    let realmConfigData ← w.getRealmConfigDataForRealm info.key config.realm
    return w.write info.key (.realmConfig { realmConfigData with
      communityVoterWeightAddin := config.communityVoterWeightAddin
      maxCommunityVoterWeightAddin := config.maxCommunityVoterWeightAddin })
  if useAddins then do
    let (payer, _) ← nextAccountInfo it
    if (w.accounts info.key).isEmpty then
      w.createAndSerializeAccountSigned rent payer info (.realmConfig config)
        (.realmConfig config.realm)
    else update
  else if used then update
  else .ok w

def processSetRealmConfig (configArgs : RealmConfigArgs) (w : World) : Except Fault World := do
  let (realmInfo, it) ← nextAccountInfo accounts
  let (authorityInfo, it) ← nextAccountInfo it
  let realmData ← w.getRealmDataForAuthority realmInfo.key authorityInfo.key
  failIf (authorityInfo.isSigner = false) realmAuthorityMustSign
  assertValidRealmConfigArgs configArgs
  let (councilMint, it) ← keepCouncilMint realmData.config.councilMint configArgs.useCouncilMint it
  let (_, it) ← nextAccountInfo it
  let (realmConfigInfo, it) ← nextAccountInfo it
  let (communityVoterWeightAddin, it) ← nextKeyIf configArgs.useCommunityVoterWeightAddin it
  let (maxCommunityVoterWeightAddin, it) ← nextKeyIf configArgs.useMaxCommunityVoterWeightAddin it
  let w ← writeRealmConfig rent
    (realmData.config.useCommunityVoterWeightAddin ||
      realmData.config.useMaxCommunityVoterWeightAddin)
    (configArgs.useCommunityVoterWeightAddin || configArgs.useMaxCommunityVoterWeightAddin)
    realmConfigInfo ⟨realmInfo.key, communityVoterWeightAddin, maxCommunityVoterWeightAddin⟩ it w
  return w.write realmInfo.key (.realm { realmData with
    config := ⟨configArgs.useCommunityVoterWeightAddin,
      configArgs.useMaxCommunityVoterWeightAddin,
      configArgs.minCommunityWeightToCreateGovernance,
      configArgs.communityMintMaxVoteWeightSource, councilMint⟩ })

/-! ## Governances -/

/-- What the four instructions that create a governance share. -/
def createGovernanceOf (kind : GovernanceKind) (realm : Address) (info : AccountMeta)
    (governed record : Address) (payer createAuthority : AccountMeta) (it : List AccountMeta)
    (config : GovernanceConfig) (w : World) : Except Fault World := do
  let realmData ← w.read Account.realm? realm
  assertIsValidGovernanceConfig config
  w.assertCreateAuthorityCanCreateGovernance realmData realm record createAuthority it
  w.createAndSerializeAccountSigned rent payer info
    (.governance ⟨kind, realm, governed, 0, config, 0⟩) (.governance kind realm governed)

def setSplTokenAccountAuthority (account : Address) (authority : AccountMeta)
    (newAuthority : Address) (authorityType : AuthorityType) (w : World) : Except Fault World := do
  failIf (authority.isSigner = false) .privilegeEscalation
  w.tokenProcess (.setAuthority account authority.key authorityType (some newAuthority))

variable (program programData : Address) (authority : AccountMeta)

def setProgramUpgradeAuthority (newAuthority : Address) (w : World) : Except Fault World := do
  failIf (.programData program ≠ programData ∨ authority.isSigner = false)
    .privilegeEscalation
  let current ← w.read Account.programData? programData
  failIf (current ≠ some authority.key) .system
  return w.write programData (.programData (some newAuthority))

def assertProgramUpgradeAuthorityIsSigner (w : World) : Except Fault Unit := do
  let current ← w.read Account.programData? programData
  failIf (.programData program ≠ programData) invalidProgramDataAccountAddress
  let upgradeAuthority ← okOr current programNotUpgradable
  failIf (upgradeAuthority ≠ authority.key) invalidUpgradeAuthority
  failIf (authority.isSigner = false) upgradeAuthorityMustSign

variable (config : GovernanceConfig)

def processCreateGovernance (w : World) : Except Fault World := do
  let (realmInfo, it) ← nextAccountInfo accounts
  let (governanceInfo, it) ← nextAccountInfo it
  let (governedInfo, it) ← nextAccountInfo it
  let (recordInfo, it) ← nextAccountInfo it
  let (payer, it) ← nextAccountInfo it
  let (_, it) ← nextAccountInfo it
  let (createAuthority, it) ← nextAccountInfo it
  createGovernanceOf rent .account realmInfo.key governanceInfo governedInfo.key recordInfo.key
    payer createAuthority it config w

def processCreateProgramGovernance (transferUpgradeAuthority : Bool) (w : World) :
    Except Fault World := do
  let (realmInfo, it) ← nextAccountInfo accounts
  let (governanceInfo, it) ← nextAccountInfo it
  let (governedInfo, it) ← nextAccountInfo it
  let (programDataInfo, it) ← nextAccountInfo it
  let (upgradeAuthority, it) ← nextAccountInfo it
  let (recordInfo, it) ← nextAccountInfo it
  let (payer, it) ← nextAccountInfo it
  let (_, it) ← nextAccountInfo it
  let (_, it) ← nextAccountInfo it
  let (createAuthority, it) ← nextAccountInfo it
  let w ← createGovernanceOf rent .program realmInfo.key governanceInfo governedInfo.key
    recordInfo.key payer createAuthority it config w
  if transferUpgradeAuthority then
    setProgramUpgradeAuthority governedInfo.key programDataInfo.key upgradeAuthority
      governanceInfo.key w
  else do
    assertProgramUpgradeAuthorityIsSigner governedInfo.key programDataInfo.key upgradeAuthority w
    return w

def processCreateMintGovernance (transferMintAuthorities : Bool) (w : World) :
    Except Fault World := do
  let (realmInfo, it) ← nextAccountInfo accounts
  let (governanceInfo, it) ← nextAccountInfo it
  let (mintInfo, it) ← nextAccountInfo it
  let (mintAuthority, it) ← nextAccountInfo it
  let (recordInfo, it) ← nextAccountInfo it
  let (payer, it) ← nextAccountInfo it
  let (_, it) ← nextAccountInfo it
  let (_, it) ← nextAccountInfo it
  let (createAuthority, it) ← nextAccountInfo it
  let w ← createGovernanceOf rent .mint realmInfo.key governanceInfo mintInfo.key recordInfo.key
    payer createAuthority it config w
  if transferMintAuthorities then do
    let w ← setSplTokenAccountAuthority mintInfo.key mintAuthority governanceInfo.key .mintTokens w
    let m ← w.read Account.mint? mintInfo.key
    if m.freezeAuthority ≠ none then
      setSplTokenAccountAuthority mintInfo.key mintAuthority governanceInfo.key .freezeAccount w
    else .ok w
  else do
    let m ← w.read Account.mint? mintInfo.key
    failIf (m.mintAuthority = none) mintHasNoAuthority
    failIf (m.mintAuthority ≠ some mintAuthority.key) invalidMintAuthority
    failIf (mintAuthority.isSigner = false) mintAuthorityMustSign
    return w

def processCreateTokenGovernance (transferAccountAuthorities : Bool) (w : World) :
    Except Fault World := do
  let (realmInfo, it) ← nextAccountInfo accounts
  let (governanceInfo, it) ← nextAccountInfo it
  let (tokenInfo, it) ← nextAccountInfo it
  let (tokenOwner, it) ← nextAccountInfo it
  let (recordInfo, it) ← nextAccountInfo it
  let (payer, it) ← nextAccountInfo it
  let (_, it) ← nextAccountInfo it
  let (_, it) ← nextAccountInfo it
  let (createAuthority, it) ← nextAccountInfo it
  let w ← createGovernanceOf rent .token realmInfo.key governanceInfo tokenInfo.key recordInfo.key
    payer createAuthority it config w
  if transferAccountAuthorities then do
    let w ← setSplTokenAccountAuthority tokenInfo.key tokenOwner governanceInfo.key .accountOwner w
    let a ← w.read Account.token? tokenInfo.key
    if a.closeAuthority ≠ none then
      setSplTokenAccountAuthority tokenInfo.key tokenOwner governanceInfo.key .closeAccount w
    else .ok w
  else do
    let a ← w.read Account.token? tokenInfo.key
    failIf (a.owner ≠ tokenOwner.key) invalidTokenOwner
    failIf (tokenOwner.isSigner = false) tokenOwnerMustSign
    return w

def processSetGovernanceConfig (w : World) : Except Fault World := do
  let (governanceInfo, _) ← nextAccountInfo accounts
  failIf (governanceInfo.isSigner = false) governancePdaMustSign
  assertIsValidGovernanceConfig config
  let governanceData ← w.read Account.governance? governanceInfo.key
  return w.write governanceInfo.key (.governance { governanceData with config })

/-- `process_create_native_treasury`: an account of the system program without data. -/
def processCreateNativeTreasury (w : World) : Except Fault World := do
  let (governanceInfo, it) ← nextAccountInfo accounts
  let (treasuryInfo, it) ← nextAccountInfo it
  let (payer, it) ← nextAccountInfo it
  let (_, _) ← nextAccountInfo it
  let _ ← w.read Account.governance? governanceInfo.key
  w.createAndSerializeAccountSigned rent payer treasuryInfo .empty
    (.nativeTreasury governanceInfo.key)

def processUpdateProgramMetadata (w : World) : Except Fault World := do
  let (metadataInfo, it) ← nextAccountInfo accounts
  let (payer, it) ← nextAccountInfo it
  let (_, _) ← nextAccountInfo it
  if (w.accounts metadataInfo.key).isEmpty then
    w.createAndSerializeAccountSigned rent payer metadataInfo (.programMetadata w.slot) .metadata
  else do
    let _ ← w.read Account.programMetadata? metadataInfo.key
    return w.write metadataInfo.key (.programMetadata w.slot)

/-! ## Drafting proposals -/

def processCreateProposal (name descriptionLink : List UInt8) (voteType : VoteType)
    (options : List (List UInt8)) (useDenyOption : Bool) (w : World) : Except Fault World := do
  let (realmInfo, it) ← nextAccountInfo accounts
  let (proposalInfo, it) ← nextAccountInfo it
  let (governanceInfo, it) ← nextAccountInfo it
  let (ownerRecordInfo, it) ← nextAccountInfo it
  let (mintInfo, it) ← nextAccountInfo it
  let (authority, it) ← nextAccountInfo it
  let (payer, it) ← nextAccountInfo it
  let (_, it) ← nextAccountInfo it
  failIf ((w.accounts proposalInfo.key).isEmpty = false) proposalAlreadyExists
  let realmData ← w.getRealmDataForGoverningTokenMint realmInfo.key mintInfo.key
  let governanceData ← w.getGovernanceDataForRealm governanceInfo.key realmInfo.key
  let ownerRecord ← w.getTokenOwnerRecordDataForRealm ownerRecordInfo.key realmInfo.key
  ownerRecord.assertTokenOwnerOrDelegateIsSigner authority
  let (realmConfigInfo, it) ← nextAccountInfo it
  let (voterWeight, _) ← w.resolveVoterWeight ownerRecord realmConfigInfo.key it realmInfo.key
    realmData .createProposal governanceInfo.key
  ownerRecord.assertCanCreateProposal realmData governanceData.config voterWeight
  let outstandingProposalCount ← checkedAdd 8 ownerRecord.outstandingProposalCount 1
  let w := w.write ownerRecordInfo.key
    (.tokenOwnerRecord { ownerRecord with outstandingProposalCount })
  assertValidProposalOptions options voteType
  let w ← w.createAndSerializeAccountSigned rent payer proposalInfo
    (.proposal {
      governance := governanceInfo.key
      governingTokenMint := mintInfo.key
      state := .draft
      tokenOwnerRecord := ownerRecordInfo.key
      signatoriesCount := 0
      signatoriesSignedOffCount := 0
      voteType
      options := options.map fun label => ⟨label, 0, .none, 0, 0, 0⟩
      denyVoteWeight := if useDenyOption then some 0 else none
      draftAt := w.unixTimestamp
      signingOffAt := none
      votingAt := none
      votingAtSlot := none
      votingCompletedAt := none
      executingAt := none
      closedAt := none
      maxVoteWeight := none
      voteThresholdPercentage := none
      name
      descriptionLink })
    (.proposal governanceInfo.key mintInfo.key governanceData.proposalsCount)
  let proposalsCount ← checkedAdd 32 governanceData.proposalsCount 1
  return w.write governanceInfo.key (.governance { governanceData with proposalsCount })

variable (signatory : Address) (w : World)

def processAddSignatory : Except Fault World := do
  let (proposalInfo, it) ← nextAccountInfo accounts
  let (recordInfo, it) ← nextAccountInfo it
  let (authority, it) ← nextAccountInfo it
  let (signatoryRecordInfo, it) ← nextAccountInfo it
  let (payer, it) ← nextAccountInfo it
  let (_, _) ← nextAccountInfo it
  let proposal ← w.read Account.proposal? proposalInfo.key
  proposal.assertCanEditSignatories
  let record ← w.getTokenOwnerRecordDataForProposalOwner recordInfo.key proposal.tokenOwnerRecord
  record.assertTokenOwnerOrDelegateIsSigner authority
  let w ← w.createAndSerializeAccountSigned rent payer signatoryRecordInfo
    (.signatoryRecord ⟨proposalInfo.key, signatory, false⟩)
    (getSignatoryRecordAddress proposalInfo.key signatory)
  let signatoriesCount ← checkedAdd 8 proposal.signatoriesCount 1
  return w.write proposalInfo.key (.proposal { proposal with signatoriesCount })

def processRemoveSignatory : Except Fault World := do
  let (proposalInfo, it) ← nextAccountInfo accounts
  let (recordInfo, it) ← nextAccountInfo it
  let (authority, it) ← nextAccountInfo it
  let (signatoryRecordInfo, it) ← nextAccountInfo it
  let (beneficiary, _) ← nextAccountInfo it
  let proposal ← w.read Account.proposal? proposalInfo.key
  proposal.assertCanEditSignatories
  let record ← w.getTokenOwnerRecordDataForProposalOwner recordInfo.key proposal.tokenOwnerRecord
  record.assertTokenOwnerOrDelegateIsSigner authority
  let signatoryRecord ←
    w.getSignatoryRecordDataForSeeds signatoryRecordInfo.key proposalInfo.key signatory
  failIf (signatoryRecord.signedOff = true) signatoryAlreadySignedOff
  let signatoriesCount ← checkedSub proposal.signatoriesCount 1
  let w := w.write proposalInfo.key (.proposal { proposal with signatoriesCount })
  w.disposeAccount signatoryRecordInfo.key beneficiary.key

def nextTransactionIndex (index transactionsNextIndex : ℕ) : Except Fault ℕ :=
  if index = transactionsNextIndex then checkedAdd 16 transactionsNextIndex 1
  else .ok transactionsNextIndex

def processInsertTransaction (optionIndex index holdUpTime : ℕ)
    (instructions : List InstructionData) (w : World) : Except Fault World := do
  let (governanceInfo, it) ← nextAccountInfo accounts
  let (proposalInfo, it) ← nextAccountInfo it
  let (recordInfo, it) ← nextAccountInfo it
  let (authority, it) ← nextAccountInfo it
  let (transactionInfo, it) ← nextAccountInfo it
  let (payer, it) ← nextAccountInfo it
  let (_, it) ← nextAccountInfo it
  let (_, _) ← nextAccountInfo it
  failIf ((w.accounts transactionInfo.key).isEmpty = false) transactionAlreadyExists
  let governanceData ← w.read Account.governance? governanceInfo.key
  failIf (holdUpTime < governanceData.config.minTransactionHoldUpTime)
    transactionHoldUpTimeBelowRequiredMin
  let proposal ← w.getProposalDataForGovernance proposalInfo.key governanceInfo.key
  proposal.assertCanEditInstructions
  let record ← w.getTokenOwnerRecordDataForProposalOwner recordInfo.key proposal.tokenOwnerRecord
  record.assertTokenOwnerOrDelegateIsSigner authority
  let option ← okOr proposal.options[optionIndex]? .panic
  failIf (option.transactionsNextIndex < index) invalidTransactionIndex
  let transactionsNextIndex ← nextTransactionIndex index option.transactionsNextIndex
  let transactionsCount ← checkedAdd 16 option.transactionsCount 1
  let w := w.write proposalInfo.key (.proposal { proposal with
    options := proposal.options.set optionIndex
      { option with transactionsNextIndex, transactionsCount } })
  w.createAndSerializeAccountSigned rent payer transactionInfo
    (.transaction ⟨proposalInfo.key, optionIndex, index, holdUpTime, instructions, none, .none⟩)
    (.transaction proposalInfo.key optionIndex index)

def processRemoveTransaction (w : World) : Except Fault World := do
  let (proposalInfo, it) ← nextAccountInfo accounts
  let (recordInfo, it) ← nextAccountInfo it
  let (authority, it) ← nextAccountInfo it
  let (transactionInfo, it) ← nextAccountInfo it
  let (beneficiary, _) ← nextAccountInfo it
  let proposal ← w.read Account.proposal? proposalInfo.key
  proposal.assertCanEditInstructions
  let record ← w.getTokenOwnerRecordDataForProposalOwner recordInfo.key proposal.tokenOwnerRecord
  record.assertTokenOwnerOrDelegateIsSigner authority
  let transaction ← w.getProposalTransactionDataForProposal transactionInfo.key proposalInfo.key
  let w ← w.disposeAccount transactionInfo.key beneficiary.key
  let option ← okOr proposal.options[transaction.optionIndex]? .panic
  let transactionsCount ← checkedSub option.transactionsCount 1
  return w.write proposalInfo.key (.proposal { proposal with
    options := proposal.options.set transaction.optionIndex { option with transactionsCount } })

def processCancelProposal (w : World) : Except Fault World := do
  let (realmInfo, it) ← nextAccountInfo accounts
  let (governanceInfo, it) ← nextAccountInfo it
  let (proposalInfo, it) ← nextAccountInfo it
  let (ownerRecordInfo, it) ← nextAccountInfo it
  let (authority, _) ← nextAccountInfo it
  let realmData ← w.read Account.realm? realmInfo.key
  let governanceData ← w.getGovernanceDataForRealm governanceInfo.key realmInfo.key
  let proposal ← w.getProposalDataForGovernance proposalInfo.key governanceInfo.key
  proposal.assertCanCancel governanceData.config w.unixTimestamp
  let ownerRecord ←
    w.getTokenOwnerRecordDataForProposalOwner ownerRecordInfo.key proposal.tokenOwnerRecord
  ownerRecord.assertTokenOwnerOrDelegateIsSigner authority
  let w := w.write ownerRecordInfo.key
    (.tokenOwnerRecord ownerRecord.decreaseOutstandingProposalCount)
  let w :=
    if proposal.state = .voting then
      (w.write realmInfo.key (.realm { realmData with
        votingProposalCount := realmData.votingProposalCount - 1 })).write governanceInfo.key
        (.governance { governanceData with
          votingProposalCount := governanceData.votingProposalCount - 1 })
    else w
  return w.write proposalInfo.key (.proposal { proposal with
    state := .cancelled
    closedAt := some w.unixTimestamp })

/-- The first part of a sign-off: the proposal's owner signs if there are no signatories, otherwise
a signatory does. -/
def signOff (signatory : AccountMeta) (proposalKey : Address) (proposal : ProposalV2)
    (it : List AccountMeta) (w : World) : Except Fault (ProposalV2 × World) :=
  if proposal.signatoriesCount = 0 then do
    let (ownerRecordInfo, _) ← nextAccountInfo it
    let ownerRecord ←
      w.getTokenOwnerRecordDataForProposalOwner ownerRecordInfo.key proposal.tokenOwnerRecord
    ownerRecord.assertTokenOwnerOrDelegateIsSigner signatory
    return ({ proposal with signingOffAt := some w.unixTimestamp }, w)
  else do
    let (signatoryRecordInfo, _) ← nextAccountInfo it
    let signatoryRecord ←
      w.getSignatoryRecordDataForSeeds signatoryRecordInfo.key proposalKey signatory.key
    signatoryRecord.assertCanSignOff signatory
    let w := w.write signatoryRecordInfo.key
      (.signatoryRecord { signatoryRecord with signedOff := true })
    let proposal :=
      if proposal.signatoriesSignedOffCount = 0 then
        { proposal with signingOffAt := some w.unixTimestamp, state := .signingOff }
      else proposal
    let signatoriesSignedOffCount ← checkedAdd 8 proposal.signatoriesSignedOffCount 1
    return ({ proposal with signatoriesSignedOffCount }, w)

def processSignOffProposal (w : World) : Except Fault World := do
  let (realmInfo, it) ← nextAccountInfo accounts
  let (governanceInfo, it) ← nextAccountInfo it
  let (proposalInfo, it) ← nextAccountInfo it
  let (signatoryInfo, it) ← nextAccountInfo it
  let realmData ← w.read Account.realm? realmInfo.key
  let governanceData ← w.getGovernanceDataForRealm governanceInfo.key realmInfo.key
  let proposal ← w.getProposalDataForGovernance proposalInfo.key governanceInfo.key
  proposal.assertCanSignOff
  let (proposal, w) ← signOff signatoryInfo proposalInfo.key proposal it w
  let proposal :=
    if proposal.signatoriesSignedOffCount = proposal.signatoriesCount then
      { proposal with
        votingAt := some w.unixTimestamp
        votingAtSlot := some w.slot
        state := .voting }
    else proposal
  let w := w.write proposalInfo.key (.proposal proposal)
  let realmCount ← checkedAdd 16 realmData.votingProposalCount 1
  let w := w.write realmInfo.key (.realm { realmData with votingProposalCount := realmCount })
  let governanceCount ← checkedAdd 16 governanceData.votingProposalCount 1
  return w.write governanceInfo.key
    (.governance { governanceData with votingProposalCount := governanceCount })

/-! ## Voting -/

def endVoting (realm governance : Address) (realmData : RealmV2) (governanceData : GovernanceV2)
    (w : World) : World :=
  (w.write realm (.realm { realmData with
    votingProposalCount := realmData.votingProposalCount - 1 })).write governance
    (.governance { governanceData with
      votingProposalCount := governanceData.votingProposalCount - 1 })

def countVote (record : TokenOwnerRecordV2) : Except Fault TokenOwnerRecordV2 := do
  let unrelinquishedVotesCount ← checkedAdd 32 record.unrelinquishedVotesCount 1
  let totalVotesCount ← checkedAdd 32 record.totalVotesCount 1
  return { record with unrelinquishedVotesCount, totalVotesCount }

/-- If the vote tipped, the owner of the proposal has one outstanding proposal less. The voter's
record is returned, since it may be the owner's. -/
def tipVote (tipped : Bool) (realm governance ownerRecord voterRecord : Address)
    (realmData : RealmV2) (governanceData : GovernanceV2) (proposal : ProposalV2)
    (record : TokenOwnerRecordV2) (w : World) : Except Fault (TokenOwnerRecordV2 × World) :=
  if tipped then do
    let ownerData ← w.getTokenOwnerRecordDataForProposalOwner ownerRecord proposal.tokenOwnerRecord
    if ownerRecord = voterRecord then
      return (record.decreaseOutstandingProposalCount,
        endVoting realm governance realmData governanceData w)
    else
      return (record, endVoting realm governance realmData governanceData
        (w.write ownerRecord (.tokenOwnerRecord ownerData.decreaseOutstandingProposalCount)))
  else .ok (record, w)

def processCastVote (vote : Vote) (w : World) : Except Fault World := do
  let (realmInfo, it) ← nextAccountInfo accounts
  let (governanceInfo, it) ← nextAccountInfo it
  let (proposalInfo, it) ← nextAccountInfo it
  let (ownerRecordInfo, it) ← nextAccountInfo it
  let (voterRecordInfo, it) ← nextAccountInfo it
  let (authority, it) ← nextAccountInfo it
  let (voteRecordInfo, it) ← nextAccountInfo it
  let (mintInfo, it) ← nextAccountInfo it
  let (payer, it) ← nextAccountInfo it
  let (_, it) ← nextAccountInfo it
  failIf ((w.accounts voteRecordInfo.key).isEmpty = false) voteAlreadyExists
  let realmData ← w.getRealmDataForGoverningTokenMint realmInfo.key mintInfo.key
  let governanceData ← w.getGovernanceDataForRealm governanceInfo.key realmInfo.key
  let proposal ← w.getProposalDataForGovernanceAndGoverningMint proposalInfo.key
    governanceInfo.key mintInfo.key
  proposal.assertCanCastVote governanceData.config w.unixTimestamp
  let record ← w.getTokenOwnerRecordDataForRealmAndGoverningMint voterRecordInfo.key
    governanceData.realm mintInfo.key
  record.assertTokenOwnerOrDelegateIsSigner authority
  let record ← countVote record
  let (realmConfigInfo, it) ← nextAccountInfo it
  let (voterWeight, it) ← w.resolveVoterWeight record realmConfigInfo.key it realmInfo.key
    realmData .castVote proposalInfo.key
  proposal.assertValidVote vote
  let proposal ← proposal.weighVote (checkedAdd 64) vote voterWeight
  let maxVoterWeight ← w.resolveMaxVoterWeight proposal realmConfigInfo.key mintInfo.key it
    realmInfo.key realmData
  let (proposal, tipped) ←
    proposal.tryTipVote maxVoterWeight governanceData.config w.unixTimestamp
  let (record, w) ← tipVote tipped realmInfo.key governanceInfo.key ownerRecordInfo.key
    voterRecordInfo.key realmData governanceData proposal record w
  let w := w.write voterRecordInfo.key (.tokenOwnerRecord record)
  let w := w.write proposalInfo.key (.proposal proposal)
  w.createAndSerializeAccountSigned rent payer voteRecordInfo
    (.voteRecord ⟨proposalInfo.key, record.governingTokenOwner, false, voterWeight, vote⟩)
    (getVoteRecordAddress proposalInfo.key voterRecordInfo.key)

def processFinalizeVote (w : World) : Except Fault World := do
  let (realmInfo, it) ← nextAccountInfo accounts
  let (governanceInfo, it) ← nextAccountInfo it
  let (proposalInfo, it) ← nextAccountInfo it
  let (ownerRecordInfo, it) ← nextAccountInfo it
  let (mintInfo, it) ← nextAccountInfo it
  let realmData ← w.getRealmDataForGoverningTokenMint realmInfo.key mintInfo.key
  let governanceData ← w.getGovernanceDataForRealm governanceInfo.key realmInfo.key
  let proposal ← w.getProposalDataForGovernanceAndGoverningMint proposalInfo.key
    governanceInfo.key mintInfo.key
  let (realmConfigInfo, it) ← nextAccountInfo it
  let maxVoterWeight ← w.resolveMaxVoterWeight proposal realmConfigInfo.key mintInfo.key it
    realmInfo.key realmData
  let proposal ← proposal.finalizeVote maxVoterWeight governanceData.config w.unixTimestamp
  let ownerRecord ←
    w.getTokenOwnerRecordDataForProposalOwner ownerRecordInfo.key proposal.tokenOwnerRecord
  let w := w.write ownerRecordInfo.key
    (.tokenOwnerRecord ownerRecord.decreaseOutstandingProposalCount)
  let w := w.write proposalInfo.key (.proposal proposal)
  return endVoting realmInfo.key governanceInfo.key realmData governanceData w

def releaseVote (record : TokenOwnerRecordV2) : Except Fault TokenOwnerRecordV2 := do
  let unrelinquishedVotesCount ← checkedSub record.unrelinquishedVotesCount 1
  return { record with unrelinquishedVotesCount }

def hasVoteEnded (proposal : ProposalV2) (config : GovernanceConfig) (now : ℤ) :
    Except Fault Bool :=
  if proposal.state = .voting then proposal.hasVoteTimeEnded config now else .ok true

/-- `process_relinquish_vote`. While the vote is open it is withdrawn and its record disposed of;
afterwards the record is only marked. -/
def processRelinquishVote (w : World) : Except Fault World := do
  let (governanceInfo, it) ← nextAccountInfo accounts
  let (proposalInfo, it) ← nextAccountInfo it
  let (recordInfo, it) ← nextAccountInfo it
  let (voteRecordInfo, it) ← nextAccountInfo it
  let (mintInfo, it) ← nextAccountInfo it
  let governanceData ← w.read Account.governance? governanceInfo.key
  let proposal ← w.getProposalDataForGovernanceAndGoverningMint proposalInfo.key
    governanceInfo.key mintInfo.key
  let record ← w.getTokenOwnerRecordDataForRealmAndGoverningMint recordInfo.key
    governanceData.realm mintInfo.key
  let voteRecord ← w.getVoteRecordDataForProposalAndTokenOwner voteRecordInfo.key
    proposalInfo.key record.governingTokenOwner
  failIf (voteRecord.isRelinquished = true) voteAlreadyRelinquished
  let ended ← hasVoteEnded proposal governanceData.config w.unixTimestamp
  if ended = false then do
    let (authority, it) ← nextAccountInfo it
    let (beneficiary, _) ← nextAccountInfo it
    record.assertTokenOwnerOrDelegateIsSigner authority
    let proposal ← proposal.weighVote checkedSub voteRecord.vote voteRecord.voterWeight
    let w := w.write proposalInfo.key (.proposal proposal)
    let w ← w.disposeAccount voteRecordInfo.key beneficiary.key
    let totalVotesCount ← checkedSub record.totalVotesCount 1
    let record ← releaseVote { record with totalVotesCount }
    return w.write recordInfo.key (.tokenOwnerRecord record)
  else do
    let w := w.write voteRecordInfo.key (.voteRecord { voteRecord with isRelinquished := true })
    let record ← releaseVote record
    return w.write recordInfo.key (.tokenOwnerRecord record)

/-! ## Executing transactions -/

def processFlagTransactionError (w : World) : Except Fault World := do
  let (proposalInfo, it) ← nextAccountInfo accounts
  let (recordInfo, it) ← nextAccountInfo it
  let (authority, it) ← nextAccountInfo it
  let (transactionInfo, _) ← nextAccountInfo it
  let proposal ← w.read Account.proposal? proposalInfo.key
  let transaction ← w.getProposalTransactionDataForProposal transactionInfo.key proposalInfo.key
  proposal.assertCanFlagTransactionError transaction w.unixTimestamp
  let record ← w.getTokenOwnerRecordDataForProposalOwner recordInfo.key proposal.tokenOwnerRecord
  record.assertTokenOwnerOrDelegateIsSigner authority
  let w := w.write proposalInfo.key (.proposal { proposal with
    executingAt := if proposal.state = .succeeded then some w.unixTimestamp else proposal.executingAt
    state := .executingWithErrors })
  return w.write transactionInfo.key (.transaction { transaction with executionStatus := .error })

/-- What `ExecuteTransaction` works on. -/
structure Execution where
  governanceData : GovernanceV2
  governance : Address
  proposal : Address
  transaction : Address
  proposalData : ProposalV2
  transactionData : ProposalTransactionV2
  /-- The accounts passed on to the instructions. -/
  instructionAccounts : List AccountMeta

/-- The part of `process_execute_transaction` before the calls. -/
def beginExecuteTransaction (w : World) : Except Fault Execution := do
  let (governanceInfo, it) ← nextAccountInfo accounts
  let (proposalInfo, it) ← nextAccountInfo it
  let (transactionInfo, it) ← nextAccountInfo it
  let governanceData ← w.read Account.governance? governanceInfo.key
  let proposal ← w.getProposalDataForGovernance proposalInfo.key governanceInfo.key
  let transaction ← w.getProposalTransactionDataForProposal transactionInfo.key proposalInfo.key
  proposal.assertCanExecuteTransaction transaction w.unixTimestamp
  return ⟨governanceData, governanceInfo.key, proposalInfo.key, transactionInfo.key, proposal,
    transaction, it⟩

variable (e : Execution)

/-- The addresses that sign for the calls: the signers of the instruction, the governance, and its
treasury if it is among the accounts. -/
def Execution.signers : List Address :=
  let treasury := .nativeTreasury e.governance
  (accounts.filter fun a => a.isSigner).map AccountMeta.key ++ e.governanceData.address ::
    (if treasury ∈ e.instructionAccounts.map AccountMeta.key then [treasury] else [])

def Execution.executed (now : ℤ) : Except Fault ProposalV2 := do
  let proposal :=
    if e.proposalData.state = .succeeded then
      { e.proposalData with executingAt := some now, state := .executing }
    else e.proposalData
  let option ← okOr proposal.options[e.transactionData.optionIndex]? .panic
  let transactionsExecutedCount ← checkedAdd 16 option.transactionsExecutedCount 1
  let proposal := { proposal with
    options := proposal.options.set e.transactionData.optionIndex
      { option with transactionsExecutedCount } }
  if (proposal.state = .executing ∨ proposal.state = .executingWithErrors) ∧
      ∀ o ∈ proposal.options, o.voteResult = .succeeded →
        o.transactionsExecutedCount = o.transactionsCount then
    return { proposal with closedAt := some now, state := .completed }
  else return proposal

/-- The part of `process_execute_transaction` after the calls. -/
def finishExecuteTransaction (now : ℤ) (w : World) : Except Fault World := do
  let proposal ← e.executed now
  let w := w.write e.proposal (.proposal proposal)
  return w.write e.transaction (.transaction { e.transactionData with
    executedAt := some now
    executionStatus := .success })

/-! ## The program -/

/-- Every instruction but `ExecuteTransaction`. -/
def processInstruction (instruction : GovernanceInstruction) (w : World) : Except Fault World :=
  match instruction with
  | .createRealm name configArgs => processCreateRealm rent accounts name configArgs w
  | .depositGoverningTokens amount => processDepositGoverningTokens rent accounts amount w
  | .withdrawGoverningTokens => processWithdrawGoverningTokens accounts w
  | .setGovernanceDelegate delegate => processSetGovernanceDelegate accounts delegate w
  | .createGovernance config => processCreateGovernance rent accounts config w
  | .createProgramGovernance config transferUpgradeAuthority =>
    processCreateProgramGovernance rent accounts config transferUpgradeAuthority w
  | .createMintGovernance config transferMintAuthorities =>
    processCreateMintGovernance rent accounts config transferMintAuthorities w
  | .createTokenGovernance config transferAccountAuthorities =>
    processCreateTokenGovernance rent accounts config transferAccountAuthorities w
  | .createProposal name descriptionLink voteType options useDenyOption =>
    processCreateProposal rent accounts name descriptionLink voteType options useDenyOption w
  | .addSignatory signatory => processAddSignatory rent accounts signatory w
  | .removeSignatory signatory => processRemoveSignatory accounts signatory w
  | .insertTransaction optionIndex index holdUpTime instructions =>
    processInsertTransaction rent accounts optionIndex index holdUpTime instructions w
  | .removeTransaction => processRemoveTransaction accounts w
  | .cancelProposal => processCancelProposal accounts w
  | .signOffProposal => processSignOffProposal accounts w
  | .castVote vote => processCastVote rent accounts vote w
  | .finalizeVote => processFinalizeVote accounts w
  | .relinquishVote => processRelinquishVote accounts w
  | .setGovernanceConfig config => processSetGovernanceConfig accounts config w
  | .flagTransactionError => processFlagTransactionError accounts w
  | .setRealmAuthority action => processSetRealmAuthority accounts action w
  | .setRealmConfig configArgs => processSetRealmConfig rent accounts configArgs w
  | .createTokenOwnerRecord => processCreateTokenOwnerRecord rent accounts w
  | .updateProgramMetadata => processUpdateProgramMetadata rent accounts w
  | .createNativeTreasury => processCreateNativeTreasury rent accounts w
  | .executeTransaction => .error .callDepth

end Handlers

/-- What a call of the program finds. -/
structure Context where
  instruction : GovernanceInstruction
  accounts : List AccountMeta
  unixTimestamp : ℤ
  before : Address → Account

/-- A completed call of the program, with the accounts it left. -/
structure Call extends Context where
  after : Address → Account

/-- The world with the calls completed so far, the latest first. -/
structure Machine where
  world : World
  history : List Call

def Machine.complete (m : Machine) (instruction : GovernanceInstruction)
    (accounts : List AccountMeta) (before w : World) : Machine :=
  ⟨w, ⟨⟨instruction, accounts, before.unixTimestamp, before.accounts⟩, w.accounts⟩ :: m.history⟩

/-- One stored instruction, called with the given signers and accounts. A program that is neither
this one nor the token program does not touch the accounts of the model. -/
def invokeSigned (call : GovernanceInstruction → List AccountMeta → Machine → Except Fault Machine)
    (signers available : List Address) (m : Machine) (i : InstructionData) :
    Except Fault Machine := do
  failIf (∃ a ∈ i.accounts, a.isSigner = true ∧ a.key ∉ signers) .privilegeEscalation
  failIf (∃ a ∈ i.accounts, a.key ∉ available) .privilegeEscalation
  match i with
  | .governance instruction accounts => call instruction accounts m
  | .token instruction => do
    let w ← m.world.tokenProcess instruction
    return { m with world := w }
  | .other _ => .ok m

def process (rent : Account → ℕ) :
    ℕ → GovernanceInstruction → List AccountMeta → Machine → Except Fault Machine
  | 0, _, _, _ => .error .callDepth
  | depth + 1, .executeTransaction, accounts, m => do
    let e ← beginExecuteTransaction accounts m.world
    let m' ← e.transactionData.instructions.foldlM
      (invokeSigned (process rent depth) (e.signers accounts)
        (e.instructionAccounts.map AccountMeta.key)) m
    let w ← finishExecuteTransaction e m.world.unixTimestamp m'.world
    return m'.complete .executeTransaction accounts m.world w
  | _ + 1, instruction, accounts, m => do
    let w ← processInstruction rent accounts instruction m.world
    return m.complete instruction accounts m.world w

/-! ## Runs -/

/-- The call depth the runtime allows. -/
def maxDepth : ℕ := 5

/-- Ordinary addresses are those somebody can sign for. -/
def Address.isWallet : Address → Bool
  | wallet _ => true
  | _ => false

/-- The addresses of the accounts other programs keep. -/
def Address.isOutside : Address → Bool
  | wallet _ | programData _ => true
  | _ => false

/-- The accounts of add-ins and of the loader are written by other programs. -/
def Account.isOutside : Account → Bool
  | empty | voterWeightRecord _ _ | maxVoterWeightRecord _ _ | programData _ => true
  | _ => false

/-- What can happen. -/
inductive Event
  /-- Time passes. -/
  | tick (seconds slots : ℕ)
  /-- An instruction of the program, signed by ordinary addresses. -/
  | instruction (instruction : GovernanceInstruction) (accounts : List AccountMeta)
  /-- An instruction of the token program, signed by an ordinary address. -/
  | token (instruction : TokenInstruction)
  /-- Add-ins and the loader write their own accounts. -/
  | outside (k : Address) (a : Account)
  /-- Anybody adds lamports to any account. -/
  | deposit (k : Address) (lamports : ℕ)
  /-- The runtime takes back a disposed account without lamports. -/
  | reclaim (k : Address)

/-- The machine after one event; an event that fails changes nothing. -/
def Machine.step (rent : Account → ℕ) (m : Machine) : Event → Machine
  | .tick seconds slots => { m with world := { m.world with
      unixTimestamp := m.world.unixTimestamp + seconds
      slot := m.world.slot + slots } }
  | .instruction instruction accounts =>
    if ∀ a ∈ accounts, a.isSigner = true → a.key.isWallet = true then
      match process rent maxDepth instruction accounts m with
      | .ok m' => m'
      | .error _ => m
    else m
  | .token instruction =>
    if instruction.signer.isWallet then
      match m.world.tokenProcess instruction with
      | .ok w => { m with world := w }
      | .error _ => m
    else m
  | .outside k a =>
    if k.isOutside ∧ (m.world.accounts k).isOutside ∧ a.isOutside then
      { m with world := m.world.write k a }
    else m
  | .deposit k lamports => { m with world := { m.world with
      lamports := Function.update m.world.lamports k (m.world.lamports k + lamports) } }
  | .reclaim k =>
    match m.world.accounts k with
    | .zeroed => if m.world.lamports k = 0 then { m with world := m.world.write k .empty } else m
    | _ => m

end SolanaPrograms.Governance
