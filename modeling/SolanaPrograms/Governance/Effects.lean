import SolanaPrograms.Governance.Processor

/-!
# What the program can do to its accounts

Every handler is a chain of effects on the store. Most effects edit one account without touching
votes or deposits (`Edit`), create one account (`Created`) or dispose of one. The rest are the votes
and the deposits, which write several accounts that have to agree: casting, withdrawing and
releasing a vote, depositing and withdrawing governing tokens. The token program has its own steps.

What later proofs need of an effect is in its constructor; what all effects keep is the identity of
realms, governances, token owner records, proposals and mints.
-/

namespace SolanaPrograms.Governance

open Outcome ProposalOption ProposalV2
open Function (update)

/-! ## What stays of an account -/

/-- The part of an account that is never changed again. -/
inductive Identity
  | realm (communityMint : Address) (name : List UInt8)
  | governance (kind : GovernanceKind) (realm governedAccount : Address)
  | tokenOwnerRecord (realm mint owner : Address)
  | proposal (governance mint tokenOwnerRecord : Address) (voteType : VoteType) (options : ℕ)
      (deny : Bool)
  | mint

/-- The identity of an account that is never disposed of. -/
def Account.identity : Account → Option Identity
  | realm r => some (.realm r.communityMint r.name)
  | governance g => some (.governance g.kind g.realm g.governedAccount)
  | tokenOwnerRecord t =>
    some (.tokenOwnerRecord t.realm t.governingTokenMint t.governingTokenOwner)
  | proposal p => some (.proposal p.governance p.governingTokenMint p.tokenOwnerRecord p.voteType
      p.options.length p.denyVoteWeight.isSome)
  | mint _ => some .mint
  | _ => none

/-- The part of a proposal that votes change. -/
structure Ballot where
  governance : Address
  governingTokenMint : Address
  tokenOwnerRecord : Address
  voteType : VoteType
  weights : List ℕ
  denyVoteWeight : Option ℕ

def ProposalV2.ballot (self : ProposalV2) : Ballot :=
  ⟨self.governance, self.governingTokenMint, self.tokenOwnerRecord, self.voteType,
    self.options.map voteWeight, self.denyVoteWeight⟩

/-- What a vote decided: the ballot, the results and the circumstances. -/
structure Decision where
  ballot : Ballot
  results : List OptionVoteResult
  votingCompletedAt : Option ℤ
  maxVoteWeight : Option ℕ
  voteThresholdPercentage : Option VoteThresholdPercentage

def ProposalV2.decision (self : ProposalV2) : Decision :=
  ⟨self.ballot, self.options.map voteResult, self.votingCompletedAt,
    self.maxVoteWeight, self.voteThresholdPercentage⟩

theorem ProposalV2.identity_of_ballot {p p' : ProposalV2} (h : p'.ballot = p.ballot) :
    (Account.proposal p').identity = (Account.proposal p).identity := by
  have hlength : p'.options.length = p.options.length := by
    simpa [ballot] using congrArg (fun b => b.weights.length) h
  simp only [ballot, Ballot.mk.injEq] at h
  obtain ⟨h₁, h₂, h₃, h₄, -, h₆⟩ := h
  simp [Account.identity, h₁, h₂, h₃, h₄, h₆, hlength]

/-- The vote ended with a success, whatever has been executed since. -/
def ProposalV2.Approved (self : ProposalV2) : Prop :=
  self.isExecutable = true ∨ self.state = .completed ∧ self.denyVoteWeight ≠ none

/-- Voting has not begun. -/
def ProposalV2.Pending (self : ProposalV2) : Prop := self.state = .draft ∨ self.state = .signingOff

/-- The transactions are the same but for their execution. -/
structure SameContents (t t' : ProposalTransactionV2) : Prop where
  proposal : t'.proposal = t.proposal
  optionIndex : t'.optionIndex = t.optionIndex
  transactionIndex : t'.transactionIndex = t.transactionIndex
  holdUpTime : t'.holdUpTime = t.holdUpTime
  instructions : t'.instructions = t.instructions

theorem SameContents.refl (t : ProposalTransactionV2) : SameContents t t :=
  ⟨rfl, rfl, rfl, rfl, rfl⟩

theorem SameContents.trans {t t' t'' : ProposalTransactionV2} (h : SameContents t t')
    (h' : SameContents t' t'') : SameContents t t'' :=
  ⟨h'.1.trans h.1, h'.2.trans h.2, h'.3.trans h.3, h'.4.trans h.4, h'.5.trans h.5⟩

/-- The token owner records are the same but for the delegate and the number of proposals. -/
structure SameDeposit (t t' : TokenOwnerRecordV2) : Prop where
  realm : t'.realm = t.realm
  mint : t'.governingTokenMint = t.governingTokenMint
  owner : t'.governingTokenOwner = t.governingTokenOwner
  deposit : t'.governingTokenDepositAmount = t.governingTokenDepositAmount

theorem SameDeposit.refl (t : TokenOwnerRecordV2) : SameDeposit t t := ⟨rfl, rfl, rfl, rfl⟩

theorem SameDeposit.identity {t t' : TokenOwnerRecordV2} (h : SameDeposit t t') :
    (Account.tokenOwnerRecord t').identity = (Account.tokenOwnerRecord t).identity := by
  simp only [Account.identity, h.realm, h.mint, h.owner]

theorem sameDeposit_decrease (t : TokenOwnerRecordV2) :
    SameDeposit t t.decreaseOutstandingProposalCount := by
  unfold TokenOwnerRecordV2.decreaseOutstandingProposalCount
  split
  · exact ⟨rfl, rfl, rfl, rfl⟩
  · exact .refl t

/-! ## Configurations -/

def RealmV2.Governs (self : RealmV2) (mint : Address) : Prop :=
  self.communityMint = mint ∨ self.config.councilMint = some mint

/-- What `assert_valid_realm_config_args` makes sure of. -/
def RealmConfig.Valid (self : RealmConfig) : Prop :=
  ∃ fraction, self.communityMintMaxVoteWeightSource = .supplyFraction fraction ∧ 1 ≤ fraction ∧
    fraction ≤ supplyFractionBase

def GovernanceConfig.Valid (self : GovernanceConfig) : Prop :=
  ∃ percentage, self.voteThresholdPercentage = .yesVote percentage ∧ 1 ≤ percentage ∧
    percentage ≤ 100

theorem assertValidRealmConfigArgs_ok {args : RealmConfigArgs} {u : Unit}
    (h : assertValidRealmConfigArgs args = .ok u) :
    ∃ fraction, args.communityMintMaxVoteWeightSource = .supplyFraction fraction ∧ 1 ≤ fraction ∧
      fraction ≤ supplyFractionBase := by
  unfold assertValidRealmConfigArgs at h
  split at h
  next fraction hsource => exact ⟨fraction, hsource, by simpa using h⟩
  next => cases h

theorem assertIsValidGovernanceConfig_ok {config : GovernanceConfig} {u : Unit}
    (h : assertIsValidGovernanceConfig config = .ok u) : config.Valid := by
  unfold assertIsValidGovernanceConfig at h
  split at h
  next percentage hthreshold =>
    rw [failIf_bind_eq_ok, not_not] at h
    exact ⟨percentage, hthreshold, h.1⟩
  next => cases h

/-! ## Tokens -/

/-- The addresses that can sign: ordinary ones, and those the program signs for when it executes
transactions. -/
def Address.canSign : Address → Bool
  | wallet _ | governance _ _ _ | nativeTreasury _ => true
  | _ => false

theorem Address.canSign_of_isWallet {k : Address} (h : k.isWallet = true) : k.canSign = true := by
  cases k <;> simp_all [isWallet, canSign]

abbrev only (authority : Address) : Address → Bool := fun k => k = authority

/-- Nobody can sign for anything the account owns. -/
structure TokenAccount.Guarded (a : TokenAccount) : Prop where
  owner : a.owner.canSign = false
  delegate : a.delegate = none
  closeAuthority : a.closeAuthority = none

/-- What a transfer does. -/
def Transferred (acc acc' : Address → Account) (source destination authority : Address)
    (amount : ℕ) : Prop :=
  ∃ a b a', acc source = .token a ∧ acc destination = .token b ∧ a.mint = b.mint ∧
    a.spend false (only authority) authority amount = some a' ∧
    acc' = if source = destination then acc
      else update (update acc source (.token a')) destination
        (.token { b with amount := b.amount + amount })

inductive TokenStep : (Address → Account) → (Address → Account) → Prop
  | initializeMint {acc : Address → Account} {k : Address} {m : Mint} (hk : acc k = .empty)
      (hsign : k.canSign = true) (hsupply : m.supply = 0) :
      TokenStep acc (update acc k (.mint m))
  | initializeAccount {acc : Address → Account} {k : Address} {a : TokenAccount} {m : Mint}
      (hk : acc k = .empty) (hsign : k.canSign = true) (hmint : acc a.mint = .mint m)
      (hamount : a.amount = 0) : TokenStep acc (update acc k (.token a))
  | transfer {acc acc' : Address → Account} {source destination authority : Address} {amount : ℕ}
      (hsign : authority.canSign = true)
      (h : Transferred acc acc' source destination authority amount) : TokenStep acc acc'
  | mintTo {acc : Address → Account} {k : Address} {a : TokenAccount} {m : Mint} {amount : ℕ}
      (hk : acc k = .token a) (hmint : acc a.mint = .mint m)
      (hfits : m.supply + amount < 2 ^ 64) :
      TokenStep acc (update
        (update acc a.mint (.mint { m with supply := m.supply + amount })) k
        (.token { a with amount := a.amount + amount }))
  | burn {acc : Address → Account} {k authority : Address} {a a' : TokenAccount} {m : Mint}
      {amount : ℕ} (hsign : authority.canSign = true) (hk : acc k = .token a)
      (hmint : acc a.mint = .mint m)
      (hdebit : a.spend false (only authority) authority amount = some a')
      (hsupply : amount ≤ m.supply) :
      TokenStep acc (update
        (update acc a.mint (.mint { m with supply := m.supply - amount })) k (.token a'))
  | account {acc : Address → Account} {k : Address} {a a' : TokenAccount} (hk : acc k = .token a)
      (hfree : ¬ a.Guarded) (hmint : a'.mint = a.mint) (hamount : a'.amount = a.amount) :
      TokenStep acc (update acc k (.token a'))
  | frozen {acc : Address → Account} {k : Address} {a : TokenAccount} (hk : acc k = .token a)
      (frozen : Bool) : TokenStep acc (update acc k (.token { a with frozen }))
  | mint {acc : Address → Account} {k : Address} {m m' : Mint} (hk : acc k = .mint m)
      (hsupply : m'.supply = m.supply) : TokenStep acc (update acc k (.mint m'))
  | closeAccount {acc : Address → Account} {k : Address} {a : TokenAccount}
      (hk : acc k = .token a) (hfree : ¬ a.Guarded) (hamount : a.amount = 0) :
      TokenStep acc (update acc k .empty)

/-! ## Effects on one account -/

section Effects

variable (F : Prop) (c : Context)

/-- The greatest possible weight of the votes on a proposal: what an add-in says, or the supply of
the mint by the rules of the realm. -/
def MaxVoterWeight (acc : Address → Account) (r : RealmV2) (p : ProposalV2) (maxVoterWeight : ℕ) :
    Prop :=
  r.config.useMaxCommunityVoterWeightAddin = true ∨
    ∃ m, acc p.governingTokenMint = .mint m ∧
      p.getMaxVoterWeightFromMintSupply r m.supply = .ok maxVoterWeight

/-- Changes of one account that touch neither votes nor deposits. `F` says whether configurations
may change. -/
inductive Edit (acc : Address → Account) (k : Address) : Account → Account → Prop
  | realm {r r' : RealmV2} (hmint : r'.communityMint = r.communityMint) (hname : r'.name = r.name)
      (hconfig : r'.config = r.config ∨ F ∧ r'.config.Valid ∧
        (r'.config.councilMint = r.config.councilMint ∨ r'.config.councilMint = none)) :
      Edit acc k (.realm r) (.realm r')
  | governance {g g' : GovernanceV2} (hkind : g'.kind = g.kind) (hrealm : g'.realm = g.realm)
      (hgoverned : g'.governedAccount = g.governedAccount)
      (hconfig : g'.config = g.config ∨ F ∧ g'.config.Valid) :
      Edit acc k (.governance g) (.governance g')
  | tokenOwnerRecord {t t' : TokenOwnerRecordV2} (h : SameDeposit t t')
      (hvotes : t'.unrelinquishedVotesCount = t.unrelinquishedVotesCount)
      (htotal : t'.totalVotesCount = t.totalVotesCount) :
      Edit acc k (.tokenOwnerRecord t) (.tokenOwnerRecord t')
  | signatoryRecord {s s' : SignatoryRecordV2} (hproposal : s'.proposal = s.proposal)
      (hsignatory : s'.signatory = s.signatory) :
      Edit acc k (.signatoryRecord s) (.signatoryRecord s')
  | transaction {t t' : ProposalTransactionV2} (h : SameContents t t')
      (hexecuted : t'.executedAt = t.executedAt) : Edit acc k (.transaction t) (.transaction t')
  | realmConfig (d d' : RealmConfigAccount) : Edit acc k (.realmConfig d) (.realmConfig d')
  | programMetadata (n n' : ℕ) : Edit acc k (.programMetadata n) (.programMetadata n')
  | programData (o o' : Option Address) : Edit acc k (.programData o) (.programData o')
  /-- The owner works on a draft. -/
  | draft {p p' : ProposalV2} (hstate : p.state = .draft) (hstate' : p'.state = .draft)
      (hballot : p'.ballot = p.ballot) : Edit acc k (.proposal p) (.proposal p')
  | signOff {p p' : ProposalV2} (hstate : p.Pending)
      (hstate' : p'.Pending ∨ p'.state = .voting ∧ p'.votingAt = some c.unixTimestamp)
      (hballot : p'.ballot = p.ballot) : Edit acc k (.proposal p) (.proposal p')
  | cancel {p p' : ProposalV2} (hstate : p.Pending ∨ p.state = .voting)
      (hstate' : p'.state = .cancelled) (hballot : p'.ballot = p.ballot) :
      Edit acc k (.proposal p) (.proposal p')
  | finalize {p p' : ProposalV2} {g : GovernanceV2} {r : RealmV2} {maxVoterWeight : ℕ}
      (hbefore : c.before k = .proposal p) (hgovernance : acc p.governance = .governance g)
      (hrealm : acc g.realm = .realm r) (hmax : MaxVoterWeight acc r p maxVoterWeight)
      (hinstruction : c.instruction = .finalizeVote)
      (h : p.finalizeVote maxVoterWeight g.config c.unixTimestamp = .ok p') :
      Edit acc k (.proposal p) (.proposal p')
  | flag {p p' : ProposalV2} (hstate : p.isExecutable = true)
      (hstate' : p'.state = .executingWithErrors) (hdecision : p'.decision = p.decision) :
      Edit acc k (.proposal p) (.proposal p')

/-- A transaction was inserted by this call: by the owner of the proposal or their delegate, into
the draft, with at least the hold up time of the governance. -/
structure Inserted (T : Address) (transaction : ProposalTransactionV2) : Prop where
  instruction : c.instruction = .insertTransaction transaction.optionIndex
    transaction.transactionIndex transaction.holdUpTime transaction.instructions
  by_owner : ∃ governance proposal record authority account rest, ∃ g p t,
    c.accounts = governance :: proposal :: record :: authority :: account :: rest ∧
    proposal.key = transaction.proposal ∧ account.key = T ∧
    c.before governance.key = .governance g ∧
    g.config.minTransactionHoldUpTime ≤ transaction.holdUpTime ∧
    c.before proposal.key = .proposal p ∧ p.governance = governance.key ∧ p.state = .draft ∧
    p.tokenOwnerRecord = record.key ∧ c.before record.key = .tokenOwnerRecord t ∧
    authority.isSigner = true ∧
    (t.governingTokenOwner = authority.key ∨ t.governanceDelegate = some authority.key)

inductive Created (acc : Address → Account) (k : Address) : Account → Prop
  | nativeTreasury : Created acc k .empty
  | realmConfig {d : RealmConfigAccount} (hk : k = .realmConfig d.realm) :
      Created acc k (.realmConfig d)
  | programMetadata {n : ℕ} (hk : k = .metadata) : Created acc k (.programMetadata n)
  | holding {name : List UInt8} {mint : Address} {m : Mint} (hk : k = .pair (.named name) mint)
      (hmint : acc mint = .mint m) :
      Created acc k (.token ⟨mint, .named name, 0, none, 0, none, false, false⟩)
  | realm {r : RealmV2} (hk : k = .named r.name) (hvalid : r.config.Valid)
      (hholding : ∀ mint, r.Governs mint → ∃ m, acc (getGoverningTokenHoldingAddress k mint) =
        .token ⟨mint, k, 0, none, 0, none, false, false⟩ ∧ acc mint = .mint m) :
      Created acc k (.realm r)
  | governance {g : GovernanceV2} {r : RealmV2} (hk : k = g.address)
      (hrealm : acc g.realm = .realm r) (hvalid : g.config.Valid) : Created acc k (.governance g)
  | tokenOwnerRecord {realm mint owner : Address} {r : RealmV2}
      (hk : k = getTokenOwnerRecordAddress realm mint owner) (hrealm : acc realm = .realm r)
      (hgoverns : r.Governs mint) :
      Created acc k (.tokenOwnerRecord (.new realm mint owner 0))
  | proposal {p : ProposalV2} {g : GovernanceV2} {r : RealmV2} {t : TokenOwnerRecordV2} {index : ℕ}
      (hk : k = .proposal p.governance p.governingTokenMint index)
      (hgovernance : acc p.governance = .governance g) (hrealm : acc g.realm = .realm r)
      (hgoverns : r.Governs p.governingTokenMint)
      (hrecord : acc p.tokenOwnerRecord = .tokenOwnerRecord t) (hstate : p.state = .draft)
      (hoptions : p.options ≠ []) (hweights : ∀ o ∈ p.options, o.voteWeight = 0)
      (hdeny : p.denyVoteWeight.getD 0 = 0) : Created acc k (.proposal p)
  | signatoryRecord {s : SignatoryRecordV2} {p : ProposalV2}
      (hk : k = getSignatoryRecordAddress s.proposal s.signatory)
      (hproposal : acc s.proposal = .proposal p)
      (hinstruction : c.instruction = .addSignatory s.signatory)
      (hnames : ∃ rest, c.accounts.map AccountMeta.key = s.proposal :: rest) :
      Created acc k (.signatoryRecord s)
  | transaction {t : ProposalTransactionV2} {p : ProposalV2}
      (hk : k = .transaction t.proposal t.optionIndex t.transactionIndex)
      (hproposal : acc t.proposal = .proposal p) (hexecuted : t.executedAt = none)
      (hinserted : Inserted c k t) : Created acc k (.transaction t)

inductive Disposed (acc : Address → Account) : Account → Prop
  | signatoryRecord (s : SignatoryRecordV2) : Disposed acc (.signatoryRecord s)
  | transaction {t : ProposalTransactionV2} {p : ProposalV2}
      (hproposal : acc t.proposal = .proposal p) (hstate : p.state = .draft) :
      Disposed acc (.transaction t)

/-! ## Votes -/

/-- A vote that was not withdrawn counts once. -/
structure CastVote (acc : Address → Account) (P T : Address) (p p' : ProposalV2)
    (t t' : TokenOwnerRecordV2) (v : VoteRecordV2) (g : GovernanceV2) (r : RealmV2) : Prop where
  proposal : acc P = .proposal p
  before : c.before P = .proposal p
  record : acc T = .tokenOwnerRecord t
  fresh : acc (getVoteRecordAddress P T) = .empty
  governance : acc p.governance = .governance g
  realm : acc g.realm = .realm r
  instruction : c.instruction = .castVote v.vote
  names : ∃ a₀ a₁ a₃ rest, c.accounts.map AccountMeta.key = a₀ :: a₁ :: P :: a₃ :: T :: rest
  state : p.state = .voting
  inTime : p.hasVoteTimeEnded g.config c.unixTimestamp = .ok false
  recordRealm : t.realm = g.realm
  recordMint : t.governingTokenMint = p.governingTokenMint
  valid : p.assertValidVote v.vote = .ok ()
  ofProposal : v.proposal = P
  ofOwner : v.governingTokenOwner = t.governingTokenOwner
  kept : v.isRelinquished = false
  weight : r.config.useCommunityVoterWeightAddin = false →
    v.voterWeight = t.governingTokenDepositAmount
  same : SameDeposit t t'
  votes : t'.unrelinquishedVotesCount = t.unrelinquishedVotesCount + 1
  total : t'.totalVotesCount = t.totalVotesCount + 1
  counted : ∃ q maxVoterWeight tipped, p.weighVote (checkedAdd 64) v.vote v.voterWeight = .ok q ∧
    MaxVoterWeight acc r q maxVoterWeight ∧
    q.tryTipVote maxVoterWeight g.config c.unixTimestamp = .ok (p', tipped)

/-- A vote withdrawn while it still counts. -/
structure WithdrawVote (acc : Address → Account) (P T : Address) (p p' : ProposalV2)
    (t t' : TokenOwnerRecordV2) (v : VoteRecordV2) : Prop where
  proposal : acc P = .proposal p
  record : acc T = .tokenOwnerRecord t
  vote : acc (getVoteRecordAddress P T) = .voteRecord v
  ofProposal : v.proposal = P
  kept : v.isRelinquished = false
  state : p.state = .voting
  choices : ∀ choices, v.vote = .approve choices → p.options.length = choices.length
  counted : p.weighVote checkedSub v.vote v.voterWeight = .ok p'
  same : SameDeposit t t'
  votes : t'.unrelinquishedVotesCount + 1 = t.unrelinquishedVotesCount
  total : t'.totalVotesCount + 1 = t.totalVotesCount

/-- A vote marked after it was decided or its time is over. -/
structure ReleaseVote (acc : Address → Account) (P T : Address) (p : ProposalV2)
    (t t' : TokenOwnerRecordV2) (v : VoteRecordV2) : Prop where
  proposal : acc P = .proposal p
  record : acc T = .tokenOwnerRecord t
  vote : acc (getVoteRecordAddress P T) = .voteRecord v
  ofProposal : v.proposal = P
  kept : v.isRelinquished = false
  ended : p.state = .voting → ∃ g, acc p.governance = .governance g ∧
    p.hasVoteTimeEnded g.config c.unixTimestamp = .ok true
  same : SameDeposit t t'
  votes : t'.unrelinquishedVotesCount + 1 = t.unrelinquishedVotesCount
  total : t'.totalVotesCount = t.totalVotesCount

/-! ## Deposits -/

/-- Tokens come into the holding account and are booked for their owner. -/
structure Deposit (acc acc₁ : Address → Account) (realm mint owner : Address)
    (t' : TokenOwnerRecordV2) (amount : ℕ) : Prop where
  governs : ∃ r, acc realm = .realm r ∧ r.Governs mint
  transferred : ∃ source authority, authority.canSign = true ∧
    Transferred acc acc₁ source (getGoverningTokenHoldingAddress realm mint) authority amount
  record : acc₁ (getTokenOwnerRecordAddress realm mint owner) = .empty ∧
      t' = .new realm mint owner amount ∨
    ∃ t, acc₁ (getTokenOwnerRecordAddress realm mint owner) = .tokenOwnerRecord t ∧
      t' = { t with governingTokenDepositAmount := t.governingTokenDepositAmount + amount }

/-- An owner without votes takes all their tokens out of the holding account. -/
structure Withdrawal (acc acc₁ : Address → Account) (realm mint owner : Address)
    (t : TokenOwnerRecordV2) : Prop where
  record : acc (getTokenOwnerRecordAddress realm mint owner) = .tokenOwnerRecord t
  votes : t.unrelinquishedVotesCount = 0
  transferred : ∃ destination,
    Transferred acc acc₁ (getGoverningTokenHoldingAddress realm mint) destination realm
      t.governingTokenDepositAmount

/-! ## All effects -/

inductive Effect : (Address → Account) → (Address → Account) → Prop
  | edit {acc : Address → Account} {k : Address} {a a' : Account} (hk : acc k = a)
      (h : Edit F c acc k a a') : Effect acc (update acc k a')
  | create {acc : Address → Account} {k : Address} {a : Account} (hk : acc k = .empty)
      (h : Created c acc k a) : Effect acc (update acc k a)
  | dispose {acc : Address → Account} {k : Address} {a : Account} (hk : acc k = a)
      (h : Disposed acc a) : Effect acc (update acc k .zeroed)
  | castVote {acc : Address → Account} {P T : Address} {p p' : ProposalV2}
      {t t' : TokenOwnerRecordV2} {v : VoteRecordV2} {g : GovernanceV2} {r : RealmV2}
      (h : CastVote c acc P T p p' t t' v g r) :
      Effect acc (update (update (update acc T (.tokenOwnerRecord t')) P
        (.proposal p')) (getVoteRecordAddress P T) (.voteRecord v))
  | withdrawVote {acc : Address → Account} {P T : Address} {p p' : ProposalV2}
      {t t' : TokenOwnerRecordV2} {v : VoteRecordV2} (h : WithdrawVote acc P T p p' t t' v) :
      Effect acc (update (update (update acc P (.proposal p'))
        (getVoteRecordAddress P T) .zeroed) T (.tokenOwnerRecord t'))
  | releaseVote {acc : Address → Account} {P T : Address} {p : ProposalV2}
      {t t' : TokenOwnerRecordV2} {v : VoteRecordV2} (h : ReleaseVote c acc P T p t t' v) :
      Effect acc (update (update acc (getVoteRecordAddress P T)
        (.voteRecord { v with isRelinquished := true })) T (.tokenOwnerRecord t'))
  | deposit {acc acc₁ : Address → Account} {realm mint owner : Address} {t' : TokenOwnerRecordV2}
      {amount : ℕ} (h : Deposit acc acc₁ realm mint owner t' amount) :
      Effect acc (update acc₁ (getTokenOwnerRecordAddress realm mint owner)
        (.tokenOwnerRecord t'))
  | withdraw {acc acc₁ : Address → Account} {realm mint owner : Address} {t : TokenOwnerRecordV2}
      (h : Withdrawal acc acc₁ realm mint owner t) :
      Effect acc (update acc₁ (getTokenOwnerRecordAddress realm mint owner)
        (.tokenOwnerRecord { t with governingTokenDepositAmount := 0 }))
  | token {acc acc' : Address → Account} (h : TokenStep acc acc') : Effect acc acc'

/-- The effects of a call, one after the other. -/
abbrev Effects : (Address → Account) → (Address → Account) → Prop :=
  Relation.ReflTransGen (Effect F c)

end Effects

end SolanaPrograms.Governance
