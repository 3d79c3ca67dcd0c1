import SolanaPrograms.Governance.State
import SolanaPrograms.Lib.Tokens

/-!
# Accounts of the governance program

The store maps every address to what its account holds: one of the records of the program, a token
account or a mint, a record of a voter-weight add-in, or nothing. Reading an account of another kind
is one error here, whichever check of the source finds it. The serialised form is left out; an
account that was disposed of and not yet taken back by the runtime is `zeroed`.

The token program is the one of `Lib.Tokens`, on the mints and token accounts of the store. Rent is a
function of the data of an account.
-/

namespace SolanaPrograms.Governance

open Outcome GovernanceError
open Function (update)

/-! ## Tokens -/

abbrev TokenAccount := Tokens.TokenAccount Address

abbrev Mint := Tokens.Mint Address

abbrev AuthorityType := Tokens.AuthorityType

abbrev TokenInstruction := Tokens.Instruction Address

/-- Neither the system program nor the native mint is among the addresses. -/
instance : Tokens.Special Address where
  ownerless _ := false
  incinerator _ := false
  native _ := false

/-! ## Instructions of the program -/

mutual

inductive GovernanceInstruction
  | createRealm (name : List UInt8) (configArgs : RealmConfigArgs)
  | depositGoverningTokens (amount : ℕ)
  | withdrawGoverningTokens
  | setGovernanceDelegate (newGovernanceDelegate : Option Address)
  | createGovernance (config : GovernanceConfig)
  | createProgramGovernance (config : GovernanceConfig) (transferUpgradeAuthority : Bool)
  | createMintGovernance (config : GovernanceConfig) (transferMintAuthorities : Bool)
  | createTokenGovernance (config : GovernanceConfig) (transferAccountAuthorities : Bool)
  | createProposal (name descriptionLink : List UInt8) (voteType : VoteType)
      (options : List (List UInt8)) (useDenyOption : Bool)
  | addSignatory (signatory : Address)
  | removeSignatory (signatory : Address)
  | insertTransaction (optionIndex index holdUpTime : ℕ) (instructions : List InstructionData)
  | removeTransaction
  | cancelProposal
  | signOffProposal
  | castVote (vote : Vote)
  | finalizeVote
  | relinquishVote
  | executeTransaction
  | setGovernanceConfig (config : GovernanceConfig)
  | flagTransactionError
  | setRealmAuthority (action : SetRealmAuthorityAction)
  | setRealmConfig (configArgs : RealmConfigArgs)
  | createTokenOwnerRecord
  | updateProgramMetadata
  | createNativeTreasury

/-- `InstructionData`: a call of this program, of the token program, or of any other program. -/
inductive InstructionData
  | governance (instruction : GovernanceInstruction) (accounts : List AccountMeta)
  | token (instruction : TokenInstruction)
  | other (accounts : List AccountMeta)

end

/-- The accounts a stored instruction names, with the signatures it needs. -/
def InstructionData.accounts : InstructionData → List AccountMeta
  | governance _ accounts => accounts
  | token instruction => [⟨instruction.signer, true⟩]
  | other accounts => accounts

inductive TransactionExecutionStatus
  | none
  | success
  | error
deriving DecidableEq, Repr

structure ProposalTransactionV2 where
  proposal : Address
  optionIndex : ℕ
  transactionIndex : ℕ
  holdUpTime : ℕ
  instructions : List InstructionData
  executedAt : Option ℤ
  executionStatus : TransactionExecutionStatus

def ProposalV2.assertCanExecuteTransaction (self : ProposalV2)
    (transaction : ProposalTransactionV2) (now : ℤ) : Except Fault Unit := do
  failIf (self.isExecutable = false) invalidStateCannotExecuteTransaction
  let option ← okOr self.options[transaction.optionIndex]? .panic
  failIf (option.voteResult ≠ .succeeded) cannotExecuteDefeatedOption
  let votingCompletedAt ← okOr self.votingCompletedAt .panic
  let heldUntil ← addSeconds votingCompletedAt transaction.holdUpTime
  failIf (now ≤ heldUntil) cannotExecuteTransactionWithinHoldUpTime
  failIf (transaction.executedAt ≠ none) transactionAlreadyExecuted

def ProposalV2.assertCanFlagTransactionError (self : ProposalV2)
    (transaction : ProposalTransactionV2) (now : ℤ) : Except Fault Unit := do
  self.assertCanExecuteTransaction transaction now
  failIf (transaction.executionStatus = .error) transactionAlreadyFlaggedWithError

/-! ## The store -/

inductive Account
  /-- An account of the system program without data. -/
  | empty
  /-- A disposed account of the program. -/
  | zeroed
  | realm (r : RealmV2)
  | realmConfig (c : RealmConfigAccount)
  | governance (g : GovernanceV2)
  | tokenOwnerRecord (t : TokenOwnerRecordV2)
  | proposal (p : ProposalV2)
  | signatoryRecord (s : SignatoryRecordV2)
  | voteRecord (v : VoteRecordV2)
  | transaction (t : ProposalTransactionV2)
  | programMetadata (updatedAt : ℕ)
  /-- Records of add-ins, with the program that owns them. -/
  | voterWeightRecord (program : Address) (r : VoterWeightRecord)
  | maxVoterWeightRecord (program : Address) (r : MaxVoterWeightRecord)
  | token (a : TokenAccount)
  | mint (m : Mint)
  /-- The data of an upgradeable program. -/
  | programData (upgradeAuthority : Option Address)

namespace Account

/-- `data_is_empty` and owned by the system program. -/
def isEmpty : Account → Bool
  | empty => true
  | _ => false

def realm? : Account → Option RealmV2
  | realm r => some r
  | _ => none

def realmConfig? : Account → Option RealmConfigAccount
  | realmConfig c => some c
  | _ => none

def governance? : Account → Option GovernanceV2
  | governance g => some g
  | _ => none

def tokenOwnerRecord? : Account → Option TokenOwnerRecordV2
  | tokenOwnerRecord t => some t
  | _ => none

def proposal? : Account → Option ProposalV2
  | proposal p => some p
  | _ => none

def signatoryRecord? : Account → Option SignatoryRecordV2
  | signatoryRecord s => some s
  | _ => none

def voteRecord? : Account → Option VoteRecordV2
  | voteRecord v => some v
  | _ => none

def transaction? : Account → Option ProposalTransactionV2
  | transaction t => some t
  | _ => none

def programMetadata? : Account → Option ℕ
  | programMetadata updatedAt => some updatedAt
  | _ => none

def token? : Account → Option TokenAccount
  | token a => some a
  | _ => none

def mint? : Account → Option Mint
  | mint m => some m
  | _ => none

def programData? : Account → Option (Option Address)
  | programData upgradeAuthority => some upgradeAuthority
  | _ => none

/-- What the token program keeps in the account. Wrapped native tokens are left out. -/
def entry : Account → Tokens.Entry Address
  | token a => if a.native then .free else .account a
  | mint m => .mint m
  | _ => .free

def ofEntry : Tokens.Entry Address → Account
  | .account a => token a
  | .mint m => mint m
  | .free => empty

/-- The account after the token program wrote it. -/
def post (e : Tokens.Entry Address) : Account → Account
  | token a => if a.native then token a else ofEntry e
  | empty | mint _ => ofEntry e
  | x => x

def voterWeightRecord? (program : Address) : Account → Option VoterWeightRecord
  | voterWeightRecord owner r => if owner = program then some r else none
  | _ => none

def maxVoterWeightRecord? (program : Address) : Account → Option MaxVoterWeightRecord
  | maxVoterWeightRecord owner r => if owner = program then some r else none
  | _ => none

@[simp] theorem isEmpty_eq_false {a : Account} : a.isEmpty = false ↔ a ≠ empty := by
  cases a <;> simp [isEmpty]

/-- The views of accounts, as one set of rewrite rules. -/
@[simp] theorem views :
    (∀ {a x}, realm? a = some x ↔ a = realm x) ∧
    (∀ {a x}, realmConfig? a = some x ↔ a = realmConfig x) ∧
    (∀ {a x}, governance? a = some x ↔ a = governance x) ∧
    (∀ {a x}, tokenOwnerRecord? a = some x ↔ a = tokenOwnerRecord x) ∧
    (∀ {a x}, proposal? a = some x ↔ a = proposal x) ∧
    (∀ {a x}, signatoryRecord? a = some x ↔ a = signatoryRecord x) ∧
    (∀ {a x}, voteRecord? a = some x ↔ a = voteRecord x) ∧
    (∀ {a x}, transaction? a = some x ↔ a = transaction x) ∧
    (∀ {a x}, programMetadata? a = some x ↔ a = programMetadata x) ∧
    (∀ {a x}, token? a = some x ↔ a = token x) ∧
    (∀ {a x}, mint? a = some x ↔ a = mint x) ∧
    (∀ {a x}, programData? a = some x ↔ a = programData x) := by
  refine ⟨?_, ?_, ?_, ?_, ?_, ?_, ?_, ?_, ?_, ?_, ?_, ?_⟩
  all_goals
    intro a x
    cases a <;> simp [realm?, realmConfig?, governance?, tokenOwnerRecord?, proposal?,
      signatoryRecord?, voteRecord?, transaction?, programMetadata?, token?, mint?, programData?]

end Account

structure World where
  accounts : Address → Account
  lamports : Address → ℕ
  unixTimestamp : ℤ
  slot : ℕ

namespace World

def write (w : World) (k : Address) (a : Account) : World :=
  { w with accounts := update w.accounts k a }

def read {α : Type} (w : World) (view : Account → Option α) (k : Address) : Except Fault α :=
  okOr (view (w.accounts k)) .invalidAccount

@[simp] theorem read_eq_ok {α : Type} {w : World} {view : Account → Option α} {k : Address}
    {a : α} : w.read view k = .ok a ↔ view (w.accounts k) = some a := by
  rw [read, okOr_eq_ok]

variable (w : World) (k : Address) (a : Account)

@[simp] theorem write_accounts : (w.write k a).accounts = update w.accounts k a := rfl

/-! ### The system program -/

variable (w : World)

def systemTransfer (source : AccountMeta) (destination : Address) (lamports : ℕ) :
    Except Fault World := do
  failIf (source.isSigner = false ∨ (w.accounts source.key).isEmpty = false ∨
    w.lamports source.key < lamports) .system
  let paid := update w.lamports source.key (w.lamports source.key - lamports)
  return { w with lamports := update paid destination (paid destination + lamports) }

/-- `allocate` and `assign`: an empty account gets its data. -/
def allocateAndAssign (k : Address) (a : Account) : Except Fault World := do
  failIf ((w.accounts k).isEmpty = false) .system
  return w.write k a

section Create

variable (rent : Account → ℕ)

def createAccount (payer : AccountMeta) (k : Address) (a : Account) (lamports : ℕ) :
    Except Fault World := do
  failIf (0 < w.lamports k) .system
  let w ← w.allocateAndAssign k a
  w.systemTransfer payer k lamports

/-- `create_and_serialize_account_with_owner_signed`. An account that already has lamports cannot be
created, it is topped up, allocated and assigned. -/
def createAndSerializeAccountSigned (w : World) (payer info : AccountMeta) (a : Account)
    (address : Address) : Except Fault World := do
  failIf (address ≠ info.key) .invalidSeeds
  let rentExemptLamports := max (rent a) 1
  if 0 < w.lamports info.key then do
    let topUpLamports := rentExemptLamports - w.lamports info.key
    let w ← if 0 < topUpLamports then w.systemTransfer payer info.key topUpLamports else .ok w
    w.allocateAndAssign info.key a
  else w.createAccount payer info.key a rentExemptLamports

end Create

/-- `dispose_account`: the lamports go to the beneficiary, which may be the account itself. -/
def disposeAccount (k beneficiary : Address) : Except Fault World := do
  let accountLamports := w.lamports k
  let taken := update w.lamports k 0
  let lamports ← checkedAdd 64 (taken beneficiary) accountLamports
  return { w with
    lamports := update taken beneficiary lamports
    accounts := update w.accounts k .zeroed }

/-! ### The token program -/

def book : Tokens.Book Address := fun k => (w.accounts k).entry

def closeLamports : TokenInstruction → Address → ℕ
  | .closeAccount account destination _ => update (update w.lamports destination
      (w.lamports destination + w.lamports account)) account 0
  | _ => w.lamports

def tokenProcess (i : TokenInstruction) : Except Fault World := do
  let book ← okOr (Tokens.exec (fun k => k = i.signer)
    (fun k => k = i.signer ∧ (w.accounts k).isEmpty) w.book i) .token
  return { w with
    accounts := fun k => (w.accounts k).post (book k)
    lamports := w.closeLamports i }

end World

end SolanaPrograms.Governance
