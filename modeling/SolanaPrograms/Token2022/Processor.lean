import SolanaPrograms.Token.Processor
import SolanaPrograms.Token2022.ExtensionData

/-!
# The token-2022 processor

Every handler of token-2022, built without the `zk-ops` feature, on decoded instructions: the
processor itself and the processors of the extensions. Handlers read accounts from the store
they are given and return the store they leave; checks stand in program order.

Where the source repeats the token program to the letter (`validate_owner`, the authority of a
debit, multisigs, moving lamports), the token program's definitions are used. The program runs
at its own address, so `program_id` and `crate::id()` are one parameter.

An account whose data is borrowed cannot be borrowed again: two roles played by one account end
in a panic, which the handlers below check where the source would borrow twice.
-/

namespace SolanaPrograms.Token2022

open Outcome Bytes SolanaPrograms.Runtime TokenError ProgramError
open Token (Mint Account AccountState Multisig validateOwner authorizeDebit
  authorizeBurn authorizeClose moveBacking nextExpectedMint nextOwner initializeMultisigWith
  amountToUiAmountStringTrimmed tryUiAmountIntoAmount incineratorId)

/-! ## Environment, instructions -/

/-- What the runtime supplies with a call: sysvars, the program of the previous sibling
instruction, and the ciphertext of a verified close-account proof at an offset. -/
structure Env where
  rent : Rent
  epoch : UInt64
  siblingProgram : Option Pubkey
  closeAccountProof : Int → Pubkey → Except Fault (Blob elGamalCiphertextLen)

/-- What `SetAuthority` can change. -/
inductive AuthorityType
  | mintTokens
  | freezeAccount
  | accountOwner
  | closeAccount
  | transferFeeConfig
  | withheldWithdraw
deriving DecidableEq, Repr

inductive TransferFeeInstruction
  | initializeTransferFeeConfig (transferFeeConfigAuthority withdrawWithheldAuthority :
      Option Pubkey) (transferFeeBasisPoints : UInt16) (maximumFee : UInt64)
  | transferCheckedWithFee (amount : UInt64) (decimals : UInt8) (fee : UInt64)
  | withdrawWithheldTokensFromMint
  | withdrawWithheldTokensFromAccounts (numTokenAccounts : UInt8)
  | harvestWithheldTokensToMint
  | setTransferFee (transferFeeBasisPoints : UInt16) (maximumFee : UInt64)
deriving DecidableEq

/-- `ConfidentialTransferInstruction`. Those that need `zk-ops` are refused by this build. -/
inductive ConfidentialTransferInstruction
  | initializeMint (confidentialTransferMint : ConfidentialTransferMint)
  | updateMint (newConfidentialTransferMint : ConfidentialTransferMint)
  | configureAccount (encryptionPubkey : Blob elGamalPubkeyLen)
      (decryptableZeroBalance : Blob aeCiphertextLen)
  | approveAccount
  | emptyAccount (proofInstructionOffset : Int)
  | disableBalanceCredits
  | enableBalanceCredits
  | needsZkOps
deriving DecidableEq

inductive TokenInstruction
  | initializeMint (decimals : UInt8) (mintAuthority : Pubkey) (freezeAuthority : Option Pubkey)
  | initializeAccount
  | initializeMultisig (m : UInt8)
  | transfer (amount : UInt64)
  | approve (amount : UInt64)
  | revoke
  | setAuthority (authorityType : AuthorityType) (newAuthority : Option Pubkey)
  | mintTo (amount : UInt64)
  | burn (amount : UInt64)
  | closeAccount
  | freezeAccount
  | thawAccount
  | transferChecked (amount : UInt64) (decimals : UInt8)
  | approveChecked (amount : UInt64) (decimals : UInt8)
  | mintToChecked (amount : UInt64) (decimals : UInt8)
  | burnChecked (amount : UInt64) (decimals : UInt8)
  | initializeAccount2 (owner : Pubkey)
  | syncNative
  | initializeAccount3 (owner : Pubkey)
  | initializeMultisig2 (m : UInt8)
  | initializeMint2 (decimals : UInt8) (mintAuthority : Pubkey) (freezeAuthority : Option Pubkey)
  | getAccountDataSize (extensionTypes : List ExtensionType)
  | initializeImmutableOwner
  | amountToUiAmount (amount : UInt64)
  | uiAmountToAmount (uiAmount : List Char)
  | initializeMintCloseAuthority (closeAuthority : Option Pubkey)
  | transferFeeExtension (instruction : TransferFeeInstruction)
  | confidentialTransferExtension (instruction : ConfidentialTransferInstruction)
  | initializeDefaultAccountState (state : AccountState)
  | updateDefaultAccountState (state : AccountState)
  | reallocate (extensionTypes : List ExtensionType)
  | enableRequiredMemoTransfers
  | disableRequiredMemoTransfers
  | createNativeMint
deriving DecidableEq

/-- The mint of wrapped SOL. -/
def nativeMintId : Pubkey :=
  ⟨[131, 13, 252, 159, 222, 95, 230, 184, 170, 124, 4, 164, 118, 233, 30, 138, 198, 187, 38, 74,
    173, 144, 250, 25, 201, 223, 73, 216, 92, 62, 91, 94], rfl⟩

/-! ## Extensions in handlers -/

/-- `if let Ok(x) = ..`: an error is no value, a panic stays one. -/
def orNone {α : Type} : Except Fault α → Except Fault (Option α)
  | .ok a => .ok (some a)
  | .error .panic => .error .panic
  | .error _ => .ok none

namespace StateWithExtensionsMut

variable {S : Type} [BaseState S]

variable (V : Type) [Extension V] (self : StateWithExtensionsMut S)

/-- `get_extension_mut::<V>()`: where the value is, and the value behind the reference. -/
def borrow : Except Fault (Nat × V) :=
  match (getExtensionMut (Extension.type V)).run self with
  | .ok i self =>
    .ok (i, Extension.ofBytes (slice self.tlvData i (Extension.type V).getTypeLen))
  | .error e _ => .error e

/-- `init_extension::<V>()`: where the new value is, and the view that holds it. -/
def create : Except Fault (Nat × StateWithExtensionsMut S) :=
  match (initExtension (Extension.type V)).run self with
  | .ok i self => .ok (i, self)
  | .error e _ => .error e

def put {V : Type} [Extension V] (self : StateWithExtensionsMut S) (i : Nat) (value : V) :
    StateWithExtensionsMut S :=
  self.assign i (Extension.toBytes value)

def read (V : Type) [Extension V] (self : StateWithExtensionsMut S) : Except Fault V := do
  let b ← self.getExtension (Extension.type V)
  return Extension.ofBytes b

def initAccountExtensions (self : StateWithExtensionsMut S) :
    List ExtensionType → Except Fault (StateWithExtensionsMut S)
  | [] => .ok self
  | t :: ts =>
    match (initAccountExtensionFromType t).run self with
    | .ok _ self => self.initAccountExtensions ts
    | .error e _ => .error e

def withAccountType (self : StateWithExtensionsMut S) : Except Fault (StateWithExtensionsMut S) :=
  match initAccountType.run self with
  | .ok _ self => .ok self
  | .error e _ => .error e

end StateWithExtensionsMut

def StateWithExtensions.read {S : Type} [BaseState S] (V : Type) [Extension V]
    (self : StateWithExtensions S) : Except Fault V := do
  let b ← self.getExtension (Extension.type V)
  return Extension.ofBytes b

open StateWithExtensionsMut

/-- The data of an account after its view was edited. -/
def store {S : Type} (s : Bank) (k : Pubkey) (state : StateWithExtensionsMut S) : Bank :=
  s.setData k state.bytes

def checkProgramAccount (programId : Pubkey) (s : Bank) (info : AccountMeta) :
    Except Fault Unit :=
  failIf ((s info.key).owner ≠ programId) incorrectProgramId

def unpackMint (s : Bank) (info : AccountMeta) : Except Fault (StateWithExtensions Mint) :=
  match StateWithExtensions.unpack Mint (s info.key).data with
  | .ok mint => .ok mint
  | .error _ => .error invalidMint

def checkDecimals (expectedDecimals : Option UInt8) (mint : Mint) : Except Fault Unit :=
  match expectedDecimals with
  | some decimals => failIf (decimals ≠ mint.decimals) mintDecimalsMismatch
  | none => .ok ()

/-! ## Initialisation -/

/-- A mint that freezes new accounts needs an authority that can thaw them. -/
def checkDefaultAccountState (mint : StateWithExtensionsMut Mint)
    (freezeAuthority : Option Pubkey) : Except Fault Unit := do
  match ← orNone (mint.borrow DefaultAccountState) with
  | some (_, extension) => do
    let state ← AccountState.ofByte extension.state
    failIf (state = .frozen ∧ freezeAuthority = none) mintCannotFreeze
  | none => .ok ()

def initializeMintWith (env : Env) (accounts : List AccountMeta) (decimals : UInt8)
    (mintAuthority : Pubkey) (freezeAuthority : Option Pubkey) (rentSysvarAccount : Bool)
    (s : Bank) : Except Fault Bank := do
  let (mintInfo, it) ← nextAccountInfo accounts
  let mintDataLen := (s mintInfo.key).data.length
  let (rent, _) ← readRent env.rent rentSysvarAccount it
  failIf (¬ rent.isExempt (s mintInfo.key).lamports mintDataLen) notRentExempt
  let mint ← unpackUninitialized Mint (s mintInfo.key).data
  failIf (mint.base.isInitialized = true) alreadyInUse
  let extensionTypes ← getExtensionTypes mint.tlvData
  failIf (ExtensionType.getAccountLen Mint extensionTypes ≠ mintDataLen) invalidAccountData
  checkDefaultAccountState mint freezeAuthority
  let mint := packBase { mint with base := { mint.base with
    mintAuthority := some mintAuthority
    decimals
    isInitialized := true
    freezeAuthority } }
  let mint ← mint.withAccountType
  return store s mintInfo.key mint

def getRequiredAccountExtensions (programId : Pubkey) (s : Bank) (mintInfo : AccountMeta)
    (mint : StateWithExtensions Mint) : Except Fault (List ExtensionType) := do
  checkProgramAccount programId s mintInfo
  let mintExtensions ← getExtensionTypes mint.tlvData
  return ExtensionType.getRequiredInitAccountExtensions mintExtensions

def startingState (mint : StateWithExtensions Mint) : Except Fault AccountState := do
  match ← orNone (mint.read DefaultAccountState) with
  | some extension => AccountState.ofByte extension.state
  | none => .ok .initialized

/-- The reserve and the amount of a new account: the lamports of wrapped SOL. -/
def startingBalance (rent : Rent) (mintKey : Pubkey) (lamports : UInt64) (dataLen : Nat) :
    Except Fault (Option UInt64 × UInt64) :=
  if mintKey = nativeMintId then do
    let rentExemptReserve := rent.minimumBalance dataLen
    let amount ← okOr (checkedSub lamports rentExemptReserve) overflow
    return (some rentExemptReserve, amount)
  else .ok (none, 0)

def initializeAccountWith (programId : Pubkey) (env : Env) (accounts : List AccountMeta)
    (owner : Option Pubkey) (rentSysvarAccount : Bool) (s : Bank) : Except Fault Bank := do
  let (newInfo, it) ← nextAccountInfo accounts
  let (mintInfo, it) ← nextAccountInfo it
  let (owner, it) ← nextOwner owner it
  let dataLen := (s newInfo.key).data.length
  let (rent, _) ← readRent env.rent rentSysvarAccount it
  let account ← unpackUninitialized Account (s newInfo.key).data
  failIf (¬ rent.isExempt (s newInfo.key).lamports dataLen) notRentExempt
  -- the new account is borrowed
  failIf (mintInfo.key = newInfo.key) .panic
  let mint ← unpackMint s mintInfo
  let requiredExtensions ← getRequiredAccountExtensions programId s mintInfo mint
  failIf (dataLen < ExtensionType.getAccountLen Account requiredExtensions) invalidAccountData
  let account ← account.initAccountExtensions requiredExtensions
  let state ← startingState mint
  let (isNative, amount) ← startingBalance rent mintInfo.key (s newInfo.key).lamports dataLen
  let account := packBase { account with base := { account.base with
    mint := mintInfo.key
    owner
    closeAuthority := none
    delegate := none
    delegatedAmount := 0
    state
    isNative
    amount } }
  let account ← account.withAccountType
  return store s newInfo.key account

/-! ## Transfers -/

/-- The fee of a transfer: that of the mint given with it. Without a mint the source account must
not withhold fees. -/
def transferFee (env : Env) (s : Bank) (sourceInfo : AccountMeta)
    (source : StateWithExtensionsMut Account) (expectedMint : Option (AccountMeta × UInt8))
    (amount : UInt64) : Except Fault UInt64 :=
  match expectedMint with
  | some (mintInfo, decimals) => do
    failIf (source.base.mint ≠ mintInfo.key) mintMismatch
    -- `try_borrow_data` while the source is borrowed
    failIf (mintInfo.key = sourceInfo.key) accountBorrowFailed
    let mint ← StateWithExtensions.unpack Mint (s mintInfo.key).data
    failIf (decimals ≠ mint.base.decimals) mintDecimalsMismatch
    match ← orNone (mint.read TransferFeeConfig) with
    | some config => okOr (config.calculateEpochFee env.epoch amount) overflow
    | none => .ok 0
  | none => do
    match ← orNone (source.borrow TransferFeeAmount) with
    | some _ => .error mintRequiredForTransfer
    | none => .ok 0

/-- The programs whose instruction counts as a memo. -/
def memoProgramIds : List Pubkey :=
  [⟨[5, 74, 83, 90, 153, 41, 33, 6, 77, 36, 232, 113, 96, 218, 56, 124, 124, 53, 181, 221, 188,
      146, 187, 129, 228, 31, 168, 64, 65, 5, 68, 141], rfl⟩,
    ⟨[5, 74, 83, 80, 248, 93, 200, 130, 214, 20, 165, 86, 114, 120, 138, 41, 109, 223, 30, 171,
      171, 208, 166, 6, 120, 136, 73, 50, 244, 238, 246, 160], rfl⟩]

def checkMemo (env : Env) (destination : StateWithExtensionsMut Account) : Except Fault Unit := do
  match ← orNone (destination.read MemoTransfer) with
  | some extension =>
    failIf (boolOfPod extension.requireIncomingTransferMemos = true ∧
      ¬ ∃ p ∈ memoProgramIds, env.siblingProgram = some p) noMemo
  | none => .ok ()

def withholdFee (destination : StateWithExtensionsMut Account) (fee : UInt64) :
    Except Fault (StateWithExtensionsMut Account) :=
  if 0 < fee then do
    match ← orNone (destination.borrow TransferFeeAmount) with
    | some (i, extension) => do
      let withheldAmount ← okOr (checkedAdd extension.withheldAmount fee) overflow
      return destination.put i (TransferFeeAmount.mk withheldAmount)
    | none => .error invalidState
  else .ok destination

/-- The part of `process_transfer` behind the self-transfer return: the amounts move. -/
def settleTransfer (env : Env) (sourceKey destinationKey : Pubkey)
    (source : StateWithExtensionsMut Account) (amount fee : UInt64) (s : Bank) :
    Except Fault Bank := do
  let destination ← unpack Account (s destinationKey).data
  failIf (destination.base.isFrozen = true) accountFrozen
  failIf (source.base.mint ≠ destination.base.mint) mintMismatch
  checkMemo env destination
  let sourceAmount ← okOr (checkedSub source.base.amount amount) overflow
  let creditedAmount ← okOr (checkedSub amount fee) overflow
  let destinationAmount ← okOr (checkedAdd destination.base.amount creditedAmount) overflow
  let destination ← withholdFee destination fee
  let s ← moveBacking source.base s sourceKey destinationKey amount
  let source := packBase { source with base := { source.base with amount := sourceAmount } }
  let destination := packBase { destination with
    base := { destination.base with amount := destinationAmount } }
  return store (store s sourceKey source) destinationKey destination

def processTransfer (programId : Pubkey) (env : Env) (accounts : List AccountMeta)
    (amount : UInt64) (expectedDecimals : Option UInt8) (expectedFee : Option UInt64) (s : Bank) :
    Except Fault Bank := do
  let (sourceInfo, it) ← nextAccountInfo accounts
  let (expectedMint, it) ← nextExpectedMint expectedDecimals it
  let (destinationInfo, it) ← nextAccountInfo it
  let (authorityInfo, signers) ← nextAccountInfo it
  let source ← unpack Account (s sourceInfo.key).data
  failIf (source.base.isFrozen = true) accountFrozen
  failIf (source.base.amount < amount) TokenError.insufficientFunds
  let fee ← transferFee env s sourceInfo source expectedMint amount
  failIf (∃ expected ∈ expectedFee, expected ≠ fee) feeMismatch
  let selfTransfer : Bool := sourceInfo.key = destinationInfo.key
  let base ← authorizeDebit programId s source.base amount authorityInfo signers (!selfTransfer)
  checkProgramAccount programId s sourceInfo
  checkProgramAccount programId s destinationInfo
  if selfTransfer then return s
  else settleTransfer env sourceInfo.key destinationInfo.key { source with base } amount fee s

/-! ## Delegates -/

def checkExpectedMint (s : Bank) (sourceInfo : AccountMeta) (source : Account) :
    Option (AccountMeta × UInt8) → Except Fault Unit
  | some (mintInfo, decimals) => do
    failIf (source.mint ≠ mintInfo.key) mintMismatch
    failIf (mintInfo.key = sourceInfo.key) .panic
    let mint ← StateWithExtensions.unpack Mint (s mintInfo.key).data
    failIf (decimals ≠ mint.base.decimals) mintDecimalsMismatch
  | none => .ok ()

variable (programId : Pubkey)

variable (accounts : List AccountMeta)

def processApprove (amount : UInt64) (expectedDecimals : Option UInt8) (s : Bank) :
    Except Fault Bank := do
  let (sourceInfo, it) ← nextAccountInfo accounts
  let (expectedMint, it) ← nextExpectedMint expectedDecimals it
  let (delegateInfo, it) ← nextAccountInfo it
  let (ownerInfo, signers) ← nextAccountInfo it
  let source ← unpack Account (s sourceInfo.key).data
  failIf (source.base.isFrozen = true) accountFrozen
  checkExpectedMint s sourceInfo source.base expectedMint
  validateOwner programId s source.base.owner ownerInfo signers
  return store s sourceInfo.key (packBase { source with base := { source.base with
    delegate := some delegateInfo.key
    delegatedAmount := amount } })

/-- `process_revoke`: the delegate may give up its allowance, too. -/
def processRevoke (s : Bank) : Except Fault Bank := do
  let (sourceInfo, it) ← nextAccountInfo accounts
  let (authorityInfo, signers) ← nextAccountInfo it
  let source ← unpack Account (s sourceInfo.key).data
  failIf (source.base.isFrozen = true) accountFrozen
  let expected :=
    if source.base.delegate = some authorityInfo.key then authorityInfo.key else source.base.owner
  validateOwner programId s expected authorityInfo signers
  return store s sourceInfo.key (packBase { source with base := { source.base with
    delegate := none
    delegatedAmount := 0 } })

/-! ## Authorities -/

def setAccountAuthority (s : Bank) (account : StateWithExtensionsMut Account)
    (authorityType : AuthorityType) (newAuthority : Option Pubkey) (authorityInfo : AccountMeta)
    (signers : List AccountMeta) : Except Fault (StateWithExtensionsMut Account) := do
  failIf (account.base.isFrozen = true) accountFrozen
  match authorityType with
  | .accountOwner => do
    validateOwner programId s account.base.owner authorityInfo signers
    let immutable ← orNone (account.borrow ImmutableOwner)
    failIf (immutable.isSome = true) immutableOwner
    let owner ← okOr newAuthority invalidInstruction
    return packBase { account with base := { account.base with
      owner
      delegate := none
      delegatedAmount := 0
      closeAuthority :=
        if account.base.isNative.isSome then none else account.base.closeAuthority } }
  | .closeAccount => do
    validateOwner programId s (account.base.closeAuthority.getD account.base.owner)
      authorityInfo signers
    return packBase { account with base := { account.base with closeAuthority := newAuthority } }
  | _ => .error authorityTypeNotSupported

def setMintAuthority (s : Bank) (mint : StateWithExtensionsMut Mint) (authorityType : AuthorityType)
    (newAuthority : Option Pubkey) (authorityInfo : AccountMeta) (signers : List AccountMeta) :
    Except Fault (StateWithExtensionsMut Mint) :=
  match authorityType with
  | .mintTokens => do
    -- once a mint's supply is fixed, it cannot be undone by setting a new authority
    let mintAuthority ← okOr mint.base.mintAuthority fixedSupply
    validateOwner programId s mintAuthority authorityInfo signers
    return packBase { mint with base := { mint.base with mintAuthority := newAuthority } }
  | .freezeAccount => do
    let freezeAuthority ← okOr mint.base.freezeAuthority mintCannotFreeze
    validateOwner programId s freezeAuthority authorityInfo signers
    return packBase { mint with base := { mint.base with freezeAuthority := newAuthority } }
  | .closeAccount => do
    let (i, extension) ← mint.borrow MintCloseAuthority
    let closeAuthority ← okOr extension.closeAuthority.toOption authorityTypeNotSupported
    validateOwner programId s closeAuthority authorityInfo signers
    let closeAuthority ← OptionalNonZeroPubkey.ofOption newAuthority
    return mint.put i (MintCloseAuthority.mk closeAuthority)
  | .transferFeeConfig => do
    let (i, extension) ← mint.borrow TransferFeeConfig
    let authority ← okOr extension.transferFeeConfigAuthority.toOption authorityTypeNotSupported
    validateOwner programId s authority authorityInfo signers
    let transferFeeConfigAuthority ← OptionalNonZeroPubkey.ofOption newAuthority
    return mint.put i { extension with transferFeeConfigAuthority }
  | .withheldWithdraw => do
    let (i, extension) ← mint.borrow TransferFeeConfig
    let authority ← okOr extension.withdrawWithheldAuthority.toOption authorityTypeNotSupported
    validateOwner programId s authority authorityInfo signers
    let withdrawWithheldAuthority ← OptionalNonZeroPubkey.ofOption newAuthority
    return mint.put i { extension with withdrawWithheldAuthority }
  | .accountOwner => .error authorityTypeNotSupported

def processSetAuthority (accounts : List AccountMeta) (authorityType : AuthorityType)
    (newAuthority : Option Pubkey) (s : Bank) : Except Fault Bank := do
  let (info, it) ← nextAccountInfo accounts
  let (authorityInfo, signers) ← nextAccountInfo it
  match unpack Account (s info.key).data with
  | .ok account => do
    let account ← setAccountAuthority programId s account authorityType newAuthority
      authorityInfo signers
    return store s info.key account
  | .error _ =>
    match unpack Mint (s info.key).data with
    | .ok mint => do
      let mint ← setMintAuthority programId s mint authorityType newAuthority authorityInfo
        signers
      return store s info.key mint
    | .error _ => .error invalidAccountData

/-! ## Minting and burning -/

variable (accounts : List AccountMeta) (amount : UInt64) (expectedDecimals : Option UInt8)
  (s : Bank)

def processMintTo : Except Fault Bank := do
  let (mintInfo, it) ← nextAccountInfo accounts
  let (destinationInfo, it) ← nextAccountInfo it
  let (ownerInfo, signers) ← nextAccountInfo it
  let destination ← unpack Account (s destinationInfo.key).data
  failIf (destination.base.isFrozen = true) accountFrozen
  failIf (destination.base.isNative.isSome = true) nativeNotSupported
  failIf (mintInfo.key ≠ destination.base.mint) mintMismatch
  failIf (mintInfo.key = destinationInfo.key) .panic
  let mint ← unpack Mint (s mintInfo.key).data
  checkDecimals expectedDecimals mint.base
  let mintAuthority ← okOr mint.base.mintAuthority fixedSupply
  validateOwner programId s mintAuthority ownerInfo signers
  checkProgramAccount programId s mintInfo
  checkProgramAccount programId s destinationInfo
  let destinationAmount ← okOr (checkedAdd destination.base.amount amount) overflow
  let supply ← okOr (checkedAdd mint.base.supply amount) overflow
  let mint := packBase { mint with base := { mint.base with supply } }
  let destination := packBase { destination with
    base := { destination.base with amount := destinationAmount } }
  return store (store s mintInfo.key mint) destinationInfo.key destination

def processBurn : Except Fault Bank := do
  let (sourceInfo, it) ← nextAccountInfo accounts
  let (mintInfo, it) ← nextAccountInfo it
  let (authorityInfo, signers) ← nextAccountInfo it
  let source ← unpack Account (s sourceInfo.key).data
  failIf (mintInfo.key = sourceInfo.key) .panic
  let mint ← unpack Mint (s mintInfo.key).data
  failIf (source.base.isFrozen = true) accountFrozen
  failIf (source.base.isNative.isSome = true) nativeNotSupported
  failIf (source.base.amount < amount) TokenError.insufficientFunds
  failIf (mintInfo.key ≠ source.base.mint) mintMismatch
  checkDecimals expectedDecimals mint.base
  let base ← authorizeBurn programId s source.base amount authorityInfo signers
  checkProgramAccount programId s sourceInfo
  checkProgramAccount programId s mintInfo
  let sourceAmount ← okOr (checkedSub base.amount amount) overflow
  let supply ← okOr (checkedSub mint.base.supply amount) overflow
  let source := packBase { source with base := { base with amount := sourceAmount } }
  let mint := packBase { mint with base := { mint.base with supply } }
  return store (store s sourceInfo.key source) mintInfo.key mint

/-! ## Closing, freezing and wrapped SOL -/

/-- The conditions under which a token account may be closed. -/
def checkCloseAccount (s : Bank) (source : StateWithExtensionsMut Account)
    (destinationInfo authorityInfo : AccountMeta) (signers : List AccountMeta) :
    Except Fault Unit := do
  failIf (source.base.isNative.isSome = false ∧ source.base.amount ≠ 0) nonNativeHasBalance
  authorizeClose programId s source.base destinationInfo authorityInfo signers
  let view : StateWithExtensions Account := { base := source.base, tlvData := source.tlvData }
  checkClosable (view.read ConfidentialTransferAccount) ConfidentialTransferAccount.closable
  checkClosable (view.read TransferFeeAmount) TransferFeeAmount.closable
where
  /-- An extension that is present must be closable. -/
  checkClosable {V : Type} (extension : Except Fault V) (closable : V → Except Fault Unit) :
      Except Fault Unit := do
    match ← orNone extension with
    | some v => closable v
    | none => .ok ()

/-- The conditions under which a mint may be closed. -/
def checkCloseMint (s : Bank) (mint : StateWithExtensionsMut Mint) (authorityInfo : AccountMeta)
    (signers : List AccountMeta) : Except Fault Unit := do
  let view : StateWithExtensions Mint := { base := mint.base, tlvData := mint.tlvData }
  let extension ← view.read MintCloseAuthority
  let authority ← okOr extension.closeAuthority.toOption authorityTypeNotSupported
  validateOwner programId s authority authorityInfo signers
  failIf (mint.base.supply ≠ 0) mintHasSupply

/-- What is closed: a token account, or else a mint. -/
def checkClose (s : Bank) (sourceInfo destinationInfo authorityInfo : AccountMeta)
    (signers : List AccountMeta) : Except Fault Unit :=
  match unpack Account (s sourceInfo.key).data with
  | .ok source => checkCloseAccount programId s source destinationInfo authorityInfo signers
  | .error _ =>
    match unpack Mint (s sourceInfo.key).data with
    | .ok mint => checkCloseMint programId s mint authorityInfo signers
    | .error _ => .error uninitializedAccount

variable (accounts : List AccountMeta)

def processCloseAccount (s : Bank) : Except Fault Bank := do
  let (sourceInfo, it) ← nextAccountInfo accounts
  let (destinationInfo, it) ← nextAccountInfo it
  let (authorityInfo, signers) ← nextAccountInfo it
  failIf (sourceInfo.key = destinationInfo.key) invalidAccountData
  checkClose programId s sourceInfo destinationInfo authorityInfo signers
  let destinationLamports ← okOr
    (checkedAdd (s destinationInfo.key).lamports (s sourceInfo.key).lamports) overflow
  let s := s.setLamports destinationInfo.key destinationLamports
  let s := s.setLamports sourceInfo.key 0
  return s.setData sourceInfo.key (.replicate (s sourceInfo.key).data.length 0)

def processToggleFreezeAccount (freeze : Bool) (s : Bank) : Except Fault Bank := do
  let (sourceInfo, it) ← nextAccountInfo accounts
  let (mintInfo, it) ← nextAccountInfo it
  let (authorityInfo, signers) ← nextAccountInfo it
  let source ← unpack Account (s sourceInfo.key).data
  failIf (freeze = source.base.isFrozen) invalidState
  failIf (source.base.isNative.isSome = true) nativeNotSupported
  failIf (mintInfo.key ≠ source.base.mint) mintMismatch
  failIf (mintInfo.key = sourceInfo.key) .panic
  let mint ← StateWithExtensions.unpack Mint (s mintInfo.key).data
  let authority ← okOr mint.base.freezeAuthority mintCannotFreeze
  validateOwner programId s authority authorityInfo signers
  return store s sourceInfo.key (packBase { source with
    base := { source.base with state := if freeze then .frozen else .initialized } })

def processSyncNative (s : Bank) : Except Fault Bank := do
  let (nativeInfo, _) ← nextAccountInfo accounts
  checkProgramAccount programId s nativeInfo
  let native ← unpack Account (s nativeInfo.key).data
  let rentExemptReserve ← okOr native.base.isNative nonNativeNotSupported
  let newAmount ← okOr (checkedSub (s nativeInfo.key).lamports rentExemptReserve) overflow
  failIf (newAmount < native.base.amount) invalidState
  return store s nativeInfo.key (packBase { native with
    base := { native.base with amount := newAmount } })

/-! ## Extensions of mints -/

def processInitializeMintCloseAuthority (closeAuthority : Option Pubkey) (s : Bank) :
    Except Fault Bank := do
  let (mintInfo, _) ← nextAccountInfo accounts
  let mint ← unpackUninitialized Mint (s mintInfo.key).data
  let (i, mint) ← mint.create MintCloseAuthority
  let closeAuthority ← OptionalNonZeroPubkey.ofOption closeAuthority
  return store s mintInfo.key (mint.put i (MintCloseAuthority.mk closeAuthority))

def checkValidDefaultState (state : AccountState) : Except Fault Unit :=
  failIf (state = .uninitialized) invalidState

def processInitializeDefaultAccountState (accounts : List AccountMeta) (state : AccountState)
    (s : Bank) : Except Fault Bank := do
  checkValidDefaultState state
  let (mintInfo, _) ← nextAccountInfo accounts
  let mint ← unpackUninitialized Mint (s mintInfo.key).data
  let (i, mint) ← mint.create DefaultAccountState
  return store s mintInfo.key (mint.put i (DefaultAccountState.mk state.toByte))

def processUpdateDefaultAccountState (programId : Pubkey) (accounts : List AccountMeta)
    (state : AccountState) (s : Bank) : Except Fault Bank := do
  checkValidDefaultState state
  let (mintInfo, it) ← nextAccountInfo accounts
  let (freezeAuthorityInfo, signers) ← nextAccountInfo it
  let mint ← unpack Mint (s mintInfo.key).data
  let freezeAuthority ← okOr mint.base.freezeAuthority noAuthorityExists
  validateOwner programId s freezeAuthority freezeAuthorityInfo signers
  let (i, _) ← mint.borrow DefaultAccountState
  return store s mintInfo.key (mint.put i (DefaultAccountState.mk state.toByte))

def processInitializeTransferFeeConfig (env : Env) (accounts : List AccountMeta)
    (transferFeeConfigAuthority withdrawWithheldAuthority : Option Pubkey)
    (transferFeeBasisPoints : UInt16) (maximumFee : UInt64) (s : Bank) : Except Fault Bank := do
  let (mintInfo, _) ← nextAccountInfo accounts
  let mint ← unpackUninitialized Mint (s mintInfo.key).data
  let (i, mint) ← mint.create TransferFeeConfig
  let transferFeeConfigAuthority ← OptionalNonZeroPubkey.ofOption transferFeeConfigAuthority
  let withdrawWithheldAuthority ← OptionalNonZeroPubkey.ofOption withdrawWithheldAuthority
  failIf (maxFeeBasisPoints < transferFeeBasisPoints) transferFeeExceedsMaximum
  -- newer and older fees are the same on init, but only newer will be used
  let transferFee : TransferFee := { epoch := env.epoch, maximumFee, transferFeeBasisPoints }
  let config : TransferFeeConfig :=
    { transferFeeConfigAuthority, withdrawWithheldAuthority, withheldAmount := 0,
      olderTransferFee := transferFee, newerTransferFee := transferFee }
  return store s mintInfo.key (mint.put i config)

def processSetTransferFee (programId : Pubkey) (env : Env) (accounts : List AccountMeta)
    (transferFeeBasisPoints : UInt16) (maximumFee : UInt64) (s : Bank) : Except Fault Bank := do
  let (mintInfo, it) ← nextAccountInfo accounts
  let (authorityInfo, signers) ← nextAccountInfo it
  let mint ← unpack Mint (s mintInfo.key).data
  let (i, config) ← mint.borrow TransferFeeConfig
  let authority ← okOr config.transferFeeConfigAuthority.toOption noAuthorityExists
  validateOwner programId s authority authorityInfo signers
  failIf (maxFeeBasisPoints < transferFeeBasisPoints) transferFeeExceedsMaximum
  -- `epoch.saturating_add(1)`
  let nextEpoch := if env.epoch = UInt64.ofNat (2 ^ 64 - 1) then env.epoch else env.epoch + 1
  let config := { config with
    olderTransferFee :=
      if config.newerTransferFee.epoch ≤ env.epoch then config.newerTransferFee
      else config.olderTransferFee
    newerTransferFee := { epoch := nextEpoch, maximumFee, transferFeeBasisPoints } }
  return store s mintInfo.key (mint.put i config)

/-! ## Withheld fees -/

def processWithdrawWithheldTokensFromMint (programId : Pubkey) (accounts : List AccountMeta)
    (s : Bank) : Except Fault Bank := do
  let (mintInfo, it) ← nextAccountInfo accounts
  let (destinationInfo, it) ← nextAccountInfo it
  let (authorityInfo, signers) ← nextAccountInfo it
  let mint ← unpack Mint (s mintInfo.key).data
  let (i, config) ← mint.borrow TransferFeeConfig
  let authority ← okOr config.withdrawWithheldAuthority.toOption noAuthorityExists
  validateOwner programId s authority authorityInfo signers
  failIf (destinationInfo.key = mintInfo.key) .panic
  let destination ← unpack Account (s destinationInfo.key).data
  failIf (destination.base.mint ≠ mintInfo.key) mintMismatch
  failIf (destination.base.isFrozen = true) accountFrozen
  let amount ← okOr (checkedAdd destination.base.amount config.withheldAmount) overflow
  let mint := mint.put i { config with withheldAmount := 0 }
  let destination := packBase { destination with base := { destination.base with amount } }
  return store (store s mintInfo.key mint) destinationInfo.key destination

/-- `harvest_from_account`: the withheld amount and the store without it. Errors are logged and
skipped by the callers; the mint is borrowed, so harvesting from it panics. -/
def harvestFromAccount (programId mintKey : Pubkey) (info : AccountMeta) (s : Bank) :
    Except Fault (Option (UInt64 × Bank)) := do
  failIf (info.key = mintKey) .panic
  match unpack Account (s info.key).data with
  | .error _ => .ok none
  | .ok account =>
    if account.base.mint ≠ mintKey ∨ (s info.key).owner ≠ programId then .ok none
    else do
      match ← orNone (account.borrow TransferFeeAmount) with
      | some (i, extension) =>
        .ok (some (extension.withheldAmount,
          store s info.key (account.put i (TransferFeeAmount.mk 0))))
      | none => .ok none

def harvestToMint (programId mintKey : Pubkey) :
    List AccountMeta → TransferFeeConfig → Bank → Except Fault (TransferFeeConfig × Bank)
  | [], config, s => .ok (config, s)
  | info :: infos, config, s => do
    match ← harvestFromAccount programId mintKey info s with
    | some (amount, s) => do
      let withheldAmount ← okOr (checkedAdd config.withheldAmount amount) overflow
      harvestToMint programId mintKey infos { config with withheldAmount } s
    | none => harvestToMint programId mintKey infos config s

def processHarvestWithheldTokensToMint (programId : Pubkey) (accounts : List AccountMeta)
    (s : Bank) : Except Fault Bank := do
  let (mintInfo, infos) ← nextAccountInfo accounts
  let mint ← unpack Mint (s mintInfo.key).data
  let (i, config) ← mint.borrow TransferFeeConfig
  let (config, s) ← harvestToMint programId mintInfo.key infos config s
  return store s mintInfo.key (mint.put i config)

def credit (account : StateWithExtensionsMut Account) (amount : UInt64) :
    Except Fault (StateWithExtensionsMut Account) := do
  let amount ← okOr (checkedAdd account.base.amount amount) overflow
  return { account with base := { account.base with amount } }

/-- The loop of `process_withdraw_withheld_tokens_from_accounts`. The destination itself may be
listed; its data is borrowed, so it is harvested through its view. -/
def withdrawFromAccounts (programId mintKey destinationKey : Pubkey) :
    List AccountMeta → StateWithExtensionsMut Account → Bank →
      Except Fault (StateWithExtensionsMut Account × Bank)
  | [], destination, s => .ok (destination, s)
  | info :: infos, destination, s =>
    if info.key = destinationKey then do
      match ← orNone (destination.borrow TransferFeeAmount) with
      | some (i, extension) => do
        let destination ← credit (destination.put i (TransferFeeAmount.mk 0))
          extension.withheldAmount
        withdrawFromAccounts programId mintKey destinationKey infos destination s
      | none => .error invalidState
    else do
      match ← harvestFromAccount programId mintKey info s with
      | some (amount, s) => do
        let destination ← credit destination amount
        withdrawFromAccounts programId mintKey destinationKey infos destination s
      | none => withdrawFromAccounts programId mintKey destinationKey infos destination s

def processWithdrawWithheldTokensFromAccounts (programId : Pubkey) (accounts : List AccountMeta)
    (numTokenAccounts : UInt8) (s : Bank) : Except Fault Bank := do
  let (mintInfo, it) ← nextAccountInfo accounts
  let (destinationInfo, it) ← nextAccountInfo it
  let (authorityInfo, infos) ← nextAccountInfo it
  let numSigners := infos.length - numTokenAccounts.toNat
  let mint ← StateWithExtensions.unpack Mint (s mintInfo.key).data
  let config ← mint.read TransferFeeConfig
  let authority ← okOr config.withdrawWithheldAuthority.toOption noAuthorityExists
  validateOwner programId s authority authorityInfo (infos.take numSigners)
  failIf (destinationInfo.key = mintInfo.key) .panic
  let destination ← unpack Account (s destinationInfo.key).data
  failIf (destination.base.mint ≠ mintInfo.key) mintMismatch
  failIf (destination.base.isFrozen = true) accountFrozen
  let (destination, s) ← withdrawFromAccounts programId mintInfo.key destinationInfo.key
    (infos.drop numSigners) destination s
  return store s destinationInfo.key (packBase destination)

/-! ## Extensions of accounts -/

def processInitializeImmutableOwner (accounts : List AccountMeta) (s : Bank) :
    Except Fault Bank := do
  let (tokenAccountInfo, _) ← nextAccountInfo accounts
  let account ← unpackUninitialized Account (s tokenAccountInfo.key).data
  let (_, account) ← account.create ImmutableOwner
  return store s tokenAccountInfo.key account

def borrowOrCreateMemo (account : StateWithExtensionsMut Account) :
    Except Fault (Nat × StateWithExtensionsMut Account) := do
  match ← orNone (account.borrow MemoTransfer) with
  | some (i, _) => .ok (i, account)
  | none => account.create MemoTransfer

def processRequiredMemoTransfers (programId : Pubkey) (accounts : List AccountMeta)
    (require : Bool) (s : Bank) : Except Fault Bank := do
  let (tokenAccountInfo, it) ← nextAccountInfo accounts
  let (ownerInfo, signers) ← nextAccountInfo it
  let account ← unpack Account (s tokenAccountInfo.key).data
  validateOwner programId s account.base.owner ownerInfo signers
  let (i, account) ← borrowOrCreateMemo account
  return store s tokenAccountInfo.key (account.put i (MemoTransfer.mk (podBool require)))

def systemTransfer (s : Bank) (payer : AccountMeta) (destination : Pubkey) (lamports : UInt64) :
    Except Fault Bank := do
  failIf (payer.isSigner = false) missingRequiredSignature
  failIf ((s payer.key).owner ≠ systemProgramId ∨ (s payer.key).data ≠ []) invalidArgument
  let payerLamports ← okOr (checkedSub (s payer.key).lamports lamports)
    ProgramError.insufficientFunds
  let s := s.setLamports payer.key payerLamports
  let destinationLamports ← okOr (checkedAdd (s destination).lamports lamports) invalidArgument
  return s.setLamports destination destinationLamports

variable (programId : Pubkey)

/-- `process_reallocate`. The first store returned is the one the runtime verified at the call
of the system program; new memory is zero-filled. -/
def processReallocate (env : Env) (accounts : List AccountMeta)
    (newExtensionTypes : List ExtensionType) (s : Bank) : Except Fault (Bank × Bank) := do
  let (tokenAccountInfo, it) ← nextAccountInfo accounts
  let (payerInfo, it) ← nextAccountInfo it
  let (_, it) ← nextAccountInfo it
  let (authorityInfo, signers) ← nextAccountInfo it
  let data := (s tokenAccountInfo.key).data
  let account ← StateWithExtensions.unpack Account data
  validateOwner programId s account.base.owner authorityInfo signers
  let currentExtensionTypes ← getExtensionTypes account.tlvData
  failIf (∃ t ∈ newExtensionTypes, t.getAccountType ≠ .account) invalidState
  let neededLen := ExtensionType.getAccountLen Account (currentExtensionTypes ++ newExtensionTypes)
  if neededLen ≤ data.length then return (s, s)
  else do
    let s := s.setData tokenAccountInfo.key (data ++ .replicate (neededLen - data.length) 0)
    -- the call verifies what the program did so far
    failIf ((s tokenAccountInfo.key).owner ≠ programId) .rejected
    let newMinimumBalance := env.rent.minimumBalance neededLen
    let lamports := (s tokenAccountInfo.key).lamports
    let lamportsDiff := if lamports ≤ newMinimumBalance then newMinimumBalance - lamports else 0
    let s ← systemTransfer s payerInfo tokenAccountInfo.key lamportsDiff
    let data ← setAccountType Account (s tokenAccountInfo.key).data
    return (s, s.setData tokenAccountInfo.key data)

/-! ## Confidential transfers -/

variable (accounts : List AccountMeta)

def processInitializeConfidentialMint (confidentialTransferMint : ConfidentialTransferMint)
    (s : Bank) : Except Fault Bank := do
  let (mintInfo, _) ← nextAccountInfo accounts
  checkProgramAccount programId s mintInfo
  let mint ← unpackUninitialized Mint (s mintInfo.key).data
  let (i, mint) ← mint.create ConfidentialTransferMint
  return store s mintInfo.key (mint.put i confidentialTransferMint)

def processUpdateConfidentialMint (newConfidentialTransferMint : ConfidentialTransferMint)
    (s : Bank) : Except Fault Bank := do
  let (mintInfo, it) ← nextAccountInfo accounts
  let (authorityInfo, it) ← nextAccountInfo it
  let (newAuthorityInfo, _) ← nextAccountInfo it
  checkProgramAccount programId s mintInfo
  let mint ← unpack Mint (s mintInfo.key).data
  let (i, confidentialTransferMint) ← mint.borrow ConfidentialTransferMint
  failIf (¬ (authorityInfo.isSigner = true ∧
      confidentialTransferMint.authority = authorityInfo.key ∧
      (newAuthorityInfo.isSigner = true ∨ newAuthorityInfo.key = .replicate 0) ∧
      newConfidentialTransferMint.authority = newAuthorityInfo.key)) missingRequiredSignature
  return store s mintInfo.key (mint.put i newConfidentialTransferMint)

def processConfigureAccount (encryptionPubkey : Blob elGamalPubkeyLen)
    (decryptableZeroBalance : Blob aeCiphertextLen) (s : Bank) : Except Fault Bank := do
  let (tokenAccountInfo, it) ← nextAccountInfo accounts
  let (mintInfo, it) ← nextAccountInfo it
  let (authorityInfo, signers) ← nextAccountInfo it
  checkProgramAccount programId s tokenAccountInfo
  let account ← unpack Account (s tokenAccountInfo.key).data
  failIf (account.base.mint ≠ mintInfo.key) mintMismatch
  validateOwner programId s account.base.owner authorityInfo signers
  checkProgramAccount programId s mintInfo
  failIf (mintInfo.key = tokenAccountInfo.key) .panic
  let mint ← StateWithExtensions.unpack Mint (s mintInfo.key).data
  let confidentialTransferMint ← mint.read ConfidentialTransferMint
  let (i, account) ← account.create ConfidentialTransferAccount
  let extension : ConfidentialTransferAccount :=
    { approved := confidentialTransferMint.autoApproveNewAccounts
      encryptionPubkey
      pendingBalance := .zeroed _
      availableBalance := .zeroed _
      decryptableAvailableBalance := decryptableZeroBalance
      allowBalanceCredits := podBool true
      pendingBalanceCreditCounter := 0
      expectedPendingBalanceCreditCounter := 0
      actualPendingBalanceCreditCounter := 0
      withheldAmount := .zeroed _ }
  return store s tokenAccountInfo.key (account.put i extension)

def processApproveAccount (s : Bank) : Except Fault Bank := do
  let (tokenAccountInfo, it) ← nextAccountInfo accounts
  let (mintInfo, it) ← nextAccountInfo it
  let (authorityInfo, _) ← nextAccountInfo it
  checkProgramAccount programId s tokenAccountInfo
  let account ← unpack Account (s tokenAccountInfo.key).data
  checkProgramAccount programId s mintInfo
  failIf (mintInfo.key = tokenAccountInfo.key) .panic
  let mint ← StateWithExtensions.unpack Mint (s mintInfo.key).data
  let confidentialTransferMint ← mint.read ConfidentialTransferMint
  failIf (¬ (authorityInfo.isSigner = true ∧
    authorityInfo.key = confidentialTransferMint.authority)) missingRequiredSignature
  let (i, extension) ← account.borrow ConfidentialTransferAccount
  return store s tokenAccountInfo.key (account.put i { extension with approved := podBool true })

def processEmptyAccount (env : Env) (accounts : List AccountMeta) (proofInstructionOffset : Int)
    (s : Bank) : Except Fault Bank := do
  let (tokenAccountInfo, it) ← nextAccountInfo accounts
  let (instructionsSysvarInfo, it) ← nextAccountInfo it
  let (authorityInfo, signers) ← nextAccountInfo it
  checkProgramAccount programId s tokenAccountInfo
  let account ← unpack Account (s tokenAccountInfo.key).data
  validateOwner programId s account.base.owner authorityInfo signers
  let (i, extension) ← account.borrow ConfidentialTransferAccount
  let ciphertext ← env.closeAccountProof proofInstructionOffset instructionsSysvarInfo.key
  failIf (extension.pendingBalance ≠ .zeroed _) invalidAccountData
  failIf (extension.availableBalance ≠ ciphertext) invalidInstructionData
  let extension := { extension with availableBalance := .zeroed _ }
  failIf (extension.withheldAmount ≠ .zeroed _) invalidAccountData
  extension.closable
  return store s tokenAccountInfo.key (account.put i extension)

variable (accounts : List AccountMeta)

def processAllowBalanceCredits (allowBalanceCredits : Bool) (s : Bank) : Except Fault Bank := do
  let (tokenAccountInfo, it) ← nextAccountInfo accounts
  let (authorityInfo, signers) ← nextAccountInfo it
  checkProgramAccount programId s tokenAccountInfo
  let account ← unpack Account (s tokenAccountInfo.key).data
  validateOwner programId s account.base.owner authorityInfo signers
  let (i, extension) ← account.borrow ConfidentialTransferAccount
  return store s tokenAccountInfo.key
    (account.put i { extension with allowBalanceCredits := podBool allowBalanceCredits })

/-! ## Queries -/

def processGetAccountDataSize (newExtensionTypes : List ExtensionType) (s : Bank) :
    Except Fault (List UInt8) := do
  let (mintInfo, _) ← nextAccountInfo accounts
  let mint ← unpackMint s mintInfo
  let accountExtensions ← getRequiredAccountExtensions programId s mintInfo mint
  return leBytes 8 (ExtensionType.getAccountLen Account (accountExtensions ++ newExtensionTypes))

/-- `process_amount_to_ui_amount`: the text given to `set_return_data`. -/
def processAmountToUiAmount (amount : UInt64) (s : Bank) : Except Fault (List Char) := do
  let (mintInfo, _) ← nextAccountInfo accounts
  checkProgramAccount programId s mintInfo
  let mint ← unpackMint s mintInfo
  return amountToUiAmountStringTrimmed amount mint.base.decimals

/-- `process_ui_amount_to_amount`: the bytes given to `set_return_data`. -/
def processUiAmountToAmount (uiAmount : List Char) (s : Bank) : Except Fault (List UInt8) := do
  let (mintInfo, _) ← nextAccountInfo accounts
  checkProgramAccount programId s mintInfo
  let mint ← unpackMint s mintInfo
  let amount ← tryUiAmountIntoAmount uiAmount mint.base.decimals
  return u64Bytes amount

/-! ## The native mint -/

/-- `process_create_native_mint`. The system program funds, allocates and assigns the account;
the first store returned is the one after these calls. -/
def processCreateNativeMint (env : Env) (accounts : List AccountMeta) (s : Bank) :
    Except Fault (Bank × Bank) := do
  let (payerInfo, it) ← nextAccountInfo accounts
  let (nativeMintInfo, it) ← nextAccountInfo it
  let (_, _) ← nextAccountInfo it
  failIf (nativeMintInfo.key ≠ nativeMintId) invalidMint
  let newMinimumBalance := env.rent.minimumBalance (Pack.len Mint)
  let lamports := (s nativeMintInfo.key).lamports
  let lamportsDiff := if lamports ≤ newMinimumBalance then newMinimumBalance - lamports else 0
  let s ← systemTransfer s payerInfo nativeMintInfo.key lamportsDiff
  -- `allocate` and `assign` take an empty account of the system program
  failIf ((s nativeMintInfo.key).data ≠ [] ∨ (s nativeMintInfo.key).owner ≠ systemProgramId)
    invalidArgument
  let s : Bank := Function.update s nativeMintInfo.key
    { s nativeMintInfo.key with owner := programId, data := .replicate (Pack.len Mint) 0 }
  let s' ← packInto s nativeMintInfo.key
    { mintAuthority := none, supply := 0, decimals := 9, isInitialized := true,
      freezeAuthority := none : Mint }
  return (s, s')

/-! ## Dispatch -/

def processTransferFee (env : Env) (ix : TransferFeeInstruction) (accounts : List AccountMeta)
    (s : Bank) : Except Fault Bank :=
  match ix with
  | .initializeTransferFeeConfig configAuthority withdrawAuthority basisPoints maximumFee =>
    processInitializeTransferFeeConfig env accounts configAuthority withdrawAuthority basisPoints
      maximumFee s
  | .transferCheckedWithFee amount decimals fee =>
    processTransfer programId env accounts amount (some decimals) (some fee) s
  | .withdrawWithheldTokensFromMint => processWithdrawWithheldTokensFromMint programId accounts s
  | .withdrawWithheldTokensFromAccounts numTokenAccounts =>
    processWithdrawWithheldTokensFromAccounts programId accounts numTokenAccounts s
  | .harvestWithheldTokensToMint => processHarvestWithheldTokensToMint programId accounts s
  | .setTransferFee basisPoints maximumFee =>
    processSetTransferFee programId env accounts basisPoints maximumFee s

def processConfidentialTransfer (env : Env) (ix : ConfidentialTransferInstruction)
    (accounts : List AccountMeta) (s : Bank) : Except Fault Bank :=
  match ix with
  | .initializeMint confidentialTransferMint =>
    processInitializeConfidentialMint programId accounts confidentialTransferMint s
  | .updateMint newConfidentialTransferMint =>
    processUpdateConfidentialMint programId accounts newConfidentialTransferMint s
  | .configureAccount encryptionPubkey decryptableZeroBalance =>
    processConfigureAccount programId accounts encryptionPubkey decryptableZeroBalance s
  | .approveAccount => processApproveAccount programId accounts s
  | .emptyAccount offset => processEmptyAccount programId env accounts offset s
  | .disableBalanceCredits => processAllowBalanceCredits programId accounts false s
  | .enableBalanceCredits => processAllowBalanceCredits programId accounts true s
  | .needsZkOps => .error invalidInstructionData

variable (env : Env) (ix : TokenInstruction) (accounts : List AccountMeta) (s : Bank)

/-- The instructions that make no cross-program call. -/
def processLocal : Except Fault Bank :=
  match ix with
  | .initializeMint decimals mintAuthority freezeAuthority =>
    initializeMintWith env accounts decimals mintAuthority freezeAuthority true s
  | .initializeMint2 decimals mintAuthority freezeAuthority =>
    initializeMintWith env accounts decimals mintAuthority freezeAuthority false s
  | .initializeAccount => initializeAccountWith programId env accounts none true s
  | .initializeAccount2 owner => initializeAccountWith programId env accounts (some owner) true s
  | .initializeAccount3 owner => initializeAccountWith programId env accounts (some owner) false s
  | .initializeMultisig m => initializeMultisigWith env.rent accounts m true s
  | .initializeMultisig2 m => initializeMultisigWith env.rent accounts m false s
  | .transfer amount => processTransfer programId env accounts amount none none s
  | .approve amount => processApprove programId accounts amount none s
  | .revoke => processRevoke programId accounts s
  | .setAuthority authorityType newAuthority =>
    processSetAuthority programId accounts authorityType newAuthority s
  | .mintTo amount => processMintTo programId accounts amount none s
  | .burn amount => processBurn programId accounts amount none s
  | .closeAccount => processCloseAccount programId accounts s
  | .freezeAccount => processToggleFreezeAccount programId accounts true s
  | .thawAccount => processToggleFreezeAccount programId accounts false s
  | .transferChecked amount decimals =>
    processTransfer programId env accounts amount (some decimals) none s
  | .approveChecked amount decimals => processApprove programId accounts amount (some decimals) s
  | .mintToChecked amount decimals => processMintTo programId accounts amount (some decimals) s
  | .burnChecked amount decimals => processBurn programId accounts amount (some decimals) s
  | .syncNative => processSyncNative programId accounts s
  | .initializeImmutableOwner => processInitializeImmutableOwner accounts s
  | .initializeMintCloseAuthority closeAuthority =>
    processInitializeMintCloseAuthority accounts closeAuthority s
  | .transferFeeExtension ix => processTransferFee programId env ix accounts s
  | .confidentialTransferExtension ix => processConfidentialTransfer programId env ix accounts s
  | .initializeDefaultAccountState state => processInitializeDefaultAccountState accounts state s
  | .updateDefaultAccountState state =>
    processUpdateDefaultAccountState programId accounts state s
  | .enableRequiredMemoTransfers => processRequiredMemoTransfers programId accounts true s
  | .disableRequiredMemoTransfers => processRequiredMemoTransfers programId accounts false s
  | .getAccountDataSize extensionTypes => do
    let _ ← processGetAccountDataSize programId accounts extensionTypes s
    return s
  | .amountToUiAmount amount => do
    let _ ← processAmountToUiAmount programId accounts amount s
    return s
  | .uiAmountToAmount uiAmount => do
    let _ ← processUiAmountToAmount programId accounts uiAmount s
    return s
  -- dispatched by `process` itself
  | .reallocate _ | .createNativeMint => .error invalidInstructionData

/-- `Processor::process` on a decoded instruction: the store the runtime verified last, and the
store at return. Queries leave the store as it is. -/
def process : Except Fault (Bank × Bank) :=
  match ix with
  | .reallocate extensionTypes => processReallocate programId env accounts extensionTypes s
  | .createNativeMint => processCreateNativeMint programId env accounts s
  | ix => do
    let s' ← processLocal programId env ix accounts s
    return (s, s')

end SolanaPrograms.Token2022
