import SolanaPrograms.Runtime.Sysvar
import SolanaPrograms.Token.State
import SolanaPrograms.Token.UiAmount

/-!
# The token program's processor

Every handler of the spl-token processor, on decoded instructions. A handler reads accounts
from the store it is given and returns the store it leaves; checks stand in program order.
The rent parameters are what the runtime supplies with the call.
-/

namespace SolanaPrograms.Token

open Outcome SolanaPrograms.Runtime ProgramError

/-! ## Errors and instructions -/

/-- Errors of the token program, in the order of their codes. -/
inductive TokenError
  | notRentExempt
  | insufficientFunds
  | invalidMint
  | mintMismatch
  | ownerMismatch
  | fixedSupply
  | alreadyInUse
  | invalidNumberOfProvidedSigners
  | invalidNumberOfRequiredSigners
  | uninitializedState
  | nativeNotSupported
  | nonNativeHasBalance
  | invalidInstruction
  | invalidState
  | overflow
  | authorityTypeNotSupported
  | mintCannotFreeze
  | accountFrozen
  | mintDecimalsMismatch
  | nonNativeNotSupported
deriving DecidableEq, Repr

/-- `From<TokenError> for ProgramError`: the position in the enumeration. -/
def TokenError.toProgramError (e : TokenError) : ProgramError :=
  .custom (UInt32.ofNat e.ctorIdx)

instance : Coe TokenError Fault := ⟨fun e => .err e.toProgramError⟩

open TokenError

/-- What `SetAuthority` can change. -/
inductive AuthorityType
  | mintTokens
  | freezeAccount
  | accountOwner
  | closeAccount
deriving DecidableEq, Repr

inductive TokenInstruction
  | initializeMint (decimals : UInt8) (mintAuthority : Pubkey) (freezeAuthority : Option Pubkey)
  | initializeAccount
  | initializeMultisig (m : UInt8)
  | transfer (amount : UInt64)
  | approve (amount : UInt64)
  | revoke
  | setAuthority (authorityType : AuthorityType) (newAuthority : Option Pubkey)
  | mintTo (amount : UInt64)
  | burn (amount : UInt64)
  | closeAccount
  | freezeAccount
  | thawAccount
  | transferChecked (amount : UInt64) (decimals : UInt8)
  | approveChecked (amount : UInt64) (decimals : UInt8)
  | mintToChecked (amount : UInt64) (decimals : UInt8)
  | burnChecked (amount : UInt64) (decimals : UInt8)
  | initializeAccount2 (owner : Pubkey)
  | syncNative
  | initializeAccount3 (owner : Pubkey)
  | initializeMultisig2 (m : UInt8)
  | initializeMint2 (decimals : UInt8) (mintAuthority : Pubkey) (freezeAuthority : Option Pubkey)
  | getAccountDataSize
  | initializeImmutableOwner
  | amountToUiAmount (amount : UInt64)
  | uiAmountToAmount (uiAmount : List Char)
deriving DecidableEq

/-! ## Ownership and signatures -/

/-- The mint of wrapped SOL. -/
def nativeMintId : Pubkey :=
  ⟨[6, 155, 136, 87, 254, 171, 129, 132, 251, 104, 127, 99, 70, 24, 192, 53, 218, 196, 57, 220,
    26, 235, 59, 85, 152, 160, 240, 0, 0, 0, 0, 1], rfl⟩

def checkAccountOwner (programId : Pubkey) (s : Bank) (info : AccountMeta) :
    Except Fault Unit :=
  failIf (programId ≠ (s info.key).owner) incorrectProgramId

/-- Two accounts whose owner is only checked when nothing else would show a foreign one. -/
def checkAccountOwnersIf (c : Prop) [Decidable c] (programId : Pubkey) (s : Bank)
    (info₁ info₂ : AccountMeta) : Except Fault Unit :=
  if c then do
    checkAccountOwner programId s info₁
    checkAccountOwner programId s info₂
  else .ok ()

/-- The inner loop of `validate_owner`: one signer against every position of the multisig,
each with the mark that says whether it was matched before. -/
def matchPositions (signer : AccountMeta) :
    List (Pubkey × Bool) → UInt8 → Except Fault (List (Pubkey × Bool) × UInt8)
  | [], numSigners => .ok ([], numSigners)
  | (key, matched) :: rest, numSigners => do
    if key = signer.key ∧ matched = false then
      failIf (signer.isSigner = false) missingRequiredSignature
      let (rest, numSigners) ← matchPositions signer rest (numSigners + 1)
      return ((key, true) :: rest, numSigners)
    else
      let (rest, numSigners) ← matchPositions signer rest numSigners
      return ((key, matched) :: rest, numSigners)

/-- The outer loop of `validate_owner`. -/
def matchSigners :
    List AccountMeta → List (Pubkey × Bool) → UInt8 → Except Fault UInt8
  | [], _, numSigners => .ok numSigners
  | signer :: signers, positions, numSigners => do
    let (positions, numSigners) ← matchPositions signer positions numSigners
    matchSigners signers positions numSigners

variable (programId : Pubkey) (s : Bank)

def validateOwner (expectedOwner : Pubkey) (ownerInfo : AccountMeta) (signers : List AccountMeta) :
    Except Fault Unit := do
  failIf (expectedOwner ≠ ownerInfo.key) ownerMismatch
  if programId = (s ownerInfo.key).owner ∧ (s ownerInfo.key).data.length = Pack.len Multisig then
    let multisig ← Pack.unpack Multisig (s ownerInfo.key).data
    -- for every signer the loop slices `multisig.signers[0..multisig.n]`
    failIf (signers ≠ [] ∧ maxSigners < multisig.n.toNat) .panic
    let positions := (multisig.signers.take multisig.n.toNat).map (·, false)
    let numSigners ← matchSigners signers positions 0
    failIf (numSigners < multisig.m) missingRequiredSignature
  else
    failIf (ownerInfo.isSigner = false) missingRequiredSignature

/-- The authority of a debit, in `process_transfer` and `process_burn`: the delegate within
its allowance, which is used up when `consume` says so, or else the owner. -/
def authorizeDebit (account : Account) (amount : UInt64) (authorityInfo : AccountMeta)
    (signers : List AccountMeta) (consume : Bool) : Except Fault Account :=
  if account.delegate = some authorityInfo.key then do
    validateOwner programId s authorityInfo.key authorityInfo signers
    failIf (account.delegatedAmount < amount) TokenError.insufficientFunds
    if consume then
      let delegatedAmount ← okOr (checkedSub account.delegatedAmount amount) overflow
      return { account with
        delegatedAmount
        delegate := if delegatedAmount = 0 then none else account.delegate }
    else
      return account
  else do
    validateOwner programId s account.owner authorityInfo signers
    return account

/-- The optional mint of the checked instructions: the next account and the decimals. -/
def nextExpectedMint (expectedDecimals : Option UInt8) (it : List AccountMeta) :
    Except Fault (Option (AccountMeta × UInt8) × List AccountMeta) :=
  match expectedDecimals with
  | some decimals => do
    let (info, it) ← nextAccountInfo it
    return (some (info, decimals), it)
  | none => .ok (none, it)

def checkExpectedMint (s : Bank) (expected : Option (AccountMeta × UInt8)) (mintKey : Pubkey) :
    Except Fault Unit :=
  match expected with
  | some (info, decimals) => do
    failIf (info.key ≠ mintKey) mintMismatch
    let mint ← Pack.unpack Mint (s info.key).data
    failIf (decimals ≠ mint.decimals) mintDecimalsMismatch
  | none => .ok ()

/-- The check of the decimals alone, in `process_mint_to` and `process_burn`. -/
def checkDecimals (expectedDecimals : Option UInt8) (mint : Mint) : Except Fault Unit :=
  match expectedDecimals with
  | some decimals => failIf (decimals ≠ mint.decimals) mintDecimalsMismatch
  | none => .ok ()

/-! ## Initialisation -/

variable (rent : Rent) (accounts : List AccountMeta) (decimals : UInt8) (mintAuthority : Pubkey)
  (freezeAuthority : Option Pubkey)

def initializeMintWith (rentSysvarAccount : Bool) (s : Bank) : Except Fault Bank := do
  let (mintInfo, it) ← nextAccountInfo accounts
  let mintDataLen := (s mintInfo.key).data.length
  let (rent, _) ← readRent rent rentSysvarAccount it
  let mint ← Pack.unpackUnchecked Mint (s mintInfo.key).data
  failIf (mint.isInitialized = true) alreadyInUse
  failIf (¬ rent.isExempt (s mintInfo.key).lamports mintDataLen) notRentExempt
  packInto s mintInfo.key { mint with
    mintAuthority := some mintAuthority
    decimals
    isInitialized := true
    freezeAuthority }

def processInitializeMint (s : Bank) : Except Fault Bank :=
  initializeMintWith rent accounts decimals mintAuthority freezeAuthority true s

def processInitializeMint2 (s : Bank) : Except Fault Bank :=
  initializeMintWith rent accounts decimals mintAuthority freezeAuthority false s

/-- The owner of a new account: given with the instruction, or the next account. -/
def nextOwner (owner : Option Pubkey) (it : List AccountMeta) :
    Except Fault (Pubkey × List AccountMeta) :=
  match owner with
  | some owner => .ok (owner, it)
  | none => do
    let (info, it) ← nextAccountInfo it
    return (info.key, it)

def checkNewAccountMint (programId : Pubkey) (s : Bank) (mintInfo : AccountMeta) :
    Except Fault Unit :=
  if mintInfo.key = nativeMintId then .ok ()
  else do
    checkAccountOwner programId s mintInfo
    match Pack.unpack Mint (s mintInfo.key).data with
    | .ok _ => .ok ()
    | .error _ => .error invalidMint

variable (programId : Pubkey) (rent : Rent) (accounts : List AccountMeta)

def initializeAccountWith (owner : Option Pubkey) (rentSysvarAccount : Bool) (s : Bank) :
    Except Fault Bank := do
  let (newInfo, it) ← nextAccountInfo accounts
  let (mintInfo, it) ← nextAccountInfo it
  let (owner, it) ← nextOwner owner it
  let dataLen := (s newInfo.key).data.length
  let (rent, _) ← readRent rent rentSysvarAccount it
  let account ← Pack.unpackUnchecked Account (s newInfo.key).data
  failIf (account.isInitialized = true) alreadyInUse
  failIf (¬ rent.isExempt (s newInfo.key).lamports dataLen) notRentExempt
  checkNewAccountMint programId s mintInfo
  let account := { account with
    mint := mintInfo.key
    owner
    closeAuthority := none
    delegate := none
    delegatedAmount := 0
    state := .initialized }
  if mintInfo.key = nativeMintId then
    let rentExemptReserve := rent.minimumBalance dataLen
    let amount ← okOr (checkedSub (s newInfo.key).lamports rentExemptReserve) overflow
    packInto s newInfo.key { account with isNative := some rentExemptReserve, amount }
  else
    packInto s newInfo.key { account with isNative := none, amount := 0 }

def processInitializeAccount (s : Bank) : Except Fault Bank :=
  initializeAccountWith programId rent accounts none true s

variable (owner : Pubkey) (s : Bank)

def processInitializeAccount2 : Except Fault Bank :=
  initializeAccountWith programId rent accounts (some owner) true s

def processInitializeAccount3 : Except Fault Bank :=
  initializeAccountWith programId rent accounts (some owner) false s

/-- The loop that stores the signers: the given keys, then what the array held before. -/
def Multisig.storeSigners (multisig : Multisig) (m n : UInt8) (signers : List Pubkey)
    (h : signers.length ≤ maxSigners) : Multisig where
  m := m
  n := n
  isInitialized := true
  signers := signers ++ multisig.signers.drop signers.length
  length_signers := by
    simp only [List.length_append, List.length_drop, multisig.length_signers]
    omega

variable (rent : Rent) (accounts : List AccountMeta) (m : UInt8)

def initializeMultisigWith (rentSysvarAccount : Bool) (s : Bank) : Except Fault Bank := do
  let (multisigInfo, it) ← nextAccountInfo accounts
  let dataLen := (s multisigInfo.key).data.length
  let (rent, signerInfos) ← readRent rent rentSysvarAccount it
  let multisig ← Pack.unpackUnchecked Multisig (s multisigInfo.key).data
  failIf (multisig.isInitialized = true) alreadyInUse
  failIf (¬ rent.isExempt (s multisigInfo.key).lamports dataLen) notRentExempt
  -- `signer_infos.len() as u8`
  let n := UInt8.ofNat signerInfos.length
  failIf (¬ isValidSignerIndex n.toNat) invalidNumberOfProvidedSigners
  failIf (¬ isValidSignerIndex m.toNat) invalidNumberOfRequiredSigners
  if h : (keys signerInfos).length ≤ maxSigners then
    packInto s multisigInfo.key (multisig.storeSigners m n (keys signerInfos) h)
  else
    -- more signers than the array has places: the index is out of range
    .error .panic

def processInitializeMultisig (s : Bank) : Except Fault Bank :=
  initializeMultisigWith rent accounts m true s

def processInitializeMultisig2 (s : Bank) : Except Fault Bank :=
  initializeMultisigWith rent accounts m false s

/-! ## Transfers -/

/-- The lamports that back a transfer of wrapped SOL. -/
def moveLamports (s : Bank) (source destination : Pubkey) (amount : UInt64) :
    Except Fault Bank := do
  let sourceLamports ← okOr (checkedSub (s source).lamports amount) overflow
  let s := s.setLamports source sourceLamports
  let destinationLamports ← okOr (checkedAdd (s destination).lamports amount) overflow
  return s.setLamports destination destinationLamports

/-- Only wrapped SOL moves lamports; the source account decides. -/
def moveBacking (sourceAccount : Account) (s : Bank) (source destination : Pubkey)
    (amount : UInt64) : Except Fault Bank :=
  if sourceAccount.isNative.isSome then moveLamports s source destination amount else .ok s

/-- The part of `process_transfer` behind the self-transfer return: the amounts move. -/
def settleTransfer (source destination : Pubkey) (sourceAccount destinationAccount : Account)
    (amount : UInt64) (s : Bank) : Except Fault Bank := do
  let sourceAmount ← okOr (checkedSub sourceAccount.amount amount) overflow
  let destinationAmount ← okOr (checkedAdd destinationAccount.amount amount) overflow
  let s ← moveBacking sourceAccount s source destination amount
  let s ← packInto s source { sourceAccount with amount := sourceAmount }
  packInto s destination { destinationAccount with amount := destinationAmount }

variable (programId : Pubkey)

variable (accounts : List AccountMeta) (amount : UInt64) (expectedDecimals : Option UInt8)
  (s : Bank)

def processTransfer : Except Fault Bank := do
  let (sourceInfo, it) ← nextAccountInfo accounts
  let (expectedMintInfo, it) ← nextExpectedMint expectedDecimals it
  let (destinationInfo, it) ← nextAccountInfo it
  let (authorityInfo, signers) ← nextAccountInfo it
  let sourceAccount ← Pack.unpack Account (s sourceInfo.key).data
  let destinationAccount ← Pack.unpack Account (s destinationInfo.key).data
  failIf (sourceAccount.isFrozen = true ∨ destinationAccount.isFrozen = true) accountFrozen
  failIf (sourceAccount.amount < amount) TokenError.insufficientFunds
  failIf (sourceAccount.mint ≠ destinationAccount.mint) mintMismatch
  checkExpectedMint s expectedMintInfo sourceAccount.mint
  let selfTransfer : Bool := sourceInfo.key = destinationInfo.key
  let sourceAccount ← authorizeDebit programId s sourceAccount amount authorityInfo signers
    (!selfTransfer)
  checkAccountOwnersIf (selfTransfer = true ∨ amount = 0) programId s sourceInfo destinationInfo
  if selfTransfer then
    return s
  else
    settleTransfer sourceInfo.key destinationInfo.key sourceAccount destinationAccount amount s

/-! ## Delegates -/

def processApprove : Except Fault Bank := do
  let (sourceInfo, it) ← nextAccountInfo accounts
  let (expectedMintInfo, it) ← nextExpectedMint expectedDecimals it
  let (delegateInfo, it) ← nextAccountInfo it
  let (ownerInfo, signers) ← nextAccountInfo it
  let sourceAccount ← Pack.unpack Account (s sourceInfo.key).data
  failIf (sourceAccount.isFrozen = true) accountFrozen
  checkExpectedMint s expectedMintInfo sourceAccount.mint
  validateOwner programId s sourceAccount.owner ownerInfo signers
  packInto s sourceInfo.key { sourceAccount with
    delegate := some delegateInfo.key
    delegatedAmount := amount }

def processRevoke (accounts : List AccountMeta) (s : Bank) : Except Fault Bank := do
  let (sourceInfo, it) ← nextAccountInfo accounts
  let sourceAccount ← Pack.unpack Account (s sourceInfo.key).data
  let (ownerInfo, signers) ← nextAccountInfo it
  failIf (sourceAccount.isFrozen = true) accountFrozen
  validateOwner programId s sourceAccount.owner ownerInfo signers
  packInto s sourceInfo.key { sourceAccount with delegate := none, delegatedAmount := 0 }

/-! ## Authorities -/

def setAccountAuthority (s : Bank) (account : Account) (authorityType : AuthorityType)
    (newAuthority : Option Pubkey) (authorityInfo : AccountMeta) (signers : List AccountMeta) :
    Except Fault Account := do
  failIf (account.isFrozen = true) accountFrozen
  match authorityType with
  | .accountOwner => do
    validateOwner programId s account.owner authorityInfo signers
    let owner ← okOr newAuthority invalidInstruction
    return { account with
      owner
      delegate := none
      delegatedAmount := 0
      closeAuthority := if account.isNative.isSome then none else account.closeAuthority }
  | .closeAccount => do
    let authority := account.closeAuthority.getD account.owner
    validateOwner programId s authority authorityInfo signers
    return { account with closeAuthority := newAuthority }
  | _ => .error authorityTypeNotSupported

def setMintAuthority (s : Bank) (mint : Mint) (authorityType : AuthorityType)
    (newAuthority : Option Pubkey) (authorityInfo : AccountMeta) (signers : List AccountMeta) :
    Except Fault Mint :=
  match authorityType with
  | .mintTokens => do
    -- once a mint's supply is fixed, it cannot be undone by setting a new authority
    let mintAuthority ← okOr mint.mintAuthority fixedSupply
    validateOwner programId s mintAuthority authorityInfo signers
    return { mint with mintAuthority := newAuthority }
  | .freezeAccount => do
    let freezeAuthority ← okOr mint.freezeAuthority mintCannotFreeze
    validateOwner programId s freezeAuthority authorityInfo signers
    return { mint with freezeAuthority := newAuthority }
  | _ => .error authorityTypeNotSupported

variable (accounts : List AccountMeta)

def processSetAuthority (authorityType : AuthorityType) (newAuthority : Option Pubkey) (s : Bank) :
    Except Fault Bank := do
  let (info, it) ← nextAccountInfo accounts
  let (authorityInfo, signers) ← nextAccountInfo it
  if (s info.key).data.length = Pack.len Account then
    let account ← Pack.unpack Account (s info.key).data
    let account ← setAccountAuthority programId s account authorityType newAuthority
      authorityInfo signers
    packInto s info.key account
  else if (s info.key).data.length = Pack.len Mint then
    let mint ← Pack.unpack Mint (s info.key).data
    let mint ← setMintAuthority programId s mint authorityType newAuthority authorityInfo signers
    packInto s info.key mint
  else
    .error invalidArgument

/-! ## Minting and burning -/

def processMintTo (amount : UInt64) (expectedDecimals : Option UInt8) (s : Bank) :
    Except Fault Bank := do
  let (mintInfo, it) ← nextAccountInfo accounts
  let (destinationInfo, it) ← nextAccountInfo it
  let (ownerInfo, signers) ← nextAccountInfo it
  let destinationAccount ← Pack.unpack Account (s destinationInfo.key).data
  failIf (destinationAccount.isFrozen = true) accountFrozen
  failIf (destinationAccount.isNative.isSome = true) nativeNotSupported
  failIf (mintInfo.key ≠ destinationAccount.mint) mintMismatch
  let mint ← Pack.unpack Mint (s mintInfo.key).data
  checkDecimals expectedDecimals mint
  let mintAuthority ← okOr mint.mintAuthority fixedSupply
  validateOwner programId s mintAuthority ownerInfo signers
  checkAccountOwnersIf (amount = 0) programId s mintInfo destinationInfo
  let destinationAmount ← okOr (checkedAdd destinationAccount.amount amount) overflow
  let supply ← okOr (checkedAdd mint.supply amount) overflow
  let s ← packInto s destinationInfo.key { destinationAccount with amount := destinationAmount }
  packInto s mintInfo.key { mint with supply }

def authorizeBurn (s : Bank) (account : Account) (amount : UInt64) (authorityInfo : AccountMeta)
    (signers : List AccountMeta) : Except Fault Account :=
  if account.isOwnedBySystemProgramOrIncinerator then .ok account
  else authorizeDebit programId s account amount authorityInfo signers true

def processBurn (accounts : List AccountMeta) (amount : UInt64) (expectedDecimals : Option UInt8)
    (s : Bank) : Except Fault Bank := do
  let (sourceInfo, it) ← nextAccountInfo accounts
  let (mintInfo, it) ← nextAccountInfo it
  let (authorityInfo, signers) ← nextAccountInfo it
  let sourceAccount ← Pack.unpack Account (s sourceInfo.key).data
  let mint ← Pack.unpack Mint (s mintInfo.key).data
  failIf (sourceAccount.isFrozen = true) accountFrozen
  failIf (sourceAccount.isNative.isSome = true) nativeNotSupported
  failIf (sourceAccount.amount < amount) TokenError.insufficientFunds
  failIf (mintInfo.key ≠ sourceAccount.mint) mintMismatch
  checkDecimals expectedDecimals mint
  let sourceAccount ← authorizeBurn programId s sourceAccount amount authorityInfo signers
  checkAccountOwnersIf (amount = 0) programId s sourceInfo mintInfo
  let sourceAmount ← okOr (checkedSub sourceAccount.amount amount) overflow
  let supply ← okOr (checkedSub mint.supply amount) overflow
  let s ← packInto s sourceInfo.key { sourceAccount with amount := sourceAmount }
  packInto s mintInfo.key { mint with supply }

/-! ## Closing, freezing and wrapped SOL -/

/-- Who may close an account: its close authority or owner, and anybody into the incinerator
when the account belongs to the system program or the incinerator. -/
def authorizeClose (s : Bank) (account : Account) (destinationInfo authorityInfo : AccountMeta)
    (signers : List AccountMeta) : Except Fault Unit :=
  if account.isOwnedBySystemProgramOrIncinerator = false then
    validateOwner programId s (account.closeAuthority.getD account.owner) authorityInfo signers
  else failIf (destinationInfo.key ≠ incineratorId) invalidAccountData

variable (accounts : List AccountMeta)

def processCloseAccount (s : Bank) : Except Fault Bank := do
  let (sourceInfo, it) ← nextAccountInfo accounts
  let (destinationInfo, it) ← nextAccountInfo it
  let (authorityInfo, signers) ← nextAccountInfo it
  failIf (sourceInfo.key = destinationInfo.key) invalidAccountData
  let sourceAccount ← Pack.unpack Account (s sourceInfo.key).data
  failIf (sourceAccount.isNative.isSome = false ∧ sourceAccount.amount ≠ 0) nonNativeHasBalance
  authorizeClose programId s sourceAccount destinationInfo authorityInfo signers
  let destinationLamports ← okOr
    (checkedAdd (s destinationInfo.key).lamports (s sourceInfo.key).lamports) overflow
  let s := s.setLamports destinationInfo.key destinationLamports
  let s := s.setLamports sourceInfo.key 0
  return s.setData sourceInfo.key (.replicate (Pack.len Account) 0)

def processToggleFreezeAccount (freeze : Bool) (s : Bank) : Except Fault Bank := do
  let (sourceInfo, it) ← nextAccountInfo accounts
  let (mintInfo, it) ← nextAccountInfo it
  let (authorityInfo, signers) ← nextAccountInfo it
  let sourceAccount ← Pack.unpack Account (s sourceInfo.key).data
  failIf (freeze = sourceAccount.isFrozen) invalidState
  failIf (sourceAccount.isNative.isSome = true) nativeNotSupported
  failIf (mintInfo.key ≠ sourceAccount.mint) mintMismatch
  let mint ← Pack.unpack Mint (s mintInfo.key).data
  let authority ← okOr mint.freezeAuthority mintCannotFreeze
  validateOwner programId s authority authorityInfo signers
  packInto s sourceInfo.key
    { sourceAccount with state := if freeze then .frozen else .initialized }

variable (s : Bank)

def processSyncNative : Except Fault Bank := do
  let (nativeInfo, _) ← nextAccountInfo accounts
  checkAccountOwner programId s nativeInfo
  let nativeAccount ← Pack.unpack Account (s nativeInfo.key).data
  let rentExemptReserve ← okOr nativeAccount.isNative nonNativeNotSupported
  let newAmount ← okOr (checkedSub (s nativeInfo.key).lamports rentExemptReserve) overflow
  failIf (newAmount < nativeAccount.amount) invalidState
  packInto s nativeInfo.key { nativeAccount with amount := newAmount }

/-! ## Queries -/

/-- The mint a query is about, owned by the program and initialised. -/
def readMint : Except Fault Mint := do
  let (mintInfo, _) ← nextAccountInfo accounts
  checkAccountOwner programId s mintInfo
  match Pack.unpack Mint (s mintInfo.key).data with
  | .ok mint => .ok mint
  | .error _ => .error invalidMint

def processGetAccountDataSize : Except Fault (List UInt8) := do
  let _ ← readMint programId accounts s
  return Bytes.leBytes 8 (Pack.len Account)

/-- `process_initialize_immutable_owner`: a check only, the account stays as it is. -/
def processInitializeImmutableOwner : Except Fault Unit := do
  let (tokenAccountInfo, _) ← nextAccountInfo accounts
  let account ← Pack.unpackUnchecked Account (s tokenAccountInfo.key).data
  failIf (account.isInitialized = true) alreadyInUse

variable (programId : Pubkey) (accounts : List AccountMeta)

/-- `process_amount_to_ui_amount`: the text given to `set_return_data`. -/
def processAmountToUiAmount (amount : UInt64) (s : Bank) : Except Fault (List Char) := do
  let mint ← readMint programId accounts s
  return amountToUiAmountStringTrimmed amount mint.decimals

/-- `process_ui_amount_to_amount`: the bytes given to `set_return_data`. -/
def processUiAmountToAmount (uiAmount : List Char) (s : Bank) : Except Fault (List UInt8) := do
  let mint ← readMint programId accounts s
  let amount ← tryUiAmountIntoAmount uiAmount mint.decimals
  return u64Bytes amount

/-! ## Dispatch -/

/-- `Processor::process` on a decoded instruction. Queries leave the store as it is. -/
def process (programId : Pubkey) (rent : Rent) (ix : TokenInstruction)
    (accounts : List AccountMeta) (s : Bank) : Except Fault Bank :=
  match ix with
  | .initializeMint decimals mintAuthority freezeAuthority =>
    processInitializeMint rent accounts decimals mintAuthority freezeAuthority s
  | .initializeMint2 decimals mintAuthority freezeAuthority =>
    processInitializeMint2 rent accounts decimals mintAuthority freezeAuthority s
  | .initializeAccount => processInitializeAccount programId rent accounts s
  | .initializeAccount2 owner => processInitializeAccount2 programId rent accounts owner s
  | .initializeAccount3 owner => processInitializeAccount3 programId rent accounts owner s
  | .initializeMultisig m => processInitializeMultisig rent accounts m s
  | .initializeMultisig2 m => processInitializeMultisig2 rent accounts m s
  | .transfer amount => processTransfer programId accounts amount none s
  | .approve amount => processApprove programId accounts amount none s
  | .revoke => processRevoke programId accounts s
  | .setAuthority authorityType newAuthority =>
    processSetAuthority programId accounts authorityType newAuthority s
  | .mintTo amount => processMintTo programId accounts amount none s
  | .burn amount => processBurn programId accounts amount none s
  | .closeAccount => processCloseAccount programId accounts s
  | .freezeAccount => processToggleFreezeAccount programId accounts true s
  | .thawAccount => processToggleFreezeAccount programId accounts false s
  | .transferChecked amount decimals => processTransfer programId accounts amount (some decimals) s
  | .approveChecked amount decimals => processApprove programId accounts amount (some decimals) s
  | .mintToChecked amount decimals => processMintTo programId accounts amount (some decimals) s
  | .burnChecked amount decimals => processBurn programId accounts amount (some decimals) s
  | .syncNative => processSyncNative programId accounts s
  | .getAccountDataSize => do
    let _ ← processGetAccountDataSize programId accounts s
    return s
  | .initializeImmutableOwner => do
    processInitializeImmutableOwner accounts s
    return s
  | .amountToUiAmount amount => do
    let _ ← processAmountToUiAmount programId accounts amount s
    return s
  | .uiAmountToAmount uiAmount => do
    let _ ← processUiAmountToAmount programId accounts uiAmount s
    return s

end SolanaPrograms.Token
