import SolanaPrograms.BinaryOptions.State
import SolanaPrograms.Runtime.Invoke
import SolanaPrograms.Token.Invariants

/-!
# The binary-option program's processor

`InitializeBinaryOption`, `Trade`, `Settle` and `Collect`. Tokens are moved by calls of the token
program, whose model runs here as the callee. Addresses derived from seeds are a function
`findProgramAddress` of the seeds; arithmetic on `u64` wraps, as in a release build.
-/

namespace SolanaPrograms.BinaryOptions

open Outcome SolanaPrograms.Runtime BinaryOptionError
open Token (Mint Account TokenInstruction tokenProgramId)

/-- The address of the program. -/
def binaryOptionId : Pubkey :=
  ⟨[8, 224, 152, 146, 11, 233, 249, 168, 221, 109, 71, 133, 10, 144, 88, 172, 229, 22, 193, 20, 37,
    174, 41, 34, 38, 7, 126, 66, 61, 155, 198, 13], rfl⟩

inductive BinaryOptionInstruction
  | initializeBinaryOption (decimals : UInt8)
  | trade (size buyPrice sellPrice : UInt64)
  | settle
  | collect
deriving DecidableEq

/-! ## Checks -/

def assertKeysEqual (key₁ key₂ : Pubkey) : Except Fault Unit :=
  failIf (key₁ ≠ key₂) publicKeyMismatch

def assertKeysUnequal (key₁ key₂ : Pubkey) : Except Fault Unit :=
  failIf (key₁ = key₂) publicKeysShouldBeUnique

/-- `assert_initialized`. The owner of the account is not looked at. -/
def assertInitialized (T : Type) [Pack T] (s : Bank) (info : AccountMeta) : Except Fault T := do
  let account ← Pack.unpackUnchecked T (s info.key).data
  failIf (Pack.isInitialized account = false) uninitializedAccount
  return account

def assertOwnedBy (s : Bank) (info : AccountMeta) (owner : Pubkey) : Except Fault Unit :=
  failIf ((s info.key).owner ≠ owner) incorrectOwner

/-! ## Calls of the token program -/

/-- What all calls of one instruction share. -/
structure Call where
  rent : Rent
  accounts : List AccountMeta
  tokenProgram : AccountMeta

variable (c : Call) (derived : List Pubkey)

/-- A call of the token program; the instruction builders refuse another program's address. -/
def Call.spl (ix : TokenInstruction) (metas : List AccountMeta) (s : Bank) : Except Fault Bank := do
  failIf (c.tokenProgram.key ≠ tokenProgramId) (.err .incorrectProgramId)
  Token.program.invokeSigned c.rent c.accounts derived ix metas s

variable (account mint authority : AccountMeta) (amount : UInt64) (s : Bank)

def Call.splBurn : Except Fault Bank :=
  if 0 < amount then
    c.spl derived (.burn amount)
      [⟨account.key, false⟩, ⟨mint.key, false⟩, ⟨authority.key, true⟩] s
  else .ok s

def Call.splMintTo : Except Fault Bank :=
  c.spl derived (.mintTo amount)
    [⟨mint.key, false⟩, ⟨account.key, false⟩, ⟨authority.key, true⟩] s

def Call.splTokenTransfer (source destination authority : AccountMeta) (amount : UInt64) (s : Bank)
    : Except Fault Bank :=
  if 0 < amount then
    c.spl derived (.transfer amount)
      [⟨source.key, false⟩, ⟨destination.key, false⟩, ⟨authority.key, true⟩] s
  else .ok s

variable (c : Call)

def Call.splApprove (source mint delegate owner : AccountMeta) (amount : UInt64) (decimals : UInt8)
    (s : Bank) : Except Fault Bank :=
  c.spl [] (.approveChecked amount decimals)
    [⟨source.key, false⟩, ⟨mint.key, false⟩, ⟨delegate.key, false⟩, ⟨owner.key, true⟩] s

def Call.splSetAuthority (account : AccountMeta) (newAuthority : Pubkey)
    (authorityType : Token.AuthorityType) (owner : AccountMeta) (s : Bank) : Except Fault Bank :=
  c.spl [] (.setAuthority authorityType (some newAuthority))
    [⟨account.key, false⟩, ⟨owner.key, true⟩] s

def Call.splMintInitialize (mint mintAuthority freezeAuthority rent : AccountMeta)
    (decimals : UInt8) (s : Bank) : Except Fault Bank :=
  c.spl [] (.initializeMint decimals mintAuthority.key (some freezeAuthority.key))
    [⟨mint.key, false⟩, ⟨rent.key, false⟩] s

def Call.splInitialize (newAccount mint authority rent : AccountMeta) (s : Bank) :
    Except Fault Bank :=
  c.spl [] .initializeAccount
    [⟨newAccount.key, false⟩, ⟨mint.key, false⟩, ⟨authority.key, false⟩, ⟨rent.key, false⟩] s

/-! ## Creating accounts -/

/-- The lamports an account of the given size lacks. -/
def requiredLamports (rent : Rent) (s : Bank) (k : Pubkey) (space : Nat) : UInt64 :=
  let minimum := max (rent.minimumBalance space) 1
  if (s k).lamports ≤ minimum then minimum - (s k).lamports else 0

variable (rent : Rent) (accounts : List AccountMeta)

def createNewAccount (source newAccount : AccountMeta) (space : Nat) (owner rentInfo : AccountMeta)
    (s : Bank) : Except Fault Bank := do
  failIf (rentInfo.key ≠ rentSysvarId) (.err .invalidArgument)
  System.createAccount accounts [] source.key newAccount.key
    (requiredLamports rent s newAccount.key space) space owner.key s

def topup (account rentInfo payer : AccountMeta) (size : Nat) (s : Bank) : Except Fault Bank := do
  failIf (rentInfo.key ≠ rentSysvarId) (.err .invalidArgument)
  let lamports := requiredLamports rent s account.key size
  if 0 < lamports then System.transfer accounts [] payer.key account.key lamports s else .ok s

def createOrAllocateAccountRaw (programId : Pubkey) (newAccount rentInfo payer : AccountMeta)
    (size : Nat) (s : Bank) : Except Fault Bank := do
  let s ← topup rent accounts newAccount rentInfo payer size s
  let s ← System.allocate accounts [] newAccount.key size s
  System.assign accounts [] newAccount.key programId s

/-! ## Handlers -/

section Handlers

variable (findProgramAddress : List Pubkey → Pubkey) (programId : Pubkey) (rent : Rent)
  (accounts : List AccountMeta)

/-- The address that owns the escrow and the mints of a pool. -/
def authorityKey (long short tokenProgram : Pubkey) : Pubkey :=
  findProgramAddress [long, short, tokenProgram, programId]

/-- `process_initialize_binary_option`. The first store returned is the one after the last call. -/
def processInitializeBinaryOption (decimals : UInt8) (s : Bank) : Except Fault (Bank × Bank) := do
  let (binaryOptionAccount, it) ← nextAccountInfo accounts
  let (escrowMint, it) ← nextAccountInfo it
  let (escrowAccount, it) ← nextAccountInfo it
  let (longTokenMint, it) ← nextAccountInfo it
  let (shortTokenMint, it) ← nextAccountInfo it
  let (mintAuthority, it) ← nextAccountInfo it
  let (updateAuthority, it) ← nextAccountInfo it
  let (tokenProgram, it) ← nextAccountInfo it
  let (_, it) ← nextAccountInfo it
  let (rentInfo, _) ← nextAccountInfo it
  let c : Call := ⟨rent, accounts, tokenProgram⟩
  let s ← createNewAccount rent accounts mintAuthority longTokenMint (Pack.len Mint) tokenProgram
    rentInfo s
  let s ← createNewAccount rent accounts mintAuthority shortTokenMint (Pack.len Mint) tokenProgram
    rentInfo s
  let s ← createNewAccount rent accounts updateAuthority escrowAccount (Pack.len Account)
    tokenProgram rentInfo s
  let s ← c.splMintInitialize longTokenMint mintAuthority mintAuthority rentInfo 0 s
  let s ← c.splMintInitialize shortTokenMint mintAuthority mintAuthority rentInfo 0 s
  let s ← c.splInitialize escrowAccount escrowMint updateAuthority rentInfo s
  assertKeysEqual tokenProgram.key tokenProgramId
  let authority := authorityKey findProgramAddress programId longTokenMint.key shortTokenMint.key
    tokenProgram.key
  let s ← c.splSetAuthority escrowAccount authority .accountOwner updateAuthority s
  let s ← c.splSetAuthority longTokenMint authority .mintTokens updateAuthority s
  let s ← c.splSetAuthority shortTokenMint authority .mintTokens updateAuthority s
  let s ← createOrAllocateAccountRaw rent accounts programId binaryOptionAccount rentInfo
    updateAuthority BinaryOption.len s
  let binaryOption ← BinaryOption.tryFromSlice (s binaryOptionAccount.key).data
  let binaryOption : BinaryOption := { binaryOption with
    decimals
    circulation := 0
    settled := false
    longMintAccountPubkey := longTokenMint.key
    shortMintAccountPubkey := shortTokenMint.key
    escrowMintAccountPubkey := escrowMint.key
    escrowAccountPubkey := escrowAccount.key
    owner := updateAuthority.key }
  return (s, s.setData binaryOptionAccount.key binaryOption.serialize)

structure TradeAccounts where
  binaryOption : AccountMeta
  escrowAccount : AccountMeta
  longTokenMint : AccountMeta
  shortTokenMint : AccountMeta
  buyer : AccountMeta
  seller : AccountMeta
  buyerAccount : AccountMeta
  sellerAccount : AccountMeta
  buyerLong : AccountMeta
  buyerShort : AccountMeta
  sellerLong : AccountMeta
  sellerShort : AccountMeta
  authority : AccountMeta
  tokenProgram : AccountMeta

def tradeAccounts : Except Fault TradeAccounts :=
  match accounts with
  | binaryOption :: escrowAccount :: longTokenMint :: shortTokenMint :: buyer :: seller ::
      buyerAccount :: sellerAccount :: buyerLong :: buyerShort :: sellerLong :: sellerShort ::
      authority :: tokenProgram :: _ =>
    .ok ⟨binaryOption, escrowAccount, longTokenMint, shortTokenMint, buyer, seller, buyerAccount,
      sellerAccount, buyerLong, buyerShort, sellerLong, sellerShort, authority, tokenProgram⟩
  | _ => .error ProgramError.notEnoughAccountKeys

structure TradeState where
  longTokenMint : Mint
  shortTokenMint : Mint
  buyerLong : Account
  buyerShort : Account
  sellerLong : Account
  sellerShort : Account
  buyerAccount : Account
  sellerAccount : Account

def readTrade (t : TradeAccounts) (s : Bank) : Except Fault TradeState := do
  let longTokenMint ← assertInitialized Mint s t.longTokenMint
  let shortTokenMint ← assertInitialized Mint s t.shortTokenMint
  let buyerLong ← assertInitialized Account s t.buyerLong
  let buyerShort ← assertInitialized Account s t.buyerShort
  let sellerLong ← assertInitialized Account s t.sellerLong
  let sellerShort ← assertInitialized Account s t.sellerShort
  let buyerAccount ← assertInitialized Account s t.buyerAccount
  let sellerAccount ← assertInitialized Account s t.sellerAccount
  return ⟨longTokenMint, shortTokenMint, buyerLong, buyerShort, sellerLong, sellerShort,
    buyerAccount, sellerAccount⟩

variable (t : TradeAccounts) (st : TradeState)

variable (binaryOption : BinaryOption)

def validateTrade (buyPrice sellPrice : UInt64) (s : Bank) : Except Fault Unit := do
  failIf (buyPrice + sellPrice ≠ 10 ^ binaryOption.decimals.toNat) tradePricesIncorrect
  failIf (binaryOption.settled = true) alreadySettled
  assertKeysEqual t.tokenProgram.key tokenProgramId
  assertKeysUnequal t.buyer.key t.seller.key
  assertKeysEqual (s t.longTokenMint.key).owner tokenProgramId
  assertKeysEqual (s t.shortTokenMint.key).owner tokenProgramId
  assertKeysEqual st.buyerLong.owner t.buyer.key
  assertKeysEqual st.buyerShort.owner t.buyer.key
  assertKeysEqual st.sellerLong.owner t.seller.key
  assertKeysEqual st.sellerShort.owner t.seller.key
  assertKeysEqual st.buyerAccount.owner t.buyer.key
  assertKeysEqual st.sellerAccount.owner t.seller.key
  assertKeysEqual (authorityKey findProgramAddress programId t.longTokenMint.key
    t.shortTokenMint.key t.tokenProgram.key) t.authority.key
  assertKeysEqual t.longTokenMint.key binaryOption.longMintAccountPubkey
  assertKeysEqual t.shortTokenMint.key binaryOption.shortMintAccountPubkey
  assertKeysEqual t.escrowAccount.key binaryOption.escrowAccountPubkey
  assertKeysEqual st.buyerLong.mint binaryOption.longMintAccountPubkey
  assertKeysEqual st.buyerShort.mint binaryOption.shortMintAccountPubkey
  assertKeysEqual st.sellerLong.mint binaryOption.longMintAccountPubkey
  assertKeysEqual st.sellerShort.mint binaryOption.shortMintAccountPubkey
  assertKeysEqual st.buyerAccount.mint binaryOption.escrowMintAccountPubkey
  assertKeysEqual st.sellerAccount.mint binaryOption.escrowMintAccountPubkey

/-- The four cases of a trade: the store after the transfers, the four balances to approve and the
pool with its new circulation. -/
def settleTrade (n buyPrice sellPrice : UInt64) (s : Bank) :
    Except Fault (Bank × (UInt64 × UInt64 × UInt64 × UInt64) × BinaryOption) :=
  let c : Call := ⟨rent, accounts, t.tokenProgram⟩
  let derived := [authorityKey findProgramAddress programId t.longTokenMint.key
    t.shortTokenMint.key t.tokenProgram.key]
  let nB := st.buyerShort.amount
  let nS := st.sellerLong.amount
  let bL := st.buyerLong.amount
  let sS := st.sellerShort.amount
  match decide (n ≤ nB), decide (n ≤ nS) with
  | true, true => do
    let s ← c.splBurn [] t.buyerShort t.shortTokenMint t.buyer n s
    let s ← c.splBurn [] t.sellerLong t.longTokenMint t.seller n s
    let s ← c.splTokenTransfer derived t.escrowAccount t.buyerAccount t.authority
      (n * sellPrice) s
    let s ← c.splTokenTransfer derived t.escrowAccount t.sellerAccount t.authority
      (n * buyPrice) s
    let binaryOption ← binaryOption.decrementSupply n
    return (s, (bL, nB - n, nS - n, sS), binaryOption)
  | false, false => do
    let s ← c.splBurn [] t.buyerShort t.shortTokenMint t.buyer nB s
    let s ← c.splBurn [] t.sellerLong t.longTokenMint t.seller nS s
    let s ← c.splMintTo derived t.buyerLong t.longTokenMint t.authority (n - nB) s
    let s ← c.splMintTo derived t.sellerShort t.shortTokenMint t.authority (n - nS) s
    let s ← c.splTokenTransfer [] t.buyerAccount t.escrowAccount t.buyer ((n - nB) * buyPrice) s
    let s ← c.splTokenTransfer [] t.sellerAccount t.escrowAccount t.seller
      ((n - nS) * sellPrice) s
    let s ← c.splTokenTransfer derived t.escrowAccount t.buyerAccount t.authority
      (nB * sellPrice) s
    let s ← c.splTokenTransfer derived t.escrowAccount t.sellerAccount t.authority
      (nS * buyPrice) s
    let binaryOption ← if nB + nS < n then .ok (binaryOption.incrementSupply (n - nB - nS))
      else binaryOption.decrementSupply (n - nB - nS)
    return (s, (bL + (n - nB), 0, 0, sS + (n - nS)), binaryOption)
  | true, false => do
    let s ← c.splBurn [] t.buyerShort t.shortTokenMint t.buyer n s
    let s ← c.splBurn [] t.sellerLong t.longTokenMint t.seller nS s
    let s ← c.splMintTo derived t.sellerShort t.shortTokenMint t.authority (n - nS) s
    let s ← c.splTokenTransfer [] t.sellerAccount t.escrowAccount t.seller
      ((n - nS) * sellPrice) s
    let s ← c.splTokenTransfer derived t.escrowAccount t.sellerAccount t.authority
      (nS * buyPrice) s
    let s ← c.splTokenTransfer derived t.escrowAccount t.buyerAccount t.authority
      (n * sellPrice) s
    let binaryOption ← binaryOption.decrementSupply nS
    return (s, (bL, nB - n, 0, sS + (n - nS)), binaryOption)
  | false, true => do
    let s ← c.splBurn [] t.sellerLong t.longTokenMint t.seller n s
    let s ← c.splBurn [] t.buyerShort t.shortTokenMint t.buyer nB s
    let s ← c.splMintTo derived t.buyerLong t.longTokenMint t.authority (n - nB) s
    let s ← c.splTokenTransfer [] t.buyerAccount t.escrowAccount t.buyer ((n - nB) * buyPrice) s
    let s ← c.splTokenTransfer derived t.escrowAccount t.buyerAccount t.authority
      (nB * sellPrice) s
    let s ← c.splTokenTransfer derived t.escrowAccount t.sellerAccount t.authority
      (n * buyPrice) s
    let binaryOption ← binaryOption.decrementSupply nB
    return (s, (bL + (n - nB), 0, nS - n, sS), binaryOption)

def approveTrade (amounts : UInt64 × UInt64 × UInt64 × UInt64) (s : Bank) : Except Fault Bank := do
  let c : Call := ⟨rent, accounts, t.tokenProgram⟩
  let (bL, bS, sL, sS) := amounts
  let s ← c.splApprove t.buyerLong t.longTokenMint t.authority t.buyer bL
    st.longTokenMint.decimals s
  let s ← c.splApprove t.sellerShort t.shortTokenMint t.authority t.seller sS
    st.shortTokenMint.decimals s
  let s ← c.splApprove t.buyerShort t.shortTokenMint t.authority t.buyer bS
    st.shortTokenMint.decimals s
  c.splApprove t.sellerLong t.longTokenMint t.authority t.seller sL st.longTokenMint.decimals s

def processTrade (size buyPrice sellPrice : UInt64) (s : Bank) : Except Fault (Bank × Bank) := do
  let t ← tradeAccounts accounts
  let st ← readTrade t s
  let binaryOption ← BinaryOption.tryFromSlice (s t.binaryOption.key).data
  validateTrade findProgramAddress programId t st binaryOption buyPrice sellPrice s
  let (s, amounts, binaryOption) ← settleTrade findProgramAddress programId rent accounts t st
    binaryOption size buyPrice sellPrice s
  let s ← approveTrade rent accounts t st amounts s
  return (s, s.setData t.binaryOption.key binaryOption.serialize)

def processSettle (s : Bank) : Except Fault (Bank × Bank) := do
  let (binaryOptionAccount, it) ← nextAccountInfo accounts
  let (winningMintAccount, it) ← nextAccountInfo it
  let (poolOwner, _) ← nextAccountInfo it
  let binaryOption ← BinaryOption.tryFromSlice (s binaryOptionAccount.key).data
  failIf (poolOwner.isSigner = false) (.err .missingRequiredSignature)
  failIf (binaryOption.settled = true) alreadySettled
  assertKeysEqual poolOwner.key binaryOption.owner
  failIf (winningMintAccount.key ≠ binaryOption.longMintAccountPubkey ∧
    winningMintAccount.key ≠ binaryOption.shortMintAccountPubkey) invalidWinner
  let binaryOption : BinaryOption :=
    { binaryOption with settled := true, winningSidePubkey := winningMintAccount.key }
  return (s, s.setData binaryOptionAccount.key binaryOption.serialize)

structure CollectAccounts where
  binaryOption : AccountMeta
  collector : AccountMeta
  collectorLong : AccountMeta
  collectorShort : AccountMeta
  collectorAccount : AccountMeta
  longTokenMint : AccountMeta
  shortTokenMint : AccountMeta
  escrowAccount : AccountMeta
  escrowAuthority : AccountMeta
  tokenProgram : AccountMeta

def collectAccounts : Except Fault CollectAccounts :=
  match accounts with
  | binaryOption :: collector :: collectorLong :: collectorShort :: collectorAccount ::
      longTokenMint :: shortTokenMint :: escrowAccount :: escrowAuthority :: tokenProgram :: _ =>
    .ok ⟨binaryOption, collector, collectorLong, collectorShort, collectorAccount, longTokenMint,
      shortTokenMint, escrowAccount, escrowAuthority, tokenProgram⟩
  | _ => .error ProgramError.notEnoughAccountKeys

/-- The token accounts of a collection, as read at its beginning. -/
structure CollectState where
  collectorLong : Account
  collectorShort : Account
  collectorAccount : Account
  escrowAccount : Account

def readCollect (t : CollectAccounts) (s : Bank) : Except Fault CollectState := do
  let collectorLong ← assertInitialized Account s t.collectorLong
  let collectorShort ← assertInitialized Account s t.collectorShort
  let collectorAccount ← assertInitialized Account s t.collectorAccount
  let escrowAccount ← assertInitialized Account s t.escrowAccount
  return ⟨collectorLong, collectorShort, collectorAccount, escrowAccount⟩

/-- The checks of a collection. The owner of the pool account is not among them. -/
def validateCollect (t : CollectAccounts) (st : CollectState) (binaryOption : BinaryOption)
    (s : Bank) : Except Fault Unit := do
  failIf (binaryOption.settled = false) betNotSettled
  assertOwnedBy s t.longTokenMint tokenProgramId
  assertOwnedBy s t.shortTokenMint tokenProgramId
  assertKeysEqual st.collectorLong.owner t.collector.key
  assertKeysEqual st.collectorShort.owner t.collector.key
  assertKeysEqual st.collectorAccount.owner t.collector.key
  assertKeysEqual (authorityKey findProgramAddress programId t.longTokenMint.key
    t.shortTokenMint.key t.tokenProgram.key) t.escrowAuthority.key
  assertKeysEqual t.longTokenMint.key binaryOption.longMintAccountPubkey
  assertKeysEqual t.shortTokenMint.key binaryOption.shortMintAccountPubkey
  assertKeysEqual t.escrowAccount.key binaryOption.escrowAccountPubkey
  assertKeysEqual st.collectorLong.mint binaryOption.longMintAccountPubkey
  assertKeysEqual st.collectorShort.mint binaryOption.shortMintAccountPubkey
  assertKeysEqual st.collectorAccount.mint binaryOption.escrowMintAccountPubkey

def collectReward (st : CollectState) (binaryOption : BinaryOption) : Except Fault UInt64 :=
  if st.collectorLong.mint = binaryOption.winningSidePubkey then .ok st.collectorLong.amount
  else if st.collectorShort.mint = binaryOption.winningSidePubkey then
    .ok st.collectorShort.amount
  else .error tokenNotFoundInPool

/-- The payment of a reward from the escrow; the division panics when nothing circulates. -/
def payReward (t : CollectAccounts) (st : CollectState) (binaryOption : BinaryOption)
    (derived : List Pubkey) (reward : UInt64) (s : Bank) : Except Fault (Bank × BinaryOption) :=
  if 0 < reward then do
    failIf (binaryOption.circulation = 0) .panic
    let amount := (reward * st.escrowAccount.amount) / binaryOption.circulation
    let c : Call := ⟨rent, accounts, t.tokenProgram⟩
    let s ← c.splTokenTransfer derived t.escrowAccount t.collectorAccount t.escrowAuthority amount s
    let binaryOption ← binaryOption.decrementSupply reward
    return (s, binaryOption)
  else .ok (s, binaryOption)

def processCollect (s : Bank) : Except Fault (Bank × Bank) := do
  let t ← collectAccounts accounts
  let st ← readCollect t s
  let binaryOption ← BinaryOption.tryFromSlice (s t.binaryOption.key).data
  let c : Call := ⟨rent, accounts, t.tokenProgram⟩
  let derived := [authorityKey findProgramAddress programId t.longTokenMint.key
    t.shortTokenMint.key t.tokenProgram.key]
  validateCollect findProgramAddress programId t st binaryOption s
  let reward ← collectReward st binaryOption
  let s ← c.splBurn derived t.collectorLong t.longTokenMint t.escrowAuthority
    st.collectorLong.amount s
  let s ← c.splBurn derived t.collectorShort t.shortTokenMint t.escrowAuthority
    st.collectorShort.amount s
  let (s, binaryOption) ← payReward rent accounts t st binaryOption derived reward s
  return (s, s.setData t.binaryOption.key binaryOption.serialize)

def process (ix : BinaryOptionInstruction) (s : Bank) : Except Fault (Bank × Bank) :=
  match ix with
  | .initializeBinaryOption decimals =>
    processInitializeBinaryOption findProgramAddress programId rent accounts decimals s
  | .trade size buyPrice sellPrice =>
    processTrade findProgramAddress programId rent accounts size buyPrice sellPrice s
  | .settle => processSettle accounts s
  | .collect => processCollect findProgramAddress programId rent accounts s

end Handlers

/-- The program, for given derived addresses. -/
def program (findProgramAddress : List Pubkey → Pubkey) :
    Program Rent BinaryOptionInstruction where
  id := binaryOptionId
  id_ne_system := by decide
  process rent ix accounts s := process findProgramAddress binaryOptionId rent accounts ix s

end SolanaPrograms.BinaryOptions
