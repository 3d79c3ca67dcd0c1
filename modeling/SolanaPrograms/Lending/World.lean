import SolanaPrograms.Lending.State
import SolanaPrograms.Lib.Tokens

/-!
# Accounts, oracles and calls of the token program

An account has an owner and a content; mints and token accounts are in a book of their own, which
the token program keeps. Accounts of this program are written by it only. Reading an account does
not say who owns it: the handlers compare the owner where the source does.

Prices come from accounts of an oracle, or, in this program, from the balance of a token account.
-/

namespace SolanaPrograms.Lending

open Outcome LendingError Tokens

/-! ## Contents -/

inductive PriceStatus
  | unknown
  | trading
  | halted
  | auction
deriving DecidableEq, Repr

structure PythPrice where
  /-- The price type is `Price`. -/
  isPrice : Bool
  expo : ℤ
  validSlot : UInt64
  price : ℤ
  status : PriceStatus
deriving DecidableEq

structure PythProduct where
  magic : UInt32
  ver : UInt32
  atype : UInt32
  pxAcc : Address
  attr : List UInt8
deriving DecidableEq

/-- What an account of this program is for: the three records differ in length. -/
inductive Kind
  | market
  | reserve
  | obligation
deriving DecidableEq, Repr

inductive Content
  | none
  /-- Zeros, as many as the record has bytes. -/
  | zeroed (kind : Kind)
  | market (m : LendingMarket)
  | reserve (r : Reserve)
  | obligation (o : Obligation)
  | price (p : PythPrice)
  | product (p : PythProduct)
  /-- The data of a token account. -/
  | token (a : Tokens.TokenAccount Address)
deriving DecidableEq

/-- An account that is not one of the token program. -/
structure Account where
  owner : Address
  content : Content
deriving DecidableEq

structure AccountMeta where
  key : Address
  isSigner : Bool
deriving DecidableEq, Repr

/-- A program address cannot sign a transaction, and neither can the system program. -/
def Address.canSign : Address → Bool
  | .authority _ _ | .default => false
  | _ => true

instance : Tokens.Special Address where
  ownerless k := k = .default
  incinerator _ := false
  native _ := false

/-- What the program takes from the cluster. -/
structure Environment where
  /-- The bump seeds for which there is a program address. -/
  validBump : Address → UInt8 → Bool
  /-- The bump seed `find_program_address` finds. -/
  findBump : Address → UInt8
  /-- The accounts with enough lamports. -/
  rentExempt : Address → Bool

structure World where
  accounts : Address → Account
  tokens : Tokens.Book Address
  /-- The decimals of the mints. -/
  decimals : Address → UInt8
  slot : UInt64

/-! ## Reading and writing -/

namespace World

variable (w : World)

def IsOwn (k : Address) : Prop := (w.accounts k).owner = .program

instance (k : Address) : Decidable (w.IsOwn k) := inferInstanceAs (Decidable (_ = _))

/-- `if info.owner != program_id`. -/
def checkOwner (k : Address) : Except Fault Unit :=
  failIf (¬ w.IsOwn k) invalidAccountOwner

/-- The version of a record: zero if it is not initialized, and at most `PROGRAM_VERSION`. -/
def checkVersion (version : UInt8) : Except Fault Unit := do
  failIf (1 < version) .invalidAccountData
  failIf (version = 0) .uninitializedAccount

variable (k : Address)

def readMarket : Except Fault LendingMarket :=
  match (w.accounts k).content with
  | .market m => do
    checkVersion m.version
    return m
  | .zeroed .market => .error .uninitializedAccount
  | _ => .error .invalidAccountData

def readReserve : Except Fault Reserve :=
  match (w.accounts k).content with
  | .reserve r => do
    checkVersion r.version
    return r
  | .zeroed .reserve => .error .uninitializedAccount
  | _ => .error .invalidAccountData

def readObligation : Except Fault Obligation :=
  match (w.accounts k).content with
  | .obligation o => do
    checkVersion o.version
    return o
  | .zeroed .obligation => .error .uninitializedAccount
  | _ => .error .invalidAccountData

def assertUninitialized (kind : Kind) (k : Address) : Except Fault Unit :=
  match (w.accounts k).content, kind with
  | .market m, .market =>
    failIf (m.version ≠ 0) alreadyInitialized
  | .reserve r, .reserve =>
    failIf (r.version ≠ 0) alreadyInitialized
  | .obligation o, .obligation =>
    failIf (o.version ≠ 0) alreadyInitialized
  | .zeroed kind', _ => failIf (kind' ≠ kind) .invalidAccountData
  | _, _ => .error .invalidAccountData

/-- The runtime refuses a change of an account of another program. -/
def write (k : Address) (content : Content) : Except Fault World :=
  if w.IsOwn k then
    .ok { w with accounts := Function.update w.accounts k ⟨.program, content⟩ }
  else if (w.accounts k).content = content then .ok w
  else .error .rejected

def checkPacked (decimals : List Decimal) : Except Fault Unit :=
  failIf (∃ d ∈ decimals, 2 ^ 128 ≤ d.scaled) .panic

def writeMarket (k : Address) (m : LendingMarket) : Except Fault World := w.write k (.market m)

def writeReserve (k : Address) (r : Reserve) : Except Fault World := do
  checkPacked [r.liquidity.borrowedAmountWads, r.liquidity.cumulativeBorrowRateWads,
    r.liquidity.marketPrice]
  w.write k (.reserve r)

def obligationDecimals (o : Obligation) : List Decimal :=
  [o.depositedValue, o.borrowedValue, o.allowedBorrowValue, o.unhealthyBorrowValue] ++
    o.deposits.map ObligationCollateral.marketValue ++
    o.borrows.flatMap fun l => [l.cumulativeBorrowRateWads, l.borrowedAmountWads, l.marketValue]

/-- `Obligation::pack`: there is room for one deposit and nine borrows, or what fits in their
bytes. -/
def writeObligation (k : Address) (o : Obligation) : Except Fault World := do
  checkPacked (obligationDecimals o)
  failIf (56 + 80 * (maxObligationReserves - 1) < 56 * o.deposits.length + 80 * o.borrows.length)
    .panic
  w.write k (.obligation o)

/-- `Account::unpack`, whoever owns the account. -/
def readTokenAccount (k : Address) : Except Fault (Tokens.TokenAccount Address) :=
  match w.tokens k, (w.accounts k).content with
  | .account a, _ => .ok a
  | _, .token a => .ok a
  | _, _ => .error .invalidAccountData

/-! ## Prices -/

/-- `price.try_into()`, then the exponent: a power of ten up or down. -/
def scalePrice (price expo : ℤ) : Except Fault Decimal := do
  failIf (price < 0) invalidOracleConfig
  let price ← toU64 price.toNat
  if 0 ≤ expo then do
    let zeros ← tenPow expo.toNat
    (Decimal.ofU64 price).tryMulU64 zeros
  else do
    let decimals ← tenPow expo.natAbs
    (Decimal.ofU64 price).tryDivU64 decimals

/-- `get_pyth_price`; the price is stale after five slots. -/
def getPythPrice (k : Address) : Except Fault Decimal :=
  match (w.accounts k).content with
  | .price p => do
    failIf (p.isPrice = false) invalidOracleConfig
    failIf (p.status ≠ .trading) invalidOracleConfig
    let slotsElapsed ← checkedSub w.slot p.validSlot
    failIf (5 ≤ slotsElapsed) invalidOracleConfig
    scalePrice p.price p.expo
  | _ => .error .invalidAccountData

/-- `get_price`. The market is read whoever owns it, and the oracle program of the market is
compared with the key of the oracle account. -/
def getPrice (lendingMarket oracle : Address) : Except Fault Decimal := do
  let market ← w.readMarket lendingMarket
  if market.oracleProgramId ≠ oracle then do
    let account ← w.readTokenAccount oracle
    let amount ← toU64 account.amount
    return .ofU64 amount
  else w.getPythPrice oracle

end World

/-- The length of the attributes of a product. -/
def prodAttrSize : ℕ := 464

def quoteCurrencyKey : List UInt8 :=
  [113, 117, 111, 116, 101, 95, 99, 117, 114, 114, 101, 110, 99, 121]

/-- A byte of the attributes; the source panics beyond them. -/
def attrAt (attr : List UInt8) (i : ℕ) : Except Fault ℕ := do
  let b ← okOr attr[i]? .panic
  return b.toNat

def quoteCurrencyValue (attr : List UInt8) (start : ℕ) : Except Fault (List UInt8) := do
  let length ← attrAt attr start
  failIf (32 < length ∨ prodAttrSize < start + 1 + length) invalidOracleConfig
  let value := (attr.drop (start + 1)).take length
  return value ++ .replicate (32 - length) 0

/-- The loop of `get_pyth_product_quote_currency`; every round moves the start by two or more. -/
def quoteCurrencyLoop (attr : List UInt8) : ℕ → ℕ → Except Fault (List UInt8)
  | 0, _ => .error invalidOracleConfig
  | fuel + 1, start =>
    if prodAttrSize ≤ start then .error invalidOracleConfig
    else do
      let length ← attrAt attr start
      let start := start + 1
      if length = 14 ∧ prodAttrSize < start + length then
        .error invalidOracleConfig
      else if length = 14 ∧ (attr.drop start).take length = quoteCurrencyKey then
        quoteCurrencyValue attr (start + length)
      else do
        let skipped ← attrAt attr (start + length)
        quoteCurrencyLoop attr fuel (start + length + 1 + skipped)

def getPythProductQuoteCurrency (p : PythProduct) : Except Fault (List UInt8) :=
  quoteCurrencyLoop p.attr prodAttrSize 0

/-! ## Calls of the token program -/

/-- Who signs for an authority: it signed the transaction, or the program signs for it with the
seeds of a market. -/
def signs (authority : AccountMeta) (seeds : Option (Address × UInt8)) (k : Address) : Bool :=
  decide (k = authority.key) &&
    (authority.isSigner || decide (seeds.map (fun s => .authority s.1 s.2) = some k))

namespace World

variable (w : World)

def callToken (tokenProgram : Address) (f : Tokens.Book Address → Option (Tokens.Book Address))
    (e : LendingError) : Except Fault World := do
  failIf (tokenProgram ≠ .splToken) .incorrectProgramId
  let tokens ← okOr (f w.tokens) (e : Fault)
  return { w with tokens }

def splTokenTransfer (tokenProgram source destination : Address) (authority : AccountMeta)
    (seeds : Option (Address × UInt8)) (amount : UInt64) : Except Fault World :=
  w.callToken tokenProgram
    (transfer (signs authority seeds) source destination authority.key amount.toNat)
    .tokenTransferFailed

def splTokenMintTo (tokenProgram mint destination : Address) (authority : AccountMeta)
    (seeds : Option (Address × UInt8)) (amount : UInt64) : Except Fault World :=
  w.callToken tokenProgram
    (mintTo (signs authority seeds) mint destination authority.key amount.toNat)
    .tokenMintToFailed

def splTokenBurn (tokenProgram source mint : Address) (authority : AccountMeta)
    (seeds : Option (Address × UInt8)) (amount : UInt64) : Except Fault World :=
  w.callToken tokenProgram
    (burn (signs authority seeds) source mint authority.key amount.toNat) .tokenBurnFailed

/-- `spl_token_init_account`; the account was created with its own signature. -/
def splTokenInitAccount (tokenProgram account mint owner : Address) : Except Fault World :=
  w.callToken tokenProgram
    (fun b => exec Address.canSign Address.canSign b (.initializeAccount account mint owner))
    .tokenInitializeAccountFailed

def splTokenInitMint (tokenProgram mint authority : Address) (decimals : UInt8) :
    Except Fault World := do
  let w ← w.callToken tokenProgram
    (fun b => exec Address.canSign Address.canSign b (.initializeMint mint authority none))
    .tokenInitializeMintFailed
  return { w with decimals := Function.update w.decimals mint decimals }

end World

end SolanaPrograms.Lending
