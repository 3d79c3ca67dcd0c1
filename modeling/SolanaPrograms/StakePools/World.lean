import SolanaPrograms.Lib.Stakes
import SolanaPrograms.Lib.Tokens
import SolanaPrograms.StakePools.State

/-!
# Accounts of the stake-pool program

The world of a stake pool: the accounts of the program itself, the stake accounts and all lamports,
the mints and token accounts, and the epoch. The programs called are those of `Lib.Stakes` and
`Lib.Tokens`; an address is used by at most one of the three, since a new account has to be free in
all of them. The layout of the accounts of the program is left out.
-/

namespace SolanaPrograms.StakePools

open Outcome StakePoolError Tokens

instance : Tokens.Special Address where
  ownerless k := k = .program .system
  incinerator _ := false
  native _ := false

/-- What the cluster fixes: the stake program and the rent by size. -/
structure Environment where
  stake : Stakes.Program Address
  minimumBalance : ℕ → ℕ

inductive Data
  /-- Not an account of the program. -/
  | none
  /-- A new account of the given size, filled with zeros. -/
  | allocated (len : ℕ)
  | stakePool (p : StakePool)
  | validatorList (l : ValidatorList)
deriving DecidableEq, Repr

/-- Everything the program can see. -/
structure World where
  data : Address → Data
  stakes : Stakes.Store Address
  tokens : Tokens.Book Address
  epoch : ℕ

namespace World

variable (w : World) (k : Address)

def lamports : ℕ := w.stakes.lamports k

/-- An account of the system program without data. -/
def isSystem : Prop :=
  w.data k = .none ∧ w.stakes.state k = none ∧ w.tokens k = .free

instance (w : World) (k : Address) : Decidable (w.isSystem k) :=
  inferInstanceAs (Decidable (_ ∧ _ ∧ _))

/-- Read a stake pool: `check_account_owner`, the deserialisation and `is_valid`. -/
def readStakePool : Except Fault StakePool :=
  match w.data k with
  | .none => .error .incorrectProgramId
  | .stakePool p => .ok p
  | _ => .error invalidState

/-- Read a validator list: `check_account_owner`, the deserialisation and `is_valid`. -/
def readValidatorList : Except Fault ValidatorList :=
  match w.data k with
  | .none => .error .incorrectProgramId
  | .validatorList l => .ok l
  | _ => .error invalidState

def writeData (d : Data) : World :=
  { w with data := Function.update w.data k d }

variable {k : Address} {w w' : World}

@[simp] theorem readStakePool_eq_ok {p : StakePool} :
    w.readStakePool k = .ok p ↔ w.data k = .stakePool p := by
  unfold readStakePool
  split <;> simp_all

@[simp] theorem readValidatorList_eq_ok {l : ValidatorList} :
    w.readValidatorList k = .ok l ↔ w.data k = .validatorList l := by
  unfold readValidatorList
  split <;> simp_all

def getStakeState (w : World) (k : Address) :
    Except Fault (Stakes.Meta Address × Stakes.Delegation Address) :=
  match w.stakes.state k with
  | some (.stake m d) => .ok (m, d)
  | some _ => .error wrongStakeState
  | none => .error .invalidAccountData

@[simp] theorem getStakeState_eq_ok {m : Stakes.Meta Address} {d : Stakes.Delegation Address} :
    w.getStakeState k = .ok (m, d) ↔ w.stakes.state k = some (.stake m d) := by
  unfold getStakeState
  split <;> simp_all

/-! ## Calls -/

def only (authority : Address) : Address → Bool := fun k => k = authority

def callStake (w : World) (env : Environment) (signed : Address → Bool)
    (instruction : Stakes.Instruction Address) : Except Fault World := do
  let stakes ← okOr (env.stake.exec signed w.epoch instruction w.stakes) (.called .stake)
  return { w with stakes }

def callToken (w : World) (f : Tokens.Book Address → Option (Tokens.Book Address)) :
    Except Fault World := do
  let tokens ← okOr (f w.tokens) (.called .token)
  return { w with tokens }

@[simp] theorem callStake_eq_ok {env : Environment} {signed : Address → Bool}
    {instruction : Stakes.Instruction Address} :
    w.callStake env signed instruction = .ok w' ↔
      ∃ stakes, env.stake.exec signed w.epoch instruction w.stakes = some stakes ∧
        { w with stakes } = w' := by
  simp only [callStake, checks]

@[simp] theorem callToken_eq_ok {f : Tokens.Book Address → Option (Tokens.Book Address)} :
    w.callToken f = .ok w' ↔ ∃ tokens, f w.tokens = some tokens ∧ { w with tokens } = w' := by
  simp only [callToken, checks]

variable (w : World)

def systemTransfer (source : AccountMeta) (destination : Address) (amount : ℕ) :
    Except Fault World := do
  failIf (source.isSigner = false ∨ ¬ w.isSystem source.key ∨ w.lamports source.key < amount)
    (.called .system)
  return { w with stakes := w.stakes.move source.key destination amount }

/-- `allocate` and `assign` to the stake program, signed by the new account. -/
def allocateStake (account : Address) : Except Fault World := do
  failIf (¬ w.isSystem account) (.called .system)
  return { w with stakes := w.stakes.setState account .uninitialized }

def createPdaAccount (payer : AccountMeta) (requiredLamports : ℕ) (account : Address) :
    Except Fault World := do
  let w ←
    if 0 < w.lamports account then
      let missing := requiredLamports - w.lamports account
      if 0 < missing then w.systemTransfer payer account missing else .ok w
    else w.systemTransfer payer account requiredLamports
  w.allocateStake account

/-- `stake_authorize` and `stake_authorize_signed`: both authorities are replaced. -/
def stakeAuthorize (env : Environment) (account authority new : Address) : Except Fault World := do
  let w ← w.callStake env (only authority) (.authorizeStaker account new)
  w.callStake env (only authority) (.authorizeWithdrawer account new)

def tokenMintTo (mint destination authority : Address) (amount : ℕ) : Except Fault World :=
  w.callToken (mintTo (only authority) mint destination authority amount)

def tokenBurn (source mint : Address) (authority : AccountMeta) (amount : ℕ) :
    Except Fault World := do
  failIf (authority.isSigner = false) (.called .token)
  w.callToken (burn (only authority.key) source mint authority.key amount)

def tokenTransfer (source destination : Address) (authority : AccountMeta) (amount : ℕ) :
    Except Fault World := do
  failIf (authority.isSigner = false) (.called .token)
  w.callToken (transfer (only authority.key) source destination authority.key amount)

def checkManagerFeeInfo (p : StakePool) (managerFeeInfo : Address) : Bool :=
  match w.tokens managerFeeInfo with
  | .account a => p.tokenProgramId = .program .token ∧ a.frozen = false ∧ a.mint = p.poolMint
  | _ => false

end World

/-! ## Checks of addresses -/

variable (stakePoolAddress stakeAccountAddress voteAddress : Address)

def checkValidatorStakeAddress : Except Fault Unit :=
  failIf (stakeAccountAddress ≠ .validatorStake voteAddress stakePoolAddress)
    invalidStakeAccountAddress

def checkTransientStakeAddress (seed : ℕ) : Except Fault Unit :=
  failIf (stakeAccountAddress ≠ .transientStake voteAddress stakePoolAddress seed)
    invalidStakeAccountAddress

def checkProgram (program : Address) (p : ProgramId) : Except Fault Unit :=
  failIf (program ≠ .program p) .incorrectProgramId

/-- `from_account_info` of a system variable. -/
def checkSysvar (info : Address) (s : Sysvar) : Except Fault Unit :=
  failIf (info ≠ .sysvar s) .invalidArgument

end SolanaPrograms.StakePools
