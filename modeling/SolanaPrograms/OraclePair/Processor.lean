import SolanaPrograms.Lib.Outcome
import SolanaPrograms.Lib.Tokens

/-!
# The binary oracle pair

A pool takes deposits and mints a PASS and a FAIL token for each of them. A decider says once which
of the two can be exchanged for the deposit again.

Accounts are taken as they are listed: the source neither checks who owns the pool account, nor
compares the deposit account with the one of the pool, nor the mints of a deposit. The account of
the token program is checked where the instructions for it are built (`check_program_account`,
followed by `unwrap`). Program addresses are a free type, with a parameter for the bump seeds that
have one. The decimals of the new mints are left out, since nothing reads them.
-/

namespace SolanaPrograms.OraclePair

open Outcome Tokens Function

/-! ## State -/

/-- Addresses. -/
inductive Address
  | key (n : ℕ)
  /-- The address of 32 zero bytes, which is the one of the system program. -/
  | default
  | splToken
  | rent
  | clock
  /-- `authority_id`: the program address for a pool and a bump seed. -/
  | authority (pool : Address) (bumpSeed : ℕ)
deriving DecidableEq, Repr

/-- A program address cannot sign a transaction, and neither can the system program. -/
def Address.canSign : Address → Bool
  | .authority _ _ | .default => false
  | _ => true

instance : Tokens.Special Address where
  ownerless k := k = .default
  incinerator _ := false
  native _ := false

structure AccountMeta where
  key : Address
  isSigner : Bool
deriving DecidableEq, Repr

inductive Decision
  | undecided
  | pass
  | fail
deriving DecidableEq, Repr

structure Pool where
  version : ℕ
  bumpSeed : ℕ
  tokenProgramId : Address
  depositAccount : Address
  tokenPassMint : Address
  tokenFailMint : Address
  decider : Address
  mintEndSlot : ℕ
  decideEndSlot : ℕ
  decision : Decision
deriving DecidableEq, Repr

inductive PoolError
  | alreadyInUse
  | depositAccountInUse
  | tokenMintInUse
  | invalidAuthorityData
  | invalidAuthorityAccount
  | notRentExempt
  | invalidTokenMint
  | invalidAmount
  | wrongDeciderAccount
  | signatureMissing
  | decisionAlreadyMade
  | invalidSlotForDecision
  | invalidSlotForDeposit
  | noDecisionMadeYet
deriving DecidableEq, Repr

/-- How an instruction stops without success. -/
inductive Fault
  | pool (e : PoolError)
  | notEnoughAccountKeys
  /-- The data of an account cannot be read. -/
  | invalidAccountData
  /-- A system variable was expected. -/
  | invalidArgument
  /-- The token program refused. -/
  | token
  /-- The runtime refused a write or a signature. -/
  | rejected
  | panic
deriving DecidableEq, Repr

instance : Coe PoolError Fault := ⟨.pool⟩

open PoolError

inductive Data
  | none
  /-- A zero-filled account of this program. -/
  | allocated
  | pool (p : Pool)
  /-- An account of another program that can be read as a pool. -/
  | foreignPool (p : Pool)
  /-- An account of another program that can be read as a token account. -/
  | foreignToken (a : Tokens.TokenAccount Address)
deriving DecidableEq, Repr

/-- What the program takes from the cluster. -/
structure Environment where
  /-- The bump seeds for which there is a program address. -/
  validBump : Address → ℕ → Bool
  /-- The accounts with enough lamports. -/
  rentExempt : Address → Bool

structure World where
  data : Address → Data
  tokens : Tokens.Book Address
  slot : ℕ

/-- A pool that was never written. -/
def Pool.blank : Pool :=
  ⟨0, 0, .default, .default, .default, .default, .default, 0, 0, .undecided⟩

namespace World

variable (w : World) (k : Address)

/-- `Pool::try_from_slice`, whoever owns the account. -/
def readPool : Except Fault Pool :=
  match w.data k with
  | .allocated => .ok .blank
  | .pool p | .foreignPool p => .ok p
  | _ => .error .invalidAccountData

/-- `serialize`: the runtime refuses to change an account of another program. -/
def writePool (p : Pool) : Except Fault World :=
  match w.data k with
  | .allocated | .pool _ => .ok { w with data := update w.data k (.pool p) }
  | .foreignPool q => if p = q then .ok w else .error .rejected
  | _ => .error .rejected

/-- `Account::unpack`, whoever owns the account. -/
def readTokenAccount : Except Fault (Tokens.TokenAccount Address) :=
  match w.tokens k, w.data k with
  | .account a, _ => .ok a
  | _, .foreignToken a => .ok a
  | _, _ => .error .invalidAccountData

def callToken (w : World) (tokenProgram : Address)
    (f : Tokens.Book Address → Option (Tokens.Book Address)) : Except Fault World := do
  failIf (tokenProgram ≠ .splToken) .panic
  let tokens ← okOr (f w.tokens) .token
  return { w with tokens }

end World

/-! ## Calls -/

/-- The signatures of a call: the authority of the pool, or those of the transaction. -/
def signers (authority userAuthority : AccountMeta) (k : Address) : Bool :=
  if authority.key = userAuthority.key then k = authority.key
  else userAuthority.isSigner && decide (k = userAuthority.key)

namespace World

def transfer (w : World) (tokenProgram source destination : Address)
    (authority userAuthority : AccountMeta) (amount : ℕ) : Except Fault World :=
  w.callToken tokenProgram
    (Tokens.transfer (signers authority userAuthority) source destination userAuthority.key amount)

def mint (w : World) (tokenProgram mint destination : Address) (authority : AccountMeta)
    (amount : ℕ) : Except Fault World :=
  w.callToken tokenProgram
    (mintTo (signers authority authority) mint destination authority.key amount)

def burn (w : World) (tokenProgram source mint : Address) (authority userAuthority : AccountMeta)
    (amount : ℕ) : Except Fault World :=
  w.callToken tokenProgram
    (Tokens.burn (signers authority userAuthority) source mint userAuthority.key amount)

end World

/-! ## Instructions -/

section Handlers

variable (env : Environment)

/-- `authority_id`, and the comparison with the listed account. -/
def checkAuthority (pool authority : Address) (bumpSeed : ℕ) : Except Fault Unit := do
  failIf (env.validBump pool bumpSeed = false) invalidAuthorityData
  failIf (authority ≠ .authority pool bumpSeed) invalidAuthorityAccount

/-- An instruction for a new token account or mint, which was created with its own signature. -/
def World.initialise (w : World) (tokenProgram : Address)
    (instruction : Tokens.Instruction Address) : Except Fault World :=
  w.callToken tokenProgram fun b => exec Address.canSign Address.canSign b instruction

variable (accounts : List AccountMeta)

def processInitPool (mintEndSlot decideEndSlot bumpSeed : ℕ) (w : World) : Except Fault World :=
  match accounts with
  | poolAccount :: authority :: decider :: depositTokenMint :: depositAccount :: tokenPassMint ::
      tokenFailMint :: rent :: tokenProgram :: _ => do
    failIf (rent.key ≠ .rent) .invalidArgument
    let pool ← w.readPool poolAccount.key
    failIf (pool.version ≠ 0) alreadyInUse
    failIf (env.rentExempt poolAccount.key = false) notRentExempt
    failIf (tokenProgram.key ≠ .splToken) invalidTokenMint
    failIf (w.tokens.mint? depositTokenMint.key = none) .invalidAccountData
    checkAuthority env poolAccount.key authority.key bumpSeed
    failIf ((w.readTokenAccount depositAccount.key).isOk = true) depositAccountInUse
    failIf (w.tokens.mint? tokenPassMint.key ≠ none) tokenMintInUse
    failIf (w.tokens.mint? tokenFailMint.key ≠ none) tokenMintInUse
    let w ← w.initialise tokenProgram.key
      (.initializeAccount depositAccount.key depositTokenMint.key authority.key)
    let w ← w.initialise tokenProgram.key
      (.initializeMint tokenPassMint.key authority.key none)
    let w ← w.initialise tokenProgram.key
      (.initializeMint tokenFailMint.key authority.key none)
    w.writePool poolAccount.key
      { version := 1
        bumpSeed
        tokenProgramId := tokenProgram.key
        depositAccount := depositAccount.key
        tokenPassMint := tokenPassMint.key
        tokenFailMint := tokenFailMint.key
        decider := decider.key
        mintEndSlot
        decideEndSlot
        decision := .undecided }
  | _ => .error .notEnoughAccountKeys

def processDeposit (amount : ℕ) (w : World) : Except Fault World :=
  match accounts with
  | poolAccount :: authority :: userTransferAuthority :: userTokenAccount ::
      poolDepositTokenAccount :: tokenPassMint :: tokenFailMint :: tokenPassDestination ::
      tokenFailDestination :: clock :: tokenProgram :: _ => do
    failIf (clock.key ≠ .clock) .invalidArgument
    failIf (amount = 0) invalidAmount
    let pool ← w.readPool poolAccount.key
    failIf (pool.mintEndSlot < w.slot) invalidSlotForDeposit
    checkAuthority env poolAccount.key authority.key pool.bumpSeed
    let w ← w.transfer tokenProgram.key userTokenAccount.key poolDepositTokenAccount.key authority
      userTransferAuthority amount
    let w ← w.mint tokenProgram.key tokenPassMint.key tokenPassDestination.key authority amount
    w.mint tokenProgram.key tokenFailMint.key tokenFailDestination.key authority amount
  | _ => .error .notEnoughAccountKeys

/-- The burns of a withdrawal. Without a decision both tokens are burned, but the number of PASS
tokens is cut to what the accounts hold. -/
def World.burnForWithdraw (w : World) (pool : Pool)
    (tokenProgram passAccount failAccount passMint failMint : Address)
    (authority userAuthority : AccountMeta) (passAmount failAmount amount : ℕ) :
    Except Fault World :=
  match pool.decision with
  | .pass => w.burn tokenProgram passAccount passMint authority userAuthority amount
  | .fail => w.burn tokenProgram failAccount failMint authority userAuthority amount
  | .undecided => do
    failIf (¬ (w.slot < pool.mintEndSlot ∨ pool.decideEndSlot < w.slot)) noDecisionMadeYet
    let possibleWithdrawAmount := min (min amount passAmount) failAmount
    let w ← w.burn tokenProgram passAccount passMint authority userAuthority possibleWithdrawAmount
    w.burn tokenProgram failAccount failMint authority userAuthority amount

variable (accounts : List AccountMeta)

def processWithdraw (amount : ℕ) (w : World) : Except Fault World :=
  match accounts with
  | poolAccount :: authority :: userTransferAuthority :: poolDepositTokenAccount ::
      tokenPassUserAccount :: tokenFailUserAccount :: tokenPassMint :: tokenFailMint ::
      userTokenDestination :: clock :: tokenProgram :: _ => do
    failIf (clock.key ≠ .clock) .invalidArgument
    failIf (amount = 0) invalidAmount
    let userPassTokenAccount ← w.readTokenAccount tokenPassUserAccount.key
    let userFailTokenAccount ← w.readTokenAccount tokenFailUserAccount.key
    let pool ← w.readPool poolAccount.key
    failIf (pool.tokenPassMint ≠ tokenPassMint.key) invalidTokenMint
    failIf (pool.tokenFailMint ≠ tokenFailMint.key) invalidTokenMint
    checkAuthority env poolAccount.key authority.key pool.bumpSeed
    let w ← w.burnForWithdraw pool tokenProgram.key tokenPassUserAccount.key
      tokenFailUserAccount.key tokenPassMint.key tokenFailMint.key authority userTransferAuthority
      userPassTokenAccount.amount userFailTokenAccount.amount amount
    w.transfer tokenProgram.key poolDepositTokenAccount.key userTokenDestination.key authority
      authority amount
  | _ => .error .notEnoughAccountKeys

def processDecide (decision : Bool) (w : World) : Except Fault World :=
  match accounts with
  | poolAccount :: decider :: clock :: _ => do
    failIf (clock.key ≠ .clock) .invalidArgument
    let pool ← w.readPool poolAccount.key
    failIf (decider.key ≠ pool.decider) wrongDeciderAccount
    failIf (decider.isSigner = false) signatureMissing
    failIf (pool.decision ≠ .undecided) decisionAlreadyMade
    failIf (w.slot < pool.mintEndSlot ∨ pool.decideEndSlot < w.slot) invalidSlotForDecision
    w.writePool poolAccount.key { pool with decision := if decision then .pass else .fail }
  | _ => .error .notEnoughAccountKeys

inductive PoolInstruction
  | initPool (mintEndSlot decideEndSlot bumpSeed : ℕ)
  | deposit (amount : ℕ)
  | withdraw (amount : ℕ)
  | decide (decision : Bool)
deriving DecidableEq, Repr

def process (instruction : PoolInstruction) (accounts : List AccountMeta) (w : World) :
    Except Fault World :=
  match instruction with
  | .initPool mintEndSlot decideEndSlot bumpSeed =>
    processInitPool env accounts mintEndSlot decideEndSlot bumpSeed w
  | .deposit amount => processDeposit env accounts amount w
  | .withdraw amount => processWithdraw env accounts amount w
  | .decide decision => processDecide accounts decision w

/-! ## Runs -/

/-- What can happen. -/
inductive Event
  | pool (instruction : PoolInstruction) (accounts : List AccountMeta)
  /-- An instruction of the token program, signed by others than pools. -/
  | token (instruction : Tokens.Instruction Address)
  /-- A new account of this program. -/
  | allocate (account : Address)
  /-- Another program writes an account of its own. -/
  | foreign (account : Address) (data : Data)
  | newSlot (slot : ℕ)

/-- The account does not belong to this program. -/
def Data.isForeign : Data → Bool
  | .none | .foreignPool _ | .foreignToken _ => true
  | _ => false

def World.exec (w : World) : Event → Except Fault World
  | .pool instruction accounts => do
    failIf (∃ a ∈ accounts, a.isSigner = true ∧ a.key.canSign = false) .rejected
    process env instruction accounts w
  | .token instruction => w.callToken .splToken fun b =>
    Tokens.exec Address.canSign Address.canSign b instruction
  | .allocate account => do
    failIf ((w.data account).isForeign = false) .rejected
    return { w with data := update w.data account .allocated }
  | .foreign account data => do
    failIf ((w.data account).isForeign = false ∨ data.isForeign = false) .rejected
    return { w with data := update w.data account data }
  | .newSlot slot => .ok { w with slot }

/-- A failed event changes nothing. -/
def World.step (w : World) (e : Event) : World :=
  match w.exec env e with
  | .ok w' => w'
  | .error _ => w

def World.Blank (w : World) : Prop := ∀ k p, w.data k ≠ .pool p

end Handlers

end SolanaPrograms.OraclePair
