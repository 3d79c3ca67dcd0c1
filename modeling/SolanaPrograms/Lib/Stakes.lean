import SolanaPrograms.Lib.Checked

/-!
# Stake accounts

Stake accounts over an arbitrary type of addresses, and the instructions of a stake program. The
stake program itself is not defined here: it enters as a `Program`, of which only this is known,
that an instruction takes the stake accounts and the lamports to other ones, or is refused.
-/

namespace SolanaPrograms.Stakes

open Function

variable {K : Type}

/-! ## Accounts -/

/-- The part of a stake account that does not depend on a delegation. -/
structure Meta (K : Type) where
  rentExemptReserve : ℕ
  staker : K
  withdrawer : K
  /-- The lockup is not the default one. -/
  locked : Bool
deriving DecidableEq, Repr

structure Delegation (K : Type) where
  voter : K
  stake : ℕ
  activationEpoch : ℕ
  deactivationEpoch : Option ℕ
deriving DecidableEq, Repr

inductive StakeState (K : Type)
  | uninitialized
  | initialized (m : Meta K)
  | stake (m : Meta K) (d : Delegation K)
deriving DecidableEq, Repr

def StakeState.meta? : StakeState K → Option (Meta K)
  | .uninitialized => none
  | .initialized m | .stake m _ => some m

/-- The stake accounts and all lamports. An address without a state is not an account of the stake
program. -/
structure Store (K : Type) where
  state : K → Option (StakeState K)
  lamports : K → ℕ

namespace Store

variable [DecidableEq K]

def setState (s : Store K) (k : K) (x : StakeState K) : Store K :=
  { s with state := update s.state k (some x) }

def move (s : Store K) (source destination : K) (amount : ℕ) : Store K :=
  let taken := update s.lamports source (s.lamports source - amount)
  { s with lamports := update taken destination (taken destination + amount) }

end Store

/-! ## The program -/

inductive Instruction (K : Type)
  | initializeAccount (account staker withdrawer : K) (locked : Bool)
  | authorizeStaker (account new : K)
  | authorizeWithdrawer (account new : K)
  | delegate (account vote : K)
  | deactivate (account : K)
  | split (source destination : K) (amount : ℕ)
  | merge (destination source : K)
  | withdraw (source destination : K) (amount : ℕ)
deriving DecidableEq, Repr

/-- A stake program: what an instruction does in an epoch, given the addresses that signed. -/
structure Program (K : Type) where
  /-- The rent-exempt reserve of a stake account. -/
  rent : ℕ
  exec : (K → Bool) → ℕ → Instruction K → Store K → Option (Store K)

end SolanaPrograms.Stakes
