import SolanaPrograms.Runtime.Pack

/-!
# State of the binary-option program

One pool is one account of 202 bytes in borsh layout. An account that was only created, and is
still zero-filled, reads as a pool whose mints are the zero address.
-/

namespace SolanaPrograms.BinaryOptions

open Outcome Bytes SolanaPrograms.Runtime

/-- Errors of the program, in the order of their codes. -/
inductive BinaryOptionError
  | publicKeyMismatch
  | invalidMintAuthority
  | notMintAuthority
  | invalidSupply
  | invalidWinner
  | uninitializedAccount
  | incorrectOwner
  | alreadySettled
  | betNotSettled
  | tokenNotFoundInPool
  | publicKeysShouldBeUnique
  | tradePricesIncorrect
deriving DecidableEq, Repr

instance : Coe BinaryOptionError Fault := ⟨fun e => .err (.custom (UInt32.ofNat e.ctorIdx))⟩

open BinaryOptionError

/-- The pool of one bet. -/
structure BinaryOption where
  decimals : UInt8
  circulation : UInt64
  settled : Bool
  escrowMintAccountPubkey : Pubkey
  escrowAccountPubkey : Pubkey
  longMintAccountPubkey : Pubkey
  shortMintAccountPubkey : Pubkey
  owner : Pubkey
  winningSidePubkey : Pubkey
deriving DecidableEq

namespace BinaryOption

/-- The widths of the borsh fields. -/
def layout : List Nat := [1, 8, 1, 32, 32, 32, 32, 32, 32]

def len : Nat := 202

def readBool (b : List UInt8) : Except Fault Bool :=
  if b = [0] then .ok false else if b = [1] then .ok true else .error ProgramError.borshIoError

/-- `BinaryOption::try_from_slice`: the buffer holds one pool and nothing else. -/
def tryFromSlice (data : List UInt8) : Except Fault BinaryOption := do
  failIf (data.length ≠ len) (.err .borshIoError)
  match splitFields layout data with
  | [decimals, circulation, settled, escrowMint, escrow, longMint, shortMint, owner, winner] => do
    let settled ← readBool settled
    return ⟨decimals.headD 0, u64OfBytes circulation, settled, .ofBytes escrowMint,
      .ofBytes escrow, .ofBytes longMint, .ofBytes shortMint, .ofBytes owner, .ofBytes winner⟩
  | _ => .error .panic

variable (self : BinaryOption)

def serialize : List UInt8 :=
  [[self.decimals], u64Bytes self.circulation, packBool self.settled,
    self.escrowMintAccountPubkey.bytes, self.escrowAccountPubkey.bytes,
    self.longMintAccountPubkey.bytes, self.shortMintAccountPubkey.bytes, self.owner.bytes,
    self.winningSidePubkey.bytes].flatten

def incrementSupply (n : UInt64) : BinaryOption :=
  { self with circulation := self.circulation + n }

def decrementSupply (n : UInt64) : Except Fault BinaryOption := do
  failIf (self.circulation < n) invalidSupply
  return { self with circulation := self.circulation - n }

@[simp] theorem readBool_packBool (b : Bool) : readBool (packBool b) = .ok b := by
  cases b <;> rfl

variable (self : BinaryOption)

theorem map_length_fields :
    [[self.decimals], u64Bytes self.circulation, packBool self.settled,
      self.escrowMintAccountPubkey.bytes, self.escrowAccountPubkey.bytes,
      self.longMintAccountPubkey.bytes, self.shortMintAccountPubkey.bytes, self.owner.bytes,
      self.winningSidePubkey.bytes].map List.length = layout := by
  simp [layout]

theorem length_serialize : self.serialize.length = len := by
  rw [serialize, List.length_flatten, map_length_fields]
  rfl

@[simp] theorem tryFromSlice_serialize : tryFromSlice self.serialize = .ok self := by
  rw [tryFromSlice, failIf, if_neg (not_not.mpr self.length_serialize), serialize,
    splitFields_flatten self.map_length_fields]
  simp [pure, Except.pure]

end BinaryOption

end SolanaPrograms.BinaryOptions
