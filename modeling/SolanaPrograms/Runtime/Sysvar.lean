import SolanaPrograms.Runtime.Account

/-!
# Sysvars

What the runtime tells a program about the cluster. The values are parameters of every call:
nothing is assumed about them.
-/

namespace SolanaPrograms.Runtime

open Outcome

/-- The `Rent` sysvar, as far as programs ask for it. -/
structure Rent where
  minimumBalance : Nat → UInt64

def Rent.isExempt (rent : Rent) (balance : UInt64) (dataLen : Nat) : Prop :=
  rent.minimumBalance dataLen ≤ balance

instance (rent : Rent) (balance : UInt64) (dataLen : Nat) :
    Decidable (rent.isExempt balance dataLen) := by
  unfold Rent.isExempt; infer_instance

/-- A rent that asks for `n` lamports whatever the size. -/
def flatRent (n : UInt64) : Rent := ⟨fun _ => n⟩

def rentSysvarId : Pubkey :=
  ⟨[6, 167, 213, 23, 25, 44, 92, 81, 33, 140, 201, 76, 61, 74, 241, 127, 88, 218, 238, 8, 155,
    161, 253, 68, 227, 219, 217, 138, 0, 0, 0, 0], rfl⟩

def readRent (rent : Rent) (rentSysvarAccount : Bool) (it : List AccountMeta) :
    Except Fault (Rent × List AccountMeta) :=
  if rentSysvarAccount then do
    let (info, it) ← nextAccountInfo it
    failIf (info.key ≠ rentSysvarId) (.err .invalidArgument)
    return (rent, it)
  else .ok (rent, it)

end SolanaPrograms.Runtime
