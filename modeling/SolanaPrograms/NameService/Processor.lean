import SolanaPrograms.NameService.State
import SolanaPrograms.Runtime.Invoke

/-!
# The instructions of the name service

The four handlers as functions of the account store. A handler returns the store the runtime
verified last and the store at its end; the runtime then rejects what it did to accounts of other
programs (`Program.execute`).
-/

namespace SolanaPrograms.NameService

open Outcome Bytes SolanaPrograms.Runtime ProgramError

inductive NameRegistryInstruction
  | create (hashedName : List UInt8) (lamports : UInt64) (space : UInt32)
  | update (offset : UInt32) (data : List UInt8)
  | transfer (newOwner : Pubkey)
  | delete
deriving DecidableEq

section Handlers

variable (env : Environment)

/-! ## Create -/

def checkVacant (data : List UInt8) : Except Fault Unit :=
  if 0 < data.length then do
    let nameRecordHeader ← NameRecordHeader.unpackFromSlice data
    failIf (nameRecordHeader.owner ≠ defaultKey) invalidArgument
  else .ok ()

def checkParentNameOwner (s : Bank) (parentNameAccount : Pubkey)
    (parentNameOwner : Option AccountMeta) : Except Fault Unit :=
  if parentNameAccount ≠ defaultKey then do
    let parentNameOwner ← okOr parentNameOwner .panic
    failIf (parentNameOwner.isSigner = false) invalidArgument
    let parentNameRecordHeader ← NameRecordHeader.unpackFromSlice (s parentNameAccount).data
    failIf (parentNameRecordHeader.owner ≠ parentNameOwner.key) invalidArgument
  else .ok ()

variable (accounts : List AccountMeta)

/-- The name registry account is issued in three steps, if the account is empty. The seeds are cut
anew, with the bump seed in the last piece. -/
def issueNameAccount (payer nameAccount : Pubkey) (seeds : List UInt8) (lamports : UInt64)
    (space : UInt32) (s : Bank) : Except Fault Bank :=
  if (s nameAccount).data.length = 0 then do
    let derived := (env.createProgramAddress (chunks 32 seeds)).toList
    let s ← System.transfer accounts [] payer nameAccount lamports s
    let s ← System.allocate accounts derived nameAccount (NameRecordHeader.len + space.toNat) s
    System.assign accounts derived nameAccount env.programId s
  else .ok s

def processCreate (hashedName : List UInt8) (lamports : UInt64) (space : UInt32) (s : Bank) :
    Except Fault (Bank × Bank) :=
  match accounts with
  | _systemProgram :: payerAccount :: nameAccount :: nameOwner :: nameClass ::
      parentNameAccount :: rest => do
    let (nameAccountKey, seeds) ← env.getSeedsAndKey hashedName (some nameClass.key)
      (some parentNameAccount.key)
    failIf (nameAccountKey ≠ nameAccount.key) invalidArgument
    checkVacant (s nameAccount.key).data
    failIf (nameClass.key ≠ defaultKey ∧ nameClass.isSigner = false) invalidArgument
    checkParentNameOwner s parentNameAccount.key rest.head?
    failIf (nameOwner.key = defaultKey) invalidArgument
    let s ← issueNameAccount env accounts payerAccount.key nameAccount.key seeds lamports space s
    let nameState : NameRecordHeader :=
      { parentName := parentNameAccount.key
        owner := nameOwner.key
        classKey := nameClass.key }
    let data ← nameState.packIntoSlice (s nameAccount.key).data
    return (s, s.setData nameAccount.key data)
  | _ => .error notEnoughAccountKeys

/-! ## Update, Transfer and Delete -/

def isParentOwner (s : Bank) (nameRecordHeader : NameRecordHeader) (parentName : Option AccountMeta)
    (signer : Pubkey) : Except Fault Bool :=
  match parentName with
  | some parentName => do
    failIf (nameRecordHeader.parentName ≠ parentName.key) invalidArgument
    let parentNameRecordHeader ← NameRecordHeader.unpackFromSlice (s parentName.key).data
    return parentNameRecordHeader.owner = signer
  | none => .ok false

def processUpdate (accounts : List AccountMeta) (offset : UInt32) (data : List UInt8) (s : Bank) :
    Except Fault (Bank × Bank) :=
  match accounts with
  | nameAccount :: nameUpdateSigner :: rest => do
    let nameRecordHeader ← NameRecordHeader.unpackFromSlice (s nameAccount.key).data
    let parentOwner ← isParentOwner s nameRecordHeader rest.head? nameUpdateSigner.key
    failIf (nameUpdateSigner.isSigner = false) invalidArgument
    failIf (nameRecordHeader.classKey ≠ defaultKey ∧
      nameUpdateSigner.key ≠ nameRecordHeader.classKey) invalidArgument
    failIf (nameRecordHeader.classKey = defaultKey ∧
      nameUpdateSigner.key ≠ nameRecordHeader.owner ∧ parentOwner = false) invalidArgument
    let accountData ← writeData (s nameAccount.key).data data
      (NameRecordHeader.len + offset.toNat)
    return (s, s.setData nameAccount.key accountData)
  | _ => .error notEnoughAccountKeys

/-- The class is not given, or it is another one, or it did not sign. -/
def classMissing (nameRecordHeader : NameRecordHeader) (nameClassOpt : Option AccountMeta) : Prop :=
  ¬ ∃ nameClass ∈ nameClassOpt, nameRecordHeader.classKey = nameClass.key ∧
    nameClass.isSigner = true

instance (h : NameRecordHeader) (o : Option AccountMeta) : Decidable (classMissing h o) := by
  unfold classMissing; infer_instance

variable (accounts : List AccountMeta)

def processTransfer (newOwner : Pubkey) (s : Bank) : Except Fault (Bank × Bank) :=
  match accounts with
  | nameAccount :: nameOwner :: rest => do
    let nameRecordHeader ← NameRecordHeader.unpackFromSlice (s nameAccount.key).data
    let parentOwner ← isParentOwner s nameRecordHeader rest[1]? nameOwner.key
    failIf (nameOwner.isSigner = false ∨
      (nameRecordHeader.owner ≠ nameOwner.key ∧ parentOwner = false)) invalidArgument
    failIf (nameRecordHeader.classKey ≠ defaultKey ∧ classMissing nameRecordHeader rest[0]?)
      invalidArgument
    let data ← { nameRecordHeader with owner := newOwner }.packIntoSlice (s nameAccount.key).data
    return (s, s.setData nameAccount.key data)
  | _ => .error notEnoughAccountKeys

/-- `process_delete`. The lamports of one account cannot be borrowed twice. -/
def processDelete (s : Bank) : Except Fault (Bank × Bank) :=
  match accounts with
  | nameAccount :: nameOwner :: refundTarget :: _ => do
    let nameRecordHeader ← NameRecordHeader.unpackFromSlice (s nameAccount.key).data
    failIf (nameOwner.isSigner = false ∨ nameRecordHeader.owner ≠ nameOwner.key) invalidArgument
    let data ← writeData (s nameAccount.key).data
      (.replicate (s nameAccount.key).data.length 0) 0
    failIf (refundTarget.key = nameAccount.key) .panic
    let sourceAmount := (s nameAccount.key).lamports
    let destAmount := (s refundTarget.key).lamports
    return (s, ((s.setData nameAccount.key data).setLamports refundTarget.key
      (destAmount + sourceAmount)).setLamports nameAccount.key 0)
  | _ => .error notEnoughAccountKeys

def process (instruction : NameRegistryInstruction) (accounts : List AccountMeta) (s : Bank) :
    Except Fault (Bank × Bank) :=
  match instruction with
  | .create hashedName lamports space => processCreate env accounts hashedName lamports space s
  | .update offset data => processUpdate accounts offset data s
  | .transfer newOwner => processTransfer accounts newOwner s
  | .delete => processDelete accounts s

end Handlers

/-- The name service as the runtime sees it. -/
def program (env : Environment) : Program Unit NameRegistryInstruction where
  id := env.programId
  id_ne_system := env.programId_ne
  process := fun _ => process env

/-! ## Runs -/

/-- What can happen: the events of the runtime, and the end of an account without lamports, whatever
its data is. -/
inductive Event
  | chain (e : Runtime.Event Unit NameRegistryInstruction)
  | vanish (account : Pubkey)

/-- The store after one event. -/
def step (env : Environment) (s : Bank) : Event → Bank
  | .chain e => (program env).step s e
  | .vanish k =>
    if (s k).lamports = 0 then Function.update s k ⟨0, systemProgramId, []⟩ else s

def Event.call (instruction : NameRegistryInstruction) (accounts : List AccountMeta) : Event :=
  .chain (.instruction () instruction accounts)

end SolanaPrograms.NameService
