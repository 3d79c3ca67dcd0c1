import SolanaPrograms.Farms.RefDb
import SolanaPrograms.Lib.Checked

/-!
# The main router: vault metadata

`AddVault` writes a record to the Vault RefDB and packs the vault into its metadata account, whose
address is derived from the name; `RemoveVault` deletes the record by name, whether or not that
succeeds, and closes the metadata account.

The accounts are those whose addresses the two handlers accept: the admin, the RefDB account, and
one metadata account for each name. That names have different addresses (no collision of the hash)
is built into `Address.target`.
-/

namespace SolanaPrograms.Farms

open Outcome SolanaPrograms.Runtime ProgramError

/-! ## Vaults -/

inductive VaultType
  | ammStake
deriving DecidableEq, Repr

inductive VaultStrategy
  | stakeLpCompoundRewards (poolIdRef farmIdRef lpTokenCustody tokenACustody : Address)
      (tokenBCustody : Option Address) (tokenARewardCustody : Address)
      (tokenBRewardCustody : Option Address) (vaultStakeInfo : Address)
  | dynamicHedge
deriving DecidableEq

structure VaultFields where
  version : UInt16
  vaultType : VaultType
  official : Bool
  refdbIndex : Option UInt32
  refdbCounter : UInt16
  metadataBump : UInt8
  authorityBump : UInt8
  vaultTokenBump : UInt8
  lockRequired : Bool
  unlockRequired : Bool
  vaultProgramId : Address
  vaultAuthority : Address
  vaultTokenRef : Address
  infoAccount : Address
  adminAccount : Address
  feesAccountA : Option Address
  feesAccountB : Option Address
  strategy : VaultStrategy
deriving DecidableEq

structure Vault extends VaultFields where
  name : ArrayString64
deriving DecidableEq

def zeroAddress : Address := .key (.replicate 0)

/-- What zero bytes are as the fields of a vault: every tag of an enumeration or an option is zero,
and zero is a tag of each. -/
def VaultFields.zero : VaultFields where
  version := 0
  vaultType := .ammStake
  official := false
  refdbIndex := none
  refdbCounter := 0
  metadataBump := 0
  authorityBump := 0
  vaultTokenBump := 0
  lockRequired := false
  unlockRequired := false
  vaultProgramId := zeroAddress
  vaultAuthority := zeroAddress
  vaultTokenRef := zeroAddress
  infoAccount := zeroAddress
  adminAccount := zeroAddress
  feesAccountA := none
  feesAccountB := none
  strategy := .stakeLpCompoundRewards zeroAddress zeroAddress zeroAddress zeroAddress none
    zeroAddress none zeroAddress

/-- The data of a metadata account: its length, and the fields its bytes hold. -/
structure VaultData where
  len : Nat
  name : List UInt8
  fields : VaultFields
deriving DecidableEq

def VaultData.zeros (len : Nat) : VaultData := ⟨len, zeroName, .zero⟩

namespace Vault

def stakeLpCompoundRewardsLen : Nat := 565

def dynamicHedgeLen : Nat := 1

def getSize (self : Vault) : Nat :=
  match self.strategy with
  | .stakeLpCompoundRewards .. => stakeLpCompoundRewardsLen
  | .dynamicHedge => dynamicHedgeLen

/-- `Vault::pack`: the data after the call. -/
def pack (self : Vault) (output : VaultData) : Except Fault VaultData :=
  match self.strategy with
  | .stakeLpCompoundRewards .. => do
    failIf (output.len < stakeLpCompoundRewardsLen) accountDataTooSmall
    return ⟨output.len, packArrayString64 self.name output.name, self.toVaultFields⟩
  | .dynamicHedge => .error unsupportedSysvar

def unpack (input : VaultData) : Except Fault Vault := do
  failIf (input.len < stakeLpCompoundRewardsLen) accountDataTooSmall
  let name ← unpackArrayString64 input.name
  return { input.fields with name }

theorem pack_ok {self : Vault} {output data : VaultData} (h : self.pack output = .ok data) :
    stakeLpCompoundRewardsLen ≤ output.len ∧ data.len = output.len ∧
      data.name = packArrayString64 self.name output.name := by
  unfold pack at h
  split at h
  next =>
    rw [failIf_bind_eq_ok, pure_eq_ok, not_lt] at h
    obtain ⟨hlen, rfl⟩ := h
    exact ⟨hlen, rfl, rfl⟩
  next => cases h

theorem unpack_eq_ok {input : VaultData} {vault : Vault} :
    unpack input = .ok vault ↔ stakeLpCompoundRewardsLen ≤ input.len ∧
      unpackArrayString64 input.name = .ok vault.name ∧ vault.toVaultFields = input.fields := by
  rw [unpack, failIf_bind_eq_ok, not_lt, bind_eq_ok]
  refine and_congr_right fun _ => ?_
  constructor
  · rintro ⟨name, hname, h⟩
    cases pure_eq_ok.mp h
    exact ⟨hname, rfl⟩
  · rintro ⟨hname, hfields⟩
    refine ⟨vault.name, hname, pure_eq_ok.mpr ?_⟩
    cases vault
    cases hfields
    rfl

end Vault

/-! ## Accounts -/

inductive Owner
  | system
  | mainRouter
  | other (program : Pubkey)
deriving DecidableEq

structure Account (δ : Type) where
  lamports : Nat
  owner : Owner
  data : δ
deriving DecidableEq

/-- The accounts of the router. Of the admin's data only the length is looked at. -/
structure World where
  admin : Account Nat
  refdb : Account Storage
  target : List UInt8 → Account VaultData

/-- One entry of an instruction's account list. -/
structure AccountMeta where
  key : Address
  isSigner : Bool
deriving DecidableEq

/-- `Rent::minimum_balance`: no account is free of rent. -/
structure Environment where
  minimumBalance : Nat → Nat
  minimumBalance_pos : ∀ len, 0 < minimumBalance len

/-! ## Program addresses -/

def findRefdbPda : Address := .refdb

/-- `find_target_pda`, for vaults. A seed has at most 32 bytes. -/
def findTargetPda (targetName : ArrayString64) : Except Fault Address :=
  if targetName.bytes.length ≤ 32 then .ok (.target targetName.bytes) else .error .panic

/-! ## Checks of the two accounts

With `fix` the checks repair what they find; the RefDB account is never repaired
(`REFDB_ONCHAIN_INIT` is false), the metadata account always. -/

/-- `check_pda_data_size`, without a fix. -/
def checkPdaDataSize (dataLen dataSize : Nat) : Except Fault Unit :=
  failIf (dataLen < dataSize) accountDataTooSmall

def allocateIfEmpty (account : Account VaultData) (dataSize : Nat) :
    Except Fault (Account VaultData) :=
  if account.data.len = 0 then do
    failIf (account.owner ≠ .system) (.err (.custom 0))
    return { account with data := .zeros dataSize }
  else .ok account

/-- `check_pda_rent_exempt`, without a fix. -/
def checkPdaRentExempt (env : Environment) (lamports dataSize : Nat) : Except Fault Unit :=
  failIf (lamports < env.minimumBalance dataSize) insufficientFunds

/-- `check_pda_rent_exempt`, with a fix: the missing lamports come from the signer, which is a
system account without data. -/
def fundIfNeeded (env : Environment) (signer : Account Nat) (account : Account VaultData)
    (dataSize : Nat) : Except Fault (Account Nat × Account VaultData) :=
  let minBalance := env.minimumBalance dataSize
  if account.lamports < minBalance then do
    let missing := minBalance - account.lamports
    let signerMinBalance := env.minimumBalance signer.data
    failIf (signer.lamports ≤ signerMinBalance ∨ signer.lamports - signerMinBalance < missing)
      insufficientFunds
    failIf (signer.owner ≠ .system ∨ signer.data ≠ 0) invalidArgument
    return ({ signer with lamports := signer.lamports - missing },
      { account with lamports := account.lamports + missing })
  else .ok (signer, account)

/-- `check_pda_owner`, without a fix. -/
def checkPdaOwner (owner : Owner) : Except Fault Unit :=
  failIf (owner ≠ .mainRouter) illegalOwner

/-- `check_pda_owner`, with a fix: an account of the system program is assigned. -/
def assignIfNeeded (account : Account VaultData) : Except Fault (Account VaultData) :=
  if account.owner ≠ .mainRouter then do
    failIf (account.owner ≠ .system) .rejected
    return { account with owner := .mainRouter }
  else .ok account

/-- `get_storage_size_for_max_records`, for vaults with public keys as references. -/
def vaultStorageSize : Nat :=
  let recordSize := noRefLen + ReferenceType.pubkey.getSize
  (25000 - headerLen) / recordSize * recordSize + headerLen

def vaultTypeName : ArrayString64 := ⟨[86, 97, 117, 108, 116], by decide, by decide⟩

def initIfNeeded (storage : Storage) : Except Fault Storage :=
  if storage.isInitialized = true then .ok storage else storage.init vaultTypeName .pubkey

/-- `check_or_init_refdb`, outside of the delete mode. -/
def checkOrInitRefdb (env : Environment) (refdbAccount : Address) (w : World) :
    Except Fault World := do
  failIf (findRefdbPda ≠ refdbAccount) incorrectProgramId
  checkPdaDataSize w.refdb.data.dataLen vaultStorageSize
  checkPdaRentExempt env w.refdb.lamports vaultStorageSize
  checkPdaOwner w.refdb.owner
  let storage ← initIfNeeded w.refdb.data
  return { w with refdb := { w.refdb with data := storage } }

/-- `check_or_init_refdb` in the delete mode. -/
def checkRefdb (refdbAccount : Address) (w : World) : Except Fault Unit := do
  failIf (findRefdbPda ≠ refdbAccount) incorrectProgramId
  checkPdaOwner w.refdb.owner

def World.setTarget (w : World) (name : List UInt8) (account : Account VaultData) : World :=
  { w with target := Function.update w.target name account }

/-- `check_or_init_refdb_target`, outside of the delete mode. -/
def checkOrInitRefdbTarget (env : Environment) (targetAccount : Address) (dataName : ArrayString64)
    (dataSize : Nat) (w : World) : Except Fault World := do
  let derivedAddress ← findTargetPda dataName
  failIf (derivedAddress ≠ targetAccount) incorrectProgramId
  let account ← allocateIfEmpty (w.target dataName.bytes) dataSize
  checkPdaDataSize account.data.len dataSize
  let (admin, account) ← fundIfNeeded env w.admin account dataSize
  let account ← assignIfNeeded account
  return { w with admin }.setTarget dataName.bytes account

/-- `check_or_init_refdb_target` in the delete mode. -/
def checkRefdbTarget (targetAccount : Address) (dataName : ArrayString64) (w : World) :
    Except Fault World := do
  let derivedAddress ← findTargetPda dataName
  failIf (derivedAddress ≠ targetAccount) incorrectProgramId
  let account ← assignIfNeeded (w.target dataName.bytes)
  return w.setTarget dataName.bytes account

/-! ## The handlers -/

/-- `StorageType::Vault as u16`. -/
def vaultTag : UInt16 := 1

def addVault (env : Environment) (accounts : List AccountMeta) (vault : Vault) (w : World) :
    Except Fault World :=
  match accounts with
  | _signerAccount :: refdbAccount :: targetAccount :: _ => do
    let w ← checkOrInitRefdb env refdbAccount.key w
    let w ← checkOrInitRefdbTarget env targetAccount.key vault.name vault.getSize w
    let storage ← w.refdb.data.write
      { index := vault.refdbIndex
        counter := vault.refdbCounter
        tag := vaultTag
        name := vault.name
        reference := .pubkey targetAccount.key }
    let w := { w with refdb := { w.refdb with data := storage } }
    let account := w.target vault.name.bytes
    let data ← vault.pack account.data
    return w.setTarget vault.name.bytes { account with data }
  | _ => .error notEnoughAccountKeys

/-- The deletion by name, whose error is ignored. -/
def deleteIfPossible (storage : Storage) (name : ArrayString64) : Storage :=
  match storage.deleteWithName name with
  | .ok storage' => storage'
  | .error _ => storage

/-- `close_system_account`: the lamports go to the admin, and the first 1000 bytes are zeroed. -/
def closeSystemAccount (name : List UInt8) (w : World) : Except Fault World := do
  let account := w.target name
  failIf (account.owner ≠ .mainRouter) illegalOwner
  let lamports ← okOr (Checked.add 64 w.admin.lamports account.lamports) insufficientFunds
  return { w with admin := { w.admin with lamports } }.setTarget name
    { account with lamports := 0, data := .zeros account.data.len }

def removeVault (accounts : List AccountMeta) (name : ArrayString64) (w : World) :
    Except Fault World :=
  match accounts with
  | _signerAccount :: refdbAccount :: targetAccount :: _ => do
    checkRefdb refdbAccount.key w
    let w ← checkRefdbTarget targetAccount.key name w
    let storage := deleteIfPossible w.refdb.data name
    closeSystemAccount name.bytes { w with refdb := { w.refdb with data := storage } }
  | _ => .error notEnoughAccountKeys

inductive MainInstruction
  | addVault (vault : Vault)
  | removeVault (name : ArrayString64)
deriving DecidableEq

def processInstruction (env : Environment) (accounts : List AccountMeta)
    (instruction : MainInstruction) (w : World) : Except Fault World :=
  match accounts with
  | [] => .error notEnoughAccountKeys
  | signerAccount :: _ => do
    failIf (signerAccount.key ≠ .mainRouterAdmin) illegalOwner
    failIf (signerAccount.isSigner = false) missingRequiredSignature
    match instruction with
    | .addVault vault => addVault env accounts vault w
    | .removeVault name => removeVault accounts name w

/-! ## Runs -/

inductive Event
  /-- An instruction of the router. -/
  | instruction (accounts : List AccountMeta) (instruction : MainInstruction)
  /-- The admin's account changes outside of the router. -/
  | admin (account : Account Nat)
  /-- Lamports are sent to the RefDB account or to a metadata account. -/
  | gift (lamports : Nat) (receiver : Option (List UInt8))
  /-- A transaction ends: a metadata account without lamports is gone. -/
  | vanish (name : List UInt8)

/-- The accounts after one event; an instruction that fails changes nothing. -/
def step (env : Environment) (w : World) : Event → World
  | .instruction accounts instruction =>
    match processInstruction env accounts instruction w with
    | .ok w' => w'
    | .error _ => w
  | .admin account => { w with admin := account }
  | .gift lamports none =>
    { w with refdb := { w.refdb with lamports := w.refdb.lamports + lamports } }
  | .gift lamports (some name) =>
    w.setTarget name { w.target name with lamports := (w.target name).lamports + lamports }
  | .vanish name =>
    if (w.target name).lamports = 0 then w.setTarget name ⟨0, .system, .zeros 0⟩ else w

end SolanaPrograms.Farms
