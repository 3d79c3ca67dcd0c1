import SolanaPrograms.Lib.Tlv
import SolanaPrograms.Token.State

/-!
# Account data with extensions

Mints and token accounts of token-2022 may carry extensions behind their base state: zero
padding up to the length of a token account, one byte that tells the two kinds apart, and a
type-length-value area. This module follows `extension/mod.rs`: the scans of the area, and the
views `StateWithExtensions` and `StateWithExtensionsMut` with their operations.

An extension type stands for the Rust type of its data. All of these are plain-old-data, so a
value is a byte string of the type's length, and every default is zero-filled.

Operations on a mutable view run in `EStateM`, whose state survives an error: a write made
before a failing check stays made.
-/

namespace SolanaPrograms.Token2022

open Outcome Bytes SolanaPrograms.Runtime ProgramError
open Token (Mint Account Multisig)

/-! ## Errors -/

/-- Errors of token-2022, in the order of their codes. -/
inductive TokenError
  | notRentExempt
  | insufficientFunds
  | invalidMint
  | mintMismatch
  | ownerMismatch
  | fixedSupply
  | alreadyInUse
  | invalidNumberOfProvidedSigners
  | invalidNumberOfRequiredSigners
  | uninitializedState
  | nativeNotSupported
  | nonNativeHasBalance
  | invalidInstruction
  | invalidState
  | overflow
  | authorityTypeNotSupported
  | mintCannotFreeze
  | accountFrozen
  | mintDecimalsMismatch
  | nonNativeNotSupported
  | extensionTypeMismatch
  | extensionBaseMismatch
  | extensionAlreadyInitialized
  | confidentialTransferAccountHasBalance
  | confidentialTransferAccountNotApproved
  | confidentialTransferDepositsAndTransfersDisabled
  | confidentialTransferElGamalPubkeyMismatch
  | confidentialTransferBalanceMismatch
  | mintHasSupply
  | noAuthorityExists
  | transferFeeExceedsMaximum
  | mintRequiredForTransfer
  | feeMismatch
  | feeParametersMismatch
  | immutableOwner
  | accountHasWithheldTransferFees
  | noMemo
deriving DecidableEq, Repr

/-- `From<TokenError> for ProgramError`: the position in the enumeration. -/
def TokenError.toProgramError (e : TokenError) : ProgramError :=
  .custom (UInt32.ofNat e.ctorIdx)

instance : Coe TokenError Fault := ⟨fun e => .err e.toProgramError⟩

open TokenError

/-! ## Account kinds and extension types -/

/-- What kind of state extended data belongs to. -/
inductive AccountType
  | uninitialized
  | mint
  | account
deriving DecidableEq, Repr

namespace AccountType

def toByte : AccountType → UInt8
  | .uninitialized => 0
  | .mint => 1
  | .account => 2

def ofByte (b : UInt8) : Except Fault AccountType :=
  if b = 0 then .ok .uninitialized
  else if b = 1 then .ok .mint
  else if b = 2 then .ok .account
  else .error invalidAccountData

@[simp] theorem ofByte_toByte (t : AccountType) : ofByte t.toByte = .ok t := by
  cases t <;> rfl

theorem toByte_of_ofByte {b : UInt8} {t : AccountType} (h : ofByte b = .ok t) : t.toByte = b := by
  unfold ofByte at h
  split at h
  next hb => cases h; exact hb.symm
  next =>
    split at h
    next hb => cases h; exact hb.symm
    next =>
      split at h
      next hb => cases h; exact hb.symm
      next => cases h

end AccountType

inductive ExtensionType
  | uninitialized
  | transferFeeConfig
  | transferFeeAmount
  | mintCloseAuthority
  | confidentialTransferMint
  | confidentialTransferAccount
  | defaultAccountState
  | immutableOwner
  | memoTransfer
deriving DecidableEq, Repr

/-- Bytes of an ElGamal public key (`solana_zk_token_sdk`). -/
def elGamalPubkeyLen : Nat := 32

/-- Bytes of an ElGamal ciphertext (`solana_zk_token_sdk`). -/
def elGamalCiphertextLen : Nat := 64

/-- Bytes of an authenticated-encryption ciphertext (`solana_zk_token_sdk`). -/
def aeCiphertextLen : Nat := 36

namespace ExtensionType

def toBytes (t : ExtensionType) : List UInt8 := leBytes 2 t.ctorIdx

def ofBytes (b : List UInt8) : Except Fault ExtensionType :=
  match ofLe b with
  | 0 => .ok .uninitialized
  | 1 => .ok .transferFeeConfig
  | 2 => .ok .transferFeeAmount
  | 3 => .ok .mintCloseAuthority
  | 4 => .ok .confidentialTransferMint
  | 5 => .ok .confidentialTransferAccount
  | 6 => .ok .defaultAccountState
  | 7 => .ok .immutableOwner
  | 8 => .ok .memoTransfer
  | _ => .error invalidAccountData

@[simp] theorem ofBytes_toBytes (t : ExtensionType) : ofBytes t.toBytes = .ok t := by
  cases t <;> rfl

@[simp] theorem length_toBytes (t : ExtensionType) : t.toBytes.length = 2 := length_leBytes _ _

/-- `get_type_len`: the size of the type's data, field by field. -/
def getTypeLen : ExtensionType → Nat
  | .uninitialized => 0
  -- two authorities, the withheld amount, two fees of epoch, maximum and basis points
  | .transferFeeConfig => 32 + 32 + 8 + (8 + 8 + 2) + (8 + 8 + 2)
  | .transferFeeAmount => 8
  | .mintCloseAuthority => 32
  -- authority, approval flag, two encryption keys, the withheld amount
  | .confidentialTransferMint => 32 + 1 + 2 * elGamalPubkeyLen + elGamalCiphertextLen
  -- approval flag, key, two balances, decryptable balance, flag, three counters, withheld amount
  | .confidentialTransferAccount =>
    1 + elGamalPubkeyLen + 2 * elGamalCiphertextLen + aeCiphertextLen + 1 + 3 * 8 +
      elGamalCiphertextLen
  | .defaultAccountState => 1
  | .immutableOwner => 0
  | .memoTransfer => 1

def getTlvLen (t : ExtensionType) : Nat := t.getTypeLen + 2 + 2

def getAccountType : ExtensionType → AccountType
  | .uninitialized => .uninitialized
  | .transferFeeConfig | .mintCloseAuthority | .confidentialTransferMint
  | .defaultAccountState => .mint
  | .immutableOwner | .transferFeeAmount | .confidentialTransferAccount
  | .memoTransfer => .account

theorem getTypeLen_lt (t : ExtensionType) : t.getTypeLen < 256 ^ 2 := by
  cases t <;> decide

def getRequiredInitAccountExtensions (mintExtensionTypes : List ExtensionType) :
    List ExtensionType :=
  mintExtensionTypes.filterMap fun t =>
    match t with
    | .transferFeeConfig => some .transferFeeAmount
    | _ => none

end ExtensionType

/-- `BaseState`: a state that can carry extensions. -/
class BaseState (S : Type) extends LawfulPack S where
  accountType : AccountType
  accountType_ne : accountType ≠ .uninitialized
  len_le : len ≤ Pack.len Account

instance : BaseState Mint where
  accountType := .mint
  accountType_ne := by decide
  len_le := by decide

instance : BaseState Account where
  accountType := .account
  accountType_ne := by decide
  len_le := le_refl _

def baseAccountLength : Nat := Pack.len Account

namespace ExtensionType

variable (extensionTypes : List ExtensionType)

/-- Keep the first occurrence of every type. -/
def dedupe : List ExtensionType :=
  extensionTypes.foldl (fun kept t => if t ∈ kept then kept else kept ++ [t]) []

def getTotalTlvLen : Nat :=
  let tlvLen := ((dedupe extensionTypes).map getTlvLen).sum
  if tlvLen = Pack.len Multisig - baseAccountLength - 1 then tlvLen + 2 else tlvLen

def getAccountLen (S : Type) [BaseState S] (extensionTypes : List ExtensionType) : Nat :=
  if extensionTypes = [] then Pack.len S
  else getTotalTlvLen extensionTypes + baseAccountLength + 1

end ExtensionType

/-! ## Scanning the area -/

structure TlvIndices where
  typeStart : Nat
  lengthStart : Nat
  valueStart : Nat
deriving DecidableEq, Repr

/-- `get_tlv_indices`: two bytes of type, two bytes of length, then the value. -/
def getTlvIndices (typeStart : Nat) : TlvIndices :=
  { typeStart, lengthStart := typeStart + 2, valueStart := typeStart + 2 + 2 }

def lengthAt (tlvData : List UInt8) (indices : TlvIndices) : Nat :=
  ofLe (slice tlvData indices.lengthStart 2)

/-- The loop of `get_extension_indices` from `startIndex` on. Every round advances by two bytes
or more, so as many rounds as there are bytes are enough. -/
def getExtensionIndicesFrom (v : ExtensionType) (init : Bool) (tlvData : List UInt8) :
    Nat → Nat → Except Fault TlvIndices
  | 0, _ => .error invalidAccountData
  | rounds + 1, startIndex =>
    if startIndex < tlvData.length then do
      let indices := getTlvIndices startIndex
      failIf (tlvData.length < indices.valueStart) invalidAccountData
      let extensionType ← ExtensionType.ofBytes (slice tlvData indices.typeStart 2)
      if extensionType = .uninitialized then
        -- an empty spot: initialise here, or move past the two type bytes
        if init then .ok indices
        else getExtensionIndicesFrom v init tlvData rounds indices.lengthStart
      else if extensionType = v then .ok indices
      else if v.getAccountType ≠ extensionType.getAccountType then
        .error extensionTypeMismatch
      else
        getExtensionIndicesFrom v init tlvData rounds
          (indices.valueStart + lengthAt tlvData indices)
    else .error invalidAccountData

def getExtensionIndices (v : ExtensionType) (tlvData : List UInt8) (init : Bool) :
    Except Fault TlvIndices :=
  getExtensionIndicesFrom v init tlvData tlvData.length 0

def getExtensionTypesFrom (tlvData : List UInt8) : Nat → Nat → Except Fault (List ExtensionType)
  | 0, _ => .ok []
  | rounds + 1, startIndex =>
    if startIndex < tlvData.length then
      let indices := getTlvIndices startIndex
      if tlvData.length < indices.valueStart then .ok []
      else do
        let extensionType ← ExtensionType.ofBytes (slice tlvData indices.typeStart 2)
        if extensionType = .uninitialized then .ok []
        else
          let rest ← getExtensionTypesFrom tlvData rounds
            (indices.valueStart + lengthAt tlvData indices)
          return extensionType :: rest
    else .ok []

def getExtensionTypes (tlvData : List UInt8) : Except Fault (List ExtensionType) :=
  getExtensionTypesFrom tlvData tlvData.length 0

def getFirstExtensionType (tlvData : List UInt8) : Except Fault (Option ExtensionType) :=
  if tlvData.length ≤ (getTlvIndices 0).lengthStart then .ok none
  else do
    let extensionType ← ExtensionType.ofBytes (slice tlvData (getTlvIndices 0).typeStart 2)
    if extensionType = .uninitialized then .ok none else .ok (some extensionType)

/-- `&data[start..start + len]`, which panics out of range. -/
def subslice (data : List UInt8) (start len : Nat) : Except Fault (List UInt8) :=
  if start + len ≤ data.length then .ok (slice data start len) else .error .panic

def podFromBytes (len : Nat) (b : List UInt8) : Except Fault (List UInt8) :=
  if b.length = len then .ok b else .error invalidArgument

/-! ## Views of the data -/

def checkMinLenAndNotMultisig (input : List UInt8) (minimumLen : Nat) : Except Fault Unit :=
  failIf (input.length = Pack.len Multisig ∨ input.length < minimumLen) invalidAccountData

def checkAccountType (S : Type) [BaseState S] (accountType : AccountType) : Except Fault Unit :=
  failIf (accountType ≠ BaseState.accountType S) invalidAccountData

def typeAndTlvIndices (S : Type) [BaseState S] (restInput : List UInt8) :
    Except Fault (Option (Nat × Nat)) :=
  if restInput = [] then .ok none
  else do
    let accountTypeIndex := baseAccountLength - Pack.len S
    let tlvStartIndex := accountTypeIndex + 1
    failIf (restInput.length ≤ tlvStartIndex) invalidAccountData
    failIf (restInput.take accountTypeIndex ≠ .replicate accountTypeIndex 0) invalidAccountData
    return some (accountTypeIndex, tlvStartIndex)

/-- `StateWithExtensionsMut`: the base state and the slices of one buffer. The padding, which no
operation of the view reaches, is kept so that the slices make up the whole buffer. -/
structure StateWithExtensionsMut (S : Type) where
  base : S
  baseData : List UInt8
  padding : List UInt8
  accountType : List UInt8
  tlvData : List UInt8
deriving DecidableEq

/-- `StateWithExtensions`: the read-only view. -/
structure StateWithExtensions (S : Type) where
  base : S
  tlvData : List UInt8
deriving DecidableEq

namespace StateWithExtensionsMut

variable {S : Type}

/-- The buffer behind a view. -/
def bytes (self : StateWithExtensionsMut S) : List UInt8 :=
  self.baseData ++ (self.padding ++ (self.accountType ++ self.tlvData))

/-- Cut a buffer into the slices of a view. The base state is read by `readBase`; `check` is
asked about the account type when there is room for extensions. -/
def split (S : Type) [BaseState S] (readBase : List UInt8 → Except Fault S)
    (check : AccountType → Except Fault Unit) (input : List UInt8) :
    Except Fault (StateWithExtensionsMut S) := do
  checkMinLenAndNotMultisig input (Pack.len S)
  let baseData := input.take (Pack.len S)
  let rest := input.drop (Pack.len S)
  let base ← readBase baseData
  match ← typeAndTlvIndices S rest with
  | some (accountTypeIndex, tlvStartIndex) => do
    let accountType ← AccountType.ofByte ((rest.drop accountTypeIndex).headD 0)
    check accountType
    return {
      base, baseData
      padding := rest.take accountTypeIndex
      accountType := slice rest accountTypeIndex (tlvStartIndex - accountTypeIndex)
      tlvData := rest.drop tlvStartIndex }
  | none => return { base, baseData, padding := [], accountType := [], tlvData := [] }

def unpack (S : Type) [BaseState S] (input : List UInt8) :
    Except Fault (StateWithExtensionsMut S) :=
  split S (Pack.unpack S) (checkAccountType S) input

def unpackUninitializedBase (S : Type) [BaseState S] (baseData : List UInt8) :
    Except Fault S := do
  let base ← Pack.unpackUnchecked S baseData
  failIf (Pack.isInitialized base = true) alreadyInUse
  return base

def checkFirstExtensionType (S : Type) [BaseState S] (tlvData : List UInt8) :
    Except Fault Unit := do
  match ← getFirstExtensionType tlvData with
  | some extensionType =>
    failIf (extensionType.getAccountType ≠ BaseState.accountType S) extensionBaseMismatch
  | none => .ok ()

def unpackUninitialized (S : Type) [BaseState S] (input : List UInt8) :
    Except Fault (StateWithExtensionsMut S) := do
  let state ← split S (unpackUninitializedBase S)
    (fun accountType =>
      failIf (accountType ≠ .uninitialized) invalidAccountData) input
  checkFirstExtensionType S state.tlvData
  return state

/-- Run a fallible computation that does not write. -/
def orFail {α : Type} (x : Except Fault α) : EStateM Fault (StateWithExtensionsMut S) α :=
  fun self => match x with
    | .ok a => .ok a self
    | .error e => .error e self

/-- Write bytes into the area. -/
def writeTlv (start : Nat) (value : List UInt8) :
    EStateM Fault (StateWithExtensionsMut S) Unit :=
  modify fun self => { self with tlvData := splice self.tlvData start value }

variable [BaseState S]

variable (v : ExtensionType)

/-- `init_or_get_extension`. The result is where the value starts, which with the type is the
reference the source returns. -/
def initOrGetExtension (init : Bool) : EStateM Fault (StateWithExtensionsMut S) Nat := do
  orFail (failIf (v.getAccountType ≠ BaseState.accountType S) invalidAccountData)
  let self ← get
  let indices ← orFail (getExtensionIndices v self.tlvData init)
  orFail (failIf (self.tlvData.length - indices.typeStart < v.getTlvLen) invalidAccountData)
  if init then do
    writeTlv indices.typeStart v.toBytes
    writeTlv indices.lengthStart (leBytes 2 v.getTypeLen)
    let self ← get
    let _ ← orFail (subslice self.tlvData indices.valueStart v.getTypeLen)
    writeTlv indices.valueStart (.replicate v.getTypeLen 0)
    return indices.valueStart
  else do
    let value ← orFail (subslice self.tlvData indices.valueStart (lengthAt self.tlvData indices))
    let _ ← orFail (podFromBytes v.getTypeLen value)
    return indices.valueStart

def getExtensionMut : EStateM Fault (StateWithExtensionsMut S) Nat :=
  initOrGetExtension v false

def initExtension : EStateM Fault (StateWithExtensionsMut S) Nat :=
  initOrGetExtension v true

variable (self : StateWithExtensionsMut S)

def getExtension (self : StateWithExtensionsMut S) (v : ExtensionType) :
    Except Fault (List UInt8) := do
  failIf (v.getAccountType ≠ BaseState.accountType S) invalidAccountData
  let indices ← getExtensionIndices v self.tlvData false
  failIf (self.tlvData.length - indices.typeStart < v.getTlvLen) invalidAccountData
  let value ← subslice self.tlvData indices.valueStart (lengthAt self.tlvData indices)
  podFromBytes v.getTypeLen value

def assign (valueStart : Nat) (value : List UInt8) : StateWithExtensionsMut S :=
  { self with tlvData := splice self.tlvData valueStart value }

def packBase : StateWithExtensionsMut S :=
  { self with baseData := Pack.packIntoSlice self.base self.baseData }

def initAccountType : EStateM Fault (StateWithExtensionsMut S) Unit := do
  let self ← get
  if self.accountType = [] then return ()
  else do
    orFail (checkFirstExtensionType S self.tlvData)
    set { self with accountType := self.accountType.set 0 (BaseState.accountType S).toByte }

def initAccountExtensionFromType (extensionType : ExtensionType) :
    EStateM Fault (StateWithExtensionsMut S) Unit :=
  match extensionType with
  | .transferFeeAmount => do
    let _ ← initExtension .transferFeeAmount
    return ()
  | .confidentialTransferAccount => return ()
  -- `unreachable!()`
  | .immutableOwner | .memoTransfer => orFail (.error .panic)
  | .uninitialized | .transferFeeConfig | .mintCloseAuthority | .confidentialTransferMint
  | .defaultAccountState => return ()

end StateWithExtensionsMut

namespace StateWithExtensions

variable {S : Type} [BaseState S]

def unpack (S : Type) [BaseState S] (input : List UInt8) :
    Except Fault (StateWithExtensions S) := do
  let state ← StateWithExtensionsMut.unpack S input
  return { base := state.base, tlvData := state.tlvData }

def getExtension (self : StateWithExtensions S) (v : ExtensionType) :
    Except Fault (List UInt8) := do
  failIf (v.getAccountType ≠ BaseState.accountType S) invalidAccountData
  let indices ← getExtensionIndices v self.tlvData false
  let value ← subslice self.tlvData indices.valueStart (lengthAt self.tlvData indices)
  podFromBytes v.getTypeLen value

end StateWithExtensions

/-- `is_initialized_account`: byte 108 of a base account is its state. -/
def isInitializedAccount (input : List UInt8) : Except Fault Bool := do
  failIf (input.length ≠ baseAccountLength) invalidAccountData
  return (input.drop 108).headD 0 ≠ 0

/-- `set_account_type` of a token account: the buffer after the call. -/
def setAccountType (S : Type) [BaseState S] (input : List UInt8) :
    Except Fault (List UInt8) := do
  checkMinLenAndNotMultisig input (Pack.len S)
  let rest := input.drop (Pack.len S)
  checkInitialized S (input.take (Pack.len S))
  match ← typeAndTlvIndices S rest with
  | some (accountTypeIndex, _) => do
    let accountType ← AccountType.ofByte ((rest.drop accountTypeIndex).headD 0)
    if accountType = .uninitialized then
      return splice input (Pack.len S + accountTypeIndex) [(BaseState.accountType S).toByte]
    else do
      checkAccountType S accountType
      return input
  | none => .error invalidAccountData
where
  checkInitialized (S : Type) [BaseState S] (baseData : List UInt8) : Except Fault Unit :=
    if BaseState.accountType S = .account then do
      let initialized ← isInitializedAccount baseData
      failIf (initialized = false) invalidAccountData
    else .ok ()

end SolanaPrograms.Token2022
