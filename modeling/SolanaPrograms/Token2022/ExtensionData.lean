import SolanaPrograms.Token2022.Area

/-!
# The data of the extensions

The Rust types behind the extension types, with the byte strings they are cast to and from.
Every codec is lawful: a value has the length of its type and is read back from its bytes
(`Extension`).

`OptionalNonZeroPubkey` is a key in which zero means `None`; the fee of `TransferFee` is computed
as in `transfer_fee/mod.rs`.
-/

namespace SolanaPrograms.Token2022

open Outcome Bytes SolanaPrograms.Runtime TokenError List
open Token (AccountState)

/-- `Extension`: plain-old-data with an extension type. -/
class Extension (V : Type) where
  type : ExtensionType
  toBytes : V → List UInt8
  ofBytes : List UInt8 → V
  length_toBytes : ∀ v, (toBytes v).length = type.getTypeLen
  ofBytes_toBytes : ∀ v, ofBytes (toBytes v) = v

attribute [simp] Extension.length_toBytes Extension.ofBytes_toBytes

/-! ## Fields -/

/-- A field of `n` bytes that the program does not look into. -/
structure Blob (n : Nat) where
  bytes : List UInt8
  length_eq : bytes.length = n
deriving DecidableEq

attribute [simp] Blob.length_eq

namespace Blob

def zeroed (n : Nat) : Blob n := ⟨.replicate n 0, length_replicate⟩

/-- The field with the given bytes; callers pass `n` bytes. -/
def ofBytes (n : Nat) (l : List UInt8) : Blob n := if h : l.length = n then ⟨l, h⟩ else zeroed n

@[simp] theorem ofBytes_bytes {n : Nat} (b : Blob n) : ofBytes n b.bytes = b := by
  simp [ofBytes]

end Blob

def u16Bytes (x : UInt16) : List UInt8 := leBytes 2 x.toNat

def u16OfBytes (l : List UInt8) : UInt16 := UInt16.ofNat (ofLe l)

@[simp] theorem length_u16Bytes (x : UInt16) : (u16Bytes x).length = 2 := length_leBytes _ _

@[simp] theorem u16OfBytes_u16Bytes (x : UInt16) : u16OfBytes (u16Bytes x) = x := by
  have hx : x.toNat < 256 ^ 2 := x.toNat_lt
  rw [u16OfBytes, u16Bytes, ofLe_leBytes_of_lt hx, UInt16.ofNat_toNat]

def podBool (b : Bool) : UInt8 := if b then 1 else 0

def boolOfPod (b : UInt8) : Bool := b ≠ 0

structure OptionalNonZeroPubkey where
  key : Pubkey
deriving DecidableEq

namespace OptionalNonZeroPubkey

def toOption (k : OptionalNonZeroPubkey) : Option Pubkey :=
  if k.key = .replicate 0 then none else some k.key

/-- `try_from` of an optional key: the zero key cannot be stored. -/
def ofOption : Option Pubkey → Except Fault OptionalNonZeroPubkey
  | none => .ok ⟨.replicate 0⟩
  | some k => if k = Pubkey.replicate 0 then .error ProgramError.invalidArgument else .ok ⟨k⟩

end OptionalNonZeroPubkey

/-! ## Transfer fees -/

def maxFeeBasisPoints : UInt16 := 10000

structure TransferFee where
  epoch : UInt64
  maximumFee : UInt64
  transferFeeBasisPoints : UInt16
deriving DecidableEq

/-- `TransferFee::calculate`. The product of a `u64` and a `u16` fits in `u128`. -/
def TransferFee.calculate (self : TransferFee) (amount : UInt64) : Option UInt64 :=
  let basisPoints := self.transferFeeBasisPoints.toNat
  if basisPoints = 0 ∨ amount = 0 then some 0
  else
    let numerator := amount.toNat * basisPoints
    let rawFee := numerator / 10000
    let rawFee := if 0 < numerator % 10000 then rawFee + 1 else rawFee
    -- `u64::try_from(raw_fee).ok()?`
    if rawFee < 2 ^ 64 then some (min (UInt64.ofNat rawFee) self.maximumFee) else none

structure TransferFeeConfig where
  transferFeeConfigAuthority : OptionalNonZeroPubkey
  withdrawWithheldAuthority : OptionalNonZeroPubkey
  withheldAmount : UInt64
  olderTransferFee : TransferFee
  newerTransferFee : TransferFee
deriving DecidableEq

namespace TransferFeeConfig

variable (self : TransferFeeConfig)

def getEpochFee (epoch : UInt64) : TransferFee :=
  if self.newerTransferFee.epoch ≤ epoch then self.newerTransferFee else self.olderTransferFee

def calculateEpochFee (epoch amount : UInt64) : Option UInt64 :=
  (self.getEpochFee epoch).calculate amount

def layout : List Nat := [32, 32, 8, 8, 8, 2, 8, 8, 2]

def fields (self : TransferFeeConfig) : List (List UInt8) :=
  [self.transferFeeConfigAuthority.key.bytes, self.withdrawWithheldAuthority.key.bytes,
    u64Bytes self.withheldAmount,
    u64Bytes self.olderTransferFee.epoch, u64Bytes self.olderTransferFee.maximumFee,
    u16Bytes self.olderTransferFee.transferFeeBasisPoints,
    u64Bytes self.newerTransferFee.epoch, u64Bytes self.newerTransferFee.maximumFee,
    u16Bytes self.newerTransferFee.transferFeeBasisPoints]

def ofBytes (b : List UInt8) : TransferFeeConfig :=
  match splitFields layout b with
  | [configAuthority, withdrawAuthority, withheld, olderEpoch, olderMax, olderPoints,
      newerEpoch, newerMax, newerPoints] =>
    { transferFeeConfigAuthority := ⟨.ofBytes configAuthority⟩
      withdrawWithheldAuthority := ⟨.ofBytes withdrawAuthority⟩
      withheldAmount := u64OfBytes withheld
      olderTransferFee := ⟨u64OfBytes olderEpoch, u64OfBytes olderMax, u16OfBytes olderPoints⟩
      newerTransferFee := ⟨u64OfBytes newerEpoch, u64OfBytes newerMax, u16OfBytes newerPoints⟩ }
  | _ => ⟨⟨.replicate 0⟩, ⟨.replicate 0⟩, 0, ⟨0, 0, 0⟩, ⟨0, 0, 0⟩⟩

theorem map_length_fields (c : TransferFeeConfig) : c.fields.map length = layout := by
  simp [fields, layout]

end TransferFeeConfig

instance : Extension TransferFeeConfig where
  type := .transferFeeConfig
  toBytes c := c.fields.flatten
  ofBytes := .ofBytes
  length_toBytes c := by
    rw [length_flatten, c.map_length_fields]
    rfl
  ofBytes_toBytes c := by
    rw [TransferFeeConfig.ofBytes, splitFields_flatten c.map_length_fields]
    simp [TransferFeeConfig.fields]

structure TransferFeeAmount where
  withheldAmount : UInt64
deriving DecidableEq

instance : Extension TransferFeeAmount where
  type := .transferFeeAmount
  toBytes a := u64Bytes a.withheldAmount
  ofBytes b := ⟨u64OfBytes b⟩
  length_toBytes a := length_u64Bytes _
  ofBytes_toBytes a := by rw [u64OfBytes_u64Bytes]

def TransferFeeAmount.closable (self : TransferFeeAmount) : Except Fault Unit :=
  failIf (self.withheldAmount ≠ 0) accountHasWithheldTransferFees

/-! ## Other extensions of mints -/

structure MintCloseAuthority where
  closeAuthority : OptionalNonZeroPubkey
deriving DecidableEq

instance : Extension MintCloseAuthority where
  type := .mintCloseAuthority
  toBytes a := a.closeAuthority.key.bytes
  ofBytes b := ⟨⟨.ofBytes b⟩⟩
  length_toBytes a := a.closeAuthority.key.length_eq
  ofBytes_toBytes a := by rw [Pubkey.ofBytes_bytes]

/-- Default account state extension data for mints: the byte of a state. -/
structure DefaultAccountState where
  state : UInt8
deriving DecidableEq

instance : Extension DefaultAccountState where
  type := .defaultAccountState
  toBytes a := [a.state]
  ofBytes b := ⟨b.headD 0⟩
  length_toBytes _ := rfl
  ofBytes_toBytes _ := rfl

structure ConfidentialTransferMint where
  authority : Pubkey
  autoApproveNewAccounts : UInt8
  auditorPubkey : Blob elGamalPubkeyLen
  withdrawWithheldAuthorityPubkey : Blob elGamalPubkeyLen
  withheldAmount : Blob elGamalCiphertextLen
deriving DecidableEq

namespace ConfidentialTransferMint

def layout : List Nat := [32, 1, 32, 32, 64]

def fields (self : ConfidentialTransferMint) : List (List UInt8) :=
  [self.authority.bytes, [self.autoApproveNewAccounts], self.auditorPubkey.bytes,
    self.withdrawWithheldAuthorityPubkey.bytes, self.withheldAmount.bytes]

def ofBytes (b : List UInt8) : ConfidentialTransferMint :=
  match splitFields layout b with
  | [authority, autoApprove, auditor, withdraw, withheld] =>
    ⟨.ofBytes authority, autoApprove.headD 0, .ofBytes _ auditor, .ofBytes _ withdraw,
      .ofBytes _ withheld⟩
  | _ => ⟨.replicate 0, 0, .zeroed _, .zeroed _, .zeroed _⟩

theorem map_length_fields (c : ConfidentialTransferMint) : c.fields.map length = layout := by
  simp [fields, layout, elGamalPubkeyLen, elGamalCiphertextLen]

end ConfidentialTransferMint

instance : Extension ConfidentialTransferMint where
  type := .confidentialTransferMint
  toBytes c := c.fields.flatten
  ofBytes := .ofBytes
  length_toBytes c := by
    rw [length_flatten, c.map_length_fields]
    rfl
  ofBytes_toBytes c := by
    rw [ConfidentialTransferMint.ofBytes, splitFields_flatten c.map_length_fields]
    simp [ConfidentialTransferMint.fields]

/-! ## Other extensions of accounts -/

structure MemoTransfer where
  requireIncomingTransferMemos : UInt8
deriving DecidableEq

instance : Extension MemoTransfer where
  type := .memoTransfer
  toBytes a := [a.requireIncomingTransferMemos]
  ofBytes b := ⟨b.headD 0⟩
  length_toBytes _ := rfl
  ofBytes_toBytes _ := rfl

/-- Marks an account whose owner cannot be changed; it has no data. -/
structure ImmutableOwner where
deriving DecidableEq

instance : Extension ImmutableOwner where
  type := .immutableOwner
  toBytes _ := []
  ofBytes _ := {}
  length_toBytes _ := rfl
  ofBytes_toBytes _ := rfl

structure ConfidentialTransferAccount where
  approved : UInt8
  encryptionPubkey : Blob elGamalPubkeyLen
  pendingBalance : Blob elGamalCiphertextLen
  availableBalance : Blob elGamalCiphertextLen
  decryptableAvailableBalance : Blob aeCiphertextLen
  allowBalanceCredits : UInt8
  pendingBalanceCreditCounter : UInt64
  expectedPendingBalanceCreditCounter : UInt64
  actualPendingBalanceCreditCounter : UInt64
  withheldAmount : Blob elGamalCiphertextLen
deriving DecidableEq

namespace ConfidentialTransferAccount

def layout : List Nat := [1, 32, 64, 64, 36, 1, 8, 8, 8, 64]

def fields (self : ConfidentialTransferAccount) : List (List UInt8) :=
  [[self.approved], self.encryptionPubkey.bytes, self.pendingBalance.bytes,
    self.availableBalance.bytes, self.decryptableAvailableBalance.bytes,
    [self.allowBalanceCredits], u64Bytes self.pendingBalanceCreditCounter,
    u64Bytes self.expectedPendingBalanceCreditCounter,
    u64Bytes self.actualPendingBalanceCreditCounter, self.withheldAmount.bytes]

def ofBytes (b : List UInt8) : ConfidentialTransferAccount :=
  match splitFields layout b with
  | [approved, pubkey, pending, available, decryptable, allow, counter, expected, actual,
      withheld] =>
    ⟨approved.headD 0, .ofBytes _ pubkey, .ofBytes _ pending, .ofBytes _ available,
      .ofBytes _ decryptable, allow.headD 0, u64OfBytes counter, u64OfBytes expected,
      u64OfBytes actual, .ofBytes _ withheld⟩
  | _ => ⟨0, .zeroed _, .zeroed _, .zeroed _, .zeroed _, 0, 0, 0, 0, .zeroed _⟩

theorem map_length_fields (c : ConfidentialTransferAccount) : c.fields.map length = layout := by
  simp [fields, layout, elGamalPubkeyLen, elGamalCiphertextLen, aeCiphertextLen]

def closable (self : ConfidentialTransferAccount) : Except Fault Unit :=
  failIf (¬ (self.pendingBalance = .zeroed _ ∧ self.availableBalance = .zeroed _ ∧
    self.withheldAmount = .zeroed _)) confidentialTransferAccountHasBalance

end ConfidentialTransferAccount

instance : Extension ConfidentialTransferAccount where
  type := .confidentialTransferAccount
  toBytes c := c.fields.flatten
  ofBytes := .ofBytes
  length_toBytes c := by
    rw [length_flatten, c.map_length_fields]
    rfl
  ofBytes_toBytes c := by
    rw [ConfidentialTransferAccount.ofBytes, splitFields_flatten c.map_length_fields]
    simp [ConfidentialTransferAccount.fields]

end SolanaPrograms.Token2022
