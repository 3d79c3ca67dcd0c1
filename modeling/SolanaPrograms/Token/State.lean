import SolanaPrograms.Runtime.Pack

/-!
# State of the token program

Mints, token accounts and multisignature accounts, with the codecs that read them from and
write them into account data. The three kinds are told apart by the length of the data only
(82, 165 and 355 bytes). Each codec is lawful: a packed value unpacks to itself, whatever the
buffer held before.
-/

namespace SolanaPrograms.Token

open Outcome Bytes SolanaPrograms.Runtime List Pubkey

def minSigners : Nat := 1

def maxSigners : Nat := 11

def isValidSignerIndex (index : Nat) : Prop := minSigners ≤ index ∧ index ≤ maxSigners

instance (index : Nat) : Decidable (isValidSignerIndex index) := by
  unfold isValidSignerIndex; infer_instance

/-- `solana_program::incinerator`. -/
def incineratorId : Pubkey :=
  ⟨[0, 51, 144, 114, 141, 52, 17, 96, 121, 189, 201, 17, 191, 255, 0, 219, 212, 77, 46, 205,
    204, 247, 156, 166, 225, 0, 56, 225, 0, 0, 0, 0], rfl⟩

/-! ## Mints -/

structure Mint where
  mintAuthority : Option Pubkey
  supply : UInt64
  decimals : UInt8
  isInitialized : Bool
  freezeAuthority : Option Pubkey
deriving DecidableEq

/-- The widths of a packed mint, 82 bytes in all. -/
def Mint.layout : List Nat := [36, 8, 1, 1, 36]

def Mint.unpackFromSlice (src : List UInt8) : Except Fault Mint :=
  match splitFields Mint.layout src with
  | [mintAuthority, supply, decimals, isInitialized, freezeAuthority] => do
    let mintAuthority ← unpackCOptionKey mintAuthority
    let isInitialized ← unpackBool isInitialized
    let freezeAuthority ← unpackCOptionKey freezeAuthority
    return { mintAuthority, supply := u64OfBytes supply, decimals := decimals.headD 0,
             isInitialized, freezeAuthority }
  | _ => .error .panic

def Mint.packIntoSlice (self : Mint) (dst : List UInt8) : List UInt8 :=
  match splitFields Mint.layout dst with
  | [mintAuthorityDst, _, _, _, freezeAuthorityDst] =>
    [packCOptionKey self.mintAuthority mintAuthorityDst, u64Bytes self.supply, [self.decimals],
      packBool self.isInitialized, packCOptionKey self.freezeAuthority freezeAuthorityDst].flatten
  | _ => dst

instance : Pack Mint where
  len := 82
  isInitialized := Mint.isInitialized
  unpackFromSlice := Mint.unpackFromSlice
  packIntoSlice := Mint.packIntoSlice

theorem Mint.packIntoSlice_eq (v : Mint) (dst : List UInt8) :
    ∃ d₁ d₂ : List UInt8, (dst.length = 82 → d₁.length = 36 ∧ d₂.length = 36) ∧
      v.packIntoSlice dst = [packCOptionKey v.mintAuthority d₁, u64Bytes v.supply, [v.decimals],
        packBool v.isInitialized, packCOptionKey v.freezeAuthority d₂].flatten := by
  refine ⟨_, _, fun h => ?_, rfl⟩
  simp only [length_take, length_drop, h]
  decide

theorem Mint.map_length_fields (v : Mint) {d₁ d₂ : List UInt8} (h₁ : d₁.length = 36)
    (h₂ : d₂.length = 36) :
    [packCOptionKey v.mintAuthority d₁, u64Bytes v.supply, [v.decimals],
      packBool v.isInitialized, packCOptionKey v.freezeAuthority d₂].map length =
        Mint.layout := by
  simp [length_packCOptionKey _ h₁, length_packCOptionKey _ h₂, Mint.layout]

instance : LawfulPack Mint where
  length_packIntoSlice v dst h := by
    obtain ⟨d₁, d₂, hlen, heq⟩ := v.packIntoSlice_eq dst
    obtain ⟨h₁, h₂⟩ := hlen h
    show (v.packIntoSlice dst).length = 82
    rw [heq, length_flatten, v.map_length_fields h₁ h₂]
    rfl
  unpackFromSlice_packIntoSlice v dst h := by
    obtain ⟨d₁, d₂, hlen, heq⟩ := v.packIntoSlice_eq dst
    obtain ⟨h₁, h₂⟩ := hlen h
    show Mint.unpackFromSlice (v.packIntoSlice dst) = .ok v
    rw [heq, Mint.unpackFromSlice, splitFields_flatten (v.map_length_fields h₁ h₂)]
    simp

/-! ## Token accounts -/

inductive AccountState
  | uninitialized
  | initialized
  | frozen
deriving DecidableEq, Repr

def AccountState.ofByte (b : UInt8) : Except Fault AccountState :=
  if b = 0 then .ok .uninitialized
  else if b = 1 then .ok .initialized
  else if b = 2 then .ok .frozen
  else .error ProgramError.invalidAccountData

def AccountState.toByte : AccountState → UInt8
  | .uninitialized => 0
  | .initialized => 1
  | .frozen => 2

@[simp] theorem AccountState.ofByte_toByte (st : AccountState) : ofByte st.toByte = .ok st := by
  cases st <;> rfl

/-- Account data. `isNative` holds the rent-exempt reserve of a wrapped-SOL account. -/
structure Account where
  mint : Pubkey
  owner : Pubkey
  amount : UInt64
  delegate : Option Pubkey
  state : AccountState
  isNative : Option UInt64
  delegatedAmount : UInt64
  closeAuthority : Option Pubkey
deriving DecidableEq

namespace Account

variable (a : Account)

def isFrozen : Bool := a.state = .frozen

def isInitialized : Bool := a.state ≠ .uninitialized

def isOwnedBySystemProgramOrIncinerator : Bool :=
  a.owner = systemProgramId ∨ a.owner = incineratorId

/-- The widths of a packed account, 165 bytes in all. -/
def layout : List Nat := [32, 32, 8, 36, 1, 12, 8, 36]

def unpackFromSlice (src : List UInt8) : Except Fault Account :=
  match splitFields layout src with
  | [mint, owner, amount, delegate, state, isNative, delegatedAmount, closeAuthority] => do
    let delegate ← unpackCOptionKey delegate
    let state ← AccountState.ofByte (state.headD 0)
    let isNative ← unpackCOptionU64 isNative
    let closeAuthority ← unpackCOptionKey closeAuthority
    return { mint := .ofBytes mint, owner := .ofBytes owner,
             amount := u64OfBytes amount, delegate, state, isNative,
             delegatedAmount := u64OfBytes delegatedAmount, closeAuthority }
  | _ => .error .panic

def packIntoSlice (self : Account) (dst : List UInt8) : List UInt8 :=
  match splitFields layout dst with
  | [_, _, _, delegateDst, _, isNativeDst, _, closeAuthorityDst] =>
    [self.mint.bytes, self.owner.bytes, u64Bytes self.amount,
      packCOptionKey self.delegate delegateDst, [self.state.toByte],
      packCOptionU64 self.isNative isNativeDst, u64Bytes self.delegatedAmount,
      packCOptionKey self.closeAuthority closeAuthorityDst].flatten
  | _ => dst

end Account

instance : Pack Account where
  len := 165
  isInitialized := Account.isInitialized
  unpackFromSlice := Account.unpackFromSlice
  packIntoSlice := Account.packIntoSlice

theorem Account.packIntoSlice_eq (v : Account) (dst : List UInt8) :
    ∃ d₁ d₂ d₃ : List UInt8,
      (dst.length = 165 → d₁.length = 36 ∧ d₂.length = 12 ∧ d₃.length = 36) ∧
      v.packIntoSlice dst = [v.mint.bytes, v.owner.bytes, u64Bytes v.amount,
        packCOptionKey v.delegate d₁, [v.state.toByte], packCOptionU64 v.isNative d₂,
        u64Bytes v.delegatedAmount, packCOptionKey v.closeAuthority d₃].flatten := by
  refine ⟨_, _, _, fun h => ?_, rfl⟩
  simp only [length_take, length_drop, h]
  decide

theorem Account.map_length_fields (v : Account) {d₁ d₂ d₃ : List UInt8} (h₁ : d₁.length = 36)
    (h₂ : d₂.length = 12) (h₃ : d₃.length = 36) :
    [v.mint.bytes, v.owner.bytes, u64Bytes v.amount, packCOptionKey v.delegate d₁,
      [v.state.toByte], packCOptionU64 v.isNative d₂, u64Bytes v.delegatedAmount,
      packCOptionKey v.closeAuthority d₃].map length = Account.layout := by
  simp [length_packCOptionKey _ h₁, length_packCOptionU64 _ h₂, length_packCOptionKey _ h₃,
    Account.layout]

instance : LawfulPack Account where
  length_packIntoSlice v dst h := by
    obtain ⟨d₁, d₂, d₃, hlen, heq⟩ := v.packIntoSlice_eq dst
    obtain ⟨h₁, h₂, h₃⟩ := hlen h
    show (v.packIntoSlice dst).length = 165
    rw [heq, length_flatten, v.map_length_fields h₁ h₂ h₃]
    rfl
  unpackFromSlice_packIntoSlice v dst h := by
    obtain ⟨d₁, d₂, d₃, hlen, heq⟩ := v.packIntoSlice_eq dst
    obtain ⟨h₁, h₂, h₃⟩ := hlen h
    show Account.unpackFromSlice (v.packIntoSlice dst) = .ok v
    rw [heq, Account.unpackFromSlice, splitFields_flatten (v.map_length_fields h₁ h₂ h₃)]
    simp

/-! ## Multisignature accounts -/

/-- Multisignature data; the signer array always has `MAX_SIGNERS` places. -/
structure Multisig where
  m : UInt8
  n : UInt8
  isInitialized : Bool
  signers : List Pubkey
  length_signers : signers.length = maxSigners
deriving DecidableEq

namespace Multisig

/-- The widths of a packed multisig, 355 bytes in all. -/
def layout : List Nat := [1, 1, 1, 352]

def splitSigners (flat : List UInt8) : List Pubkey :=
  (splitFields (.replicate maxSigners 32) flat).map .ofBytes

theorem length_splitSigners (flat : List UInt8) : (splitSigners flat).length = maxSigners := rfl

def unpackFromSlice (src : List UInt8) : Except Fault Multisig :=
  match splitFields layout src with
  | [m, n, isInitialized, signersFlat] => do
    let isInitialized ← unpackBool isInitialized
    return { m := m.headD 0, n := n.headD 0, isInitialized, signers := splitSigners signersFlat,
             length_signers := length_splitSigners signersFlat }
  | _ => .error .panic

/-- Every byte is overwritten, so the old content does not matter. -/
def packIntoSlice (self : Multisig) (_dst : List UInt8) : List UInt8 :=
  [[self.m], [self.n], packBool self.isInitialized,
    (self.signers.map bytes).flatten].flatten

end Multisig

instance : Pack Multisig where
  len := 355
  isInitialized := Multisig.isInitialized
  unpackFromSlice := Multisig.unpackFromSlice
  packIntoSlice := Multisig.packIntoSlice

variable (v : Multisig)

theorem Multisig.map_length_signers :
    (v.signers.map bytes).map length = .replicate maxSigners 32 := by
  rw [map_map, ← v.length_signers, ← map_const']
  exact map_congr_left fun k _ => k.length_eq

theorem Multisig.splitSigners_flatten : splitSigners (v.signers.map bytes).flatten = v.signers := by
  rw [splitSigners, splitFields_flatten v.map_length_signers, map_map]
  exact (map_congr_left fun k _ => ofBytes_bytes k).trans (map_id _)

theorem Multisig.map_length_fields :
    [[v.m], [v.n], packBool v.isInitialized, (v.signers.map bytes).flatten].map
      length = Multisig.layout := by
  simp only [map_cons, length_flatten, v.map_length_signers, length_packBool]
  rfl

instance : LawfulPack Multisig where
  length_packIntoSlice v dst _ := by
    show (v.packIntoSlice dst).length = 355
    rw [Multisig.packIntoSlice, length_flatten, v.map_length_fields]
    rfl
  unpackFromSlice_packIntoSlice v dst _ := by
    show Multisig.unpackFromSlice (v.packIntoSlice dst) = .ok v
    rw [Multisig.packIntoSlice, Multisig.unpackFromSlice,
      splitFields_flatten v.map_length_fields]
    simp [v.splitSigners_flatten]

/-! ## Zero-filled data -/

variable {data : List UInt8}

theorem Account.unpack_zero {v : Account} (h : ∀ b ∈ data, b = 0) :
    Pack.unpack Account data ≠ .ok v := by
  intro hv
  have hzero : data = .replicate 165 0 :=
    (eq_replicate_of_mem h).trans (by rw [Pack.unpack_length hv]; rfl)
  obtain ⟨hread, hinit⟩ := Pack.unpack_eq_ok.mp hv
  have hstate : (Pack.unpackUnchecked Account (.replicate 165 0)).map Account.isInitialized =
      .ok false := by decide +kernel
  rw [← hzero, hread] at hstate
  cases hinit.symm.trans (Except.ok.inj hstate)

theorem Mint.unpackUnchecked_zero (h : ∀ b ∈ data, b = 0) {v : Mint}
    (hv : Pack.unpackUnchecked Mint data = .ok v) : v.isInitialized = false ∧ v.supply = 0 := by
  have hzero : data = .replicate 82 0 :=
    (eq_replicate_of_mem h).trans (by rw [(Pack.unpackUnchecked_eq_ok.mp hv).1]; rfl)
  have hread : (Pack.unpackUnchecked Mint (.replicate 82 0)).map
      (fun v => (v.isInitialized, v.supply)) = .ok (false, 0) := by decide +kernel
  rw [← hzero, hv] at hread
  exact Prod.ext_iff.mp (Except.ok.inj hread)

theorem Mint.unpack_zero {v : Mint} (h : ∀ b ∈ data, b = 0) : Pack.unpack Mint data ≠ .ok v := by
  intro hv
  obtain ⟨hread, hinit⟩ := Pack.unpack_eq_ok.mp hv
  cases hinit.symm.trans (Mint.unpackUnchecked_zero h hread).1

end SolanaPrograms.Token
