import SolanaPrograms.Lib.Outcome

/-!
# Addresses, errors and the account store

The part of `solana_program` every program here is written against: public keys, the
`ProgramError` values, account lists, and the store of accounts (`Bank`) that instructions
read and write. An account list is a list of keys with a signer flag; the data, lamports and
owner of an account live in the store, so an account that is listed twice, or listed in two
roles, is one account, as it is on chain where duplicates share their cells.

Fields of an account that no modelled function reads (`executable`, `rent_epoch`) are left
out, and so is the writable flag: dropping it only admits more instructions.
-/

namespace SolanaPrograms.Runtime

open Outcome

/-! ## Public keys -/

structure Pubkey where
  bytes : List UInt8
  length_eq : bytes.length = 32
deriving DecidableEq

attribute [simp] Pubkey.length_eq

@[ext] theorem Pubkey.ext {a b : Pubkey} (h : a.bytes = b.bytes) : a = b := by
  cases a; cases b; cases h; rfl

def Pubkey.replicate (b : UInt8) : Pubkey := ⟨.replicate 32 b, List.length_replicate⟩

/-- The key with the given bytes; callers pass 32 bytes (`Pubkey::new_from_array`). -/
def Pubkey.ofBytes (l : List UInt8) : Pubkey :=
  if h : l.length = 32 then ⟨l, h⟩ else .replicate 0

@[simp] theorem Pubkey.ofBytes_bytes (k : Pubkey) : .ofBytes k.bytes = k := by
  simp [Pubkey.ofBytes]

theorem Pubkey.bytes_ofBytes {l : List UInt8} (h : l.length = 32) :
    (Pubkey.ofBytes l).bytes = l := by
  simp [Pubkey.ofBytes, h]

/-- The system program, owner of accounts that belong to nobody else. -/
def systemProgramId : Pubkey := .replicate 0

/-- There are finitely many addresses, so sums over all accounts exist. -/
instance : Finite Pubkey := by
  let digits : Pubkey → Fin 32 → Fin 256 := fun k i =>
    (k.bytes.get (Fin.cast k.length_eq.symm i)).toFin
  refine Finite.of_injective digits ?_
  intro a b h
  apply Pubkey.ext
  apply List.ext_get (by simp)
  intro n ha hb
  have hn := congrFun h ⟨n, by simpa using ha⟩
  exact UInt8.toFin_inj.mp hn

noncomputable instance : Fintype Pubkey := Fintype.ofFinite Pubkey

/-! ## Errors -/

inductive ProgramError
  | custom (code : UInt32)
  | invalidArgument
  | invalidInstructionData
  | invalidAccountData
  | accountDataTooSmall
  | insufficientFunds
  | incorrectProgramId
  | missingRequiredSignature
  | accountAlreadyInitialized
  | uninitializedAccount
  | notEnoughAccountKeys
  | accountBorrowFailed
  | invalidSeeds
  | illegalOwner
  | borshIoError
  | unsupportedSysvar
deriving DecidableEq, Repr

/-- How an instruction stops without success: it returns an error, it panics, or the runtime
rejects what it did to accounts of other programs. -/
inductive Fault
  | err (e : ProgramError)
  | panic
  | rejected
deriving DecidableEq, Repr

instance : Coe ProgramError Fault := ⟨.err⟩

/-! ## Account lists and the account store -/

/-- One entry of an instruction's account list. -/
structure AccountMeta where
  key : Pubkey
  isSigner : Bool
deriving DecidableEq

/-- What the runtime keeps for one address. -/
@[ext] structure RuntimeAccount where
  lamports : UInt64
  owner : Pubkey
  data : List UInt8
deriving DecidableEq

/-- The account store: every address has an account, possibly an empty one. -/
abbrev Bank := Pubkey → RuntimeAccount

namespace Bank

def setData (s : Bank) (k : Pubkey) (data : List UInt8) : Bank :=
  Function.update s k { s k with data := data }

def setLamports (s : Bank) (k : Pubkey) (lamports : UInt64) : Bank :=
  Function.update s k { s k with lamports := lamports }

variable (s : Bank) (k k' : Pubkey)

@[simp] theorem setData_same (d : List UInt8) : setData s k d k = { s k with data := d } := by
  simp [setData]

theorem setData_of_ne {k k' : Pubkey} (h : k' ≠ k) (d : List UInt8) : setData s k d k' = s k' := by
  simp [setData, h]

@[simp] theorem setData_self : setData s k (s k).data = s := by
  simp [setData]

@[simp] theorem setLamports_same (x : UInt64) :
    setLamports s k x k = { s k with lamports := x } := by
  simp [setLamports]

theorem setLamports_of_ne {k k' : Pubkey} (h : k' ≠ k) (x : UInt64) :
    setLamports s k x k' = s k' := by
  simp [setLamports, h]

@[simp] theorem setData_owner (d : List UInt8) : (setData s k d k').owner = (s k').owner := by
  by_cases h : k' = k
  · subst h; simp
  · rw [setData_of_ne s h]

@[simp] theorem setData_lamports (d : List UInt8) :
    (setData s k d k').lamports = (s k').lamports := by
  by_cases h : k' = k
  · subst h; simp
  · rw [setData_of_ne s h]

@[simp] theorem setLamports_owner (x : UInt64) : (setLamports s k x k').owner = (s k').owner := by
  by_cases h : k' = k
  · subst h; simp
  · rw [setLamports_of_ne s h]

@[simp] theorem setLamports_data (x : UInt64) : (setLamports s k x k').data = (s k').data := by
  by_cases h : k' = k
  · subst h; simp
  · rw [setLamports_of_ne s h]

end Bank

def nextAccountInfo : List AccountMeta → Except Fault (AccountMeta × List AccountMeta)
  | [] => .error ProgramError.notEnoughAccountKeys
  | a :: rest => .ok (a, rest)

@[simp] theorem nextAccountInfo_eq_ok {l : List AccountMeta}
    {p : AccountMeta × List AccountMeta} : nextAccountInfo l = .ok p ↔ l = p.1 :: p.2 := by
  cases l with
  | nil => simp [nextAccountInfo]
  | cons => simp [nextAccountInfo, Prod.ext_iff, eq_comm]

theorem nextAccountInfo_bind_eq_ok {β : Type} {l : List AccountMeta}
    {f : AccountMeta × List AccountMeta → Except Fault β} {b : β} :
    (nextAccountInfo l >>= f) = .ok b ↔ ∃ a it, l = a :: it ∧ f (a, it) = .ok b := by
  cases l with
  | nil => simp [nextAccountInfo]
  | cons => simp [nextAccountInfo]

def keys (accounts : List AccountMeta) : List Pubkey := accounts.map AccountMeta.key

@[simp] theorem keys_cons (a : AccountMeta) (l : List AccountMeta) :
    keys (a :: l) = a.key :: keys l := rfl

/-! ## Checked arithmetic on `u64` -/

def checkedAdd (a b : UInt64) : Option UInt64 :=
  if a.toNat + b.toNat < 2 ^ 64 then some (a + b) else none

def checkedSub (a b : UInt64) : Option UInt64 :=
  if b ≤ a then some (a - b) else none

theorem toNat_pos_of_ne_zero {x : UInt64} (h : x ≠ 0) : 0 < x.toNat :=
  Nat.pos_of_ne_zero fun h0 => h (UInt64.toNat_inj.mp h0)

theorem checkedAdd_eq_some {a b c : UInt64} (h : checkedAdd a b = some c) :
    c.toNat = a.toNat + b.toNat := by
  unfold checkedAdd at h
  split at h
  next hlt =>
    cases h
    rw [UInt64.toNat_add, Nat.mod_eq_of_lt hlt]
  next => cases h

theorem checkedSub_eq_some {a b c : UInt64} (h : checkedSub a b = some c) :
    b.toNat ≤ a.toNat ∧ c.toNat = a.toNat - b.toNat := by
  unfold checkedSub at h
  split at h
  next hle =>
    cases h
    exact ⟨UInt64.le_iff_toNat_le.mp hle, UInt64.toNat_sub_of_le _ _ hle⟩
  next => cases h

end SolanaPrograms.Runtime
