import SolanaPrograms.Runtime.Account
import SolanaPrograms.Lib.Bytes

/-!
# Fixed-size account state

`solana_program`'s `Pack` trait: a state type of fixed length that is read from and written
into account data. `packIntoSlice` takes the bytes that are already there, because an
implementation may leave some of them alone (an absent `COption` keeps its old body).

`LawfulPack` states what the codecs of the programs are proved to satisfy; the three entry
points `unpackUnchecked`, `unpack` and `pack` then round-trip (`unpack_packIntoSlice`).
-/

namespace SolanaPrograms.Runtime

open Outcome Bytes ProgramError Pubkey

class Pack (α : Type) where
  len : Nat
  isInitialized : α → Bool
  unpackFromSlice : List UInt8 → Except Fault α
  packIntoSlice : α → List UInt8 → List UInt8

namespace Pack

variable {α : Type} [Pack α]

def unpackUnchecked (α : Type) [Pack α] (src : List UInt8) : Except Fault α := do
  failIf (src.length ≠ len α) invalidAccountData
  unpackFromSlice src

def unpack (α : Type) [Pack α] (src : List UInt8) : Except Fault α := do
  let value ← unpackUnchecked α src
  failIf (isInitialized value = false) uninitializedAccount
  return value

/-- `Pack::pack`: the bytes of `dst` after the call. -/
def pack (src : α) (dst : List UInt8) : Except Fault (List UInt8) := do
  failIf (dst.length ≠ len α) invalidAccountData
  return packIntoSlice src dst

variable {src : List UInt8} {v : α}

theorem unpackUnchecked_eq_ok :
    unpackUnchecked α src = .ok v ↔ src.length = len α ∧ unpackFromSlice src = .ok v := by
  unfold unpackUnchecked
  rw [failIf_bind_eq_ok, not_not]

theorem unpack_eq_ok :
    unpack α src = .ok v ↔ unpackUnchecked α src = .ok v ∧ isInitialized v = true := by
  unfold unpack
  constructor
  · intro h
    obtain ⟨_, hw, h⟩ := bind_eq_ok.mp h
    obtain ⟨hinit, h⟩ := failIf_bind_eq_ok.mp h
    cases pure_eq_ok.mp h
    exact ⟨hw, Bool.not_eq_false _ ▸ hinit⟩
  · rintro ⟨hv, hinit⟩
    exact bind_eq_ok.mpr ⟨v, hv, failIf_bind_eq_ok.mpr ⟨by simp [hinit], rfl⟩⟩

theorem unpack_length (h : unpack α src = .ok v) : src.length = len α :=
  (unpackUnchecked_eq_ok.mp (unpack_eq_ok.mp h).1).1

theorem unpack_isInitialized (h : unpack α src = .ok v) : isInitialized v = true :=
  (unpack_eq_ok.mp h).2

theorem pack_eq_ok {src : α} {dst out : List UInt8} :
    pack src dst = .ok out ↔ dst.length = len α ∧ out = packIntoSlice src dst := by
  unfold pack
  rw [failIf_bind_eq_ok, not_not, pure_eq_ok, eq_comm (b := out)]

end Pack

class LawfulPack (α : Type) extends Pack α where
  length_packIntoSlice : ∀ (v : α) {dst : List UInt8}, dst.length = len →
    (packIntoSlice v dst).length = len
  unpackFromSlice_packIntoSlice : ∀ (v : α) {dst : List UInt8}, dst.length = len →
    unpackFromSlice (packIntoSlice v dst) = .ok v

namespace Pack

variable {α : Type} [LawfulPack α]

variable {v : α} {dst : List UInt8}

theorem unpackUnchecked_packIntoSlice (h : dst.length = len α) :
    unpackUnchecked α (packIntoSlice v dst) = .ok v :=
  unpackUnchecked_eq_ok.mpr
    ⟨LawfulPack.length_packIntoSlice v h, LawfulPack.unpackFromSlice_packIntoSlice v h⟩

theorem unpack_packIntoSlice (h : dst.length = len α) (hinit : isInitialized v = true) :
    unpack α (packIntoSlice v dst) = .ok v :=
  unpack_eq_ok.mpr ⟨unpackUnchecked_packIntoSlice h, hinit⟩

end Pack

/-- `X::pack(value, &mut info.data.borrow_mut())`. -/
def packInto {α : Type} [Pack α] (s : Bank) (k : Pubkey) (value : α) : Except Fault Bank := do
  let data ← Pack.pack value (s k).data
  return s.setData k data

theorem packInto_eq_ok {α : Type} [Pack α] {s s' : Bank} {k : Pubkey} {v : α} :
    packInto s k v = .ok s' ↔ (s k).data.length = Pack.len α ∧
      s' = s.setData k (Pack.packIntoSlice v (s k).data) := by
  unfold packInto
  constructor
  · intro h
    obtain ⟨_, hdata, h⟩ := bind_eq_ok.mp h
    obtain ⟨hlen, rfl⟩ := Pack.pack_eq_ok.mp hdata
    exact ⟨hlen, (pure_eq_ok.mp h).symm⟩
  · rintro ⟨hlen, rfl⟩
    exact bind_eq_ok.mpr ⟨_, Pack.pack_eq_ok.mpr ⟨hlen, rfl⟩, rfl⟩

/-! ## Typed views of the store -/

/-- The initialised `α` the program `id` keeps at `k`, if there is one. -/
def stateAt (α : Type) [Pack α] (id : Pubkey) (s : Bank) (k : Pubkey) : Option α :=
  if (s k).owner = id then (Pack.unpack α (s k).data).toOption else none

section StateAt

variable {α : Type} {id k : Pubkey} {s s' : Bank}

theorem stateAt_eq_some [Pack α] {v : α} :
    stateAt α id s k = some v ↔ (s k).owner = id ∧ Pack.unpack α (s k).data = .ok v := by
  unfold stateAt
  split
  next h => cases hu : Pack.unpack α (s k).data <;> simp [Except.toOption, h]
  next h => simp [h]

theorem stateAt_eq_none [Pack α] :
    stateAt α id s k = none ↔ ∀ v, (s k).owner = id → Pack.unpack α (s k).data ≠ .ok v := by
  rw [Option.eq_none_iff_forall_ne_some]
  exact forall_congr' fun v => by rw [ne_eq, stateAt_eq_some, not_and]

theorem stateAt_congr [Pack α] (howner : (s' k).owner = (s k).owner)
    (hdata : (s' k).data = (s k).data) : stateAt α id s' k = stateAt α id s k := by
  simp [stateAt, howner, hdata]

theorem stateAt_of_write [LawfulPack α] {v : α} (howner : (s' k).owner = id)
    (hlen : (s k).data.length = Pack.len α) (hdata : (s' k).data = Pack.packIntoSlice v (s k).data)
    (hinit : Pack.isInitialized v = true) : stateAt α id s' k = some v :=
  stateAt_eq_some.mpr ⟨howner, by rw [hdata, Pack.unpack_packIntoSlice hlen hinit]⟩

end StateAt

/-! ## Fields shared by the codecs -/

def u64Bytes (x : UInt64) : List UInt8 := leBytes 8 x.toNat

def u64OfBytes (l : List UInt8) : UInt64 := UInt64.ofNat (ofLe l)

@[simp] theorem length_u64Bytes (x : UInt64) : (u64Bytes x).length = 8 := length_leBytes _ _

@[simp] theorem u64OfBytes_u64Bytes (x : UInt64) : u64OfBytes (u64Bytes x) = x := by
  have hx : x.toNat < 256 ^ 8 := x.toNat_lt
  rw [u64OfBytes, u64Bytes, ofLe_leBytes_of_lt hx, UInt64.ofNat_toNat]

/-- A flag byte: 0 or 1, anything else is `InvalidAccountData`. -/
def unpackBool (b : List UInt8) : Except Fault Bool :=
  if b = [0] then .ok false else if b = [1] then .ok true else .error invalidAccountData

/-- `flag as u8`. -/
def packBool (b : Bool) : List UInt8 := if b then [1] else [0]

@[simp] theorem length_packBool (b : Bool) : (packBool b).length = 1 := by
  cases b <;> rfl

@[simp] theorem unpackBool_packBool (b : Bool) : unpackBool (packBool b) = .ok b := by
  cases b <;> rfl

section COption

variable {α : Type} (toBytes : α → List UInt8) (ofBytes : List UInt8 → α)

/-- A `COption` in account data: four tag bytes, then a body that `None` does not touch. -/
def packCOption (o : Option α) (dst : List UInt8) : List UInt8 :=
  match o with
  | some a => [1, 0, 0, 0] ++ toBytes a
  | none => [0, 0, 0, 0] ++ dst.drop 4

/-- Reading a `COption`; tags other than 0 and 1 are `InvalidAccountData`. -/
def unpackCOption (src : List UInt8) : Except Fault (Option α) :=
  if src.take 4 = [0, 0, 0, 0] then .ok none
  else if src.take 4 = [1, 0, 0, 0] then .ok (some (ofBytes (src.drop 4)))
  else .error invalidAccountData

variable {dst : List UInt8}

theorem length_packCOption {n : Nat} (hto : ∀ a, (toBytes a).length = n) (o : Option α)
    (h : dst.length = n + 4) : (packCOption toBytes o dst).length = n + 4 := by
  cases o with
  | none => simp [packCOption, h]
  | some => simp [packCOption, hto]

theorem unpackCOption_packCOption (hround : ∀ a, ofBytes (toBytes a) = a) (o : Option α)
    (dst : List UInt8) : unpackCOption ofBytes (packCOption toBytes o dst) = .ok o := by
  cases o with
  | none => simp [packCOption, unpackCOption]
  | some => simp [packCOption, unpackCOption, hround]

end COption

def packCOptionKey : Option Pubkey → List UInt8 → List UInt8 := packCOption bytes

def unpackCOptionKey : List UInt8 → Except Fault (Option Pubkey) := unpackCOption .ofBytes

def packCOptionU64 : Option UInt64 → List UInt8 → List UInt8 := packCOption u64Bytes

def unpackCOptionU64 : List UInt8 → Except Fault (Option UInt64) := unpackCOption u64OfBytes

theorem length_packCOptionKey (o : Option Pubkey) (h : dst.length = 36) :
    (packCOptionKey o dst).length = 36 :=
  length_packCOption bytes length_eq o h

theorem length_packCOptionU64 (o : Option UInt64) (h : dst.length = 12) :
    (packCOptionU64 o dst).length = 12 :=
  length_packCOption u64Bytes length_u64Bytes o h

@[simp] theorem unpackCOptionKey_pack (o : Option Pubkey) (dst : List UInt8) :
    unpackCOptionKey (packCOptionKey o dst) = .ok o :=
  unpackCOption_packCOption _ _ ofBytes_bytes o dst

@[simp] theorem unpackCOptionU64_pack (o : Option UInt64) (dst : List UInt8) :
    unpackCOptionU64 (packCOptionU64 o dst) = .ok o :=
  unpackCOption_packCOption _ _ u64OfBytes_u64Bytes o dst

end SolanaPrograms.Runtime
