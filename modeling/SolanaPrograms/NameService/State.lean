import SolanaPrograms.Lib.Bytes
import SolanaPrograms.Runtime.Account

/-!
# State of the name service

A name record is an account that starts with a `NameRecordHeader`. Its address is derived from the
hashed name, the class and the parent, written one after the other and cut into seeds of 32 bytes.

How the runtime derives an address from seeds is a parameter (`Environment.derive`): a partial
function of the concatenated seeds, without a value where the hash happens to be a public key.
-/

namespace SolanaPrograms.NameService

open Outcome Bytes SolanaPrograms.Runtime List Pubkey

/-! ## The header -/

structure NameRecordHeader where
  parentName : Pubkey
  owner : Pubkey
  classKey : Pubkey
deriving DecidableEq

/-- `Pubkey::default()`, which is also the address of the system program. -/
def defaultKey : Pubkey := systemProgramId

namespace NameRecordHeader

def len : Nat := 96

def serialize (self : NameRecordHeader) : List UInt8 :=
  self.parentName.bytes ++ self.owner.bytes ++ self.classKey.bytes

/-- `unpack_from_slice`: bytes behind the header are not looked at. -/
def unpackFromSlice (src : List UInt8) : Except Fault NameRecordHeader := do
  failIf (src.length < len) (.err .invalidAccountData)
  return ⟨.ofBytes (slice src 0 32), .ofBytes (slice src 32 32), .ofBytes (slice src 64 32)⟩

/-- `pack_into_slice`: the bytes of `dst` after the call. -/
def packIntoSlice (self : NameRecordHeader) (dst : List UInt8) : Except Fault (List UInt8) := do
  failIf (dst.length < len) .panic
  return splice dst 0 self.serialize

/-- The header of an account that was never written, or deleted. -/
def blank : NameRecordHeader := ⟨defaultKey, defaultKey, defaultKey⟩

@[simp] theorem length_serialize (h : NameRecordHeader) : h.serialize.length = 96 := by
  simp [serialize]

variable {h : NameRecordHeader}

theorem unpackFromSlice_eq_ok {src : List UInt8} :
    unpackFromSlice src = .ok h ↔ 96 ≤ src.length ∧ slice src 0 96 = h.serialize := by
  have hparts : slice src 0 96 = slice src 0 32 ++ slice src 32 32 ++ slice src 64 32 := by
    rw [slice_append_slice src 0 32 32, slice_append_slice src 0 64 32]
  rw [unpackFromSlice, failIf_bind_eq_ok, pure_eq_ok, not_lt, len]
  refine and_congr_right fun hlen => ?_
  have h₀ : (slice src 0 32).length = 32 := length_slice (by omega)
  have h₁ : (slice src 32 32).length = 32 := length_slice (by omega)
  have h₂ : (slice src 64 32).length = 32 := length_slice (by omega)
  rw [hparts]
  constructor
  · rintro rfl
    simp only [serialize, bytes_ofBytes h₀, bytes_ofBytes h₁, bytes_ofBytes h₂]
  · intro heq
    obtain ⟨heq, hclass⟩ := append_inj' heq (by simp [h₂])
    obtain ⟨hparent, howner⟩ := append_inj' heq (by simp [h₁])
    rw [hparent, howner, hclass]
    simp

theorem packIntoSlice_ok {dst out : List UInt8} (hpack : h.packIntoSlice dst = .ok out) :
    unpackFromSlice out = .ok h ∧ out.drop 96 = dst.drop 96 := by
  rw [packIntoSlice, failIf_bind_eq_ok, pure_eq_ok, not_lt, len] at hpack
  obtain ⟨_, rfl⟩ := hpack
  have hout : splice dst 0 h.serialize = h.serialize ++ dst.drop 96 := by simp [splice]
  refine ⟨unpackFromSlice_eq_ok.mpr ⟨by simp [hout], ?_⟩, ?_⟩
  · rw [hout, slice_append_left (by simp), slice_self (by simp)]
  · rw [hout, ← h.length_serialize, drop_left]

theorem length_packIntoSlice {dst out : List UInt8} (hpack : h.packIntoSlice dst = .ok out) :
    out.length = dst.length := by
  rw [packIntoSlice, failIf_bind_eq_ok, pure_eq_ok, not_lt, len] at hpack
  obtain ⟨hlen, rfl⟩ := hpack
  exact length_splice (by simpa using hlen)

theorem unpackFromSlice_of_zero {src : List UInt8} (hh : unpackFromSlice src = .ok h)
    (hzero : ∀ b ∈ src, b = 0) : h = blank := by
  obtain ⟨hlen, _⟩ := unpackFromSlice_eq_ok.mp hh
  have hblank : unpackFromSlice src = .ok blank := by
    refine unpackFromSlice_eq_ok.mpr ⟨hlen, ?_⟩
    have hall : slice src 0 96 = .replicate 96 0 := by
      rw [eq_replicate_iff]
      exact ⟨length_slice (by omega), fun b hb =>
        hzero b (mem_of_mem_drop (mem_of_mem_take hb))⟩
    rw [hall]
    rfl
  exact Except.ok.inj (hh.symm.trans hblank)

end NameRecordHeader

/-- `write_data`: the bytes of the account after the call. A write over the end panics. -/
def writeData (accountData input : List UInt8) (offset : Nat) : Except Fault (List UInt8) := do
  failIf (accountData.length < offset + input.length) .panic
  return splice accountData offset input

/-! ## Addresses -/

/-- What the name service takes from the runtime. -/
structure Environment where
  programId : Pubkey
  programId_ne : programId ≠ systemProgramId
  /-- The address for concatenated seeds. -/
  derive : List UInt8 → Option Pubkey

namespace Environment

variable (env : Environment)

/-- `Pubkey::create_program_address`: at most 16 seeds of at most 32 bytes. -/
def createProgramAddress (seeds : List (List UInt8)) : Option Pubkey :=
  if 16 < seeds.length ∨ ∃ s ∈ seeds, 32 < s.length then none else env.derive seeds.flatten

/-- The bump seeds in the order in which they are tried. -/
def bumps : List UInt8 := (range 255).map fun i => UInt8.ofNat (255 - i)

/-- `Pubkey::find_program_address`, without the panic. -/
def findProgramAddress (seeds : List (List UInt8)) : Option (Pubkey × UInt8) :=
  bumps.findSome? fun bump =>
    (env.createProgramAddress (seeds ++ [[bump]])).map fun address => (address, bump)

def getSeedsAndKey (hashedName : List UInt8) (nameClassOpt parentNameAddressOpt : Option Pubkey) :
    Except Fault (Pubkey × List UInt8) := do
  let nameClass := nameClassOpt.getD defaultKey
  let parentNameAddress := parentNameAddressOpt.getD defaultKey
  let seedsVec := hashedName ++ nameClass.bytes ++ parentNameAddress.bytes
  let (nameAccountKey, bump) ← okOr (env.findProgramAddress (chunks 32 seedsVec)) .panic
  return (nameAccountKey, seedsVec ++ [bump])

variable {env}

variable {a nameClass parent : Pubkey}

theorem createProgramAddress_eq_some {seeds : List (List UInt8)}
    (h : env.createProgramAddress seeds = some a) : env.derive seeds.flatten = some a := by
  unfold createProgramAddress at h
  split_ifs at h
  exact h

theorem getSeedsAndKey_ok {hashedName seeds : List UInt8}
    (h : env.getSeedsAndKey hashedName (some nameClass) (some parent) = .ok (a, seeds)) :
    env.derive seeds = some a ∧
      ∃ bump, seeds = hashedName ++ nameClass.bytes ++ parent.bytes ++ [bump] := by
  simp only [getSeedsAndKey, Option.getD_some, checks] at h
  obtain ⟨_, bump, hfind, rfl, rfl⟩ := h
  refine ⟨?_, bump, rfl⟩
  obtain ⟨_, -, hb⟩ := exists_of_findSome?_eq_some hfind
  simp only [Option.map_eq_some_iff, Prod.mk.injEq] at hb
  obtain ⟨_, hb, rfl, rfl⟩ := hb
  have hderive := createProgramAddress_eq_some hb
  rwa [flatten_append, flatten_chunks (by decide), flatten_singleton] at hderive

/-- No two of the seeds in use have one address. -/
def CollisionFree (env : Environment) (used : Set (List UInt8)) : Prop :=
  ∀ s ∈ used, ∀ t ∈ used, ∀ a, env.derive s = some a → env.derive t = some a → s = t

/-- The name, the class and the parent can be read off the concatenation. -/
theorem seeds_inj {name name' : List UInt8} {nameClass' parent' : Pubkey} {bump bump' : UInt8}
    (h : name ++ nameClass.bytes ++ parent.bytes ++ [bump] =
      name' ++ nameClass'.bytes ++ parent'.bytes ++ [bump']) :
    name = name' ∧ nameClass = nameClass' ∧ parent = parent' := by
  obtain ⟨h, -⟩ := append_inj' h rfl
  obtain ⟨h, hparent⟩ := append_inj' h (by simp)
  obtain ⟨hname, hclass⟩ := append_inj' h (by simp)
  exact ⟨hname, ext hclass, ext hparent⟩

theorem CollisionFree.getSeedsAndKey_inj {used : Set (List UInt8)} (hfree : env.CollisionFree used)
    {name name' seeds seeds' : List UInt8} {nameClass' parent' : Pubkey}
    (h : env.getSeedsAndKey name (some nameClass) (some parent) = .ok (a, seeds))
    (h' : env.getSeedsAndKey name' (some nameClass') (some parent') = .ok (a, seeds'))
    (hs : seeds ∈ used) (hs' : seeds' ∈ used) :
    name = name' ∧ nameClass = nameClass' ∧ parent = parent' := by
  obtain ⟨hd, _, rfl⟩ := getSeedsAndKey_ok h
  obtain ⟨hd', _, rfl⟩ := getSeedsAndKey_ok h'
  exact seeds_inj (hfree _ hs _ hs' a hd hd')

end Environment

end SolanaPrograms.NameService
