import SolanaPrograms.Token.State

/-!
# The state codecs keep every byte

A value that was written is read again. What was read and is written back leaves every byte as it
was: the encodings of the fields are the only ones that are accepted, and the body of an absent
option is not touched.
-/

namespace SolanaPrograms.Token

open Outcome Bytes SolanaPrograms.Runtime List Pubkey

variable {d : List UInt8}

/-! ## Fields -/

theorem u64Bytes_u64OfBytes (h : d.length = 8) : u64Bytes (u64OfBytes d) = d := by
  have hlt : ofLe d < 2 ^ 64 := by simpa [h] using ofLe_lt d
  rw [u64Bytes, u64OfBytes, UInt64.toNat_ofNat_of_lt' hlt, ← h, leBytes_ofLe]

theorem singleton_headD (h : d.length = 1) : [d.headD 0] = d := by
  obtain ⟨x, rfl⟩ := length_eq_one_iff.mp h
  rfl

theorem packBool_of_unpackBool {x : Bool} (h : unpackBool d = .ok x) : packBool x = d := by
  unfold unpackBool at h
  split_ifs at h with h₀ h₁ <;> cases h
  · exact h₀.symm
  · exact h₁.symm

theorem AccountState.toByte_of_ofByte {x : UInt8} {st : AccountState} (h : ofByte x = .ok st) :
    st.toByte = x := by
  unfold ofByte at h
  split_ifs at h with h₀ h₁ h₂ <;> cases h
  · exact h₀.symm
  · exact h₁.symm
  · exact h₂.symm

/-- An absent option keeps its body, and a present one has the bytes it was read from. -/
theorem packCOption_of_unpackCOption {α : Type} {toBytes : α → List UInt8}
    {ofBytes : List UInt8 → α} {o : Option α}
    (hround : toBytes (ofBytes (d.drop 4)) = d.drop 4) (h : unpackCOption ofBytes d = .ok o) :
    packCOption toBytes o d = d := by
  unfold unpackCOption at h
  split_ifs at h with hnone hsome <;> cases h
  · rw [packCOption, ← hnone, take_append_drop]
  · rw [packCOption, hround, ← hsome, take_append_drop]

theorem packCOptionKey_of_unpack (hlen : d.length = 36) {o : Option Pubkey}
    (h : unpackCOptionKey d = .ok o) : packCOptionKey o d = d :=
  packCOption_of_unpackCOption (bytes_ofBytes (by simp [hlen])) h

/-! ## Values -/

/-- What was packed is read again, and what was read is packed into the bytes it was read from. -/
def Exact (α : Type) [Pack α] : Prop :=
  (∀ (v : α) (b : List UInt8), b.length = Pack.len α →
    ∃ out, Pack.pack v b = .ok out ∧ Pack.unpackUnchecked α out = .ok v ∧
      (Pack.isInitialized v = true → Pack.unpack α out = .ok v)) ∧
  ∀ (b : List UInt8) (v : α), Pack.unpackUnchecked α b = .ok v → Pack.pack v b = .ok b

/-- The first half holds of every lawful codec. -/
theorem exact_of_packIntoSlice {α : Type} [LawfulPack α]
    (h : ∀ (b : List UInt8) (v : α), b.length = Pack.len α → Pack.unpackFromSlice b = .ok v →
      Pack.packIntoSlice v b = b) : Exact α := by
  refine ⟨fun v b hlen => ⟨_, Pack.pack_eq_ok.mpr ⟨hlen, rfl⟩, ?_, ?_⟩, fun b v hv => ?_⟩
  · exact Pack.unpackUnchecked_packIntoSlice hlen
  · exact Pack.unpack_packIntoSlice hlen
  · obtain ⟨hlen, hread⟩ := Pack.unpackUnchecked_eq_ok.mp hv
    exact Pack.pack_eq_ok.mpr ⟨hlen, (h b v hlen hread).symm⟩

theorem Mint.exact : Exact Mint := by
  refine exact_of_packIntoSlice fun b v (hlen : b.length = 82) h => ?_
  change Mint.unpackFromSlice b = .ok v at h
  simp only [Mint.unpackFromSlice, splitFields, Mint.layout, checks] at h
  obtain ⟨_, hmint, _, hinit, _, hfreeze, rfl⟩ := h
  refine .trans ?_ (flatten_splitFields Mint.layout hlen)
  change Mint.packIntoSlice _ b = _
  simp only [Mint.packIntoSlice, splitFields, Mint.layout]
  rw [packCOptionKey_of_unpack (by simp [hlen]) hmint, u64Bytes_u64OfBytes (by simp [hlen]),
    singleton_headD (by simp [hlen]), packBool_of_unpackBool hinit,
    packCOptionKey_of_unpack (by simp [hlen]) hfreeze]

theorem Account.exact : Exact Account := by
  refine exact_of_packIntoSlice fun b v (hlen : b.length = 165) h => ?_
  change Account.unpackFromSlice b = .ok v at h
  simp only [Account.unpackFromSlice, splitFields, Account.layout, checks] at h
  obtain ⟨_, hdelegate, _, hstate, _, hnative, _, hclose, rfl⟩ := h
  refine .trans ?_ (flatten_splitFields Account.layout hlen)
  change Account.packIntoSlice _ b = _
  simp only [Account.packIntoSlice, splitFields, Account.layout]
  have hreserve := packCOption_of_unpackCOption (u64Bytes_u64OfBytes (by simp [hlen])) hnative
  rw [bytes_ofBytes (by simp [hlen]), bytes_ofBytes (by simp [hlen]),
    u64Bytes_u64OfBytes (by simp [hlen]), packCOptionKey_of_unpack (by simp [hlen]) hdelegate,
    AccountState.toByte_of_ofByte hstate, singleton_headD (by simp [hlen]), packCOptionU64, hreserve,
    u64Bytes_u64OfBytes (by simp [hlen]), packCOptionKey_of_unpack (by simp [hlen]) hclose]

theorem Multisig.flatten_splitSigners (h : d.length = 352) :
    ((splitSigners d).map bytes).flatten = d := by
  refine .trans ?_ (flatten_splitFields (.replicate maxSigners 32) h)
  simp [splitSigners, maxSigners, List.replicate, splitFields, bytes_ofBytes, h]

theorem Multisig.exact : Exact Multisig := by
  refine exact_of_packIntoSlice fun b v (hlen : b.length = 355) h => ?_
  change Multisig.unpackFromSlice b = .ok v at h
  simp only [Multisig.unpackFromSlice, splitFields, Multisig.layout, checks] at h
  obtain ⟨_, hinit, rfl⟩ := h
  refine .trans ?_ (flatten_splitFields Multisig.layout hlen)
  change Multisig.packIntoSlice _ b = _
  simp only [Multisig.packIntoSlice, splitFields, Multisig.layout]
  rw [singleton_headD (by simp [hlen]), singleton_headD (by simp [hlen]),
    packBool_of_unpackBool hinit, Multisig.flatten_splitSigners (by simp [hlen])]

/-- The three codecs of the program. -/
theorem state_codecs_exact : Exact Mint ∧ Exact Account ∧ Exact Multisig :=
  ⟨Mint.exact, Account.exact, Multisig.exact⟩

end SolanaPrograms.Token
