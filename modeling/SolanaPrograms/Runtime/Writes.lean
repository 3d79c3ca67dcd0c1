import SolanaPrograms.Runtime.Machine
import SolanaPrograms.Runtime.Pack

/-!
# Packed writes and who owns the account

Handlers check the owner of an account only in some places. The runtime makes up for it: a
write that changes the value kept in a foreign account is rejected (`owned_of_write`), so an
accepted write either concerns an account of the program or did nothing (`single_write`).
-/

namespace SolanaPrograms.Runtime

open Outcome Pack Bank List

/-- The store differs at most at the given accounts. -/
def SameExcept (s s' : Bank) (changed : List Pubkey) : Prop := ∀ k, k ∉ changed → s' k = s k

def SameFunds (s s' : Bank) (k : Pubkey) : Prop :=
  (s' k).owner = (s k).owner ∧ (s' k).lamports = (s k).lamports

/-- What holds wherever nothing changed holds everywhere, if it holds at the given accounts. -/
theorem SameExcept.forall {s s' : Bank} {changed : List Pubkey} {P : Pubkey → Prop}
    (h : SameExcept s s' changed) (hchanged : changed.Forall P)
    (hkept : ∀ k, k ∉ changed → s' k = s k → P k) (k : Pubkey) : P k := by
  by_cases hk : k ∈ changed
  · exact forall_iff_forall_mem.mp hchanged k hk
  · exact hkept k hk (h k hk)

section Writes

variable {α : Type} [LawfulPack α] {id k : Pubkey} {s s' : Bank} {v v' : α}

/-- A write that changes the value is only accepted in an account of the program. -/
theorem owned_of_write (hr : Respects id (s k) (s' k))
    (hread : unpackUnchecked α (s k).data = .ok v)
    (hdata : (s' k).data = packIntoSlice v' (s k).data) (hne : v' ≠ v) : (s k).owner = id := by
  rcases hr with howner | ⟨_, hsame, _⟩
  · exact howner
  · have hlen := (unpackUnchecked_eq_ok.mp hread).1
    have hread' : unpackUnchecked α (s' k).data = .ok v' := by
      rw [hdata, unpackUnchecked_packIntoSlice hlen]
    rw [hsame, hread] at hread'
    exact absurd (Except.ok.inj hread').symm hne

theorem stateAt_of_uninitialized {v : α} (hread : unpackUnchecked α (s k).data = .ok v)
    (huninit : isInitialized v = false) : stateAt α id s k = none := by
  refine stateAt_eq_none.mpr fun w _ hw => ?_
  obtain ⟨hw, hinit⟩ := unpack_eq_ok.mp hw
  rw [hread] at hw
  cases hw
  rw [huninit] at hinit
  cases hinit

theorem setData_sameExcept (s : Bank) (k : Pubkey) (d : List UInt8) :
    SameExcept s (s.setData k d) [k] := by
  intro k' hk'
  exact setData_of_ne s (by simpa using hk') d

theorem setData_sameFunds (s : Bank) (k k' : Pubkey) (d : List UInt8) :
    SameFunds s (s.setData k d) k' :=
  ⟨setData_owner s k k' d, setData_lamports s k k' d⟩

theorem single_write (hread : unpack α (s k).data = .ok v)
    (hw : packInto s k v' = .ok s') (hinit : isInitialized v' = true)
    (hr : Respects id (s k) (s' k)) :
    (s' = s ∧ stateAt α id s k = none) ∨
      (stateAt α id s k = some v ∧ stateAt α id s' k = some v' ∧ SameFunds s s' k ∧
        SameExcept s s' [k]) := by
  obtain ⟨hlen, rfl⟩ := packInto_eq_ok.mp hw
  by_cases howner : (s k).owner = id
  · right
    refine ⟨stateAt_eq_some.mpr ⟨howner, hread⟩, ?_, setData_sameFunds s k k _,
      setData_sameExcept s k _⟩
    exact stateAt_of_write (by simpa using howner) hlen (by simp) hinit
  · left
    refine ⟨?_, stateAt_eq_none.mpr fun _ h => absurd h howner⟩
    exact (hr.owned_or_same.resolve_left howner).2

/-- A first write: the old value is not initialised, the new one is, so the account is the
program's. -/
theorem first_write (hread : unpackUnchecked α (s k).data = .ok v)
    (huninit : isInitialized v = false) (hinit : isInitialized v' = true)
    (hw : packInto s k v' = .ok s') (hr : Respects id (s k) (s' k)) :
    (s k).owner = id ∧ stateAt α id s k = none ∧ stateAt α id s' k = some v' ∧
      SameFunds s s' k ∧ SameExcept s s' [k] := by
  obtain ⟨hlen, rfl⟩ := packInto_eq_ok.mp hw
  have howner : (s k).owner = id := by
    have hdata := congrArg RuntimeAccount.data
      (setData_same s k (packIntoSlice v' (s k).data))
    refine owned_of_write hr hread hdata fun heq => ?_
    rw [heq, huninit] at hinit
    cases hinit
  exact ⟨howner, stateAt_of_uninitialized hread huninit,
    stateAt_of_write (by simpa using howner) hlen (by simp) hinit, setData_sameFunds s k k _,
    setData_sameExcept s k _⟩

theorem double_write {β : Type} [LawfulPack β] {k₁ k₂ : Pubkey} {v : α} {w : β} {s₁ : Bank}
    (hne : k₁ ≠ k₂) (h₁ : packInto s k₁ v = .ok s₁) (h₂ : packInto s₁ k₂ w = .ok s') :
    (s' k₁).data = packIntoSlice v (s k₁).data ∧
      (s' k₂).data = packIntoSlice w (s k₂).data ∧
      (∀ k, SameFunds s s' k) ∧ SameExcept s s' [k₁, k₂] := by
  obtain ⟨_, rfl⟩ := packInto_eq_ok.mp h₁
  obtain ⟨_, rfl⟩ := packInto_eq_ok.mp h₂
  refine ⟨?_, ?_, fun k => ⟨by simp, by simp⟩, ?_⟩
  · rw [setData_of_ne _ hne]
    simp
  · simp [setData_of_ne s hne.symm]
  · intro k hk
    simp only [mem_cons, not_mem_nil, or_false, not_or] at hk
    rw [setData_of_ne _ hk.2, setData_of_ne _ hk.1]

end Writes

/-! ## Views while the rest of the chain moves -/

section Drift

variable {α : Type} [Pack α] {id k : Pubkey} {s s' : Bank}

theorem stateAt_of_owner_ne (h : (s k).owner ≠ id) : stateAt α id s k = none :=
  stateAt_eq_none.mpr fun _ howner => absurd howner h

/-- Where zero-filled data is not initialised, other programs do not change what the program
keeps, and they do not take lamports from it. -/
theorem stateAt_of_drift
    (hzero : ∀ {data : List UInt8} {v : α}, (∀ b ∈ data, b = 0) → unpack α data ≠ .ok v)
    (hd : Program.Drift id (s k) (s' k)) :
    stateAt α id s' k = stateAt α id s k ∧
      ∀ v, stateAt α id s k = some v → (s k).lamports ≤ (s' k).lamports := by
  cases hd with
  | kept howner hdata hlamports => exact ⟨stateAt_congr howner hdata, fun _ _ => hlamports⟩
  | entered hpre _ hdata =>
    have hnone : stateAt α id s' k = none := stateAt_eq_none.mpr fun v _ => hzero
      (by rw [hdata]; exact fun b hb => eq_of_mem_replicate hb)
    rw [hnone, stateAt_of_owner_ne hpre]
    exact ⟨rfl, fun v hv => by cases hv⟩
  | outside hpre hpost =>
    rw [stateAt_of_owner_ne hpre, stateAt_of_owner_ne hpost]
    exact ⟨rfl, fun v hv => by cases hv⟩
  | left hpost hdata =>
    have hnone : stateAt α id s k = none := stateAt_eq_none.mpr fun v _ => hzero hdata
    rw [hnone, stateAt_of_owner_ne hpost]
    exact ⟨rfl, fun v hv => by cases hv⟩

end Drift

end SolanaPrograms.Runtime
