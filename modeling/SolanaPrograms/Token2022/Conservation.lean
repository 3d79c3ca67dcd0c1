import SolanaPrograms.Lib.Ledger
import SolanaPrograms.Token2022.Refinement

/-!
# Conservation with transfer fees

The book of token-2022 refines the abstract ledger. A token account holds its amount and the fee
withheld on it; a mint holds the fees withheld on it, in its own tokens. Wrapped SOL is left out.
Every effect on the book is then a transfer, a mint, a burn or nothing at all, so the supply of
every mint is what accounts and mint together hold of it.
-/

namespace SolanaPrograms.Token2022

open Outcome SolanaPrograms.Runtime StateWithExtensionsMut Entry Record Finset
open Token (Mint Account)
open Function (update update_of_ne update_self)

/-! ## The ledger of a book -/

def Entry.holding (k : Pubkey) (e : Entry) (m : Pubkey) : ℕ :=
  match e with
  | .vacant | .draft _ => 0
  | .account r => if r.base.mint = m then r.holds else 0
  | .mint r => if k = m then r.withheldFees else 0

def Entry.supply : Entry → ℕ
  | .mint r => r.base.supply.toNat
  | _ => 0

/-- The ledger of a book, without wrapped SOL. -/
def ledger (B : Book) : Ledger Pubkey Pubkey where
  supply m := if m = nativeMintId then 0 else (B m).supply
  holding k m := if m = nativeMintId then 0 else (B k).holding k m

/-- Accounts are marked native exactly when they hold wrapped SOL. -/
def NativeMarks (B : Book) : Prop :=
  ∀ k r, B k = .account r → (r.base.isNative.isSome = true ↔ r.base.mint = nativeMintId)

section Ledger

variable {B B' : Book} {k : Pubkey}

def accounting (B : Book) : Ledger Pubkey Pubkey where
  supply m := (B m).supply
  holding k m := (B k).holding k m

theorem sameAt_of_eq (h : B' k = B k) : (accounting B).SameAt (accounting B') k := by
  constructor <;> simp only [accounting, h, implies_true]

structure Side (B : Book) (k : Pubkey) (e : Entry) (m : Pubkey) : Prop where
  supply : e.supply = (B k).supply
  other : ∀ n, n ≠ m → e.holding k n = (B k).holding k n

variable {m : Pubkey}

variable {e : Entry}

theorem Side.holdingAt (h : Side B k e m) (he : B' k = e) :
    (accounting B).HoldingAt (accounting B') k m := by
  subst he
  exact ⟨h.supply, h.other⟩

theorem move_single (h : Side B k e nativeMintId) :
    Ledger.Move (ledger B) (ledger (update B k e)) :=
  .of_single (fun _ hj => sameAt_of_eq (update_of_ne hj ..)) (h.holdingAt (update_self ..))

theorem holding_account (r : Record Account) : (account r).holding k r.base.mint = r.holds :=
  if_pos rfl

theorem holding_account_of_ne {r : Record Account} (h : m ≠ r.base.mint) :
    (account r).holding k m = 0 :=
  if_neg h.symm

theorem Side.account {r r' : Record Account} (hk : B k = .account r) (h : SameAccount r r') :
    Side B k (.account r') r.base.mint where
  supply := by rw [hk]; rfl
  other n hn := by rw [hk, holding_account_of_ne hn, holding_account_of_ne (h.mint ▸ hn)]

theorem holding_mint (k : Pubkey) (r : Record Mint) : (mint r).holding k k = r.withheldFees :=
  if_pos rfl

theorem holding_mint_of_ne {n : Pubkey} (r : Record Mint) (h : n ≠ k) : (mint r).holding k n = 0 :=
  if_neg h.symm

theorem Side.mint {r r' : Record Mint} (hk : B k = .mint r)
    (hsupply : r'.base.supply = r.base.supply) : Side B k (.mint r') k where
  supply := by rw [hk, Entry.supply, Entry.supply, hsupply]
  other n hn := by rw [hk, holding_mint_of_ne _ hn, holding_mint_of_ne _ hn]

end Ledger

/-! ## Effects keep the ledger conserved -/

section Effects

variable {request : Request} {B B' : Book} {k : Pubkey} {a a' : Record Account}

theorem account_ne_mint {k k' : Pubkey} {a : Record Account} {m : Record Mint}
    (ha : B k = .account a) (hm : B k' = .mint m) : k ≠ k' := by
  rintro rfl
  rw [ha] at hm
  cases hm

theorem NativeMarks.update (hmarks : NativeMarks B)
    (h : ∀ r, e = .account r → (r.base.isNative.isSome = true ↔ r.base.mint = nativeMintId)) :
    NativeMarks (update B k e) := by
  intro k' r hk'
  by_cases hk : k' = k
  · subst hk
    rw [update_self] at hk'
    exact h r hk'
  · rw [update_of_ne hk] at hk'
    exact hmarks k' r hk'

theorem NativeMarks.same (hmarks : NativeMarks B)
    (hk : B k = .account a) (h : SameAccount a a') (r : Record Account)
    (hr : account a' = .account r) :
    r.base.isNative.isSome = true ↔ r.base.mint = nativeMintId := by
  cases hr
  rw [h.native, h.mint]
  exact hmarks k a hk

theorem NativeMarks.effect (h : Effect request B B') (hmarks : NativeMarks B) : NativeMarks B' := by
  -- what is not a token account carries no mark
  have hmint : ∀ m r, mint m = .account r → (r.base.isNative.isSome = true ↔
      r.base.mint = nativeMintId) := fun m r h => by cases h
  have hvacant : ∀ r, vacant = .account r → (r.base.isNative.isSome = true ↔
      r.base.mint = nativeMintId) := fun r h => by cases h
  have hdraft : ∀ c r, draft c = .account r → (r.base.isNative.isSome = true ↔
      r.base.mint = nativeMintId) := fun c r h => by cases h
  cases h with
  | openAccount _ _ _ _ _ _ _ _ hkind =>
    refine hmarks.update fun r' hr' => ?_
    cases hr'
    rcases hkind with ⟨hnative, hsome⟩ | ⟨hnative, hnone, -⟩
    · exact iff_of_true hsome hnative
    · exact iff_of_false (by rw [hnone]; decide) hnative
  | configure => exact hmarks.update (hdraft _)
  | openMint | editMint | setFees => exact hmarks.update (hmint _)
  | editAccount _ _ _ hk hsame | syncNative _ _ _ hk _ hsame =>
    exact hmarks.update (hmarks.same hk hsame)
  | closeAccount | closeMint => exact hmarks.update hvacant
  | pay _ _ _ _ _ _ _ _ hsrc hdst _ ha hb =>
    exact (hmarks.update (hmarks.same hsrc ha)).update (hmarks.same hdst hb)
  | harvest _ _ _ _ _ _ hk _ ha | burn _ _ _ _ _ _ hk _ ha =>
    exact (hmarks.update (hmarks.same hk ha)).update (hmint _)
  | withdraw _ _ _ _ _ _ hk _ ha | mintTo _ _ _ _ _ _ hk _ ha =>
    exact (hmarks.update (hmint _)).update (hmarks.same hk ha)

theorem move_transfer {k₁ k₂ m : Pubkey} {e₁ e₂ : Entry} {x : ℕ} (hne : k₁ ≠ k₂)
    (h₁ : Side B k₁ e₁ m) (h₂ : Side B k₂ e₂ m) (hx₁ : e₁.holding k₁ m + x = (B k₁).holding k₁ m)
    (hx₂ : e₂.holding k₂ m = (B k₂).holding k₂ m + x) :
    Ledger.Move (ledger B) (ledger (update (update B k₁ e₁) k₂ e₂)) := by
  have he₁ : update (update B k₁ e₁) k₂ e₂ k₁ = e₁ := by rw [update_of_ne hne, update_self]
  have he₂ : update (update B k₁ e₁) k₂ e₂ k₂ = e₂ := update_self ..
  refine .of_transfer (x := x) hne
    (fun j h₁ h₂ => sameAt_of_eq (by rw [update_of_ne h₂, update_of_ne h₁]))
    (h₁.holdingAt he₁) (h₂.holdingAt he₂) ?_ ?_
  · simpa only [accounting, he₁] using hx₁
  · simpa only [accounting, he₂] using hx₂

theorem issue_at {m m' : Record Mint} (hk : B k = .account a)
    (hm : B a.base.mint = .mint m) (ha : SameAccount a a')
    (hwithheld : m'.withheldFees = m.withheldFees) (hk' : B' k = .account a')
    (hm' : B' a.base.mint = .mint m') (hrest : ∀ j, j ≠ k → j ≠ a.base.mint → B' j = B j) :
    (∀ j, j ≠ k → j ≠ a.base.mint → (accounting B).SameAt (accounting B') j) ∧
      (accounting B).HoldingAt (accounting B') k a.base.mint ∧
      (∀ n, (accounting B').holding a.base.mint n = (accounting B).holding a.base.mint n) ∧
      (accounting B').holding k a.base.mint = a'.holds ∧
      (accounting B).holding k a.base.mint = a.holds ∧
      (accounting B').supply a.base.mint = m'.base.supply.toNat ∧
      (accounting B).supply a.base.mint = m.base.supply.toNat := by
  refine ⟨fun j h₁ h₂ => sameAt_of_eq (hrest j h₁ h₂), (Side.account hk ha).holdingAt hk',
    fun n => ?_, ?_, ?_, ?_, ?_⟩
  · simp only [accounting, hm, hm', holding, hwithheld]
  · simp only [accounting, hk']
    rw [← ha.mint, holding_account]
  · simp only [accounting, hk, holding_account]
  · simp only [accounting, hm', supply]
  · simp only [accounting, hm, supply]

theorem move_closeMint {r : Record Mint} (hk : B k = .mint r)
    (hsupply : r.base.supply = 0) (hcons : (ledger B).Conserved) :
    Ledger.Move (ledger B) (ledger (update B k .vacant)) := by
  have hzero : (B k).supply = 0 := by
    rw [hk, supply, hsupply]
    rfl
  refine move_single ⟨hzero.symm, fun m hm => ?_⟩
  rw [hk]
  by_cases hkm : m = k
  · subst hkm
    have hle := (ledger B).holding_le_total m m
    rw [← hcons m] at hle
    simp only [ledger, hm, if_false, hzero, Nat.le_zero] at hle
    rw [← hk, hle]
    rfl
  · exact (holding_mint_of_ne r hkm).symm

/-- Before it is initialised, a mint is not in the ledger. -/
theorem ofConfig_empty {c : Option TransferFeeConfig} (hk : B k = .ofConfig c) :
    (B k).supply = 0 ∧ ∀ n, (B k).holding k n = 0 := by
  rw [hk]
  cases c <;> exact ⟨rfl, fun _ => rfl⟩

/-- **Step.** Every effect on the book is a move of the ledger. -/
theorem Effect.move (h : Effect request B B') (hmarks : NativeMarks B)
    (hcons : (ledger B).Conserved) : Ledger.Move (ledger B) (ledger B') := by
  cases h with
  | openAccount _ _ _ _ hk _ _ hwithheld hkind =>
    refine move_single ⟨by rw [hk]; rfl, fun n hn => ?_⟩
    rw [hk]
    rcases hkind with ⟨hnative, -⟩ | ⟨-, -, hamount⟩
    · exact holding_account_of_ne (hnative ▸ hn)
    · simp [holding, holds, hamount, hwithheld]
  | configure _ _ _ hk =>
    obtain ⟨hsupply, hholding⟩ := ofConfig_empty hk
    exact move_single ⟨hsupply.symm, fun n _ => (hholding n).symm⟩
  | openMint _ _ hk hsupply hwithheld =>
    obtain ⟨hsupply', hholding⟩ := ofConfig_empty hk
    refine move_single ⟨by rw [hsupply', supply, hsupply]; rfl, fun n _ => ?_⟩
    rw [hholding]
    simp [holding, hwithheld]
  | editAccount _ _ _ hk hsame hholds =>
    refine move_single ⟨by rw [hk]; rfl, fun n _ => ?_⟩
    rw [hk]
    simp only [holding, hsame.mint, hholds]
  | editMint _ _ _ hk _ hsupply hwithheld | setFees _ _ _ hk _ _ hsupply hwithheld =>
    refine move_single ⟨by rw [hk, supply, supply, hsupply], fun n _ => ?_⟩
    rw [hk]
    simp only [holding, hwithheld]
  | closeAccount k r hk hamount hwithheld =>
    refine move_single ⟨by rw [hk]; rfl, fun n hn => ?_⟩
    rw [hk]
    by_cases hmint : n = r.base.mint
    · have hnone : r.base.isNative = none := by
        by_contra hsome
        exact hn (hmint ▸ (hmarks k r hk).mp (Option.isSome_iff_ne_none.mpr hsome))
      simp [holding, holds, hamount hnone, hwithheld]
    · exact (holding_account_of_ne hmint).symm
  | closeMint _ _ hk _ hsupply => exact move_closeMint hk hsupply hcons
  | pay _ _ a _ _ _ x hne hsrc hdst hmint ha hb hx hx' =>
    refine move_transfer (x := x) hne (.account hsrc ha) (hmint ▸ .account hdst hb) ?_ ?_
    · rw [hsrc, ← ha.mint, holding_account, ha.mint, holding_account, hx]
    · rw [hdst, hmint, ← hb.mint, holding_account, hb.mint, holding_account, hx']
  | harvest _ _ _ _ _ x hk hm ha _ hsupply hx hx' =>
    refine move_transfer (x := x) (account_ne_mint hk hm) (.account hk ha) (.mint hm hsupply) ?_ ?_
    · rw [hk, ← ha.mint, holding_account, ha.mint, holding_account, hx]
    · rw [hm, holding_mint, holding_mint, hx']
  | withdraw _ _ _ _ _ x hk hm ha _ hsupply hx hx' =>
    refine move_transfer (x := x) (.symm (account_ne_mint hk hm)) (.mint hm hsupply)
      (.account hk ha) ?_ ?_
    · rw [hm, holding_mint, holding_mint, hx']
    · rw [hk, ← ha.mint, holding_account, ha.mint, holding_account, hx]
  | mintTo k a _ _ _ x hk hm ha _ hwithheld hx hx' =>
    have hne := account_ne_mint hk hm
    obtain ⟨hrest, hat, hown, hnew, hold, hsupply, hsupply₀⟩ := issue_at hk hm ha hwithheld
      (update_self ..) ((update_of_ne hne.symm ..).trans (update_self ..))
      fun j h₁ h₂ => (update_of_ne h₁ ..).trans (update_of_ne h₂ ..)
    exact .of_mint (x := x) hrest hat hown (by rw [hnew, hold, hx])
      (by rw [hsupply, hsupply₀, hx'])
  | burn k a _ _ _ x hk hm ha _ hwithheld hx hx' =>
    have hne := account_ne_mint hk hm
    obtain ⟨hrest, hat, hown, hnew, hold, hsupply, hsupply₀⟩ := issue_at hk hm ha hwithheld
      ((update_of_ne hne ..).trans (update_self ..)) (update_self ..)
      fun j h₁ h₂ => (update_of_ne h₂ ..).trans (update_of_ne h₁ ..)
    exact .of_burn (x := x) hrest hat hown (by rw [hnew, hold, hx])
      (by rw [hsupply, hsupply₀, hx'])
  | syncNative k r _ hk hnative hsame =>
    have hmint := (hmarks k r hk).mp hnative
    exact move_single (hmint ▸ .account hk hsame)

end Effects

/-! ## Runs -/

def withheldOn (a : StateWithExtensions Account) : ℕ :=
  match a.read TransferFeeAmount with
  | .ok extension => extension.withheldAmount.toNat
  | .error _ => 0

def withheldOnMint (m : StateWithExtensions Mint) : ℕ :=
  match m.read TransferFeeConfig with
  | .ok config => config.withheldAmount.toNat
  | .error _ => 0

def heldOf (id : Pubkey) (s : Bank) (k m : Pubkey) : ℕ :=
  match accountAt id s k with
  | some a => if a.base.mint = m then a.base.amount.toNat + withheldOn a else 0
  | none => 0

theorem withheldOn_eq {a : StateWithExtensions Account} {r : Record Account} (h : a.Shows r) :
    withheldOn a = r.withheld := by
  rw [withheldOn, h.read, withheld]
  cases r.get TransferFeeAmount <;> rfl

theorem withheldOnMint_eq {m : StateWithExtensions Mint} {r : Record Mint} (h : m.Shows r) :
    withheldOnMint m = r.withheldFees := by
  rw [withheldOnMint, h.read, withheldFees]
  cases r.get TransferFeeConfig <;> rfl

/-- An entry of the book holds what its account holds and, if it is the mint itself, the fees
withheld there. -/
theorem holding_eq {id : Pubkey} {s : Bank} (hs : AllSound id s)
    {mint : StateWithExtensions Mint} (hmint : mintAt id s m = some mint) (k : Pubkey) :
    (book id s k).holding k m = heldOf id s k m + if k = m then withheldOnMint mint else 0 := by
  obtain ⟨_, hr, hshows⟩ := hs.book_mint hmint
  cases hk : accountAt id s k with
  | some =>
    obtain ⟨_, hra, hshows'⟩ := hs.book_account hk
    rw [if_neg (account_ne_mint hra hr), hra, heldOf, hk]
    simp only [holding, holds, hshows'.base, withheldOn_eq hshows', Nat.add_zero]
  | none =>
    rw [heldOf, hk]
    by_cases hkm : k = m
    · subst hkm
      rw [hr, holding_mint, if_pos rfl, withheldOnMint_eq hshows, Nat.zero_add]
    · rw [if_neg hkm]
      cases he : book id s k with
      | vacant | draft => rfl
      | account =>
        obtain ⟨_, ha⟩ := accountAt_of_book he
        rw [ha] at hk
        cases hk
      | mint => exact if_neg hkm

variable {s₀ : Bank} (hfresh : program.Fresh s₀) (events : List (Event Env TokenInstruction))
include hfresh

/-- **Run.** The ledger of the book is conserved in every state of every run. -/
theorem ledger_conserved : (ledger (book token2022Id (program.run s₀ events))).Conserved := by
  refine (book_invariant (I := fun B => NativeMarks B ∧ (ledger B).Conserved) ?_ ?_ hfresh
    events).2
  · refine ⟨fun k r h => (by cases h), fun m => ?_⟩
    simp [ledger, Ledger.total, supply, holding]
  · rintro request B B' h ⟨hmarks, hcons⟩
    exact ⟨hmarks.effect h, (h.move hmarks hcons).conserved hcons⟩

/-- **Conservation with transfer fees.** Whatever instructions are run, with whatever accounts,
and whatever other programs do in between: the supply of an initialised mint other than the native
mint is the sum over the accounts of that mint of their amounts and withheld fees, and the fees
withheld on the mint. -/
theorem supply_eq_sum_with_fees {m : Pubkey} {mint : StateWithExtensions Mint}
    (hmint : mintAt token2022Id (program.run s₀ events) m = some mint) (hnative : m ≠ nativeMintId)
    :
    mint.base.supply.toNat =
      ∑ k, heldOf token2022Id (program.run s₀ events) k m + withheldOnMint mint := by
  have hs := AllSound.run hfresh events
  obtain ⟨_, hr, hshows⟩ := hs.book_mint hmint
  calc mint.base.supply.toNat
      = (ledger (book token2022Id (program.run s₀ events))).supply m := by
        simp [ledger, hnative, hr, supply, hshows.base]
    _ = (ledger (book token2022Id (program.run s₀ events))).total m :=
        ledger_conserved hfresh events m
    _ = ∑ k, (heldOf token2022Id (program.run s₀ events) k m +
          if k = m then withheldOnMint mint else 0) := by
        simp only [Ledger.total, ledger, hnative, if_false, holding_eq hs hmint]
    _ = ∑ k, heldOf token2022Id (program.run s₀ events) k m + withheldOnMint mint := by
        rw [sum_add_distrib, sum_ite_eq' univ m, if_pos (mem_univ m)]

omit hfresh

theorem supply_eq_sum_with_fees_harvested :
    100 = ∑ k, heldOf token2022Id (program.run Program.emptyBank feeRun) k (.replicate 1) + 5 := by
  have hrun : (mintAt token2022Id (program.run Program.emptyBank feeRun) (.replicate 1)).map
      (fun m => (m.base.supply, withheldOnMint m)) = some (100, 5) := by decide +kernel
  obtain ⟨_, hmint, hvalues⟩ := Option.map_eq_some_iff.mp hrun
  obtain ⟨hsupply, hfees⟩ := Prod.mk.inj hvalues
  have h := supply_eq_sum_with_fees program.fresh_emptyBank feeRun hmint (by decide)
  rw [hsupply, hfees] at h
  exact h

end SolanaPrograms.Token2022
