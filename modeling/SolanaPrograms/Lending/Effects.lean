import SolanaPrograms.Lending.Processor

/-!
# What an event does to an account

`Edited` lists what one event can do to one account: a reserve or an obligation of this program is
changed in one of a few ways, an account that is not initialized can become a record, and accounts
of other programs are free. The results about runs look at edits only.
-/

namespace SolanaPrograms.Lending

open Outcome World
open Function (update update_of_ne update_self)

/-! ## Edits -/

inductive ReserveEdit (w : World) (r : Reserve) : Reserve → Prop
  | refreshed {marketPrice : Decimal} {r₁ : Reserve}
      (h : { r with liquidity := { r.liquidity with marketPrice } }.accrueInterest w.slot =
        .ok r₁) :
      ReserveEdit w r { r₁ with lastUpdate := r₁.lastUpdate.updateSlot w.slot }
  | deposited {amount minted : UInt64} {r₁ : Reserve}
      (h : r.depositLiquidity amount = .ok (r₁, minted)) :
      ReserveEdit w r { r₁ with lastUpdate := r₁.lastUpdate.markStale }
  | redeemed {amount paid : UInt64} {r₁ : Reserve}
      (h : r.redeemCollateral amount = .ok (r₁, paid)) :
      ReserveEdit w r { r₁ with lastUpdate := r₁.lastUpdate.markStale }
  | borrowed {amount : Decimal} {liquidity : ReserveLiquidity}
      (h : r.liquidity.borrow amount = .ok liquidity) :
      ReserveEdit w r { r with liquidity, lastUpdate := r.lastUpdate.markStale }
  | repaid {amount : UInt64} {settled : Decimal} {liquidity : ReserveLiquidity}
      (h : r.liquidity.repay amount settled = .ok liquidity) :
      ReserveEdit w r { r with liquidity, lastUpdate := r.lastUpdate.markStale }
  /-- A flash loan: borrowed and repaid by the same instruction. -/
  | lent {lent settled : Decimal} {amount : UInt64} {l liquidity : ReserveLiquidity}
      (hlent : r.liquidity.borrow lent = .ok l) (hrepaid : l.repay amount settled = .ok liquidity) :
      ReserveEdit w r { r with liquidity }

/-- The obligation whose debt an instruction changes other than by interest. -/
def LendingInstruction.debtor (accounts : List AccountMeta) : LendingInstruction → Option Address
  | borrowObligationLiquidity _ => accounts[4]?.map AccountMeta.key
  | repayObligationLiquidity _ => accounts[3]?.map AccountMeta.key
  | liquidateObligation _ => accounts[6]?.map AccountMeta.key
  | _ => none

/-- The event changes the debt of the obligation other than by interest. -/
def Event.MovesDebt (k : Address) : Event → Prop
  | lending instruction accounts => instruction.debtor accounts = some k
  | _ => False

def Event.Refreshes (k : Address) : Event → Prop
  | lending .refreshObligation accounts => accounts.head?.map AccountMeta.key = some k
  | _ => False

instance (k : Address) : DecidablePred (Event.MovesDebt k)
  | .lending _ _ => inferInstanceAs (Decidable (_ = _))
  | .outside _ | .newSlot _ => inferInstanceAs (Decidable False)

instance (k : Address) : DecidablePred (Event.Refreshes k) := fun e => by
  unfold Event.Refreshes
  split <;> infer_instance

inductive ObligationEdit (w : World) (e : Event) (k : Address) (o : Obligation) : Obligation → Prop
  | refreshed {it : List AccountMeta} {o' : Obligation} (he : e.Refreshes k)
      (h : refreshedObligation w o it = .ok o') : ObligationEdit w e k o o'
  /-- Only the collateral changes. -/
  | secured {deposits : List ObligationCollateral} :
      ObligationEdit w e k o { o with deposits, lastUpdate := o.lastUpdate.markStale }
  | moved {o' : Obligation} (he : e.MovesDebt k) : ObligationEdit w e k o o'

/-- No record is in the account yet. -/
def Content.Uninitialized : Content → Prop
  | zeroed _ => True
  | market m => m.version = 0
  | reserve r => r.version = 0
  | obligation o => o.version = 0
  | _ => False

inductive Edited (w : World) (e : Event) (k : Address) : Account → Account → Prop
  | same {a : Account} : Edited w e k a a
  | foreign {a a' : Account} (h : a.owner ≠ .program) : Edited w e k a a'
  | created {c c' : Content} (h : c.Uninitialized) :
      Edited w e k ⟨.program, c⟩ ⟨.program, c'⟩
  | market {m m' : LendingMarket} : Edited w e k ⟨.program, .market m⟩ ⟨.program, .market m'⟩
  | reserve {r r' : Reserve} (h : ReserveEdit w r r') :
      Edited w e k ⟨.program, .reserve r⟩ ⟨.program, .reserve r'⟩
  | obligation {o o' : Obligation} (h : ObligationEdit w e k o o') :
      Edited w e k ⟨.program, .obligation o⟩ ⟨.program, .obligation o'⟩

def Edits (w : World) (e : Event) (accounts : Address → Account) : Prop :=
  ∀ k, Edited w e k (w.accounts k) (accounts k)

variable {env : Environment} {w w' w₁ : World} {e : Event} {a : Address → Account}

variable {k tokenProgram : Address} {u : Unit} {r : Reserve} {o o' : Obligation} {c : Content}
  {amount : UInt64} {accounts : List AccountMeta} {seeds : Option (Address × UInt8)}
  {authority : AccountMeta} {config : ReserveConfig} {kind : Kind} {v : UInt8}

theorem Edited.own {x y : Account} (h : Edited w e k x y) (hx : x.owner = .program) :
    y.owner = .program := by
  cases h with
  | same => exact hx
  | foreign hforeign => exact absurd hx hforeign
  | created | market | reserve | obligation => rfl

theorem edits_refl : Edits w e w.accounts := fun _ => .same

theorem Edits.update (h : Edits w e a) {new : Account} (hk : Edited w e k (w.accounts k) new) :
    Edits w e (update a k new) := by
  intro k'
  rcases eq_or_ne k' k with rfl | hne
  · rw [update_self]
    exact hk
  · rw [update_of_ne hne]
    exact h k'

/-- What others do next to accounts that are not ones of this program. -/
theorem Edits.outside (h : Edits w e a) {a' : Address → Account}
    (ha : ∀ k, (a k).owner = .program → a' k = a k) : Edits w e a' := by
  intro k
  by_cases hk : (w.accounts k).owner = .program
  · rw [ha k ((h k).own hk)]
    exact h k
  · exact .foreign hk

/-! ## What the checks and the calls return -/

@[simp] theorem checkOwner_eq_ok : w.checkOwner k = .ok u ↔ w.IsOwn k := by
  rw [checkOwner, failIf_eq_ok, not_not]

@[simp] theorem checkInput_eq_ok {wrong : Prop} [Decidable wrong] :
    checkInput wrong = .ok u ↔ ¬ wrong := failIf_eq_ok

theorem version_iff : (¬ 1 < v ∧ ¬ v = 0) ↔ v = 1 := by
  rw [UInt8.lt_iff_toNat_lt, ← UInt8.toNat_inj, ← UInt8.toNat_inj]
  have : (1 : UInt8).toNat = 1 := rfl
  have : (0 : UInt8).toNat = 0 := rfl
  omega

@[simp] theorem checkVersion_eq_ok : checkVersion v = .ok u ↔ v = 1 := by
  rw [checkVersion, failIf_bind_eq_ok, failIf_eq_ok, version_iff]

@[simp] theorem versioned_eq_ok {α : Type} {x y : α} {version : α → UInt8} :
    (fun _ => x) <$> checkVersion (version x) = .ok y ↔ x = y ∧ version y = 1 := by
  rw [← bind_pure_comp]
  simp only [checks, checkVersion_eq_ok]
  constructor
  · rintro ⟨hversion, rfl⟩
    exact ⟨rfl, hversion⟩
  · rintro ⟨rfl, hversion⟩
    exact ⟨hversion, rfl⟩

theorem readMarket_eq_ok {m : LendingMarket} :
    w.readMarket k = .ok m ↔ (w.accounts k).content = .market m ∧ m.version = 1 := by
  unfold readMarket
  split <;> simp_all

theorem readReserve_eq_ok :
    w.readReserve k = .ok r ↔ (w.accounts k).content = .reserve r ∧ r.version = 1 := by
  unfold readReserve
  split <;> simp_all

theorem readObligation_eq_ok :
    w.readObligation k = .ok o ↔ (w.accounts k).content = .obligation o ∧ o.version = 1 := by
  unfold readObligation
  split <;> simp_all

theorem IsOwn.account (hown : w.IsOwn k) (h : (w.accounts k).content = c) :
    w.accounts k = ⟨.program, c⟩ := by
  rw [← h, ← show (w.accounts k).owner = .program from hown]

theorem reserveOf_eq_ok {reserve lendingMarket : AccountMeta} :
    reserveOf w reserve lendingMarket = .ok r ↔
      w.accounts reserve.key = ⟨.program, .reserve r⟩ ∧ r.version = 1 ∧
        r.lendingMarket = lendingMarket.key := by
  simp only [reserveOf, checks, readReserve_eq_ok, checkOwner_eq_ok, not_not]
  constructor
  · rintro ⟨r', ⟨hr, hversion⟩, hown, hmarket, rfl⟩
    exact ⟨IsOwn.account hown hr, hversion, hmarket⟩
  · rintro ⟨hr, hversion, hmarket⟩
    exact ⟨r, ⟨by rw [hr], hversion⟩, by rw [World.IsOwn, hr], hmarket, rfl⟩

theorem obligationOf_eq_ok {obligation lendingMarket : AccountMeta} :
    obligationOf w obligation lendingMarket = .ok o ↔
      w.accounts obligation.key = ⟨.program, .obligation o⟩ ∧ o.version = 1 ∧
        o.lendingMarket = lendingMarket.key := by
  simp only [obligationOf, checks, readObligation_eq_ok, checkOwner_eq_ok, not_not]
  constructor
  · rintro ⟨o', ⟨ho, hversion⟩, hown, hmarket, rfl⟩
    exact ⟨IsOwn.account hown ho, hversion, hmarket⟩
  · rintro ⟨ho, hversion, hmarket⟩
    exact ⟨o, ⟨by rw [ho], hversion⟩, by rw [World.IsOwn, ho], hmarket, rfl⟩

theorem assertUninitialized_ok (h : w.assertUninitialized kind k = .ok u) :
    (w.accounts k).content.Uninitialized := by
  unfold assertUninitialized at h
  split at h <;> simp_all [Content.Uninitialized]

theorem write_ok (hown : w.IsOwn k) (h : w.write k c = .ok w') :
    w' = { w with accounts := update w.accounts k ⟨.program, c⟩ } := by
  rw [write, if_pos hown, Except.ok.injEq] at h
  exact h.symm

theorem writeReserve_ok (hown : w.IsOwn k) (h : w.writeReserve k r = .ok w') :
    w' = { w with accounts := update w.accounts k ⟨.program, .reserve r⟩ } := by
  simp only [writeReserve, bind_eq_ok] at h
  obtain ⟨_, -, h⟩ := h
  exact write_ok hown h

theorem writeObligation_ok (hown : w.IsOwn k) (h : w.writeObligation k o = .ok w') :
    w' = { w with accounts := update w.accounts k ⟨.program, .obligation o⟩ } := by
  simp only [writeObligation, bind_eq_ok] at h
  obtain ⟨_, -, _, -, h⟩ := h
  exact write_ok hown h

/-! ## What keeps the accounts -/

theorem callToken_accounts {f : Tokens.Book Address → Option (Tokens.Book Address)}
    {x : LendingError} (h : w.callToken tokenProgram f x = .ok w') : w'.accounts = w.accounts := by
  simp only [callToken, checks] at h
  obtain ⟨_, -, _, -, rfl⟩ := h
  rfl

theorem initReserveTokens_accounts {r : ReserveAccounts} (h : initReserveTokens w r = .ok w') :
    w'.accounts = w.accounts := by
  simp only [initReserveTokens, splTokenInitMint, checks] at h
  obtain ⟨_, h₁, _, h₂, _, ⟨_, h₃, rfl⟩, _, h₄, h₅⟩ := h
  rw [callToken_accounts h₅, callToken_accounts h₄]
  exact (callToken_accounts h₃).trans ((callToken_accounts h₂).trans (callToken_accounts h₁))

theorem payHostFee_accounts {source : Address} {host : Option AccountMeta}
    {fee hostFee ownerFee : UInt64}
    (h : payHostFee w tokenProgram source host authority seeds fee hostFee = .ok (w', ownerFee)) :
    w'.accounts = w.accounts := by
  unfold payHostFee at h
  split at h
  · cases h
    rfl
  · split at h
    · simp only [checks] at h
      obtain ⟨_, -, _, h₁, rfl, -⟩ := h
      exact callToken_accounts h₁
    · cases h
      rfl

theorem payOwnerFee_accounts {source receiver : Address} {ownerFee : UInt64}
    (h : payOwnerFee w tokenProgram source receiver authority seeds ownerFee = .ok w') :
    w'.accounts = w.accounts := by
  unfold payOwnerFee at h
  split at h
  · exact callToken_accounts h
  · cases h
    rfl

theorem outside_own {o : Outside} (h : w.outside o = .ok w') (hk : w.IsOwn k) :
    w'.accounts k = w.accounts k := by
  cases o with
  | token =>
    rw [outside] at h
    rw [callToken_accounts h]
  | decimals =>
    simp only [outside, checks] at h
    obtain ⟨_, -, rfl⟩ := h
    rfl
  | allocate account | write account =>
    simp only [outside, failIf_bind_eq_ok, pure_eq_ok] at h
    obtain ⟨hfree, rfl⟩ := h
    refine update_of_ne (fun hkey => hfree ?_) _ _
    subst hkey
    simp [hk]

theorem outsides_own {os : List Outside} (h : w.outsides os = .ok w') (hk : w.IsOwn k) :
    w'.accounts k = w.accounts k := by
  induction os generalizing w with
  | nil =>
    cases h
    rfl
  | cons _ _ ih =>
    simp only [outsides, bind_eq_ok] at h
    obtain ⟨w₁, ho, hos⟩ := h
    have hsame := outside_own ho hk
    have hown : w₁.IsOwn k := by
      rw [World.IsOwn, hsame]
      exact hk
    rw [ih hos hown, hsame]

theorem withdraw_ok {index : ℕ} (h : o.withdraw amount index = .ok o') :
    ∃ deposits, o' = { o with deposits } := by
  unfold Obligation.withdraw at h
  split at h
  · cases h
  · split at h
    · cases h
      exact ⟨_, rfl⟩
    · simp only [checks] at h
      obtain ⟨_, -, rfl⟩ := h
      exact ⟨_, rfl⟩

/-! ## Writes of records -/

theorem Edits.writeReserve {r' : Reserve} (hk : w.accounts k = ⟨.program, .reserve r⟩)
    (hedit : ReserveEdit w r r') (h : w.writeReserve k r' = .ok w') : Edits w e w'.accounts := by
  rw [writeReserve_ok (by rw [World.IsOwn, hk]) h]
  refine edits_refl.update ?_
  rw [hk]
  exact .reserve hedit

theorem Edits.writeObligation (hedits : Edits w e w₁.accounts)
    (hk : w.accounts k = ⟨.program, .obligation o⟩) (hedit : ObligationEdit w e k o o')
    (h : w₁.writeObligation k o' = .ok w') : Edits w e w'.accounts := by
  have hown : w₁.IsOwn k := (hedits k).own (by rw [hk])
  rw [writeObligation_ok hown h]
  refine hedits.update ?_
  rw [hk]
  exact .obligation hedit

theorem Edits.create (hown : w.IsOwn k) (hnew : w.assertUninitialized kind k = .ok u)
    (h : w.write k c = .ok w') : Edits w e w'.accounts := by
  rw [write_ok hown h]
  refine edits_refl.update ?_
  rw [IsOwn.account hown rfl]
  exact .created (assertUninitialized_ok hnew)

/-! ## The handlers -/

theorem processInitLendingMarket_edits {owner : Address} {quoteCurrency : List UInt8}
    (h : processInitLendingMarket env w owner quoteCurrency accounts = .ok w') :
    Edits w e w'.accounts := by
  unfold processInitLendingMarket at h
  split at h
  · simp only [bind_eq_ok, checkOwner_eq_ok] at h
    obtain ⟨_, -, _, -, _, hnew, _, hown, h⟩ := h
    exact .create hown hnew h
  · cases h

theorem processSetLendingMarketOwner_edits {newOwner : Address}
    (h : processSetLendingMarketOwner w newOwner accounts = .ok w') : Edits w e w'.accounts := by
  unfold processSetLendingMarketOwner at h
  split at h
  · simp only [bind_eq_ok, checkOwner_eq_ok, readMarket_eq_ok] at h
    obtain ⟨market, ⟨hmarket, -⟩, _, hown, _, -, h⟩ := h
    rw [write_ok hown h]
    refine edits_refl.update ?_
    rw [IsOwn.account hown hmarket]
    exact .market
  · cases h

theorem processInitReserve_edits
    (h : processInitReserve env w amount config accounts = .ok w') : Edits w e w'.accounts := by
  simp only [processInitReserve, failIf_bind_eq_ok] at h
  obtain ⟨-, h⟩ := h
  rw [bind_eq_ok] at h
  obtain ⟨_, -, h⟩ := h
  split at h
  · simp only [bind_eq_ok, checkOwner_eq_ok, writeReserve] at h
    obtain ⟨_, -, _, -, _, -, _, hnew, _, hown, _, -, _, -, _, -, _, -, _, -, _, -, _, -, _, -,
      _, ⟨_, -, h₁⟩, _, h₂, _, h₃, h₄⟩ := h
    rw [callToken_accounts h₄, callToken_accounts h₃, initReserveTokens_accounts h₂]
    exact .create hown hnew h₁
  · cases h

theorem processInitNftReserve_edits
    (h : processInitNftReserve env w config accounts = .ok w') : Edits w e w'.accounts := by
  simp only [processInitNftReserve] at h
  rw [bind_eq_ok] at h
  obtain ⟨_, -, h⟩ := h
  split at h
  · simp only [bind_eq_ok, checkOwner_eq_ok, writeReserve] at h
    obtain ⟨_, -, _, -, _, -, _, hnew, _, hown, _, -, _, -, _, -, _, -, _, -,
      _, ⟨_, -, h₁⟩, h₂⟩ := h
    rw [initReserveTokens_accounts h₂]
    exact .create hown hnew h₁
  · cases h

theorem processRefreshReserve_edits (h : processRefreshReserve w accounts = .ok w') :
    Edits w e w'.accounts := by
  unfold processRefreshReserve at h
  split at h
  · simp only [bind_eq_ok, checkOwner_eq_ok, readReserve_eq_ok] at h
    obtain ⟨_, -, _, ⟨hr, -⟩, _, hown, _, -, _, -, _, hr₁, h⟩ := h
    exact .writeReserve (IsOwn.account hown hr) (.refreshed hr₁) h
  · cases h

theorem processDepositReserveLiquidity_edits
    (h : processDepositReserveLiquidity env w amount accounts = .ok w') :
    Edits w e w'.accounts := by
  simp only [processDepositReserveLiquidity, failIf_bind_eq_ok] at h
  obtain ⟨-, h⟩ := h
  split at h
  · simp only [checks, reserveOf_eq_ok] at h
    obtain ⟨_, -, _, -, _, ⟨hr, -, -⟩, _, -, _, -, _, -, _, -, _, -, _, -, _, _, hr₁,
      _, h₁, _, h₂, h₃⟩ := h
    rw [callToken_accounts h₃, callToken_accounts h₂]
    exact .writeReserve hr (.deposited hr₁) h₁
  · cases h

theorem processRedeemReserveCollateral_edits
    (h : processRedeemReserveCollateral env w amount accounts = .ok w') :
    Edits w e w'.accounts := by
  simp only [processRedeemReserveCollateral, failIf_bind_eq_ok] at h
  obtain ⟨-, h⟩ := h
  split at h
  · simp only [checks, reserveOf_eq_ok] at h
    obtain ⟨_, -, _, -, _, ⟨hr, -, -⟩, _, -, _, -, _, -, _, -, _, -, _, -, _, _, hr₁,
      _, h₁, _, h₂, h₃⟩ := h
    rw [callToken_accounts h₃, callToken_accounts h₂]
    exact .writeReserve hr (.redeemed hr₁) h₁
  · cases h

theorem processInitObligation_edits (h : processInitObligation env w accounts = .ok w') :
    Edits w e w'.accounts := by
  unfold processInitObligation at h
  split at h
  · simp only [bind_eq_ok, checkOwner_eq_ok, writeObligation] at h
    obtain ⟨_, -, _, -, _, -, _, hnew, _, hown, _, -, _, -, _, -, _, -, h⟩ := h
    exact .create hown hnew h
  · cases h

theorem processRefreshObligation_edits (h : processRefreshObligation w accounts = .ok w') :
    Edits w (.lending .refreshObligation accounts) w'.accounts := by
  unfold processRefreshObligation at h
  split at h
  · simp only [bind_eq_ok, checkOwner_eq_ok, readObligation_eq_ok] at h
    obtain ⟨_, -, _, ⟨ho, -⟩, _, hown, _, ho', h⟩ := h
    exact edits_refl.writeObligation (IsOwn.account hown ho) (.refreshed rfl ho') h
  · cases h

theorem processDepositObligationCollateral_edits
    (h : processDepositObligationCollateral w amount accounts = .ok w') :
    Edits w e w'.accounts := by
  simp only [processDepositObligationCollateral, failIf_bind_eq_ok] at h
  obtain ⟨-, h⟩ := h
  split at h
  · simp only [bind_eq_ok, obligationOf_eq_ok, Prod.exists] at h
    obtain ⟨_, -, _, -, _, -, _, -, _, -, _, -, _, -, _, ⟨ho, -, -⟩, _, -, _, _, -,
      _, -, _, -, _, h₁, h₂⟩ := h
    rw [callToken_accounts h₂]
    exact edits_refl.writeObligation ho .secured h₁
  · cases h

theorem processWithdrawObligationCollateral_edits
    (h : processWithdrawObligationCollateral env w amount accounts = .ok w') :
    Edits w e w'.accounts := by
  simp only [processWithdrawObligationCollateral, failIf_bind_eq_ok] at h
  obtain ⟨-, h⟩ := h
  split at h
  · simp only [bind_eq_ok, obligationOf_eq_ok, Prod.exists] at h
    obtain ⟨_, -, _, -, _, -, _, -, _, -, _, -, _, ⟨ho, -, -⟩, _, -, _, -, _, _,
      -, _, -, _, -, _, -, _, ho₁, _, h₁, h₂⟩ := h
    obtain ⟨_, rfl⟩ := withdraw_ok ho₁
    rw [callToken_accounts h₂]
    exact edits_refl.writeObligation ho .secured h₁
  · cases h

theorem processBorrowObligationLiquidity_edits
    (h : processBorrowObligationLiquidity env w amount accounts = .ok w') :
    Edits w (.lending (.borrowObligationLiquidity amount) accounts) w'.accounts := by
  simp only [processBorrowObligationLiquidity, failIf_bind_eq_ok] at h
  obtain ⟨-, h⟩ := h
  split at h
  · simp only [bind_eq_ok, reserveOf_eq_ok, obligationOf_eq_ok, Prod.exists] at h
    obtain ⟨_, -, _, -, _, ⟨hr, -, -⟩, _, -, _, -, _, -, _, -, _, ⟨ho, -, -⟩, _, -, _, -, _, -,
      _, -, _, -, _, -, _, -, _, -, _, -, _, hl, _, h₁, _, _, _, h₂,
      _, _, h₃, _, h₄, h₅⟩ := h
    rw [callToken_accounts h₅, payOwnerFee_accounts h₄, payHostFee_accounts h₃]
    exact (Edits.writeReserve hr (.borrowed hl) h₁).writeObligation ho (.moved rfl) h₂
  · cases h

theorem processRepayObligationLiquidity_edits
    (h : processRepayObligationLiquidity w amount accounts = .ok w') :
    Edits w (.lending (.repayObligationLiquidity amount) accounts) w'.accounts := by
  simp only [processRepayObligationLiquidity, failIf_bind_eq_ok] at h
  obtain ⟨-, h⟩ := h
  split at h
  · simp only [bind_eq_ok, reserveOf_eq_ok, obligationOf_eq_ok, Prod.exists] at h
    obtain ⟨_, -, _, -, _, ⟨hr, -, -⟩, _, -, _, -, _, -, _, ⟨ho, -, -⟩, _, -, _, _,
      -, _, -, _, -, _, -, _, hl, _, h₁, _, _, _, h₂, h₃⟩ := h
    rw [callToken_accounts h₃]
    exact (Edits.writeReserve hr (.repaid hl) h₁).writeObligation ho (.moved rfl) h₂
  · cases h

theorem processLiquidateObligation_edits
    (h : processLiquidateObligation env w amount accounts = .ok w') :
    Edits w (.lending (.liquidateObligation amount) accounts) w'.accounts := by
  simp only [processLiquidateObligation, failIf_bind_eq_ok] at h
  obtain ⟨-, h⟩ := h
  split at h
  · simp only [bind_eq_ok, reserveOf_eq_ok, obligationOf_eq_ok, Prod.exists] at h
    obtain ⟨_, -, _, -, _, ⟨hr, -, -⟩, _, -, _, -, _, -, _, -, _, -, _, -, _, -, _, -,
      _, -, _, ⟨ho, -, -⟩, _, -, _, -, _, _, -, _, -, _,
      _, -, _, -, _, -, _, -, _, -, _, -, _, hl, _, h₁, _, -, _, -, _, h₂,
      _, h₃, h₄⟩ := h
    rw [callToken_accounts h₄, callToken_accounts h₃]
    exact (Edits.writeReserve hr (.repaid hl) h₁).writeObligation ho (.moved rfl) h₂
  · cases h

/-- The reserve is read again after the receiver was called, and is still the one written before. -/
theorem processFlashLoan_edits {receiver : List Outside}
    (h : processFlashLoan env w amount receiver accounts = .ok w') : Edits w e w'.accounts := by
  simp only [processFlashLoan, failIf_bind_eq_ok] at h
  obtain ⟨-, h⟩ := h
  split at h
  next sourceLiquidity destinationLiquidity reserve _ _ _ _ _ _ _ =>
    simp only [bind_eq_ok, reserveOf_eq_ok, readReserve_eq_ok, Prod.exists] at h
    obtain ⟨_, -, _, -, _, -, r, ⟨hr, -, -⟩, _, -, _, -, _, _, -, _, -, _,
      -, _, -, _, -, l, hl, _, h₁, w₂, h₂, w₃, h₃, r₃, ⟨hr₃, -⟩, l', hl', w₄, h₄, _, -, _, -, _,
      _, h₅, h₆⟩ := h
    have hown : w.IsOwn reserve.key := by rw [World.IsOwn, hr]
    have h₂' : w₂.accounts = update w.accounts reserve.key
        ⟨.program, .reserve { r with liquidity := l }⟩ := by
      rw [callToken_accounts h₂, writeReserve_ok hown h₁]
    have hkey : w₃.accounts reserve.key = ⟨.program, .reserve { r with liquidity := l }⟩ := by
      have hself : w₂.accounts reserve.key = ⟨.program, .reserve { r with liquidity := l }⟩ := by
        rw [h₂', update_self]
      rw [outsides_own h₃ (by rw [World.IsOwn, hself]), hself]
    obtain rfl : { r with liquidity := l } = r₃ := by
      rw [hkey, Content.reserve.injEq] at hr₃
      exact hr₃
    have h₄' : w₄.accounts = update w₃.accounts reserve.key
        ⟨.program, .reserve { r with liquidity := l' }⟩ := by
      rw [writeReserve_ok (by rw [World.IsOwn, hkey]) h₄]
    rw [payOwnerFee_accounts h₆, payHostFee_accounts h₅, h₄']
    have hedits : Edits w e (update w.accounts reserve.key
        ⟨.program, .reserve { r with liquidity := l' }⟩) := by
      refine edits_refl.update ?_
      rw [hr]
      exact .reserve (.lent hl hl')
    refine hedits.outside fun k hk => ?_
    rcases eq_or_ne k reserve.key with rfl | hne
    · rw [update_self, update_self]
    · have hsame : w₂.accounts k = w.accounts k := by rw [h₂', update_of_ne hne]
      rw [update_of_ne hne] at hk
      rw [update_of_ne hne, update_of_ne hne,
        outsides_own h₃ (by rw [World.IsOwn, hsame]; exact hk), hsame]
  · cases h

/-! ## Steps -/

theorem process_edits {instruction : LendingInstruction}
    (h : process env w accounts instruction = .ok w') :
    Edits w (.lending instruction accounts) w'.accounts := by
  cases instruction with
  | initLendingMarket => exact processInitLendingMarket_edits h
  | setLendingMarketOwner => exact processSetLendingMarketOwner_edits h
  | initReserve => exact processInitReserve_edits h
  | initNftReserve => exact processInitNftReserve_edits h
  | refreshReserve => exact processRefreshReserve_edits h
  | depositReserveLiquidity => exact processDepositReserveLiquidity_edits h
  | redeemReserveCollateral => exact processRedeemReserveCollateral_edits h
  | initObligation => exact processInitObligation_edits h
  | refreshObligation => exact processRefreshObligation_edits h
  | depositObligationCollateral => exact processDepositObligationCollateral_edits h
  | withdrawObligationCollateral => exact processWithdrawObligationCollateral_edits h
  | borrowObligationLiquidity => exact processBorrowObligationLiquidity_edits h
  | repayObligationLiquidity => exact processRepayObligationLiquidity_edits h
  | liquidateObligation => exact processLiquidateObligation_edits h
  | flashLoan => exact processFlashLoan_edits h

theorem exec_edits (h : w.exec env e = .ok w') : Edits w e w'.accounts := by
  cases e with
  | lending =>
    simp only [exec, failIf_bind_eq_ok] at h
    exact process_edits h.2
  | outside => exact edits_refl.outside fun k hk => outside_own h hk
  | newSlot =>
    simp only [exec, failIf_bind_eq_ok, pure_eq_ok] at h
    obtain ⟨-, rfl⟩ := h
    exact edits_refl

/-- **Step.** Whatever happens, every account is kept or edited. -/
theorem step_edits (env : Environment) (w : World) (e : Event) :
    Edits w e (w.step env e).accounts := by
  unfold step
  cases h : w.exec env e with
  | error => exact edits_refl
  | ok => exact exec_edits h

end SolanaPrograms.Lending
