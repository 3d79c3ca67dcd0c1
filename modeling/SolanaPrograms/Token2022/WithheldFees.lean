import SolanaPrograms.Token2022.Lifecycle

/-!
# The handlers refine the book: withheld fees

Fees wait on the accounts that received a transfer, are harvested to the mint, and are withdrawn
from either place. Two of the handlers work through a list of accounts and keep the other side of
the movement, the mint or the destination, in a view until the end. The loop lemmas therefore speak
of the book with the entry of that view in place of the stored one.

The mint of a harvest and the destination of a withdrawal need not belong to the program. Then
nothing may change there, so nothing was moved.
-/

namespace SolanaPrograms.Token2022

open Outcome Bytes SolanaPrograms.Runtime StateWithExtensionsMut Record Bank List
open Token (Mint Account isInitialized_of_state_eq)
open Function (update update_comm update_eq_self update_idem update_of_ne update_self)

variable {id k : Pubkey} {request : Request} {s s' : Bank}
  {accounts : List AccountMeta}

/-! ## Writes to foreign accounts -/

variable {S : Type} {st st₁ st' : StateWithExtensionsMut Account} {i : Nat}
  {config config' : TransferFeeConfig} {mintKey dst : Pubkey} {x : UInt64}
  {infos : List AccountMeta} {extension : TransferFeeAmount} {info : AccountMeta}

/-- The runtime accepts a foreign account only with the bytes it had. -/
theorem owned_or_bytes_eq {st : StateWithExtensionsMut S} {d : List UInt8}
    (hr : Respects id (s k) (s' k)) (hdata : (s k).data = st.bytes) (hdata' : (s' k).data = d) :
    (s k).owner = id ∨ d = st.bytes := by
  rcases hr with howner | ⟨-, hsame, -⟩
  · exact .inl howner
  · exact .inr (by rw [← hdata', hsame, hdata])

/-- Bytes that stay the same after a write through a reference. -/
theorem value_eq_of_bytes {V : Type} [BaseState S] [Extension V] {st : StateWithExtensionsMut S}
    {v v' : V} (h : st.borrow V = .ok (i, v)) (heq : (st.put i v').bytes = st.bytes) : v' = v := by
  refine eq_of_put_eq h ?_
  have hpre := append_cancel_left (append_cancel_left (append_cancel_left heq))
  exact hpre

theorem base_eq_of_bytes [BaseState S] {st : StateWithExtensionsMut S} (hv : st.Valid)
    (st' : StateWithExtensionsMut S) (hlen : st'.baseData = st.baseData)
    (heq : (packBase st').bytes = st.bytes) : st'.base = st.base := by
  have hdata : Pack.packIntoSlice st'.base st.baseData = st.baseData := by
    rw [packBase, hlen, bytes, bytes] at heq
    refine (append_inj heq ?_).1
    rw [hv.length_baseData]
    exact LawfulPack.length_packIntoSlice _ hv.length_baseData
  have hread := Pack.unpackUnchecked_packIntoSlice (v := st'.base) hv.length_baseData
  rw [hdata, (Pack.unpack_eq_ok.mp hv.base_eq).1] at hread
  exact (Except.ok.inj hread).symm

/-! ## Withdrawing from the mint -/

theorem mint_config_put {st : StateWithExtensionsMut Mint} (hp : st.Proper)
    (h : st.borrow TransferFeeConfig = .ok (i, config)) (config' : TransferFeeConfig)
    (hconfig : config'.fees = config.fees) :
    (st.put i config').Proper ∧ (st.put i config').record = st.record.put config' ∧
      SameMint st.record (st.record.put config') ∧
      st.record.withheldFees = config.withheldAmount.toNat ∧
      (st.record.put config').withheldFees = config'.withheldAmount.toNat := by
  obtain ⟨hat, hget⟩ := borrow_ok hp.area h
  refine ⟨hp.put hat _, (hat.put _).2.1, ?_, ?_, ?_⟩
  · rw [SameMint, get_put_same, hget, Option.map_some, Option.map_some, hconfig]
  · rw [withheldFees, hget]
  · rw [withheldFees, get_put_same]

theorem processWithdrawWithheldTokensFromMint_refines (hs : AllSound id s)
    (h : processWithdrawWithheldTokensFromMint id accounts s = .ok s')
    (hr : AllRespect id accounts s s') : Refines id request s s' := by
  simp only [processWithdrawWithheldTokensFromMint, checks, nextAccountInfo_eq_ok, ne_eq,
    not_not] at h
  obtain ⟨mint, _, rfl, dest, _, rfl, _, _, rfl, m, hm, i, config, hborrow, _, -, _, -,
    hne, st, hread, hmint, -, amount, hamount, rfl⟩ := h
  have hr₁ := hr mint (by simp)
  have hr₂ := hr dest (by simp)
  have hadd := checkedAdd_eq_some hamount
  have hdata₁ : (store (store s mint.key (m.put i { config with withheldAmount := 0 })) dest.key
      (packBase { st with base := { st.base with amount } }) mint.key).data =
      (m.put i { config with withheldAmount := 0 }).bytes := by
    rw [store, setData_of_ne _ (.symm hne), store, setData_same]
  by_cases hboth : (s mint.key).owner = id ∧ (s dest.key).owner = id
  · obtain ⟨howner, howner'⟩ := hboth
    obtain ⟨hp, hbook⟩ := hs.account howner' hread
    obtain ⟨hq, hbook'⟩ := hs.mint howner hm
    obtain ⟨hp', hsame⟩ := account_amount_edit hp { st.base with amount } rfl rfl rfl
    obtain ⟨hq', hrecord, hsame', hfees, hfees'⟩ :=
      mint_config_put hq hborrow { config with withheldAmount := 0 } rfl
    refine .of_two hs howner howner' (.of_proper_mint hq') (.of_proper_account hp') ?_
    rw [entryOf_mint hq'.toValid, entryOf_account hp'.toValid, hrecord]
    rw [← hmint] at hbook' ⊢
    refine .single (.withdraw dest.key st.record _ m.record _ config.withheldAmount.toNat hbook
      hbook' hsame hsame' rfl ?_ ?_)
    · rw [holds_packBase, holds, record_base]
      dsimp only
      omega
    · rw [hfees, hfees']
      exact Nat.zero_add _
  · -- one of the two is foreign, so nothing is withheld and both writes are quiet
    have hzero : config.withheldAmount = 0 := by
      rcases owned_or_bytes_eq hr₁ (unpack_eq_ok.mp hm).1 hdata₁ with howner | heq
      · rcases owned_or_bytes_eq hr₂ (unpack_eq_ok.mp hread).1
          (by rw [store, setData_same]) with howner' | heq
        · exact absurd ⟨howner, howner'⟩ hboth
        · have hbase := base_eq_of_bytes (unpack_eq_ok.mp hread).2
            { st with base := { st.base with amount } } rfl heq
          have hsame : amount = st.base.amount := congrArg Account.amount hbase
          rw [hsame] at hadd
          exact UInt64.toNat_inj.mp (show config.withheldAmount.toNat = 0 by omega)
      · exact (congrArg TransferFeeConfig.withheldAmount (value_eq_of_bytes hborrow heq)).symm
    have hsame : amount = st.base.amount := UInt64.toNat_inj.mp (by rw [hadd, hzero]; rfl)
    have hstep : Refines id request s
        (store s mint.key (m.put i { config with withheldAmount := 0 })) :=
      .of_mint_edit hs (by rwa [store, setData_of_ne _ (.symm hne)] at hr₁) hm fun hp =>
        mint_config_edit hp hborrow rfl hzero.symm
    have hkept : store s mint.key (m.put i { config with withheldAmount := 0 }) dest.key =
        s dest.key := setData_of_ne _ hne _
    refine hstep.trans (.of_account_edit hstep.sound (by rwa [hkept]) (by rwa [hkept]) fun hp =>
      account_base_edit_of_state hp rfl rfl rfl hsame)

/-! ## Harvesting one account -/

theorem holds_put_zero {r : Record Account} (hget : r.get TransferFeeAmount = some extension) :
    SameAccount r (r.put (TransferFeeAmount.mk 0)) ∧
      (r.put (TransferFeeAmount.mk 0)).holds + extension.withheldAmount.toNat = r.holds := by
  refine ⟨⟨rfl, rfl, by rw [get_put_same, hget]; rfl⟩, ?_⟩
  rw [holds, holds, withheld, withheld, get_put_same, hget]
  exact (Nat.add_assoc _ _ _).trans (by rw [base_put]; simp)

/-- The fee `x` that was withheld on the account at `k` is taken off it. -/
structure Harvested (id mintKey k : Pubkey) (x : UInt64) (s s' : Bank) (a a' : Record Account) :
    Prop where
  ne_mint : k ≠ mintKey
  sound : AllSound id s'
  frame : ∀ k', k' ≠ k → s' k' = s k'
  before : book id s k = .account a
  mint : a.base.mint = mintKey
  after : book id s' = update (book id s) k (.account a')
  same : SameAccount a a'
  holds : a'.holds + x.toNat = a.holds

theorem harvestFromAccount_ok (hs : AllSound id s)
    (h : harvestFromAccount id mintKey info s = .ok (some (x, s'))) :
    ∃ a a', Harvested id mintKey info.key x s s' a a' := by
  unfold harvestFromAccount at h
  obtain ⟨hne, h⟩ := failIf_bind_eq_ok.mp h
  split at h
  next => cases h
  next st hread =>
    split at h
    next => cases h
    next hchecks =>
      rw [not_or, not_not, not_not] at hchecks
      obtain ⟨hmint, howner⟩ := hchecks
      obtain ⟨found, hfound, h⟩ := bind_eq_ok.mp h
      cases found with
      | none => cases h
      | some p =>
        obtain ⟨_, _⟩ := p
        cases h
        obtain ⟨hp, hbook⟩ := hs.account howner hread
        obtain ⟨hat, hget⟩ := borrow_ok hp.area (orNone_eq_some.mp hfound)
        have hp' := hp.put hat (.mk 0)
        have hrecord := (hat.put (.mk 0)).2.1
        refine ⟨st.record, st.record.put (TransferFeeAmount.mk 0), hne,
          hs.setData (.of_proper_account hp'), fun k' hk' => setData_of_ne _ hk' _, hbook, hmint,
          ?_, (holds_put_zero hget).1, (holds_put_zero hget).2⟩
        rw [store, book_setData howner, entryOf_account hp'.toValid, hrecord]

/-! ## Harvesting to the mint -/

/-- What the loop does: it adds to the fees withheld on the mint, and does not write the mint. -/
structure HarvestedToMint (id mintKey : Pubkey) (request : Request)
    (config config' : TransferFeeConfig) (s s' : Bank) : Prop where
  fees : config'.fees = config.fees
  grows : config.withheldAmount.toNat ≤ config'.withheldAmount.toNat
  sound : AllSound id s'
  kept : s' mintKey = s mintKey
  /-- With the mint's configuration as the view has it. -/
  effects : ∀ r : Record Mint, Effects request (update (book id s) mintKey (.mint (r.put config)))
    (update (book id s') mintKey (.mint (r.put config')))
  /-- When the fees on the mint stay as they are, the accounts had none. -/
  quiet : config'.withheldAmount = config.withheldAmount → Effects request (book id s) (book id s')

variable (hs : AllSound id s)
include hs

theorem harvestToMint_ok (h : harvestToMint id mintKey infos config s = .ok (config', s')) :
    HarvestedToMint id mintKey request config config' s s' := by
  induction infos generalizing config s with
  | nil =>
    cases h
    exact ⟨rfl, le_refl _, hs, rfl, fun _ => .refl, fun _ => .refl⟩
  | cons info _ ih =>
    obtain ⟨found, hfound, h⟩ := bind_eq_ok.mp h
    cases found with
    | none => exact ih hs h
    | some p =>
      obtain ⟨x, _⟩ := p
      obtain ⟨amount, hamount, h⟩ := okOr_bind_eq_ok.mp h
      obtain ⟨a, a', hharvest⟩ := harvestFromAccount_ok hs hfound
      have hrest := ih hharvest.sound h
      have hadd := checkedAdd_eq_some hamount
      have hgrows := hrest.grows
      have hne := hharvest.ne_mint
      dsimp only at hadd hgrows
      refine ⟨hrest.fees, by omega, hrest.sound, hrest.kept.trans (hharvest.frame _ hne.symm),
        fun r => .head ?_ (hrest.effects r), fun heq => ?_⟩
      · have hbefore : update (book id s) mintKey (.mint (r.put config)) info.key =
            .account a := by
          rw [update_of_ne hne, hharvest.before]
        have hstep : Effect request _ _ := .harvest info.key a a' (r.put config)
          (r.put { config with withheldAmount := amount }) x.toNat hbefore
          (by rw [hharvest.mint, update_self]) hharvest.same
          (by rw [SameMint, get_put_same, get_put_same]; rfl) rfl hharvest.holds
          (by rwa [withheldFees, withheldFees, get_put_same, get_put_same])
        rw [hharvest.after, update_comm hne]
        rw [hharvest.mint, update_comm hne, update_idem] at hstep
        exact hstep
      · rw [heq] at hgrows
        have hamount' : amount = config.withheldAmount := UInt64.toNat_inj.mp (by omega)
        have hholds := hharvest.holds
        refine .head ?_ (hrest.quiet (heq.trans hamount'.symm))
        rw [hharvest.after]
        exact .editAccount info.key a a' hharvest.before hharvest.same (by omega)

theorem processHarvestWithheldTokensToMint_refines
    (h : processHarvestWithheldTokensToMint id accounts s = .ok s')
    (hr : AllRespect id accounts s s') : Refines id request s s' := by
  simp only [processHarvestWithheldTokensToMint, checks, nextAccountInfo_eq_ok] at h
  obtain ⟨mint, _, rfl, m, hm, i, config, hborrow, config', _, hloop, rfl⟩ := h
  have hharvest : HarvestedToMint id mint.key request _ _ _ _ := harvestToMint_ok hs hloop
  have hkept := hharvest.kept
  obtain ⟨hbytes, _⟩ := unpack_eq_ok.mp hm
  rcases owned_or_bytes_eq (hr mint (by simp)) hbytes (by rw [store, setData_same]) with
    howner | heq
  · obtain ⟨hp, hbook⟩ := hs.mint howner hm
    obtain ⟨-, -, hsame, hfees, hfees'⟩ := mint_config_put hp hborrow _ rfl
    obtain ⟨hp', hrecord, -⟩ := mint_config_put hp hborrow _ hharvest.fees
    refine ⟨?_, hharvest.sound.setData (.of_proper_mint hp')⟩
    rw [store, book_setData (by rwa [hkept]), entryOf_mint hp'.toValid, hrecord]
    exact .head (.editMint mint.key m.record (m.record.put config) hbook hsame rfl
      (hfees'.trans hfees.symm)) (hharvest.effects m.record)
  · have heq' : (m.put i config').bytes = m.bytes := heq
    have hsame := value_eq_of_bytes hborrow heq'
    rw [store, heq', ← hbytes, ← hkept, setData_self]
    exact ⟨hharvest.quiet (by rw [hsame]), hharvest.sound⟩

omit hs

/-! ## Withdrawing from accounts -/

/-- What the loop does to the view of the destination: its amount grows, its area may change. -/
def Credited (st st' : StateWithExtensionsMut Account) : Prop :=
  ∃ tlv amount, st' = { st with tlvData := tlv, base := { st.base with amount } } ∧
    tlv.length = st.tlvData.length ∧ st.base.amount.toNat ≤ amount.toNat

theorem Credited.trans {st₂ : StateWithExtensionsMut Account} (h : Credited st st₁)
    (h' : Credited st₁ st₂) : Credited st st₂ := by
  obtain ⟨_, _, rfl, hlen, hle⟩ := h
  obtain ⟨tlv', amount', rfl, hlen', hle'⟩ := h'
  exact ⟨tlv', amount', rfl, hlen'.trans hlen, hle.trans hle'⟩

theorem Credited.baseData_eq (h : Credited st st') : st'.baseData = st.baseData := by
  obtain ⟨_, _, rfl, -⟩ := h
  rfl

/-- The credited view, packed, is one of an initialised account. -/
theorem Credited.valid (h : Credited st st') (hv : st.Valid) : (packBase st').Valid := by
  obtain ⟨_, _, rfl, hlen, -⟩ := h
  exact (hv.withTlv hlen).withBase (isInitialized_of_state_eq _ hv.base_eq rfl)

theorem credit_ok (h : credit st x = .ok st') :
    ∃ amount, st' = { st with base := { st.base with amount } } ∧
      amount.toNat = st.base.amount.toNat + x.toNat := by
  simp only [credit, checks] at h
  obtain ⟨amount, hamount, rfl⟩ := h
  exact ⟨amount, rfl, checkedAdd_eq_some hamount⟩

theorem credit_record (h : credit st x = .ok st') :
    st'.tlvData = st.tlvData ∧ st'.base.mint = st.base.mint ∧
      SameAccount st.record st'.record ∧ st'.record.holds = st.record.holds + x.toNat := by
  obtain ⟨amount, rfl, _⟩ := credit_ok h
  refine ⟨rfl, rfl, ⟨rfl, rfl, rfl⟩, ?_⟩
  rw [record_withBase, holds, holds, record_base]
  show amount.toNat + st.record.withheld = _
  omega

/-- The rounds of the loop: an account that was skipped, the destination itself, another
account. -/
theorem withdrawFromAccounts_cons
    (h : withdrawFromAccounts id mintKey dst (info :: infos) st s = .ok (st', s')) :
    withdrawFromAccounts id mintKey dst infos st s = .ok (st', s') ∨
    (∃ i extension st₁, st.borrow TransferFeeAmount = .ok (i, extension) ∧
      credit (st.put i (TransferFeeAmount.mk 0)) extension.withheldAmount = .ok st₁ ∧
      withdrawFromAccounts id mintKey dst infos st₁ s = .ok (st', s')) ∨
    (∃ x s₁ st₁, info.key ≠ dst ∧ harvestFromAccount id mintKey info s = .ok (some (x, s₁)) ∧
      credit st x = .ok st₁ ∧ withdrawFromAccounts id mintKey dst infos st₁ s₁ = .ok (st', s')) := by
  rw [withdrawFromAccounts] at h
  split at h
  next =>
    obtain ⟨found, hfound, h⟩ := bind_eq_ok.mp h
    cases found with
    | none => cases h
    | some p =>
      obtain ⟨st₁, hcredit, h⟩ := bind_eq_ok.mp h
      exact Or.inr (Or.inl ⟨p.1, p.2, st₁, orNone_eq_some.mp hfound, hcredit, h⟩)
  next hne =>
    obtain ⟨found, hfound, h⟩ := bind_eq_ok.mp h
    cases found with
    | none => exact Or.inl h
    | some p =>
      obtain ⟨st₁, hcredit, h⟩ := bind_eq_ok.mp h
      exact Or.inr (Or.inr ⟨p.1, p.2, st₁, hne, hfound, hcredit, h⟩)

theorem credited_self (hborrow : st.borrow TransferFeeAmount = .ok (i, extension))
    (h : credit (st.put i (TransferFeeAmount.mk 0)) extension.withheldAmount = .ok st₁) :
    Credited st st₁ := by
  obtain ⟨amount, rfl, hadd⟩ := credit_ok h
  refine ⟨_, amount, rfl, length_put hborrow _, ?_⟩
  rw [hadd]
  exact Nat.le_add_right _ _

theorem credited_other (h : credit st x = .ok st₁) : Credited st st₁ := by
  obtain ⟨amount, rfl, _⟩ := credit_ok h
  exact ⟨st.tlvData, amount, rfl, rfl, by omega⟩

/-- What the loop does: it credits the view of the destination, and does not write it. -/
structure WithdrawnTo (id mintKey dst : Pubkey) (request : Request)
    (st st' : StateWithExtensionsMut Account) (s s' : Bank) : Prop where
  sound : AllSound id s'
  kept : s' dst = s dst
  credited : Credited st st'
  /-- With the destination as the view has it. -/
  effects : st.HasArea → st.base.mint = mintKey → st'.HasArea ∧ Effects request
    (update (book id s) dst (.account st.record)) (update (book id s') dst (.account st'.record))
  /-- When the amount of the destination stays as it is, nothing was withheld on the accounts. -/
  quiet : st'.base.amount = st.base.amount → Effects request (book id s) (book id s')

variable (hs : AllSound id s)
include hs

theorem withdrawFromAccounts_ok
    (h : withdrawFromAccounts id mintKey dst infos st s = .ok (st', s')) :
    WithdrawnTo id mintKey dst request st st' s s' := by
  induction infos generalizing st s with
  | nil =>
    cases h
    exact ⟨hs, rfl, ⟨st'.tlvData, st'.base.amount, rfl, rfl, le_refl _⟩,
      fun ha _ => ⟨ha, .refl⟩, fun _ => .refl⟩
  | cons info _ ih =>
    rcases withdrawFromAccounts_cons h with h | ⟨i, extension, st₁, hborrow, hcredit, h⟩ |
      ⟨x, s₁, st₁, hne, hfound, hcredit, h⟩
    · exact ih hs h
    · have hrest := ih hs h
      refine ⟨hrest.sound, hrest.kept, (credited_self hborrow hcredit).trans hrest.credited,
        fun ha hmint => ?_, fun heq => ?_⟩
      · -- the destination's own withheld fee becomes amount
        obtain ⟨hat, hget⟩ := borrow_ok ha hborrow
        obtain ⟨hat', hrecord, -⟩ := hat.put (.mk 0)
        obtain ⟨htlv, hmint₁, hsame₁, hholds₁⟩ := credit_record hcredit
        obtain ⟨ha', heffects⟩ := hrest.effects (hat'.hasArea.congr htlv) (hmint₁.trans hmint)
        obtain ⟨hsame, hholds⟩ := holds_put_zero hget
        rw [hrecord] at hsame₁ hholds₁
        refine ⟨ha', .head ?_ heffects⟩
        have hstep : Effect request _ _ := .editAccount dst st.record st₁.record
          (update_self dst (.account st.record) (book id s)) (hsame.trans hsame₁)
          (hholds₁.trans hholds)
        rwa [update_idem] at hstep
      · obtain ⟨_, amount, rfl, -, hle⟩ := hrest.credited
        obtain ⟨amount₁, rfl, hadd⟩ := credit_ok hcredit
        refine hrest.quiet ?_
        have hamount : amount = st.base.amount := heq
        have hle : amount₁.toNat ≤ amount.toNat := hle
        have hadd : amount₁.toNat = st.base.amount.toNat + extension.withheldAmount.toNat := hadd
        exact UInt64.toNat_inj.mp (show amount.toNat = amount₁.toNat by rw [hamount] at hle ⊢; omega)
    · obtain ⟨a, a', hharvest⟩ := harvestFromAccount_ok hs hfound
      have hrest := ih hharvest.sound h
      refine ⟨hrest.sound, hrest.kept.trans (hharvest.frame _ hne.symm),
        (credited_other hcredit).trans hrest.credited, fun ha hmint => ?_, fun heq => ?_⟩
      · obtain ⟨htlv, hmint₁, hsame₁, hholds₁⟩ := credit_record hcredit
        obtain ⟨ha', heffects⟩ := hrest.effects (ha.congr htlv) (hmint₁.trans hmint)
        refine ⟨ha', .head ?_ heffects⟩
        have hstep : Effect request _ _ := .pay info.key dst a a' st.record st₁.record x.toNat hne
          (by rw [update_of_ne hne, hharvest.before])
          (update_self dst (.account st.record) (book id s))
          (hharvest.mint.trans hmint.symm) hharvest.same hsame₁ hharvest.holds hholds₁
        rw [hharvest.after]
        rwa [update_comm hne.symm, update_idem] at hstep
      · obtain ⟨_, amount, rfl, -, hle⟩ := hrest.credited
        obtain ⟨amount₁, rfl, _⟩ := credit_ok hcredit
        have hamount : amount = st.base.amount := heq
        have hle : amount₁.toNat ≤ amount.toNat := hle
        have hholds := hharvest.holds
        rw [hamount] at hle
        refine .head ?_ (hrest.quiet (UInt64.toNat_inj.mp
          (show amount.toNat = amount₁.toNat by rw [hamount]; omega)))
        rw [hharvest.after]
        exact .editAccount info.key a a' hharvest.before hharvest.same (by omega)

theorem processWithdrawWithheldTokensFromAccounts_refines {n : UInt8}
    (h : processWithdrawWithheldTokensFromAccounts id accounts n s = .ok s')
    (hr : AllRespect id accounts s s') : Refines id request s s' := by
  simp only [processWithdrawWithheldTokensFromAccounts, checks, nextAccountInfo_eq_ok, ne_eq,
    not_not] at h
  obtain ⟨_, _, rfl, dest, _, rfl, _, _, rfl, _, -, _, -, _, -, _, -, -, st,
    hread, hmint, -, st', _, hloop, rfl⟩ := h
  have hdrawn : WithdrawnTo id _ dest.key request _ _ _ _ := withdrawFromAccounts_ok hs hloop
  have hkept := hdrawn.kept
  obtain ⟨hbytes, hv⟩ := unpack_eq_ok.mp hread
  rcases owned_or_bytes_eq (hr dest (by simp)) hbytes (by rw [store, setData_same]) with
    howner | heq
  · obtain ⟨hp, hbook⟩ := hs.account howner hread
    obtain ⟨ha', heffects⟩ := hdrawn.effects hp.area hmint
    have hv' := hdrawn.credited.valid hp.toValid
    refine ⟨?_, hdrawn.sound.setData (.of_account hv'.toShape hv'.type_eq (ha'.congr rfl))⟩
    rw [store, book_setData (by rwa [hkept]), entryOf_account hv', record_packBase]
    rwa [← hbook, update_eq_self] at heffects
  · have heq' : (packBase st').bytes = st.bytes := heq
    have hbase := base_eq_of_bytes hv st' hdrawn.credited.baseData_eq heq'
    rw [store, heq', ← hbytes, ← hkept, setData_self]
    exact ⟨hdrawn.quiet (congrArg Account.amount hbase), hdrawn.sound⟩

end SolanaPrograms.Token2022
