import SolanaPrograms.Token.Effect

/-!
# Every handler has one of the effects

One lemma for each check and each handler of the processor: when it returns `.ok`, what it
established and what it wrote. `process_effect` collects them.
-/

namespace SolanaPrograms.Token

open Outcome SolanaPrograms.Runtime List Bank Pack Option
open Function (update)

variable {id : Pubkey} {s s' : Bank} {accounts : List AccountMeta} {ix : TokenInstruction}

/-! ## Checks -/

variable {u : Unit} {signers : List AccountMeta} {a a' : Account} {x : UInt64}
  {authority info : AccountMeta} {decimals : Option UInt8} {ty : AuthorityType} {new : Option Pubkey}
  {rent : Rent} {flag : Bool} {src dst : Pubkey}

theorem checkAccountOwner_eq_ok :
    checkAccountOwner id s info = .ok u ↔ (s info.key).owner = id := by
  rw [checkAccountOwner, failIf_eq_ok, not_not, eq_comm]

theorem checkAccountOwnersIf_ok {c : Prop} [Decidable c] {info₁ info₂ : AccountMeta}
    (h : checkAccountOwnersIf c id s info₁ info₂ = .ok u) (hc : c) :
    (s info₁.key).owner = id ∧ (s info₂.key).owner = id := by
  rw [checkAccountOwnersIf, if_pos hc] at h
  obtain ⟨_, h₁, h₂⟩ := bind_eq_ok.mp h
  exact ⟨checkAccountOwner_eq_ok.mp h₁, checkAccountOwner_eq_ok.mp h₂⟩

theorem validateOwner_authorized {key : Pubkey}
    (hsuffix : info :: signers <:+ accounts) (h : validateOwner id s key info signers = .ok u) :
    Authorized id s accounts key :=
  ⟨info, signers, hsuffix, h⟩

theorem authorizeDebit_ok (hsuffix : authority :: signers <:+ accounts)
    (h : authorizeDebit id s a x authority signers true = .ok a') :
    DebitAuthority id s accounts a authority.key x a' := by
  unfold authorizeDebit at h
  split at h
  next hdelegate =>
    obtain ⟨_, hauth, h⟩ := bind_eq_ok.mp h
    obtain ⟨_, h⟩ := failIf_bind_eq_ok.mp h
    obtain ⟨left, hleft, h⟩ := okOr_bind_eq_ok.mp h
    cases pure_eq_ok.mp h
    have hsub := checkedSub_eq_some hleft
    exact .delegate _ left hdelegate (validateOwner_authorized hsuffix hauth) (by omega) rfl
  next hdelegate =>
    obtain ⟨_, hauth, h⟩ := bind_eq_ok.mp h
    cases pure_eq_ok.mp h
    refine .owner hdelegate (validateOwner_authorized hsuffix hauth) ?_
    simp only [validateOwner, checks, ne_eq, not_not] at hauth
    exact hauth.1

/-- A debit changes the allowance of an account at most. -/
theorem DebitAuthority.same {authority : Pubkey} (h : DebitAuthority id s accounts a authority x a')
    : a'.mint = a.mint ∧ a'.amount = a.amount ∧ a'.state = a.state ∧ a'.isNative = a.isNative := by
  cases h <;> exact ⟨rfl, rfl, rfl, rfl⟩

theorem isInitialized_of_state_eq {data : List UInt8} (a' : Account)
    (ha : unpack Account data = .ok a) (h : a'.state = a.state) : isInitialized a' = true := by
  have hinit : a.isInitialized = true := unpack_isInitialized ha
  show a'.isInitialized = true
  rwa [Account.isInitialized, h]

/-! ## Transfers -/

theorem moveLamports_ok (hne : src ≠ dst) (h : moveLamports s src dst x = .ok s') :
    (s' src).lamports.toNat + x.toNat = (s src).lamports.toNat ∧
      (s' dst).lamports.toNat = (s dst).lamports.toNat + x.toNat ∧
      (∀ k, (s' k).owner = (s k).owner ∧ (s' k).data = (s k).data) ∧
      SameExcept s s' [src, dst] := by
  obtain ⟨_, hy, h⟩ := okOr_bind_eq_ok.mp h
  obtain ⟨_, hz, h⟩ := okOr_bind_eq_ok.mp h
  cases pure_eq_ok.mp h
  rw [setLamports_of_ne s hne.symm] at hz
  have hy := checkedSub_eq_some hy
  have hz := checkedAdd_eq_some hz
  refine ⟨?_, ?_, fun k => ⟨by simp, by simp⟩, ?_⟩
  · rw [setLamports_of_ne _ hne, setLamports_same]
    dsimp only
    omega
  · simpa using hz
  · intro k hk
    simp only [mem_cons, not_mem_nil, or_false, not_or] at hk
    rw [setLamports_of_ne _ hk.2, setLamports_of_ne _ hk.1]

theorem settleTransfer_ok {b : Account} (hne : src ≠ dst)
    (h : settleTransfer src dst a b x s = .ok s') :
    ∃ y z : UInt64, y.toNat + x.toNat = a.amount.toNat ∧ z.toNat = b.amount.toNat + x.toNat ∧
      (s' src).data = packIntoSlice { a with amount := y } (s src).data ∧
      (s' dst).data = packIntoSlice { b with amount := z } (s dst).data ∧
      (∀ k, (s' k).owner = (s k).owner) ∧ LamportsMoved s s' src dst x a.isNative.isSome ∧
      SameExcept s s' [src, dst] := by
  obtain ⟨y, hy, h⟩ := okOr_bind_eq_ok.mp h
  obtain ⟨z, hz, h⟩ := okOr_bind_eq_ok.mp h
  obtain ⟨_, hs₁, h⟩ := bind_eq_ok.mp h
  obtain ⟨_, hs₂, h⟩ := bind_eq_ok.mp h
  obtain ⟨hdata, hdata', hfunds, hframe⟩ := double_write hne hs₂ h
  have hy := checkedSub_eq_some hy
  have hz := checkedAdd_eq_some hz
  refine ⟨y, z, by omega, hz, ?_⟩
  unfold LamportsMoved
  unfold moveBacking at hs₁
  split at hs₁
  next hnative =>
    obtain ⟨hsrc, hdst, hkept, hframe₁⟩ := moveLamports_ok hne hs₁
    refine ⟨by rw [hdata, (hkept src).2], by rw [hdata', (hkept dst).2],
      fun k => (hfunds k).1.trans (hkept k).1, ?_, fun k hk => (hframe k hk).trans (hframe₁ k hk)⟩
    rw [if_pos hnative, (hfunds src).2, (hfunds dst).2]
    exact ⟨hsrc, hdst⟩
  next hnative =>
    cases hs₁
    rw [if_neg hnative]
    exact ⟨hdata, hdata', fun k => (hfunds k).1, ⟨(hfunds src).2, (hfunds dst).2⟩, hframe⟩

/-- Where `process_transfer` finds its parties. -/
theorem nextExpectedMint_ok (x : UInt64) (src : AccountMeta) {dst : AccountMeta}
    {it : List AccountMeta} {e : Option (AccountMeta × UInt8)}
    (h : nextExpectedMint decimals it = .ok (e, dst :: authority :: signers)) :
    transferDebit x decimals (src :: it) = some ⟨src.key, some dst.key, authority.key, x⟩ ∧
      dst :: authority :: signers <:+ src :: it := by
  unfold nextExpectedMint at h
  split at h
  next d =>
    simp only [nextAccountInfo_bind_eq_ok, pure_eq_ok, Prod.mk.injEq] at h
    obtain ⟨info, _, rfl, rfl, rfl⟩ := h
    exact ⟨rfl, [src, info], rfl⟩
  next =>
    cases h
    exact ⟨rfl, [src], rfl⟩

variable (hr : AllRespect id accounts s s')
include hr

theorem processTransfer_effect (hdebit : debitOf ix accounts = transferDebit x decimals accounts)
    (happroval : approvalOf ix accounts = none)
    (h : processTransfer id accounts x decimals s = .ok s') :
    Effect id s s' accounts ix := by
  simp only [processTransfer, checks, nextAccountInfo_eq_ok, ne_eq, not_not] at h
  obtain ⟨src, _, rfl, _, _, hexpected, dst, _, rfl, authority, _, rfl, a, ha, b, hb,
    hfrozen, -, hmint, _, -, a', hauth, _, hchecked, h⟩ := h
  obtain ⟨hparties, hsuffix⟩ := nextExpectedMint_ok x src hexpected
  have hfrozen := not_or.mp hfrozen
  rw [hparties] at hdebit
  by_cases hself : src.key = dst.key
  · -- a self transfer returns before anything is written
    rw [if_pos (by simpa using hself)] at h
    cases pure_eq_ok.mp h
    refine .idle rfl ?_ ?_
    · intro d hd
      rw [hdebit] at hd
      cases hd
      exact congrArg some hself.symm
    · intro k x hk
      rw [happroval] at hk
      cases hk
  · rw [if_neg (by simpa using hself)] at h
    rw [show (!decide (src.key = dst.key)) = true by simpa using hself] at hauth
    have hauth := authorizeDebit_ok ((suffix_cons dst _).trans hsuffix) hauth
    obtain ⟨y, z, hy, hz, hdata, hdata', howner, hlamports, hframe⟩ := settleTransfer_ok hself h
    obtain ⟨-, hamount, hstate, hnative⟩ := hauth.same
    rw [hamount] at hy
    rw [hnative] at hlamports
    have hinit := isInitialized_of_state_eq { a' with amount := y } ha hstate
    have hinit' := isInitialized_of_state_eq { b with amount := z } hb rfl
    -- foreign accounts are caught by the owner check or by the changed amount
    have howned : (s src.key).owner = id ∧ (s dst.key).owner = id := by
      by_cases hx : x = 0
      · exact checkAccountOwnersIf_ok hchecked (.inr hx)
      · have hpos := toNat_pos_of_ne_zero hx
        constructor
        · refine owned_of_write (hr src (by simp)) (unpack_eq_ok.mp ha).1 hdata fun heq => ?_
          have hya : y = a.amount := congrArg Account.amount heq
          rw [hya] at hy
          omega
        · refine owned_of_write (hr dst (hsuffix.subset (by simp))) (unpack_eq_ok.mp hb).1 hdata'
            fun heq => ?_
          have hzb : z = b.amount := congrArg Account.amount heq
          rw [hzb] at hz
          omega
    exact .transferred src.key dst.key a b a' authority.key x y z hdebit happroval hself
      (stateAt_eq_some.mpr ⟨howned.1, ha⟩) (stateAt_eq_some.mpr ⟨howned.2, hb⟩) hmint hauth hy hz
      (stateAt_of_write ((howner _).trans howned.1) (unpack_length ha) hdata hinit)
      (stateAt_of_write ((howner _).trans howned.2) (unpack_length hb) hdata' hinit')
      hlamports hframe (eq_false_of_ne_true hfrozen.1) (eq_false_of_ne_true hfrozen.2)

/-! ## Delegates and authorities -/

omit hr in
theorem Effect.of_unchanged (hix : Plain ix accounts) :
    Effect id s s accounts ix := by
  refine .idle rfl ?_ ?_
  · intro d hd
    rw [hix.1] at hd
    cases hd
  · intro k x hk
    rw [hix.2] at hk
    cases hk

omit hr in
/-- The handlers that rewrite one account, foreign or not. -/
theorem Effect.of_account_write {k : Pubkey} (hix : Plain ix accounts)
    (ha : unpack Account (s k).data = .ok a) (hw : packInto s k a' = .ok s')
    (hinit : a'.isInitialized = true) (hr : Respects id (s k) (s' k)) (hmint : a'.mint = a.mint)
    (hamount : a'.amount = a.amount) (hnative : a'.isNative = a.isNative)
    (hdelegated : a'.delegatedAmount ≤ a.delegatedAmount)
    (hposted : AccountUpdate id s s' k a a' → Posted id s s' accounts) :
    Effect id s s' accounts ix := by
  rcases single_write ha hw hinit hr with ⟨rfl, hnone⟩ | ⟨hbefore, hafter, hfunds, hframe⟩
  · exact .of_unchanged hix
  · have hupd : AccountUpdate id s s' k a a' := ⟨hbefore, hafter, hfunds, hframe⟩
    exact .accountUpdated k a a' hix hupd hmint hamount hnative hdelegated (hposted hupd)

theorem processApprove_effect (hdebit : debitOf ix accounts = none)
    (happroval : approvalOf ix accounts = accounts.head?.map fun a => (a.key, x))
    (h : processApprove id accounts x decimals s = .ok s') : Effect id s s' accounts ix := by
  simp only [processApprove, checks, nextAccountInfo_eq_ok] at h
  obtain ⟨src, it, rfl, _, _, hexpected, delegate, _, rfl, _, _, rfl, a, ha, hfrozen,
    _, -, _, hauth, hw⟩ := h
  obtain ⟨-, hsuffix⟩ := nextExpectedMint_ok x src hexpected
  rcases single_write ha hw (isInitialized_of_state_eq _ ha rfl) (hr src (by simp)) with
    ⟨rfl, hnone⟩ | ⟨hbefore, hafter, hfunds, hframe⟩
  · refine .idle rfl ?_ ?_
    · intro d hd
      rw [hdebit] at hd
      cases hd
    · intro k y hk
      rw [happroval] at hk
      cases hk
      exact hnone
  · exact .approved src.key a delegate.key x hdebit happroval
      (validateOwner_authorized ((suffix_cons delegate _).trans hsuffix) hauth)
      ⟨hbefore, hafter, hfunds, hframe⟩ (eq_false_of_ne_true hfrozen)

theorem processRevoke_effect (hix : Plain ix accounts) (h : processRevoke id accounts s = .ok s') :
    Effect id s s' accounts ix := by
  simp only [processRevoke, checks, nextAccountInfo_eq_ok] at h
  obtain ⟨src, _, rfl, a, ha, _, _, rfl, hfrozen, _, hauth, hw⟩ := h
  refine .of_account_write hix ha hw (isInitialized_of_state_eq _ ha rfl) (hr src (by simp)) rfl rfl
    rfl UInt64.zero_le fun hupd => .call (.revoke src.key a.owner) (Tokens.byOwner_some.mpr
      ⟨_, book_account hupd.before, ⟨eq_false_of_ne_true hfrozen, rfl, ?_⟩, hupd.book.symm⟩)
  exact (validateOwner_authorized ⟨[src], rfl⟩ hauth).signs

omit hr in
/-- `SetAuthority` changes neither balance nor kind of an account and never adds allowance. It takes
the owner of the account, or its close authority. -/
theorem setAccountAuthority_ok (hsuffix : authority :: signers <:+ accounts)
    (h : setAccountAuthority id s a ty new authority signers = .ok a') :
    a'.mint = a.mint ∧ a'.amount = a.amount ∧ a'.state = a.state ∧ a'.isNative = a.isNative ∧
      a'.delegatedAmount ≤ a.delegatedAmount ∧
      ∀ k, accountAt id s k = some a → ∃ i, Tokens.exec (signs id s accounts) (handedOver id s)
        (book id s) i = some (update (book id s) k (.account a'.token)) := by
  obtain ⟨hfrozen, h⟩ := failIf_bind_eq_ok.mp h
  have hfrozen : a.isFrozen = false := eq_false_of_ne_true hfrozen
  cases ty with
  | accountOwner =>
    simp only [checks] at h
    obtain ⟨_, hauth, owner, _, rfl⟩ := h
    refine ⟨rfl, rfl, rfl, rfl, UInt64.zero_le, fun k ha => ?_⟩
    exact ⟨.setAuthority k a.owner .accountOwner (some owner), Tokens.byOwner_some.mpr
      ⟨_, book_account ha, ⟨hfrozen, rfl, (validateOwner_authorized hsuffix hauth).signs⟩, rfl⟩⟩
  | closeAccount =>
    simp only [checks] at h
    obtain ⟨_, hauth, rfl⟩ := h
    refine ⟨rfl, rfl, rfl, rfl, UInt64.le_refl _, fun k ha => ?_⟩
    refine ⟨.setAuthority k (a.closeAuthority.getD a.owner) .closeAccount new, ?_⟩
    simp only [Tokens.exec, Tokens.setAuthority, bind_eq_bind, bind_some,
      Tokens.Book.account?_eq_some.mpr (book_account ha)]
    exact if_pos ⟨hfrozen, rfl, (validateOwner_authorized hsuffix hauth).signs⟩
  | mintTokens => cases h
  | freezeAccount => cases h

omit hr in
theorem setMintAuthority_ok {m m' : Mint} (hsuffix : authority :: signers <:+ accounts)
    (h : setMintAuthority id s m ty new authority signers = .ok m') :
    m'.supply = m.supply ∧ m'.isInitialized = m.isInitialized ∧
      ∀ k, mintAt id s k = some m → ∃ i, Tokens.exec (signs id s accounts) (handedOver id s)
        (book id s) i = some (update (book id s) k (.mint m'.token)) := by
  unfold setMintAuthority at h
  cases ty with
  | mintTokens =>
    simp only [checks] at h
    obtain ⟨x, hx, _, hauth, rfl⟩ := h
    refine ⟨rfl, rfl, fun k hm => ⟨.setAuthority k x .mintTokens new, ?_⟩⟩
    simp [Tokens.exec, Tokens.setAuthority, Tokens.Book.mint?_eq_some.mpr (book_mint hm),
      Mint.token, hx, (validateOwner_authorized hsuffix hauth).signs]
  | freezeAccount =>
    simp only [checks] at h
    obtain ⟨x, hx, _, hauth, rfl⟩ := h
    refine ⟨rfl, rfl, fun k hm => ⟨.setAuthority k x .freezeAccount new, ?_⟩⟩
    simp [Tokens.exec, Tokens.setAuthority, Tokens.Book.mint?_eq_some.mpr (book_mint hm),
      Mint.token, hx, (validateOwner_authorized hsuffix hauth).signs]
  | accountOwner => cases h
  | closeAccount => cases h

theorem processSetAuthority_effect (hix : Plain ix accounts)
    (h : processSetAuthority id accounts ty new s = .ok s') :
    Effect id s s' accounts ix := by
  simp only [processSetAuthority, checks, nextAccountInfo_eq_ok] at h
  obtain ⟨info, _, rfl, _, _, rfl, h⟩ := h
  split at h
  · simp only [bind_eq_ok] at h
    obtain ⟨_, ha, _, hset, hw⟩ := h
    obtain ⟨hmint, hamount, hstate, hnative, hdelegated, hexec⟩ :=
      setAccountAuthority_ok (suffix_cons info _) hset
    refine .of_account_write hix ha hw (isInitialized_of_state_eq _ ha hstate) (hr info (by simp))
      hmint hamount hnative hdelegated fun hupd => ?_
    obtain ⟨i, hi⟩ := hexec _ hupd.before
    exact .call i (by rw [hi, hupd.book])
  · split at h
    · simp only [bind_eq_ok] at h
      obtain ⟨m, hm, m', hset, hw⟩ := h
      obtain ⟨hsupply, hinit, hexec⟩ := setMintAuthority_ok (suffix_cons info _) hset
      have hinit' : isInitialized m' = true :=
        hinit.trans (unpack_isInitialized hm)
      rcases single_write hm hw hinit' (hr info (by simp)) with
        ⟨rfl, _⟩ | ⟨hbefore, hafter, hfunds, hframe⟩
      · exact .of_unchanged hix
      · obtain ⟨i, hi⟩ := hexec _ hbefore
        exact .mintUpdated info.key m m' hix ⟨hbefore, hafter, hfunds, hframe⟩ hsupply
          (.call i (by rw [hi, book_update hframe, book_mint hafter]))
    · cases h

theorem processToggleFreezeAccount_effect {freeze : Bool} (hix : Plain ix accounts)
    (h : processToggleFreezeAccount id accounts freeze s = .ok s') :
    Effect id s s' accounts ix := by
  simp only [processToggleFreezeAccount, checks, nextAccountInfo_eq_ok] at h
  obtain ⟨src, _, rfl, mint, _, rfl, _, _, rfl, a, ha, hfrozen, hnative, hmintKey, m, hm, x, hx, _,
    hauth, hw⟩ := h
  refine .of_account_write hix ha hw ?_ (hr src (by simp)) rfl rfl rfl (UInt64.le_refl _)
    fun hupd => ?_
  · cases freeze <;> rfl
  · have hnone : a.isNative = none := by simpa using hnative
    have hkey : mint.key = a.mint := by simpa using hmintKey
    have hbook := hupd.book
    rw [show Account.token _ = { a.token with frozen := freeze } by cases freeze <;> rfl] at hbook
    by_cases howner : (s mint.key).owner = id
    · have hm : mintAt id s a.mint = some m := stateAt_eq_some.mpr (hkey ▸ ⟨howner, hm⟩)
      refine .call (.setFrozen src.key x freeze) ?_
      simp only [Tokens.exec, bind_eq_bind, bind_some, hbook,
        Tokens.Book.account?_eq_some.mpr (book_account hupd.before),
        show (book id s).mint? a.token.mint = some m.token from
          Tokens.Book.mint?_eq_some.mpr (book_mint hm)]
      exact if_pos ⟨Ne.symm hfrozen, by simp [Account.token, hnone], hx,
        (validateOwner_authorized ⟨[src, mint], rfl⟩ hauth).signs⟩
    · -- the mint is not one of the program
      refine .foreign src.key a.token freeze (fun hall => ?_) (book_account hupd.before) hbook
      exact hall _ _ hupd.before hnone (stateAt_of_owner_ne (hkey ▸ howner))

/-! ## Minting and burning -/

omit hr in
/-- A write of an amount and a supply, as both `process_mint_to` and `process_burn` end: a
foreign account or mint is caught by the owner check or by the change. -/
theorem supply_write {k mintKey : Pubkey} {m : Mint} {y z : UInt64} {s₁ : Bank}
    (ha : unpack Account (s k).data = .ok a) (hm : unpack Mint (s mintKey).data = .ok m)
    (h₁ : packInto s k { a' with amount := y } = .ok s₁)
    (h₂ : packInto s₁ mintKey { m with supply := z } = .ok s') (hstate : a'.state = a.state)
    (hr : Respects id (s k) (s' k)) (hr' : Respects id (s mintKey) (s' mintKey))
    (howned : x = 0 → (s k).owner = id ∧ (s mintKey).owner = id)
    (hy : y = a.amount → x.toNat = 0) (hz : z = m.supply → x.toNat = 0) :
    accountAt id s k = some a ∧ mintAt id s mintKey = some m ∧
      accountAt id s' k = some { a' with amount := y } ∧
      mintAt id s' mintKey = some { m with supply := z } ∧
      SameFunds s s' k ∧ SameFunds s s' mintKey ∧ SameExcept s s' [k, mintKey] := by
  have hne := key_ne_of_lengths ha hm
  obtain ⟨hdata, hdata', hfunds, hframe⟩ := double_write hne h₁ h₂
  have howned : (s k).owner = id ∧ (s mintKey).owner = id := by
    by_cases hx : x = 0
    · exact howned hx
    · exact ⟨owned_of_write hr (unpack_eq_ok.mp ha).1 hdata
          fun heq => hx (UInt64.toNat_inj.mp (hy (congrArg Account.amount heq))),
        owned_of_write hr' (unpack_eq_ok.mp hm).1 hdata'
          fun heq => hx (UInt64.toNat_inj.mp (hz (congrArg Mint.supply heq)))⟩
  have hinit' : isInitialized { m with supply := z } = true :=
    (unpack_isInitialized hm : m.isInitialized = true)
  exact ⟨stateAt_eq_some.mpr ⟨howned.1, ha⟩, stateAt_eq_some.mpr ⟨howned.2, hm⟩,
    stateAt_of_write ((hfunds k).1.trans howned.1) (unpack_length ha) hdata
      (isInitialized_of_state_eq _ ha hstate),
    stateAt_of_write ((hfunds mintKey).1.trans howned.2) (unpack_length hm) hdata' hinit',
    hfunds k, hfunds mintKey, hframe⟩

/-- What `process_mint_to` established and wrote: the authority of the mint signed, and account and
mint grew by the same amount. -/
inductive Issued (id : Pubkey) (s s' : Bank) (accounts : List AccountMeta) (x : UInt64) : Prop
  | intro (mint dst owner : AccountMeta) (signers : List AccountMeta) (a : Account) (m : Mint)
      (authority : Pubkey) (y z : UInt64) (hlist : accounts = mint :: dst :: owner :: signers)
      (hdst : accountAt id s dst.key = some a) (hnative : a.isNative = none)
      (hmintKey : a.mint = mint.key) (hmint : mintAt id s mint.key = some m)
      (hauthority : m.mintAuthority = some authority) (hauth : Authorized id s accounts authority)
      (hy : y.toNat = a.amount.toNat + x.toNat) (hz : z.toNat = m.supply.toNat + x.toNat)
      (hdst' : accountAt id s' dst.key = some { a with amount := y })
      (hmint' : mintAt id s' mint.key = some { m with supply := z })
      (hfunds : SameFunds s s' dst.key) (hfunds' : SameFunds s s' mint.key)
      (hframe : SameExcept s s' [dst.key, mint.key]) (hfrozen : a.isFrozen = false)

theorem processMintTo_ok (h : processMintTo id accounts x decimals s = .ok s') :
    Issued id s s' accounts x := by
  simp only [processMintTo, checks, nextAccountInfo_eq_ok, ne_eq, not_not, Bool.not_eq_true,
    isSome_eq_false_iff, isNone_iff_eq_none] at h
  obtain ⟨mint, _, rfl, dst, _, rfl, owner, signers, rfl, a, ha, hfrozen, hnative, hmintKey, m, hm,
    _, -,
    authority, hauthority, _, hauth, _, hchecked, y, hy, z, hz, _, h₁, h₂⟩ := h
  have hy := checkedAdd_eq_some hy
  have hz := checkedAdd_eq_some hz
  obtain ⟨hbefore, hbefore', hafter, hafter', hfunds, hfunds', hframe⟩ :=
    supply_write (x := x) ha hm h₁ h₂ rfl (hr dst (by simp)) (hr mint (by simp))
      (fun hx => (checkAccountOwnersIf_ok hchecked hx).symm)
      (fun heq => by rw [heq] at hy; omega) (fun heq => by rw [heq] at hz; omega)
  exact ⟨mint, dst, owner, signers, a, m, authority, y, z, rfl, hbefore, hnative, hmintKey.symm,
    hbefore', hauthority, validateOwner_authorized ⟨[mint, dst], rfl⟩ hauth, hy, hz, hafter,
    hafter', hfunds, hfunds', hframe, hfrozen⟩

theorem processMintTo_effect (hix : Plain ix accounts)
    (h : processMintTo id accounts x decimals s = .ok s') : Effect id s s' accounts ix := by
  obtain ⟨mint, dst, _, _, a, m, authority, y, z, -, hdst, hnative, hmintKey, hmint, hauthority,
    hauth, hy, hz, hdst', hmint', hfunds, hfunds', hframe, hfrozen⟩ := processMintTo_ok hr h
  exact .minted dst.key mint.key a m x y z hix hdst hnative hmintKey hmint hy hz hdst' hmint'
    hfunds hfunds' hframe authority hauthority hauth hfrozen

omit hr in
theorem authorizeBurn_ok (hsuffix : authority :: signers <:+ accounts)
    (h : authorizeBurn id s a x authority signers = .ok a') :
    if a.isOwnedBySystemProgramOrIncinerator then a' = a
      else DebitAuthority id s accounts a authority.key x a' := by
  unfold authorizeBurn at h
  split at h
  next hsystem =>
    cases h
    rw [if_pos hsystem]
  next hsystem =>
    rw [if_neg hsystem]
    exact authorizeDebit_ok hsuffix h

/-- What `process_burn` established and wrote: account and mint shrank by the same amount. -/
inductive Retired (id : Pubkey) (s s' : Bank) (accounts : List AccountMeta) (x : UInt64) : Prop
  | intro (src mint authority : AccountMeta) (signers : List AccountMeta) (a a' : Account)
      (m : Mint) (y z : UInt64) (hlist : accounts = src :: mint :: authority :: signers)
      (hsrc : accountAt id s src.key = some a) (hnative : a.isNative = none)
      (hmintKey : a.mint = mint.key) (hmint : mintAt id s mint.key = some m)
      (hauth : if a.isOwnedBySystemProgramOrIncinerator then a' = a
        else DebitAuthority id s accounts a authority.key x a')
      (hy : y.toNat + x.toNat = a.amount.toNat) (hz : z.toNat + x.toNat = m.supply.toNat)
      (hsrc' : accountAt id s' src.key = some { a' with amount := y })
      (hmint' : mintAt id s' mint.key = some { m with supply := z })
      (hfunds : SameFunds s s' src.key) (hfunds' : SameFunds s s' mint.key)
      (hframe : SameExcept s s' [src.key, mint.key]) (hfrozen : a.isFrozen = false)

theorem processBurn_ok (h : processBurn id accounts x decimals s = .ok s') :
    Retired id s s' accounts x := by
  simp only [processBurn, checks, nextAccountInfo_eq_ok, ne_eq, not_not, Bool.not_eq_true,
    isSome_eq_false_iff, isNone_iff_eq_none] at h
  obtain ⟨src, _, rfl, mint, _, rfl, authority, signers, rfl, a, ha, m, hm, hfrozen, hnative, -,
    hmintKey, _, -, a', hauth, _, hchecked, y, hy, z, hz, _, h₁, h₂⟩ := h
  have hauth := authorizeBurn_ok ⟨[src, mint], rfl⟩ hauth
  have hsame : a'.amount = a.amount ∧ a'.state = a.state := by
    split at hauth
    · subst hauth
      exact ⟨rfl, rfl⟩
    · exact ⟨hauth.same.2.1, hauth.same.2.2.1⟩
  have hy := checkedSub_eq_some hy
  have hz := checkedSub_eq_some hz
  rw [hsame.1] at hy
  obtain ⟨hbefore, hbefore', hafter, hafter', hfunds, hfunds', hframe⟩ :=
    supply_write (x := x) ha hm h₁ h₂ hsame.2 (hr src (by simp)) (hr mint (by simp))
      (checkAccountOwnersIf_ok hchecked)
      (fun heq => by rw [heq] at hy; omega) (fun heq => by rw [heq] at hz; omega)
  exact ⟨src, mint, authority, signers, a, a', m, y, z, rfl, hbefore, hnative, hmintKey.symm,
    hbefore', hauth, by omega, by omega, hafter, hafter', hfunds, hfunds', hframe, hfrozen⟩

theorem processBurn_effect (hdebit : debitOf ix accounts = burnDebit x accounts)
    (happroval : approvalOf ix accounts = none) (h : processBurn id accounts x decimals s = .ok s') :
    Effect id s s' accounts ix := by
  obtain ⟨src, mint, authority, _, a, a', m, y, z, rfl, hsrc, hnative, hmintKey, hmint, hauth,
    hy, hz, hsrc', hmint', hfunds, hfunds', hframe, hfrozen⟩ := processBurn_ok hr h
  exact .burned src.key mint.key a a' m authority.key x y z hdebit happroval hsrc hnative hmintKey
    hmint hauth hy hz hsrc' hmint' hfunds hfunds' hframe hfrozen

/-! ## Closing and wrapped SOL -/

theorem processCloseAccount_ok (h : processCloseAccount id accounts s = .ok s') :
    ∃ k dst a, k ≠ dst ∧ accountAt id s k = some a ∧ (a.isNative = none → a.amount = 0) ∧
      (a.isOwnedBySystemProgramOrIncinerator = false →
        Authorized id s accounts (a.closeAuthority.getD a.owner)) ∧
      (s' k).owner = id ∧ (s' k).data = .replicate 165 0 ∧
      ((s' dst).owner = (s dst).owner ∧ (s' dst).data = (s dst).data ∧
        (s dst).lamports ≤ (s' dst).lamports) ∧
      SameExcept s s' [k, dst] ∧
      (a.isOwnedBySystemProgramOrIncinerator = true → dst = incineratorId) := by
  simp only [processCloseAccount, checks, nextAccountInfo_eq_ok] at h
  obtain ⟨src, _, rfl, dst, _, rfl, _, _, rfl, hne, a, ha, hbalance, _, hauth, _, htotal, rfl⟩ := h
  have htotal := checkedAdd_eq_some htotal
  have hzero : ∀ b ∈ replicate (len Account) (0 : UInt8), b = 0 :=
    fun b hb => eq_of_mem_replicate hb
  -- the data goes from an initialised account to zeros, so it did change
  have howner : (s src.key).owner = id := by
    rcases hr src (by simp) with howner | ⟨_, hsame, _⟩
    · exact howner
    · rw [setData_same] at hsame
      rw [← hsame] at ha
      exact absurd ha (Account.unpack_zero hzero)
  refine ⟨src.key, dst.key, a, hne, stateAt_eq_some.mpr ⟨howner, ha⟩, ?_, ?_,
    by simpa using howner, by rw [setData_same]; rfl, ⟨by simp, ?_, ?_⟩, ?_, ?_⟩
  · intro hnone
    by_contra hamount
    exact hbalance ⟨by rw [hnone]; rfl, hamount⟩
  · intro hsystem
    rw [authorizeClose, if_pos hsystem] at hauth
    exact validateOwner_authorized ⟨[src, dst], rfl⟩ hauth
  · rw [setData_of_ne _ (.symm hne)]
    simp
  · rw [setData_lamports, setLamports_of_ne _ (.symm hne), setLamports_same]
    exact UInt64.le_iff_toNat_le.mpr (by dsimp only; omega)
  · intro k hk
    simp only [mem_cons, not_mem_nil, or_false, not_or] at hk
    rw [setData_of_ne _ hk.1, setLamports_of_ne _ hk.1, setLamports_of_ne _ hk.2]
  · intro hsystem
    rw [authorizeClose, if_neg (by simp [hsystem]), failIf_eq_ok, not_not] at hauth
    exact hauth

theorem processCloseAccount_effect (hix : ix = .closeAccount)
    (h : processCloseAccount id accounts s = .ok s') : Effect id s s' accounts ix := by
  obtain ⟨k, dst, a, hne, hbefore, hbalance, hauth, howner', hdata', hdst, hframe, hsink⟩ :=
    processCloseAccount_ok hr h
  exact .closed k dst a hix hne hbefore hbalance hauth howner' hdata' hdst hframe hsink

variable (hix : Plain ix accounts)
include hix

theorem processSyncNative_effect
    (h : processSyncNative id accounts s = .ok s') : Effect id s s' accounts ix := by
  simp only [processSyncNative, checks, nextAccountInfo_eq_ok, checkAccountOwner_eq_ok] at h
  obtain ⟨info, _, rfl, howner, a, ha, reserve, hnative, x, hx, hle, hw⟩ := h
  have hx := checkedSub_eq_some hx
  rcases single_write ha hw (isInitialized_of_state_eq _ ha rfl) (hr info (by simp)) with
    ⟨_, hnone⟩ | ⟨hbefore, hafter, hfunds, hframe⟩
  · exact absurd ha (stateAt_eq_none.mp hnone a howner)
  · have hupd : AccountUpdate id s s' info.key a { a with amount := x } :=
      ⟨hbefore, hafter, hfunds, hframe⟩
    exact .synced info.key a reserve x hix hnative (by omega) (UInt64.not_lt.mp hle) hupd

/-! ## Initialisation -/

omit hr hix in
theorem checkNewAccountMint_ok {mint : AccountMeta} (h : checkNewAccountMint id s mint = .ok u)
    (hnative : mint.key ≠ nativeMintId) : mintAt id s mint.key ≠ none := by
  rw [checkNewAccountMint, if_neg hnative] at h
  obtain ⟨_, howner, h⟩ := bind_eq_ok.mp h
  split at h
  next m hm =>
    rw [show mintAt id s mint.key = some m from
      stateAt_eq_some.mpr ⟨checkAccountOwner_eq_ok.mp howner, hm⟩]
    simp
  next => cases h

theorem initializeMintWith_effect {decimals : UInt8} {mintAuthority : Pubkey}
    {freezeAuthority : Option Pubkey}
    (h : initializeMintWith rent accounts decimals mintAuthority freezeAuthority flag s = .ok s') :
    Effect id s s' accounts ix := by
  simp only [initializeMintWith, checks, nextAccountInfo_eq_ok, Bool.not_eq_true] at h
  obtain ⟨info, _, rfl, _, _, -, m, hm, huninit, -, hw⟩ := h
  obtain ⟨howner, -, hafter, hfunds, hframe⟩ :=
    first_write hm huninit rfl hw (hr info (by simp))
  exact .mintCreated info.key m _ hix howner hm huninit hafter rfl hfunds hframe _ rfl

theorem initializeAccountWith_effect {owner : Option Pubkey}
    (h : initializeAccountWith id rent accounts owner flag s = .ok s') :
    Effect id s s' accounts ix := by
  simp only [initializeAccountWith, checks, nextAccountInfo_eq_ok, Bool.not_eq_true] at h
  obtain ⟨info, _, rfl, mint, _, rfl, _, _, -, _, _, -, _, ha, huninit, -, _, hmint, h⟩ := h
  have hlen : (s info.key).data.length = 165 := (unpackUnchecked_eq_ok.mp ha).1
  split at h
  next hnative =>
    simp only [checks] at h
    obtain ⟨_, hamount, hw⟩ := h
    have hamount := checkedSub_eq_some hamount
    obtain ⟨-, hbefore, hafter, hfunds, hframe⟩ :=
      first_write ha huninit rfl hw (hr info (by simp))
    exact .accountCreated info.key _ hix ⟨hlen, hbefore, hafter,
      .inl ⟨hnative, _, rfl, by dsimp only; omega⟩, hfunds, hframe, ⟨rfl, rfl, rfl, rfl⟩,
      fun hnone => absurd hnone (Option.some_ne_none _)⟩
  next hnative =>
    obtain ⟨-, hbefore, hafter, hfunds, hframe⟩ :=
      first_write ha huninit rfl h (hr info (by simp))
    exact .accountCreated info.key _ hix ⟨hlen, hbefore, hafter, .inr ⟨hnative, rfl, rfl⟩, hfunds,
      hframe, ⟨rfl, rfl, rfl, rfl⟩, fun _ => checkNewAccountMint_ok hmint hnative⟩

omit hr in
theorem initializeMultisigWith_effect {m : UInt8}
    (h : initializeMultisigWith rent accounts m flag s = .ok s') :
    Effect id s s' accounts ix := by
  simp only [initializeMultisigWith, checks, nextAccountInfo_eq_ok] at h
  obtain ⟨info, _, rfl, _, _, -, _, _, -, -, -, -, h⟩ := h
  split at h
  next hle =>
    obtain ⟨hlen, rfl⟩ := packInto_eq_ok.mp h
    have hlen : (s info.key).data.length = 355 := hlen
    refine .multisigCreated info.key hix hlen ?_ (setData_sameFunds s _ _ _)
      (setData_sameExcept s _ _)
    rw [setData_same]
    exact LawfulPack.length_packIntoSlice _ hlen
  next => cases h

omit hix

/-! ## All instructions -/

/-- **Every accepted instruction has one of the effects.** -/
theorem process_effect (h : process id rent ix accounts s = .ok s') :
    Effect id s s' accounts ix := by
  cases ix with
  | initializeMint | initializeMint2 => exact initializeMintWith_effect hr ⟨rfl, rfl⟩ h
  | initializeAccount | initializeAccount2 | initializeAccount3 =>
    exact initializeAccountWith_effect hr ⟨rfl, rfl⟩ h
  | initializeMultisig | initializeMultisig2 => exact initializeMultisigWith_effect ⟨rfl, rfl⟩ h
  | transfer | transferChecked => exact processTransfer_effect hr rfl rfl h
  | approve | approveChecked => exact processApprove_effect hr rfl rfl h
  | revoke => exact processRevoke_effect hr ⟨rfl, rfl⟩ h
  | setAuthority => exact processSetAuthority_effect hr ⟨rfl, rfl⟩ h
  | mintTo | mintToChecked => exact processMintTo_effect hr ⟨rfl, rfl⟩ h
  | burn | burnChecked => exact processBurn_effect hr rfl rfl h
  | closeAccount => exact processCloseAccount_effect hr rfl h
  | freezeAccount | thawAccount => exact processToggleFreezeAccount_effect hr ⟨rfl, rfl⟩ h
  | syncNative => exact processSyncNative_effect hr ⟨rfl, rfl⟩ h
  | getAccountDataSize | initializeImmutableOwner | amountToUiAmount | uiAmountToAmount =>
    obtain ⟨_, _, h⟩ := bind_eq_ok.mp h
    cases pure_eq_ok.mp h
    exact .of_unchanged ⟨rfl, rfl⟩

end SolanaPrograms.Token
