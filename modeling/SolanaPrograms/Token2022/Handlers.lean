import SolanaPrograms.Token.Handlers
import SolanaPrograms.Token2022.Effect

/-!
# The handlers refine the book: the base processor

One lemma for each handler: when it succeeds and the runtime accepts what it wrote, the book
changes by effects. Most handlers edit one view; `Refines.of_account_edit`, `Refines.of_mint_edit`
and `Refines.of_newMint_edit` are the three forms of that.
-/

namespace SolanaPrograms.Token2022

open Outcome SolanaPrograms.Runtime StateWithExtensionsMut Record List
open Token (Mint Account AccountState Multisig validateOwner authorizeDebit
  authorizeBurn authorizeClose moveBacking nextExpectedMint nextOwner initializeMultisigWith
  isInitialized_of_state_eq)

variable {id k : Pubkey} {request : Request} {s s' : Bank}
  {accounts : List AccountMeta}

/-! ## Edits of one view -/

variable {st st' : StateWithExtensionsMut Account} {base a a' : Account} {decimals : Option UInt8}
  {ty : AuthorityType} {new : Option Pubkey} {authority : AccountMeta} {signers : List AccountMeta}
  {env : Env} {x fee : UInt64} {src dst : Pubkey} {expectedFee : Option UInt64} {t : ExtensionType}
  {b : List UInt8}

structure AccountEdit (st st' : StateWithExtensionsMut Account) : Prop where
  proper : st'.Proper
  same : SameAccount st.record st'.record
  holds : st'.record.holds = st.record.holds

structure MintEdit (st st' : StateWithExtensionsMut Mint) : Prop where
  proper : st'.Proper
  same : SameMint st.record st'.record
  supply : st'.base.supply = st.base.supply
  withheldFees : st'.record.withheldFees = st.record.withheldFees

theorem Refines.of_account_edit (hs : AllSound id s) (hr : Respects id (s k) (store s k st' k))
    (hread : unpack Account (s k).data = .ok st) (hedit : st.Proper → AccountEdit st st') :
    Refines id request s (store s k st') := by
  refine .of_write hs hr fun howner => ?_
  obtain ⟨hp, hbook⟩ := hs.account howner hread
  obtain ⟨hp', hsame, hholds⟩ := hedit hp
  refine .of_owned hs howner (.of_proper_account hp') ?_
  rw [entryOf_account hp'.toValid]
  exact .single (.editAccount k _ _ hbook hsame hholds)

theorem Refines.of_mint_edit {st st' : StateWithExtensionsMut Mint} (hs : AllSound id s)
    (hr : Respects id (s k) (store s k st' k)) (hread : unpack Mint (s k).data = .ok st)
    (hedit : st.Proper → MintEdit st st') : Refines id request s (store s k st') := by
  refine .of_write hs hr fun howner => ?_
  obtain ⟨hp, hbook⟩ := hs.mint howner hread
  obtain ⟨hp', hsame, hsupply, hwithheld⟩ := hedit hp
  refine .of_owned hs howner (.of_proper_mint hp') ?_
  rw [entryOf_mint hp'.toValid]
  exact .single (.editMint k _ _ hbook hsame hsupply hwithheld)

/-- Only the base state of an account changes, and not in what it holds. -/
theorem account_base_edit (hp : st.Proper) (hinit : Pack.isInitialized base = true)
    (hmint : base.mint = st.base.mint) (hnative : base.isNative = st.base.isNative)
    (hamount : base.amount = st.base.amount) : AccountEdit st (packBase { st with base }) := by
  have hrecord : (packBase { st with base }).record = { st.record with base } := record_packBase _
  refine ⟨hp.withBase hinit, ?_, ?_⟩
  · rw [hrecord]
    exact ⟨hmint, hnative, rfl⟩
  · rw [hrecord, holds, holds, record_base, ← hamount]
    rfl

theorem account_base_edit_of_state (hp : st.Proper) (hstate : base.state = st.base.state)
    (hmint : base.mint = st.base.mint) (hnative : base.isNative = st.base.isNative)
    (hamount : base.amount = st.base.amount) : AccountEdit st (packBase { st with base }) :=
  account_base_edit hp (isInitialized_of_state_eq base hp.base_eq hstate) hmint hnative hamount

theorem account_amount_edit (hp : st.Proper) (base : Account) (hstate : base.state = st.base.state)
    (hmint : base.mint = st.base.mint) (hnative : base.isNative = st.base.isNative) :
    (packBase { st with base }).Proper ∧
      SameAccount st.record (packBase { st with base }).record := by
  refine ⟨hp.withBase (isInitialized_of_state_eq base hp.base_eq hstate), ?_⟩
  exact ⟨hmint, hnative, rfl⟩

/-- An extension of an account other than the withheld fee. -/
theorem account_data_edit (hp' : st'.Proper)
    (hrecord : st'.record = st.record.putBytes t b) (ht : t ≠ .transferFeeAmount) :
    AccountEdit st st' := by
  have hget : st'.record.get TransferFeeAmount = st.record.get TransferFeeAmount := by
    rw [hrecord]
    exact get_putBytes_of_ne _ _ ht.symm
  refine ⟨hp', ⟨by rw [hrecord]; rfl, by rw [hrecord]; rfl, by rw [hget]⟩, ?_⟩
  rw [holds, holds, withheld, withheld, hget, hrecord]
  rfl

theorem mint_data_edit {st st' : StateWithExtensionsMut Mint} (hp' : st'.Proper)
    (hrecord : st'.record = st.record.putBytes t b)
    (ht : t ≠ .transferFeeConfig) : MintEdit st st' := by
  have hget : st'.record.get TransferFeeConfig = st.record.get TransferFeeConfig := by
    rw [hrecord]
    exact get_putBytes_of_ne _ _ ht.symm
  refine ⟨hp', by rw [SameMint, hget], ?_, by rw [withheldFees, withheldFees, hget]⟩
  rw [← record_base, hrecord]
  rfl

theorem mint_config_edit {st : StateWithExtensionsMut Mint} (hp : st.Proper) {i : Nat}
    {config config' : TransferFeeConfig} (h : st.borrow TransferFeeConfig = .ok (i, config))
    (hfees : config'.fees = config.fees)
    (hwithheld : config'.withheldAmount = config.withheldAmount) :
    MintEdit st (st.put i config') := by
  obtain ⟨hat, hget⟩ := borrow_ok hp.area h
  have hrecord := (hat.put config').2.1
  refine ⟨hp.put hat config', ?_, rfl, ?_⟩
  · rw [SameMint, hrecord, get_put_same, hget, Option.map_some, Option.map_some, hfees]
  · rw [withheldFees, withheldFees, hrecord, get_put_same, hget]
    simp only [hwithheld]

theorem mint_base_write {st : StateWithExtensionsMut Mint} (hp : st.Proper) (base : Mint)
    (hinit : base.isInitialized = st.base.isInitialized) :
    (packBase { st with base }).Proper ∧ SameMint st.record (packBase { st with base }).record ∧
      (packBase { st with base }).record.withheldFees = st.record.withheldFees := by
  have hrecord : (packBase { st with base }).record = { st.record with base } := record_packBase _
  have hinit' : Pack.isInitialized base = true :=
    hinit.trans (Pack.unpack_isInitialized hp.base_eq)
  exact ⟨hp.withBase hinit', by rw [hrecord]; rfl, by rw [hrecord]; rfl⟩

theorem mint_base_edit {st : StateWithExtensionsMut Mint} (hp : st.Proper) {base : Mint}
    (hinit : base.isInitialized = st.base.isInitialized) (hsupply : base.supply = st.base.supply) :
    MintEdit st (packBase { st with base }) := by
  obtain ⟨hp', hsame, hwithheld⟩ := mint_base_write hp base hinit
  exact ⟨hp', hsame, hsupply, hwithheld⟩

theorem confidential_edit (hp : st.Proper) {i : Nat} {v v' : ConfidentialTransferAccount}
    (h : st.borrow ConfidentialTransferAccount = .ok (i, v)) : AccountEdit st (st.put i v') := by
  obtain ⟨hat, -⟩ := borrow_ok hp.area h
  exact account_data_edit (hp.put hat _) (hat.put _).2.1 (by decide)

theorem setAccountAuthority_ok (h : setAccountAuthority id s st ty new authority signers = .ok st')
    (hp : st.Proper) : AccountEdit st st' := by
  obtain ⟨-, h⟩ := failIf_bind_eq_ok.mp h
  cases ty with
  | accountOwner =>
    simp only [checks] at h
    obtain ⟨_, -, _, -, -, _, -, rfl⟩ := h
    exact account_base_edit_of_state hp rfl rfl rfl rfl
  | closeAccount =>
    simp only [checks] at h
    obtain ⟨_, -, rfl⟩ := h
    exact account_base_edit_of_state hp rfl rfl rfl rfl
  | mintTokens => cases h
  | freezeAccount => cases h
  | transferFeeConfig => cases h
  | withheldWithdraw => cases h

theorem setMintAuthority_ok {st st' : StateWithExtensionsMut Mint}
    (h : setMintAuthority id s st ty new authority signers = .ok st') (hp : st.Proper) :
    MintEdit st st' := by
  unfold setMintAuthority at h
  cases ty with
  | mintTokens | freezeAccount =>
    simp only [checks] at h
    obtain ⟨_, -, _, -, rfl⟩ := h
    exact mint_base_edit hp rfl rfl
  | closeAccount =>
    simp only [checks] at h
    obtain ⟨_, _, hborrow, _, -, _, -, _, -, rfl⟩ := h
    obtain ⟨hat, -⟩ := borrow_ok hp.area hborrow
    exact mint_data_edit (hp.put hat _) (hat.put _).2.1 (by decide)
  | transferFeeConfig | withheldWithdraw =>
    simp only [checks] at h
    obtain ⟨_, _, hborrow, _, -, _, -, _, -, rfl⟩ := h
    exact mint_config_edit hp hborrow rfl rfl
  | accountOwner => cases h

/-! ## Delegates, authorities, freezing -/

section Verified

variable (hs : AllSound id s) (hr : AllRespect id accounts s s')

include hs hr

theorem processApprove_refines {amount : UInt64}
    (h : processApprove id accounts amount decimals s = .ok s') : Refines id request s s' := by
  simp only [processApprove, checks, nextAccountInfo_eq_ok] at h
  obtain ⟨source, _, rfl, _, _, -, _, _, -, _, _, -, _, hread, -, _, -, _, -, rfl⟩ := h
  exact .of_account_edit hs (hr source (by simp)) hread fun hp =>
    account_base_edit_of_state hp rfl rfl rfl rfl

theorem processRevoke_refines (h : processRevoke id accounts s = .ok s') :
    Refines id request s s' := by
  simp only [processRevoke, checks, nextAccountInfo_eq_ok] at h
  obtain ⟨source, _, rfl, _, _, -, _, hread, -, _, -, rfl⟩ := h
  exact .of_account_edit hs (hr source (by simp)) hread fun hp =>
    account_base_edit_of_state hp rfl rfl rfl rfl

theorem processToggleFreezeAccount_refines {freeze : Bool}
    (h : processToggleFreezeAccount id accounts freeze s = .ok s') : Refines id request s s' := by
  simp only [processToggleFreezeAccount, checks, nextAccountInfo_eq_ok] at h
  obtain ⟨source, _, rfl, _, _, -, _, _, -, _, hread, -, -, -, -, _, -, _, -, _, -, rfl⟩ := h
  refine .of_account_edit hs (hr source (by simp)) hread fun hp =>
    account_base_edit hp ?_ rfl rfl rfl
  cases freeze <;> rfl

theorem processSetAuthority_refines (h : processSetAuthority id accounts ty new s = .ok s') :
    Refines id request s s' := by
  simp only [processSetAuthority, checks, nextAccountInfo_eq_ok] at h
  obtain ⟨info, _, rfl, _, _, -, h⟩ := h
  split at h
  next st hread =>
    simp only [checks] at h
    obtain ⟨_, hset, rfl⟩ := h
    exact .of_account_edit hs (hr info (by simp)) hread fun hp => setAccountAuthority_ok hset hp
  next =>
    split at h
    next st hread =>
      simp only [checks] at h
      obtain ⟨_, hset, rfl⟩ := h
      exact .of_mint_edit hs (hr info (by simp)) hread fun hp => setMintAuthority_ok hset hp
    next => cases h

/-! ## Extensions of accounts -/

theorem processRequiredMemoTransfers_refines {require : Bool}
    (h : processRequiredMemoTransfers id accounts require s = .ok s') :
    Refines id request s s' := by
  simp only [processRequiredMemoTransfers, checks, nextAccountInfo_eq_ok] at h
  obtain ⟨info, _, rfl, _, _, -, _, hread, _, -, _, _, hmemo, rfl⟩ := h
  refine .of_account_edit hs (hr info (by simp)) hread fun hp => ?_
  simp only [borrowOrCreateMemo, bind_eq_ok] at hmemo
  obtain ⟨found, hfound, hmemo⟩ := hmemo
  cases found with
  | some =>
    cases hmemo
    obtain ⟨hat, -⟩ := borrow_ok hp.area (orNone_eq_some.mp hfound)
    exact account_data_edit (hp.put hat _) (hat.put _).2.1 (by decide)
  | none =>
    have hc := create_ok hp.area hmemo
    exact account_data_edit ((hp.create hc).put hc.dataAt _) (hc.record_put _) (by decide)

theorem processConfigureAccount_refines {pubkey : Blob elGamalPubkeyLen}
    {zero : Blob aeCiphertextLen} (h : processConfigureAccount id accounts pubkey zero s = .ok s') :
    Refines id request s s' := by
  simp only [processConfigureAccount, checks, nextAccountInfo_eq_ok] at h
  obtain ⟨info, _, rfl, _, _, -, _, _, -, _, -, _, hread, -, _, -, _, -, -, _,
    -, _, -, _, _, hcreate, rfl⟩ := h
  refine .of_account_edit hs (hr info (by simp)) hread fun hp => ?_
  have hc := create_ok hp.area hcreate
  exact account_data_edit ((hp.create hc).put hc.dataAt _) (hc.record_put _) (by decide)

theorem processApproveAccount_refines (h : processApproveAccount id accounts s = .ok s') :
    Refines id request s s' := by
  simp only [processApproveAccount, checks, nextAccountInfo_eq_ok] at h
  obtain ⟨info, _, rfl, _, _, -, _, _, -, _, -, _, hread, _, -, -, _, -, _, -, -,
    _, _, hborrow, rfl⟩ := h
  exact .of_account_edit hs (hr info (by simp)) hread fun hp => confidential_edit hp hborrow

theorem processEmptyAccount_refines {offset : Int}
    (h : processEmptyAccount id env accounts offset s = .ok s') : Refines id request s s' := by
  simp only [processEmptyAccount, checks, nextAccountInfo_eq_ok] at h
  obtain ⟨info, _, rfl, _, _, -, _, _, -, _, -, _, hread, _, -, _, _,
    hborrow, _, -, -, -, -, _, -, rfl⟩ := h
  exact .of_account_edit hs (hr info (by simp)) hread fun hp => confidential_edit hp hborrow

theorem processAllowBalanceCredits_refines {allow : Bool}
    (h : processAllowBalanceCredits id accounts allow s = .ok s') : Refines id request s s' := by
  simp only [processAllowBalanceCredits, checks, nextAccountInfo_eq_ok] at h
  obtain ⟨info, _, rfl, _, _, -, _, -, _, hread, _, -, _, _, hborrow, rfl⟩ := h
  exact .of_account_edit hs (hr info (by simp)) hread fun hp => confidential_edit hp hborrow

/-! ## Extensions of mints -/

theorem processUpdateDefaultAccountState_refines {state : AccountState}
    (h : processUpdateDefaultAccountState id accounts state s = .ok s') :
    Refines id request s s' := by
  simp only [processUpdateDefaultAccountState, checks, nextAccountInfo_eq_ok] at h
  obtain ⟨_, -, info, _, rfl, _, _, -, _, hread, _, -, _, -, _, _, hborrow, rfl⟩ := h
  refine .of_mint_edit hs (hr info (by simp)) hread fun hp => ?_
  obtain ⟨hat, -⟩ := borrow_ok hp.area hborrow
  exact mint_data_edit (hp.put hat _) (hat.put _).2.1 (by decide)

theorem processUpdateConfidentialMint_refines {new : ConfidentialTransferMint}
    (h : processUpdateConfidentialMint id accounts new s = .ok s') : Refines id request s s' := by
  simp only [processUpdateConfidentialMint, checks, nextAccountInfo_eq_ok] at h
  obtain ⟨info, _, rfl, _, _, -, _, _, -, _, -, _, hread, _, _, hborrow, -, rfl⟩ := h
  refine .of_mint_edit hs (hr info (by simp)) hread fun hp => ?_
  obtain ⟨hat, -⟩ := borrow_ok hp.area hborrow
  exact mint_data_edit (hp.put hat _) (hat.put _).2.1 (by decide)

theorem processSetTransferFee_refines {basisPoints : UInt16} {maximumFee : UInt64}
    (h : processSetTransferFee id env accounts basisPoints maximumFee s = .ok s') :
    Refines id (requestOf (.transferFeeExtension (.setTransferFee basisPoints maximumFee)) accounts)
      s s' := by
  simp only [processSetTransferFee, checks, nextAccountInfo_eq_ok] at h
  obtain ⟨info, _, rfl, _, _, -, _, hread, _, _, hborrow, _, -, _, -, -, rfl⟩ := h
  refine .of_write hs (hr info (by simp)) fun howner => ?_
  obtain ⟨hp, hbook⟩ := hs.mint howner hread
  obtain ⟨hat, hget⟩ := borrow_ok hp.area hborrow
  have hp' := hp.put hat
  refine .of_owned hs howner (.of_proper_mint (hp' _)) ?_
  rw [entryOf_mint (hp' _).toValid, (hat.put _).2.1]
  refine .single (.setFees info.key _ _ hbook rfl ?_ rfl ?_)
  · rw [get_put_same, hget]
    rfl
  · rw [withheldFees, withheldFees, get_put_same, hget]

end Verified

/-! ## Wrapped SOL -/

theorem processSyncNative_refines (hs : AllSound id s)
    (h : processSyncNative id accounts s = .ok s') : Refines id request s s' := by
  simp only [processSyncNative, checkProgramAccount, checks, nextAccountInfo_eq_ok, ne_eq,
    not_not] at h
  obtain ⟨_, _, rfl, howner, st, hread, _, hreserve, amount, -, -, rfl⟩ := h
  obtain ⟨hp, hbook⟩ := hs.account howner hread
  obtain ⟨hp', hsame⟩ := account_amount_edit hp { st.base with amount } rfl rfl rfl
  refine .of_owned hs howner (.of_proper_account hp') ?_
  rw [entryOf_account hp'.toValid]
  refine .single (.syncNative _ _ _ hbook ?_ hsame)
  rw [record_base, hreserve]
  rfl

/-! ## Minting and burning -/

theorem processMintTo_refines (hs : AllSound id s)
    (h : processMintTo id accounts x decimals s = .ok s') : Refines id request s s' := by
  simp only [processMintTo, checkProgramAccount, checks, nextAccountInfo_eq_ok, ne_eq, not_not] at h
  obtain ⟨mint, _, rfl, dest, _, -, _, _, -, st, hread, -, -, hmint, -, m, hm, _, -, _,
    -, _, -, howner, howner', amount, hamount, supply, hsupply, rfl⟩ := h
  obtain ⟨hp, hbook⟩ := hs.account howner' hread
  obtain ⟨hq, hbook'⟩ := hs.mint howner hm
  obtain ⟨hp', hsame⟩ := account_amount_edit hp { st.base with amount } rfl rfl rfl
  obtain ⟨hq', hsame', hwithheld⟩ := mint_base_write hq { m.base with supply } rfl
  refine .of_two hs howner howner' (.of_proper_mint hq') (.of_proper_account hp') ?_
  rw [entryOf_mint hq'.toValid, entryOf_account hp'.toValid]
  rw [hmint] at hbook' ⊢
  refine .single (.mintTo dest.key st.record _ m.record _ x.toNat hbook hbook' hsame hsame'
    hwithheld ?_ (checkedAdd_eq_some hsupply))
  have hamount := checkedAdd_eq_some hamount
  rw [holds_packBase, holds, record_base]
  dsimp only
  omega

theorem authorizeDebit_same (h : authorizeDebit id s a x authority signers true = .ok a') :
    a'.mint = a.mint ∧ a'.amount = a.amount ∧ a'.state = a.state ∧ a'.isNative = a.isNative :=
  (Token.authorizeDebit_ok (suffix_refl _) h).same

theorem authorizeBurn_same (h : authorizeBurn id s a x authority signers = .ok a') :
    a'.mint = a.mint ∧ a'.amount = a.amount ∧ a'.state = a.state ∧ a'.isNative = a.isNative := by
  unfold authorizeBurn at h
  split at h
  next => cases h; exact ⟨rfl, rfl, rfl, rfl⟩
  next => exact authorizeDebit_same h

theorem processBurn_refines (hs : AllSound id s) (h : processBurn id accounts x decimals s = .ok s')
    : Refines id request s s' := by
  simp only [processBurn, checkProgramAccount, checks, nextAccountInfo_eq_ok, ne_eq, not_not] at h
  obtain ⟨source, _, rfl, mint, _, -, _, _, -, st, hread, -, m, hm, -, -, -, hmint,
    _, -, base, hauth, howner, howner', amount, hamount, supply, hsupply, rfl⟩ := h
  obtain ⟨hmint₁, hamount₁, hstate₁, hnative₁⟩ := authorizeBurn_same hauth
  obtain ⟨hp, hbook⟩ := hs.account howner hread
  obtain ⟨hq, hbook'⟩ := hs.mint howner' hm
  obtain ⟨hp', hsame⟩ := account_amount_edit hp { base with amount } hstate₁ hmint₁
    hnative₁
  obtain ⟨hq', hsame', hwithheld⟩ := mint_base_write hq { m.base with supply } rfl
  refine .of_two hs howner howner' (.of_proper_account hp') (.of_proper_mint hq') ?_
  rw [entryOf_mint hq'.toValid, entryOf_account hp'.toValid]
  rw [hmint] at hbook' ⊢
  have hamount := checkedSub_eq_some hamount
  have hsupply := checkedSub_eq_some hsupply
  rw [hamount₁] at hamount
  refine .single (.burn source.key st.record _ m.record _ x.toNat hbook hbook' hsame hsame'
    hwithheld ?_ ?_)
  · rw [holds_packBase, holds, record_base]
    dsimp only
    omega
  · rw [record_packBase, record_base]
    dsimp only [record_base]
    omega

/-! ## Transfers -/

theorem moveBacking_kept (hne : src ≠ dst) (h : moveBacking a s src dst x = .ok s') :
    ∀ k, (s' k).owner = (s k).owner ∧ (s' k).data = (s k).data := by
  unfold moveBacking at h
  split at h
  next => exact (Token.moveLamports_ok hne h).2.2.1
  next => cases h; exact fun _ => ⟨rfl, rfl⟩

theorem withholdFee_ok (hp : st.Proper) (h : withholdFee st fee = .ok st') :
    st'.Proper ∧ st'.base = st.base ∧
      SameAccount st.record st'.record ∧ st'.record.withheld = st.record.withheld + fee.toNat := by
  unfold withholdFee at h
  split at h
  next =>
    obtain ⟨found, hfound, h⟩ := bind_eq_ok.mp h
    cases found with
    | none => cases h
    | some p =>
      obtain ⟨hat, hget⟩ := borrow_ok hp.area (orNone_eq_some.mp hfound)
      obtain ⟨amount, hamount, h⟩ := okOr_bind_eq_ok.mp h
      cases pure_eq_ok.mp h
      have hrecord := (hat.put (.mk amount)).2.1
      refine ⟨hp.put hat _, rfl, ?_, ?_⟩
      · rw [hrecord]
        exact ⟨rfl, rfl, by rw [get_put_same, hget]; rfl⟩
      · rw [hrecord, withheld, withheld, get_put_same, hget]
        exact checkedAdd_eq_some hamount
  next hfee =>
    cases h
    have hzero : fee.toNat = 0 := Nat.eq_zero_of_not_pos fun hpos =>
      hfee (UInt64.lt_iff_toNat_lt.mpr hpos)
    exact ⟨hp, rfl, .refl _, by omega⟩

/-- What a transfer between two accounts of the program does to the book. -/
structure Settled (id : Pubkey) (s s' : Bank) (src dst : Pubkey) (x fee : UInt64)
    (a a' b b' : Record Account) : Prop where
  source : book id s src = .account a
  destination : book id s dst = .account b
  book_eq : book id s' =
    Function.update (Function.update (book id s) src (.account a')) dst (.account b')
  sound : AllSound id s'
  mint : a.base.mint = b.base.mint
  sameSource : SameAccount a a'
  sameDestination : SameAccount b b'
  debited : a'.base.amount.toNat + x.toNat = a.base.amount.toNat
  withheldSource : a'.withheld = a.withheld
  credited : b'.base.amount.toNat + fee.toNat = b.base.amount.toNat + x.toNat
  withheldDestination : b'.withheld = b.withheld + fee.toNat

theorem settleTransfer_settled (hs : AllSound id s) (hne : src ≠ dst) (howner : (s src).owner = id)
    (howner' : (s dst).owner = id) (hread : unpack Account (s src).data = .ok st)
    (hbase : base.mint = st.base.mint ∧ base.amount = st.base.amount ∧
      base.state = st.base.state ∧ base.isNative = st.base.isNative)
    (h : settleTransfer env src dst { st with base } x fee s = .ok s') :
    ∃ a' b b', Settled id s s' src dst x fee st.record a' b b' := by
  simp only [settleTransfer, checks, ne_eq, not_not] at h
  obtain ⟨dest, hdest, -, hmint, _, -, amount, hamount, _, hcredit, amount', hamount', dest',
    hfee, _, hmove, rfl⟩ := h
  obtain ⟨hmint₁, hamount₁, hstate₁, hnative₁⟩ := hbase
  obtain ⟨hp, hbook⟩ := hs.account howner hread
  obtain ⟨hq, hbook'⟩ := hs.account howner' hdest
  obtain ⟨hq₁, _, hsame₁, hwithheld₁⟩ := withholdFee_ok hq hfee
  have hkept := moveBacking_kept hne hmove
  obtain ⟨hp', hsame⟩ := account_amount_edit hp { base with amount } hstate₁ hmint₁
    hnative₁
  obtain ⟨hq', hsame'⟩ := account_amount_edit hq₁
    { dest'.base with amount := amount' } rfl rfl rfl
  have hamount := checkedSub_eq_some hamount
  have hcredit := checkedSub_eq_some hcredit
  have hamount' := checkedAdd_eq_some hamount'
  rw [hamount₁] at hamount
  refine ⟨_, dest.record, _, hbook, hbook', ?_, ?_, hmint₁.symm.trans hmint, hsame,
    hsame₁.trans hsame', ?_, ?_, ?_, ?_⟩
  · rw [store, store, book_setData (by simp [(hkept dst).1, howner']),
      book_setData (by rw [(hkept src).1, howner]), book_congr hkept]
    rw [entryOf_account hp'.toValid, entryOf_account hq'.toValid]
  · exact ((hs.congr hkept).setData (.of_proper_account hp')).setData (.of_proper_account hq')
  · rw [record_packBase]
    dsimp only [record_base]
    omega
  · rw [record_packBase]
    rfl
  · rw [record_packBase]
    dsimp only [record_base]
    omega
  · rw [record_packBase]
    exact hwithheld₁

/-- The accounts a transfer names: its source, the mint of a checked one, its destination. -/
structure TransferAccounts where
  source : AccountMeta
  mint : Option (AccountMeta × UInt8)
  destination : AccountMeta

def transferAccounts (decimals : Option UInt8) (accounts : List AccountMeta) :
    Option TransferAccounts :=
  match decimals, accounts with
  | none, source :: destination :: _ => some ⟨source, none, destination⟩
  | some decimals, source :: mint :: destination :: _ =>
    some ⟨source, some (mint, decimals), destination⟩
  | _, _ => none

/-- A successful transfer: the fee it was charged, and either nothing moved because source and
destination are one account, or the transfer was settled. -/
theorem processTransfer_ok (hs : AllSound id s)
    (h : processTransfer id env accounts x decimals expectedFee s = .ok s') :
    ∃ (t : TransferAccounts) (st : StateWithExtensionsMut Account) (fee : UInt64),
      transferAccounts decimals accounts = some t ∧ (s t.source.key).owner = id ∧
      unpack Account (s t.source.key).data = .ok st ∧
      transferFee env s t.source st t.mint x = .ok fee ∧
      (t.source.key = t.destination.key ∧ s' = s ∨ t.source.key ≠ t.destination.key ∧
        ∃ a' b b', Settled id s s' t.source.key t.destination.key x fee st.record a' b b') := by
  simp only [processTransfer, checkProgramAccount, bind_eq_ok, Prod.exists, nextAccountInfo_eq_ok,
    failIf_eq_ok, exists_const, ne_eq, not_not] at h
  obtain ⟨source, _, rfl, mint, _, hmint, dest, _, rfl, _, _, rfl, st, hread, -, -,
    fee, hfee, -, _, hauth, howner, howner', h⟩ := h
  refine ⟨⟨source, mint, dest⟩, st, fee, ?_, howner, hread, hfee, ?_⟩
  · cases decimals with
    | none =>
      cases hmint
      rfl
    | some =>
      simp only [nextExpectedMint, bind_eq_ok, Prod.exists, nextAccountInfo_eq_ok,
        pure_eq_ok] at hmint
      obtain ⟨_, _, rfl, hpair⟩ := hmint
      cases hpair
      rfl
  · by_cases hself : source.key = dest.key
    · simp only [hself, decide_true, if_true, pure_eq_ok] at h
      exact .inl ⟨hself, h.symm⟩
    · simp only [hself, decide_false, Bool.false_eq_true, if_false, Bool.not_false] at h hauth
      exact .inr ⟨hself, settleTransfer_settled hs hself howner howner' hread
        (authorizeDebit_same hauth) h⟩

theorem Settled.refines {a a' b b' : Record Account} (hne : src ≠ dst)
    (h : Settled id s s' src dst x fee a a' b b') : Refines id request s s' := by
  refine ⟨?_, h.sound⟩
  rw [h.book_eq]
  refine .single (.pay src dst a a' b b' x.toNat hne h.source h.destination h.mint h.sameSource
    h.sameDestination ?_ ?_)
  · have hdebited := h.debited
    have hwithheld := h.withheldSource
    simp only [holds]
    omega
  · have hcredited := h.credited
    have hwithheld := h.withheldDestination
    simp only [holds]
    omega

theorem processTransfer_refines (hs : AllSound id s)
    (h : processTransfer id env accounts x decimals expectedFee s = .ok s') :
    Refines id request s s' := by
  obtain ⟨_, _, _, -, -, -, -, ⟨-, rfl⟩ | ⟨hne, _, _, _, hsettled⟩⟩ :=
    processTransfer_ok hs h
  · exact .refl hs
  · exact hsettled.refines hne

/-! ## Closing -/

theorem checkClose_ok {source destination : AccountMeta} {u : Unit} (hs : AllSound id s)
    (howner : (s source.key).owner = id)
    (h : checkClose id s source destination authority signers = .ok u) :
    (∃ r, book id s source.key = .account r ∧ (r.base.isNative = none → r.base.amount = 0) ∧
      r.withheld = 0) ∨
    (∃ r, book id s source.key = .mint r ∧ r.base.supply = 0) := by
  unfold checkClose at h
  split at h
  next st hread =>
    obtain ⟨hp, hbook⟩ := hs.account howner hread
    simp only [checkCloseAccount, checks] at h
    obtain ⟨hamount, _, -, _, -, hclosable⟩ := h
    refine .inl ⟨st.record, hbook, ?_, ?_⟩
    · intro hnative
      by_contra hne
      exact hamount ⟨by rw [show st.base.isNative = none from hnative]; rfl, hne⟩
    · have hview : StateWithExtensions.read TransferFeeAmount
          { base := st.base, tlvData := st.tlvData } =
          okOr (st.record.get TransferFeeAmount) (.err .invalidAccountData) :=
        view_read hp.area
      rw [checkCloseAccount.checkClosable, hview, orNone_okOr, ok_bind] at hclosable
      rw [withheld]
      cases hget : st.record.get TransferFeeAmount with
      | none => rfl
      | some extension =>
        rw [hget] at hclosable
        have hzero : extension.withheldAmount = 0 := by
          simpa [TransferFeeAmount.closable] using hclosable
        simp [hzero]
  next =>
    split at h
    next st hread =>
      obtain ⟨_, hbook⟩ := hs.mint howner hread
      simp only [checkCloseMint, checks, ne_eq, not_not] at h
      obtain ⟨_, -, _, -, _, -, hsupply⟩ := h
      exact .inr ⟨st.record, hbook, hsupply⟩
    next => cases h

theorem processCloseAccount_refines (hs : AllSound id s)
    (h : processCloseAccount id accounts s = .ok s') (hr : AllRespect id accounts s s') :
    Refines id (requestOf .closeAccount accounts) s s' := by
  simp only [processCloseAccount, checks, nextAccountInfo_eq_ok] at h
  obtain ⟨source, _, rfl, dest, _, -, _, _, -, _, _, hcheck, lamports, -, rfl⟩ := h
  have hrespects := hr source (by simp)
  -- the lamports move first, then the data is cleared
  generalize ht : ((s.setLamports dest.key lamports).setLamports source.key 0) = t at hrespects ⊢
  have hkept : ∀ k, (t k).owner = (s k).owner ∧ (t k).data = (s k).data := by
    intro k
    rw [← ht]
    simp
  refine .trans (.of_kept hs hkept) (.of_write (hs.congr hkept) ?_ fun howner => ?_)
  · rcases hrespects with howner | ⟨-, hdata, -⟩
    · exact .inl ((hkept _).1.trans howner)
    · exact .inr ⟨by simp, hdata.trans (hkept _).2.symm, by simp⟩
  · have hzeros : ∀ b ∈ replicate (t source.key).data.length (0 : UInt8), b = 0 :=
      fun b hb => eq_of_mem_replicate hb
    refine .of_owned (hs.congr hkept) howner (.of_zeros hzeros) ?_
    rw [entryOf_zeros hzeros, book_congr hkept]
    rcases checkClose_ok hs ((hkept _).1.symm.trans howner) hcheck with
      ⟨r, hbook, hamount, hwithheld⟩ | ⟨r, hbook, hsupply⟩
    · exact .single (.closeAccount _ r hbook hamount hwithheld)
    · exact .single (.closeMint _ r hbook rfl hsupply)

end SolanaPrograms.Token2022
