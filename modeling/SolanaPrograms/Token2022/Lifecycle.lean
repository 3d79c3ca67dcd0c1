import SolanaPrograms.Token2022.Handlers

/-!
# The handlers refine the book: creating and growing entries

A mint or an account is claimed in steps: its extensions are initialised while the base state is
not, then one instruction fills the base state in and sets the account type. Until then the entry
is vacant. A token account may later grow to make room for extensions.
-/

namespace SolanaPrograms.Token2022

open Outcome Bytes Tlv SolanaPrograms.Runtime StateWithExtensionsMut List Record Function Bank
open Extension
open Token (Mint Account AccountState Multisig validateOwner nextOwner
  initializeMultisigWith)

variable {id k : Pubkey} {request : Request} {s s' : Bank}
  {accounts : List AccountMeta}

/-! ## Extensions of unclaimed states -/

namespace StateWithExtensionsMut

variable {S V : Type} [BaseState S] {st st₁ : StateWithExtensionsMut S} [Extension V]
  {t : ExtensionType} {i : Nat}

theorem Unclaimed.withTlv (h : st.Unclaimed) {tlv : List UInt8}
    (hlen : tlv.length = st.tlvData.length) (ha : HasArea { st with tlvData := tlv }) :
    Unclaimed { st with tlvData := tlv } := by
  obtain ⟨_, hE⟩ := ha
  refine ⟨h.toShape.withTlv hlen, h.base_eq, h.uninitialized, h.type_eq, ?_⟩
  rw [hE]
  exact checkFirstExtensionType_bytes

theorem Unclaimed.create (h : st.Unclaimed) (hc : Created st st₁ t i) : st₁.Unclaimed := by
  have ha := hc.dataAt.hasArea
  obtain ⟨_, rfl, hlen⟩ := hc.frame
  exact h.withTlv hlen ha

theorem Unclaimed.put (h : st.Unclaimed) (hat : st.DataAt (type V) i) (v : V) :
    (st.put i v).Unclaimed :=
  h.withTlv (hat.put v).2.2 (hat.put v).1.hasArea

end StateWithExtensionsMut

theorem Refines.of_newMint_create {V : Type} [Extension V] {st st₁ : StateWithExtensionsMut Mint}
    {i : Nat} (hs : AllSound id s) (hread : unpackUninitialized Mint (s k).data = .ok st)
    (hcreate : st.create V = .ok (i, st₁)) {v : V}
    (hconfig : (st.record.put v).get TransferFeeConfig = st.record.get TransferFeeConfig ∨
      request = .fees k ∧
        ∃ c, (st.record.put v).get TransferFeeConfig = some c ∧ c.withheldAmount = 0)
    (hr : Respects id (s k) (store s k (st₁.put i v) k)) :
    Refines id request s (store s k (st₁.put i v)) := by
  refine .of_write hs hr fun howner => ?_
  obtain ⟨hbytes, hu⟩ := unpackUninitialized_eq_ok.mp hread
  obtain ⟨ha, hsupply, hold⟩ := (hs k howner).newMint hread
  have hc := create_ok ha hcreate
  have hu' := (hu.create hc).put hc.dataAt v
  have hentry := entryOf_newMint hu
  have hentry' := entryOf_newMint hu'
  rw [hc.record_put] at hentry'
  refine .of_owned hs howner (.of_newMint hu' (hc.dataAt.put v).1.hasArea ?_ ?_) ?_
  · rw [← record_base, hc.record_put]
    exact hsupply
  · intro c hget
    rw [hc.record_put] at hget
    rcases hconfig with hsame | ⟨-, _, hnew, hzero⟩
    · exact hold c (hsame.symm.trans hget)
    · cases hnew.symm.trans hget
      exact hzero
  · rw [← hbytes, ← book_of_owner howner] at hentry
    rcases hconfig with hsame | ⟨hrequest, c, hnew, -⟩
    · rw [hentry', hsame, ← hentry, update_eq_self]
    · rw [hentry', hnew]
      exact .single (.configure k _ c hentry hrequest)

/-- An extension other than the fee configuration leaves the fees alone. -/
theorem get_config_put {V : Type} [Extension V] {r : Record Mint} {v : V}
    (ht : type V ≠ .transferFeeConfig) :
    (r.put v).get TransferFeeConfig = r.get TransferFeeConfig := get_put_of_ne r v ht.symm

variable {env : Env} {flag : Bool} {st : StateWithExtensionsMut Account} {n : Nat}

section Verified

variable (hs : AllSound id s) (hr : AllRespect id accounts s s')

include hs hr

theorem processInitializeMintCloseAuthority_refines {closeAuthority : Option Pubkey}
    (h : processInitializeMintCloseAuthority accounts closeAuthority s = .ok s') :
    Refines id request s s' := by
  simp only [processInitializeMintCloseAuthority, checks, nextAccountInfo_eq_ok] at h
  obtain ⟨info, _, rfl, _, hread, _, _, hcreate, _, -, rfl⟩ := h
  exact .of_newMint_create hs hread hcreate (.inl (get_config_put (by decide))) (hr info (by simp))

theorem processInitializeDefaultAccountState_refines {state : AccountState}
    (h : processInitializeDefaultAccountState accounts state s = .ok s') :
    Refines id request s s' := by
  simp only [processInitializeDefaultAccountState, checks, nextAccountInfo_eq_ok] at h
  obtain ⟨_, -, info, _, rfl, _, hread, _, _, hcreate, rfl⟩ := h
  exact .of_newMint_create hs hread hcreate (.inl (get_config_put (by decide))) (hr info (by simp))

theorem processInitializeConfidentialMint_refines {config : ConfidentialTransferMint}
    (h : processInitializeConfidentialMint id accounts config s = .ok s') :
    Refines id request s s' := by
  simp only [processInitializeConfidentialMint, checks, nextAccountInfo_eq_ok] at h
  obtain ⟨info, _, rfl, _, -, _, hread, _, _, hcreate, rfl⟩ := h
  exact .of_newMint_create hs hread hcreate (.inl (get_config_put (by decide))) (hr info (by simp))

theorem processInitializeTransferFeeConfig_refines {authority withdraw : Option Pubkey}
    {basisPoints : UInt16} {maximumFee : UInt64}
    (h : processInitializeTransferFeeConfig env accounts authority withdraw basisPoints maximumFee
      s = .ok s') : Refines id (requestOf (.transferFeeExtension (.initializeTransferFeeConfig
        authority withdraw basisPoints maximumFee)) accounts) s s' := by
  simp only [processInitializeTransferFeeConfig, checks, nextAccountInfo_eq_ok] at h
  obtain ⟨info, _, rfl, _, hread, _, _, hcreate, _, -, _, -, -, rfl⟩ := h
  exact .of_newMint_create hs hread hcreate (.inr ⟨rfl, _, get_put_same _ _, rfl⟩)
    (hr info (by simp))

theorem processInitializeImmutableOwner_refines
    (h : processInitializeImmutableOwner accounts s = .ok s') : Refines id request s s' := by
  simp only [processInitializeImmutableOwner, checks, nextAccountInfo_eq_ok] at h
  obtain ⟨info, _, rfl, _, hread, _, _, hcreate, rfl⟩ := h
  refine .of_write hs (hr info (by simp)) fun howner => ?_
  obtain ⟨hbytes, hu⟩ := unpackUninitialized_eq_ok.mp hread
  obtain ⟨ha, hold⟩ := (hs info.key howner).newAccount hread
  have hc := create_ok ha hcreate
  have hu' := hu.create hc
  obtain ⟨_, hE, hmem, -⟩ := hc.dataAt
  have hentry := entryOf_newAccount hu ha
  rw [← hbytes] at hentry
  refine .of_same hs howner (.of_newAccount hu' hE (ne_nil_of_mem hmem) ?_)
    ((entryOf_newAccount hu' ⟨_, hE⟩).trans hentry.symm)
  intro x hx
  rw [hc.record_eq, get_putBytes_of_ne _ _ (by decide)] at hx
  exact hold x hx

end Verified

/-! ## Claiming a state -/

theorem withAccountType_ok {S : Type} [BaseState S] {st st' : StateWithExtensionsMut S}
    (hshape : st.Shape) (h : st.withAccountType = .ok st') :
    st'.Shape ∧ st'.base = st.base ∧ st'.baseData = st.baseData ∧ st'.tlvData = st.tlvData ∧
      (st'.accountType = [] ∨ st'.accountType = [(BaseState.accountType S).toByte]) := by
  unfold withAccountType at h
  cases hrun : (initAccountType : EStateM Fault (StateWithExtensionsMut S) Unit).run st with
  | error => rw [hrun] at h; cases h
  | ok =>
    rw [hrun] at h
    cases h
    obtain ⟨_, _, hget, h₁⟩ := run_bind_eq_ok hrun
    cases hget
    split at h₁
    next hnil =>
      cases h₁
      exact ⟨hshape, rfl, rfl, rfl, .inl hnil⟩
    next hne =>
      obtain ⟨_, st₃, hcheck, h₂⟩ := run_bind_eq_ok h₁
      obtain ⟨-, rfl⟩ := run_orFail_eq_ok hcheck
      cases h₂
      obtain ⟨_, hb⟩ := hshape.accountType_cases.resolve_left hne
      have htype : st₃.accountType.set 0 (BaseState.accountType S).toByte =
          [(BaseState.accountType S).toByte] := by
        rw [hb]
        rfl
      refine ⟨⟨hshape.length_baseData, ?_, ?_⟩, rfl, rfl, rfl, .inr htype⟩
      · have hms := hshape.not_multisig
        simpa [bytes, length_append] using hms
      · rcases hshape.slots with ⟨-, ha, -⟩ | ⟨hp, -, ht⟩
        · exact absurd ha hne
        · exact .inr ⟨hp, ⟨_, htype⟩, ht⟩

theorem claim_ok {S : Type} [BaseState S] {st st' : StateWithExtensionsMut S} {base : S}
    (hshape : st.Shape) (ha : st.HasArea)
    (h : (packBase { st with base }).withAccountType = .ok st') :
    st'.Shape ∧ st'.HasArea ∧ st'.record = { st.record with base } ∧
      (st'.accountType = [] ∨ st'.accountType = [(BaseState.accountType S).toByte]) ∧
      Pack.unpackUnchecked S st'.baseData = .ok base := by
  obtain ⟨hs', hbase, hdata, htlv, htype⟩ := withAccountType_ok (hshape.withBase base) h
  refine ⟨hs', ha.congr htlv, ?_, htype, ?_⟩
  · rw [record_congr hbase htlv, record_packBase]
    rfl
  · rw [hdata]
    exact Pack.unpackUnchecked_packIntoSlice hshape.length_baseData

theorem initializeMintWith_refines {decimals : UInt8} {mintAuthority : Pubkey}
    {freezeAuthority : Option Pubkey} (hs : AllSound id s)
    (h : initializeMintWith env accounts decimals mintAuthority freezeAuthority flag s = .ok s')
    (hr : AllRespect id accounts s s') : Refines id request s s' := by
  simp only [initializeMintWith, checks, nextAccountInfo_eq_ok] at h
  obtain ⟨info, _, rfl, _, _, -, -, st, hread, -, _, -, -, _, -, st', hclaim, rfl⟩ := h
  refine .of_write hs (hr info (by simp)) fun howner => ?_
  obtain ⟨hbytes, hu⟩ := unpackUninitialized_eq_ok.mp hread
  obtain ⟨ha, hsupply, hold⟩ := (hs info.key howner).newMint hread
  obtain ⟨hshape, ha', hrecord, htype, hbase⟩ := claim_ok hu.toShape ha hclaim
  have hbase' := congrArg Record.base hrecord
  rw [record_base] at hbase'
  have hv : st'.Valid := by
    refine ⟨hshape, Pack.unpack_eq_ok.mpr ⟨hbase'.symm ▸ hbase, ?_⟩, htype⟩
    rw [hbase']
    rfl
  refine .of_owned hs howner (.of_mint hv ha') ?_
  rw [entryOf_mint hv, hrecord]
  refine .single (.openMint _ _ ?_ hsupply ?_)
  · rw [book_of_owner howner, hbytes, entryOf_newMint hu]
    rfl
  · rw [withheldFees, get_withBase]
    cases hget : st.record.get TransferFeeConfig with
    | none => rfl
    | some c => simp [hold c hget]

/-! ## New accounts -/

variable {st₁ : StateWithExtensionsMut Account} {d : List UInt8} {rent : Rent} {base : Bank}
  {mint : Mint}

/-- Of the extensions a mint asks for, only the withheld fee is initialised. -/
theorem initAccountExtensionFromType_ok {t : ExtensionType} {u : Unit} (ha : st.HasArea)
    (h : (initAccountExtensionFromType t).run st = .ok u st₁) :
    t = .transferFeeAmount ∧ (∃ i, Created st st₁ .transferFeeAmount i) ∨
      t ≠ .transferFeeAmount ∧ st₁ = st := by
  cases t with
  | transferFeeAmount =>
    obtain ⟨i, _, hinit, h₁⟩ := run_bind_eq_ok h
    cases h₁
    exact .inl ⟨rfl, i, initExtension_ok ha hinit⟩
  | immutableOwner => cases h
  | memoTransfer => cases h
  | confidentialTransferAccount | uninitialized | transferFeeConfig | mintCloseAuthority
  | confidentialTransferMint | defaultAccountState =>
    cases h; exact .inr ⟨by decide, rfl⟩

theorem get_of_created {i : Nat} (h : Created st st₁ .transferFeeAmount i) :
    st₁.record.get TransferFeeAmount = some (.mk 0) := by
  have hget := get_putBytes_same (V := TransferFeeAmount) st.record
    (defaultValue .transferFeeAmount)
  rw [h.record_eq]
  exact hget

theorem initAccountExtensions_ok {st' : StateWithExtensionsMut Account} {ts : List ExtensionType}
    (ha : st.HasArea) (hzero : st.record.withheld = 0) (h : st.initAccountExtensions ts = .ok st') :
    (∃ tlv, st' = { st with tlvData := tlv } ∧ tlv.length = st.tlvData.length) ∧ st'.HasArea ∧
      st'.record.withheld = 0 ∧
      ((st.record.get TransferFeeAmount).isSome ∨ .transferFeeAmount ∈ ts →
        (st'.record.get TransferFeeAmount).isSome) := by
  induction ts generalizing st with
  | nil =>
    cases h
    exact ⟨⟨st'.tlvData, rfl, rfl⟩, ha, hzero, fun h => h.elim (fun h => h) (by simp)⟩
  | cons t _ ih =>
    unfold initAccountExtensions at h
    cases hrun : (initAccountExtensionFromType t).run st with
    | error => rw [hrun] at h; cases h
    | ok _ st₁ =>
      rw [hrun] at h
      rcases initAccountExtensionFromType_ok ha hrun with ⟨rfl, i, hc⟩ | ⟨hne, rfl⟩
      · have hget := get_of_created hc
        have hzero₁ : st₁.record.withheld = 0 := by
          rw [withheld, hget]
          rfl
        obtain ⟨⟨tlv, rfl, hlen⟩, ha', hzero', hsome⟩ := ih hc.dataAt.hasArea hzero₁ h
        obtain ⟨_, rfl, hlen₁⟩ := hc.frame
        exact ⟨⟨tlv, rfl, hlen.trans hlen₁⟩, ha', hzero', fun _ => hsome (.inl (by rw [hget]; rfl))⟩
      · obtain ⟨hframe, ha', hzero', hsome⟩ := ih ha hzero h
        refine ⟨hframe, ha', hzero', fun hor => hsome (hor.imp_right fun hmem => ?_)⟩
        exact (mem_cons.mp hmem).resolve_left hne.symm

/-- The balance of a new account: wrapped SOL, or nothing. -/
theorem startingBalance_ok {mintKey : Pubkey} {lamports : UInt64} {len : Nat}
    {isNative : Option UInt64} {amount : UInt64}
    (h : startingBalance rent mintKey lamports len = .ok (isNative, amount)) :
    mintKey = nativeMintId ∧ isNative.isSome = true ∨
      mintKey ≠ nativeMintId ∧ isNative = none ∧ amount = 0 := by
  unfold startingBalance at h
  split at h
  next hnative =>
    simp only [checks] at h
    obtain ⟨_, -, rfl, -⟩ := h
    exact .inl ⟨hnative, rfl⟩
  next hne =>
    cases h
    exact .inr ⟨hne, rfl, rfl⟩

theorem unpackMint_ok {info : AccountMeta} {w : StateWithExtensions Mint}
    (h : unpackMint s info = .ok w) : ∃ m, unpack Mint (s info.key).data = .ok m ∧ w = m.view := by
  unfold unpackMint at h
  split at h
  next mint hread =>
    cases h
    simp only [StateWithExtensions.unpack, checks] at hread
    obtain ⟨m, hm, rfl⟩ := hread
    exact ⟨m, hm, rfl⟩
  next => cases h

theorem required_of_config {m : StateWithExtensionsMut Mint} (hp : m.Proper)
    (h : (m.record.get TransferFeeConfig).isSome) :
    ∃ types, getExtensionTypes m.tlvData = .ok types ∧
      .transferFeeAmount ∈ ExtensionType.getRequiredInitAccountExtensions types := by
  obtain ⟨E, hE⟩ := hp.area
  refine ⟨E.types, by rw [hE, E.getExtensionTypes_bytes], ?_⟩
  rw [Record.get, record_data hE, Option.isSome_map] at h
  obtain ⟨b, hb⟩ := Option.isSome_iff_exists.mp h
  exact mem_filterMap.mpr ⟨.transferFeeConfig, E.mem_types.mpr ⟨b, hb⟩, rfl⟩

theorem entryOf_uninitialized (hshape : st.Shape)
    (htype : st.accountType = [] ∨ st.accountType = [AccountType.account.toByte])
    (hbase : Pack.unpackUnchecked Account st.baseData = .ok st.base)
    (hinit : Pack.isInitialized st.base = false) : entryOf st.bytes = .vacant := by
  refine entryOf_eq_vacant (fun a hv heq => ?_) (fun m hv heq =>
    hshape.ne_of_types hv.toShape htype hv.type_eq (by decide) heq) fun m hu heq =>
      absurd heq (hshape.ne_of_types hu.toShape htype hu.type_eq (by decide))
  obtain ⟨hread, hinit'⟩ := Pack.unpack_eq_ok.mp hv.base_eq
  rw [← hshape.baseData_eq hv.toShape heq, hbase] at hread
  rw [← Except.ok.inj hread, hinit] at hinit'
  cases hinit'

theorem initializeAccountWith_refines {owner : Option Pubkey} (hs : AllSound id s)
    (h : initializeAccountWith id env accounts owner flag s = .ok s')
    (hr : AllRespect id accounts s s') : Refines id .other s s' := by
  simp only [initializeAccountWith, getRequiredAccountExtensions, checkProgramAccount, checks,
    nextAccountInfo_eq_ok, ne_eq, not_not] at h
  obtain ⟨info, _, rfl, mint, _, -, _, _, -, _, _, -, st, hread, -, _, _, hmint, _,
    ⟨hmintOwner, _, htypes, rfl⟩, -, _, hinit, _, -, _, _, hbalance, st',
    hclaim, rfl⟩ := h
  refine .of_write hs (hr info (by simp)) fun howner => ?_
  obtain ⟨hbytes, hu⟩ := unpackUninitialized_eq_ok.mp hread
  obtain ⟨ha, hold⟩ := (hs info.key howner).newAccount hread
  have hzero : st.record.withheld = 0 := by
    rw [withheld]
    cases hget : st.record.get TransferFeeAmount with
    | none => rfl
    | some x => simp [hold x hget]
  obtain ⟨⟨_, rfl, hlen⟩, ha₁, hzero₁, hsome⟩ := initAccountExtensions_ok ha hzero hinit
  obtain ⟨hshape, ha', hrecord, htype, hbase⟩ := claim_ok (hu.toShape.withTlv hlen) ha₁ hclaim
  have hbase' := congrArg Record.base hrecord
  dsimp only at hbase'
  rw [← hbase'] at hbase
  have hvacant : book id s info.key = .vacant := by
    rw [book_of_owner howner, hbytes, entryOf_newAccount hu ha]
  refine .of_owned hs howner (.of_account hshape htype ha') ?_
  cases hstate : Pack.isInitialized st'.base with
  | false =>
    rw [entryOf_uninitialized hshape htype hbase hstate, ← hvacant, update_eq_self]
  | true =>
    have hv : st'.Valid := ⟨hshape, Pack.unpack_eq_ok.mpr ⟨hbase, hstate⟩, htype⟩
    obtain ⟨m, hm, rfl⟩ := unpackMint_ok hmint
    obtain ⟨hp, hbook⟩ := hs.mint hmintOwner hm
    rw [entryOf_account hv, hrecord]
    refine .single (.openAccount _ _ m.record rfl hvacant hbook ?_ hzero₁
      (startingBalance_ok hbalance))
    intro hconfig
    obtain ⟨_, htypes', hmem⟩ := required_of_config hp hconfig
    rw [show m.view.tlvData = m.tlvData from rfl, htypes'] at htypes
    cases htypes
    exact hsome (.inr hmem)

theorem initializeMultisigWith_refines {m : UInt8} (hs : AllSound id s)
    (h : initializeMultisigWith rent accounts m flag s = .ok s')
    (hr : AllRespect id accounts s s') : Refines id request s s' := by
  simp only [initializeMultisigWith, checks, nextAccountInfo_eq_ok] at h
  obtain ⟨info, _, rfl, _, _, -, _, -, -, -, -, -, h⟩ := h
  split at h
  next hle =>
    obtain ⟨hlen, rfl⟩ := packInto_eq_ok.mp h
    refine .of_write hs (hr info (by simp)) fun howner => ?_
    have hlen' := fun v : Multisig => LawfulPack.length_packIntoSlice v hlen
    exact .of_same hs howner (.of_multisig (hlen' _))
      ((entryOf_multisig (hlen' _)).trans (entryOf_multisig hlen).symm)
  next => cases h

/-! ## Growing an account -/

/-- More room behind the extensions. -/
def Extensions.grow {S : Type} [BaseState S] (E : Extensions S) (n : Nat) : Extensions S :=
  ⟨E.area.grow n, E.kind⟩

theorem grow_bare (hp : st.Proper) (hnil : st.accountType = []) (hn : 1 < n)
    (hms : st.bytes.length + n ≠ Pack.len Multisig) :
    ∃ st' : StateWithExtensionsMut Account, st'.Proper ∧ st'.record = st.record ∧
      st'.bytes = splice (st.bytes ++ .replicate n 0) (Pack.len Account)
        [AccountType.account.toByte] := by
  have hslots := hp.slots.resolve_right fun h => by
    obtain ⟨-, ⟨_, hb⟩, -⟩ := h
    rw [hb] at hnil
    cases hnil
  obtain ⟨hpad, -, htlv⟩ := hslots
  have hlen : st.baseData.length = 165 := hp.length_baseData
  have hbytes : st.bytes = st.baseData := by simp [bytes, hpad, hnil, htlv]
  let st' : StateWithExtensionsMut Account :=
    { st with accountType := [AccountType.account.toByte], tlvData := .replicate (n - 1) 0 }
  have hbytes' : st'.bytes = st.baseData ++ (AccountType.account.toByte ::
      replicate (n - 1) 0) := by
    simp [st', bytes, hpad]
  have hzeros : ∀ b ∈ st'.tlvData, b = 0 := fun b hb => eq_of_mem_replicate hb
  have hnone : ∀ b ∈ st.tlvData, b = 0 := by simp [htlv]
  refine ⟨st', ⟨⟨⟨hp.length_baseData, ?_, .inr ⟨?_, ⟨_, rfl⟩, ?_⟩⟩, hp.base_eq, .inr rfl⟩,
    hasArea_of_zeros hzeros⟩, ?_, ?_⟩
  · rw [hbytes', length_append, length_cons, length_replicate, ← hbytes]
    omega
  · exact hpad
  · exact ne_nil_of_length_pos (by simp [st']; omega)
  · rw [record_of_zeros hzeros, record_of_zeros hnone]
  · obtain ⟨_, rfl⟩ : ∃ m, n = m + 1 := ⟨n - 1, by omega⟩
    rw [hbytes', hbytes, show Pack.len Account = st.baseData.length from hlen.symm, splice]
    simp [replicate_succ]

theorem grow_extended (hp : st.Proper) (hne : st.accountType ≠ [])
    (hms : st.bytes.length + n ≠ Pack.len Multisig) :
    ∃ st' : StateWithExtensionsMut Account, st'.Proper ∧ st'.record = st.record ∧
      st'.bytes = st.bytes ++ .replicate n 0 := by
  obtain ⟨E, hE⟩ := hp.area
  let st' : StateWithExtensionsMut Account :=
    { st with tlvData := st.tlvData ++ .replicate n 0 }
  have hE' : st'.tlvData = (E.grow n).bytes := by
    show st.tlvData ++ .replicate n 0 = _
    rw [hE]
    exact (Area.bytes_grow E.area n).symm
  have hbytes : st'.bytes = st.bytes ++ .replicate n 0 := by
    simp [st', bytes]
  obtain ⟨hpad, htype, htlv⟩ := hp.slots.resolve_left fun h => hne h.2.1
  refine ⟨st', ⟨⟨⟨hp.length_baseData, ?_, .inr ⟨hpad, htype, ?_⟩⟩, hp.base_eq, hp.type_eq⟩,
    ⟨_, hE'⟩⟩, ?_, hbytes⟩
  · rw [hbytes, length_append, length_replicate]
    exact hms
  · exact append_ne_nil_of_left_ne_nil htlv _
  · rw [record_eq hE', record_eq hE]
    exact congrArg (Record.mk st.base) (funext fun t => Area.lookup_grow E.area n t)

theorem setAccountType_grow (hp : st.Proper)
    (h : setAccountType Account (st.bytes ++ .replicate n 0) = .ok d) :
    ∃ st' : StateWithExtensionsMut Account, st'.Proper ∧ st'.record = st.record ∧
      d = st'.bytes := by
  simp only [setAccountType, checkMinLenAndNotMultisig, checks, not_or, length_append,
    length_replicate] at h
  obtain ⟨⟨hms, -⟩, _, -, indices, hindices, h⟩ := h
  have hle : Pack.len Account ≤ st.bytes.length := by
    rw [bytes, length_append, hp.length_baseData]
    omega
  have hrest : (st.bytes ++ .replicate n 0).drop (Pack.len Account) =
      st.accountType ++ (st.tlvData ++ .replicate n 0) := by
    rw [drop_append_of_le_length hle, ← append_assoc]
    exact congrArg (· ++ _) hp.drop_base
  rw [hrest] at hindices h
  cases indices with
  | none => cases h
  | some ij =>
    obtain ⟨i, _⟩ := ij
    obtain ⟨hi, rfl, hj, -⟩ := typeAndTlvIndices_eq_some.mp hindices
    have hi : i = 0 := hi
    subst hi
    rcases hp.type_eq with hnil | htype
    · have htlv : st.tlvData = [] := by
        rcases hp.slots with ⟨-, -, ht⟩ | ⟨-, ⟨b, hb⟩, -⟩
        · exact ht
        · rw [hb] at hnil
          cases hnil
      rw [hnil, htlv] at hj h
      have hn : 1 < n := by simpa using hj
      obtain ⟨m, rfl⟩ : ∃ m, n = m + 1 := ⟨n - 1, by omega⟩
      obtain ⟨st', hp', hrecord, hbytes⟩ := grow_bare hp hnil hn hms
      refine ⟨st', hp', hrecord, ?_⟩
      have h : (pure (splice (st.bytes ++ .replicate (m + 1) 0) (Pack.len Account)
        [AccountType.account.toByte]) : Except Fault _) = .ok d := h
      rw [hbytes, pure_eq_ok.mp h]
    · obtain ⟨st', hp', hrecord, hbytes⟩ := grow_extended hp (by rw [htype]; simp) hms
      refine ⟨st', hp', hrecord, ?_⟩
      rw [htype] at h
      rw [hbytes, pure_eq_ok.mp h]

theorem systemTransfer_kept {payer : AccountMeta} {dst : Pubkey} {x : UInt64}
    (h : systemTransfer s payer dst x = .ok s') :
    ∀ k, (s' k).owner = (s k).owner ∧ (s' k).data = (s k).data := by
  simp only [systemTransfer, checks] at h
  obtain ⟨-, -, _, -, _, -, rfl⟩ := h
  exact fun k => ⟨by simp, by simp⟩

theorem processReallocate_refines {types : List ExtensionType} (hs : AllSound id s)
    (h : processReallocate id env accounts types s = .ok (base, s')) : Refines id request s s' := by
  simp only [processReallocate, StateWithExtensions.unpack, checks, nextAccountInfo_eq_ok] at h
  obtain ⟨info, _, -, _, _, -, _, _, -, _, _, -, _, ⟨_, hread, -⟩, _, -, _, -, -, h⟩ := h
  split at h
  next =>
    cases h
    exact .refl hs
  next =>
    simp only [checks, ne_eq, not_not] at h
    obtain ⟨howner, _, htransfer, _, htype, -, rfl⟩ := h
    have howner : (s info.key).owner = id := by simpa using howner
    have hkept := systemTransfer_kept htransfer
    obtain ⟨hp, hbook⟩ := hs.account howner hread
    rw [(hkept info.key).2, setData_same, (unpack_eq_ok.mp hread).1] at htype
    obtain ⟨st', hp', hrecord, rfl⟩ := setAccountType_grow hp htype
    have hstep : Refines id request s (s.setData info.key st'.bytes) := by
      refine .of_owned hs howner (.of_proper_account hp') ?_
      rw [entryOf_account hp'.toValid, hrecord, ← hbook, update_eq_self]
    refine hstep.trans (.of_kept hstep.sound fun k => ?_)
    by_cases hk : k = info.key
    · subst hk
      simp [(hkept _).1]
    · rw [setData_of_ne _ hk, setData_of_ne _ hk, (hkept k).1, (hkept k).2,
        setData_of_ne _ hk]
      exact ⟨rfl, rfl⟩

/-! ## The native mint -/

/-- An account of another owner is assigned to the program, zero-filled. -/
theorem Refines.of_assign {a : RuntimeAccount} (hs : AllSound id s) (hne : (s k).owner ≠ id)
    (hzero : ∀ b ∈ a.data, b = 0) : Refines id request s (update s k a) := by
  have hbook : book id (update s k a) = book id s := by
    funext k'
    by_cases hk : k' = k
    · subst hk
      rw [book_of_owner_ne hne, book]
      simp [entryOf_zeros hzero]
    · simp [book, hk]
  refine ⟨by rw [hbook], fun k' howner => ?_⟩
  by_cases hk : k' = k
  · subst hk
    simpa using .of_zeros hzero
  · rw [update_of_ne hk] at howner ⊢
    exact hs k' howner

theorem proper_bare_mint (hinit : mint.isInitialized = true)
    (hlen : d.length = Pack.len Mint) : Proper ⟨mint, Pack.packIntoSlice mint d, [], [], []⟩ := by
  have hlen' := LawfulPack.length_packIntoSlice mint hlen
  refine ⟨⟨⟨hlen', ?_, .inl ⟨rfl, rfl, rfl⟩⟩, Pack.unpack_packIntoSlice hlen hinit, .inl rfl⟩,
    hasArea_of_zeros fun _ hb => absurd hb not_mem_nil⟩
  simp only [bytes, append_nil, hlen']
  decide

theorem Refines.of_bare_mint (hs : AllSound id s) (howner : (s k).owner = id)
    (hvacant : entryOf (s k).data = .vacant) (hinit : mint.isInitialized = true)
    (hsupply : mint.supply = 0) (h : packInto s k mint = .ok s') : Refines id request s s' := by
  obtain ⟨hlen, rfl⟩ := packInto_eq_ok.mp h
  have hp := proper_bare_mint hinit hlen
  have hbytes : Pack.packIntoSlice mint (s k).data =
      bytes ⟨mint, Pack.packIntoSlice mint (s k).data, [], [], []⟩ := by
    simp [bytes]
  rw [hbytes]
  refine .of_owned hs howner (.of_proper_mint hp) ?_
  rw [entryOf_mint hp.toValid]
  have hnone : Record.get TransferFeeConfig (record ⟨mint, Pack.packIntoSlice mint (s k).data, [],
      [], []⟩) = none := get_of_zeros fun _ hb => absurd hb not_mem_nil
  refine .single (.openMint k _ (by rw [book_of_owner howner, hvacant, hnone]; rfl) hsupply ?_)
  rw [withheldFees, hnone]

theorem processCreateNativeMint_refines (hid : id ≠ systemProgramId)
    (hs : AllSound id s) (h : processCreateNativeMint id env accounts s = .ok (base, s')) :
    Refines id request s s' := by
  simp only [processCreateNativeMint, checks, nextAccountInfo_eq_ok, not_or, ne_eq, not_not] at h
  obtain ⟨_, _, -, info, _, -, _, _, -, -, s₁, htransfer, ⟨-, hsystem⟩, _, hpack, -, rfl⟩ := h
  have hkept := systemTransfer_kept htransfer
  have hzeros : ∀ b ∈ replicate (Pack.len Mint) (0 : UInt8), b = 0 :=
    fun b hb => eq_of_mem_replicate hb
  have hassign : Refines id request s₁ _ := .of_assign (hs.congr hkept)
    (a := ⟨(s₁ info.key).lamports, id, .replicate (Pack.len Mint) 0⟩)
    (show (s₁ info.key).owner ≠ id by rw [hsystem]; exact .symm hid) hzeros
  refine .trans (.of_kept hs hkept) (hassign.trans ?_)
  exact .of_bare_mint hassign.sound (by simp) (by simpa using entryOf_zeros hzeros) rfl rfl hpack

end SolanaPrograms.Token2022
