import SolanaPrograms.Runtime.Writes
import SolanaPrograms.Token2022.Records

/-!
# The book behind the account store

The abstract state of token-2022: every address has an `Entry`, which is vacant, a token account
or a mint, with the records of `Records`, or the draft of a mint: its fees can be set before it is
initialised. `book` reads it off the store.

Data the program owns is `Sound`: however it is unpacked, its area is a list of extensions, and a
mint that is not initialised yet records no supply and no withheld fees. This is what the handlers
rely on when they read bytes that earlier instructions wrote. One buffer can be a mint for one
function and an account for another only while it is blank; the lemmas of the first section rule
the other cases out.
-/

namespace SolanaPrograms.Token2022

open Outcome Bytes Tlv SolanaPrograms.Runtime List Except
open Token (Mint Account AccountState Multisig)

namespace StateWithExtensionsMut

/-! ## Two views of one buffer -/

section Share

variable {S S' : Type} [BaseState S] [BaseState S'] {st : StateWithExtensionsMut S}
  {st' : StateWithExtensionsMut S'}

/-- Behind the longest base state stand the account type and the area. -/
theorem Shape.drop_base (h : st.Shape) :
    st.bytes.drop baseAccountLength = st.accountType ++ st.tlvData := by
  have hle : Pack.len S ≤ baseAccountLength := BaseState.len_le
  have hlen := h.length_baseData
  rcases h.slots with ⟨hp, ha, ht⟩ | ⟨hp, -, -⟩
  · rw [bytes, hp, ha, ht]
    exact drop_eq_nil_of_le (by simpa [hlen] using hle)
  · rw [bytes, ← append_assoc]
    refine drop_left' ?_
    rw [length_append, hlen, hp, length_replicate]
    omega

theorem Shape.length_of_nil (h : st.Shape) (ha : st.accountType = []) :
    st.bytes.length = Pack.len S := by
  rcases h.slots with ⟨hp, -, ht⟩ | ⟨-, ⟨b, hb⟩, -⟩
  · simp [bytes, hp, ha, ht, h.length_baseData]
  · rw [hb] at ha
    cases ha

theorem Shape.share (h : st.Shape) (h' : st'.Shape) (heq : st.bytes = st'.bytes) :
    st.accountType = st'.accountType ∧ st.tlvData = st'.tlvData := by
  have hdrop : st.accountType ++ st.tlvData = st'.accountType ++ st'.tlvData := by
    rw [← h.drop_base, ← h'.drop_base, heq]
  rcases h.slots with ⟨-, ha, ht⟩ | ⟨-, ⟨b, ha⟩, ht⟩ <;>
    rcases h'.slots with ⟨-, ha', ht'⟩ | ⟨-, ⟨b', ha'⟩, ht'⟩ <;>
    rw [ha, ha'] at hdrop
  · exact ⟨ha.trans ha'.symm, hdrop⟩
  · rw [ht] at hdrop
    cases hdrop
  · rw [ht'] at hdrop
    cases hdrop
  · obtain ⟨rfl, htlv⟩ := cons.inj hdrop
    exact ⟨ha.trans ha'.symm, htlv⟩

end Share

variable {a : StateWithExtensionsMut Account} {m : StateWithExtensionsMut Mint}

theorem Shape.accountType_ne_nil (ha : a.Shape) (hm : m.Shape) (heq : a.bytes = m.bytes) :
    a.accountType ≠ [] := by
  intro hnil
  have hla : a.bytes.length = 165 := ha.length_of_nil hnil
  have hlm : m.bytes.length = 82 := hm.length_of_nil ((ha.share hm heq).1 ▸ hnil)
  rw [heq, hlm] at hla
  omega

theorem Shape.ne_of_types (ha : a.Shape) (hm : m.Shape) {t t' : AccountType}
    (hta : a.accountType = [] ∨ a.accountType = [t.toByte])
    (htm : m.accountType = [] ∨ m.accountType = [t'.toByte]) (hne : t.toByte ≠ t'.toByte) :
    a.bytes ≠ m.bytes := by
  intro heq
  have hnil := ha.accountType_ne_nil hm heq
  have hshare := (ha.share hm heq).1
  have hta' := hta.resolve_left hnil
  have htm' := htm.resolve_left (hshare ▸ hnil)
  rw [hta', htm'] at hshare
  exact hne (cons.inj hshare).1

section Same

variable {S : Type} [BaseState S] {st st' : StateWithExtensionsMut S}

theorem Shape.baseData_eq (h : st.Shape) (h' : st'.Shape) (heq : st.bytes = st'.bytes) :
    st.baseData = st'.baseData :=
  (append_inj heq (h.length_baseData.trans h'.length_baseData.symm)).1

theorem Valid.ne_unclaimed (h : st.Valid) (h' : st'.Unclaimed) : st.bytes ≠ st'.bytes := by
  intro heq
  obtain ⟨hbase, hinit⟩ := Pack.unpack_eq_ok.mp h.base_eq
  rw [h.toShape.baseData_eq h'.toShape heq, h'.base_eq] at hbase
  rw [← ok.inj hbase, h'.uninitialized] at hinit
  cases hinit

theorem HasArea.share {S' : Type} [BaseState S'] {st : StateWithExtensionsMut S}
    {st' : StateWithExtensionsMut S'} (h : st.Shape) (h' : st'.Shape) (heq : st.bytes = st'.bytes)
    {E : Extensions S} (hE : st.tlvData = E.bytes) : st'.tlvData = E.bytes :=
  (h.share h' heq).2.symm.trans hE

end Same

/-- Extensions whose first one, if there is one, belongs to another kind of state: there are
none. -/
theorem types_eq_nil {S S' : Type} [BaseState S] [BaseState S'] {E : Extensions S}
    (hne : BaseState.accountType S ≠ BaseState.accountType S')
    (h : checkFirstExtensionType S' E.bytes = .ok ()) : E.types = [] := by
  rw [checkFirstExtensionType, E.getFirstExtensionType_bytes, ok_bind] at h
  cases htypes : E.types with
  | nil => rfl
  | cons t =>
    rw [htypes] at h
    have hkind := E.kind t (htypes ▸ mem_cons_self : t ∈ E.types)
    simp only [head?_cons, failIf_eq_ok, ne_eq, not_not] at h
    exact absurd (hkind.symm.trans h) hne

theorem bytes_of_types_eq_nil {S : Type} [BaseState S] {E : Extensions S} (h : E.types = []) :
    ∀ b ∈ E.bytes, b = 0 := by
  have hentries : E.area.entries = [] := map_eq_nil_iff.mp h
  intro b hb
  rw [Extensions.bytes, Area.bytes, hentries] at hb
  exact eq_of_mem_replicate hb

end StateWithExtensionsMut

open StateWithExtensionsMut

/-! ## Sound data -/

/-- Data the handlers can rely on. -/
structure Sound (d : List UInt8) : Prop where
  account : ∀ {st : StateWithExtensionsMut Account}, unpack Account d = .ok st → st.HasArea
  mint : ∀ {st : StateWithExtensionsMut Mint}, unpack Mint d = .ok st → st.HasArea
  newAccount : ∀ {st : StateWithExtensionsMut Account}, unpackUninitialized Account d = .ok st →
    st.HasArea ∧ ∀ x, st.record.get TransferFeeAmount = some x → x.withheldAmount = 0
  newMint : ∀ {st : StateWithExtensionsMut Mint}, unpackUninitialized Mint d = .ok st →
    st.HasArea ∧ st.base.supply = 0 ∧
      ∀ c, st.record.get TransferFeeConfig = some c → c.withheldAmount = 0

variable {S : Type} {st : StateWithExtensionsMut Account} {d : List UInt8}

theorem record_of_zeros [BaseState S] {st : StateWithExtensionsMut S} (h : ∀ b ∈ st.tlvData, b = 0)
    : st.record = ⟨st.base, fun _ => none⟩ :=
  record_eq (E := .blank S st.tlvData.length) (eq_replicate_of_mem h)

theorem get_of_zeros {V : Type} [BaseState S] [Extension V] {st : StateWithExtensionsMut S}
    (h : ∀ b ∈ st.tlvData, b = 0) : st.record.get V = none := by
  rw [record_of_zeros h]
  rfl

theorem Sound.of_views
    (account : ∀ st : StateWithExtensionsMut Account, d = st.bytes → st.Valid → st.HasArea)
    (mint : ∀ st : StateWithExtensionsMut Mint, d = st.bytes → st.Valid → st.HasArea)
    (newAccount : ∀ st : StateWithExtensionsMut Account, d = st.bytes → st.Unclaimed →
      st.HasArea ∧ ∀ x, st.record.get TransferFeeAmount = some x → x.withheldAmount = 0)
    (newMint : ∀ st : StateWithExtensionsMut Mint, d = st.bytes → st.Unclaimed →
      st.HasArea ∧ st.base.supply = 0 ∧
        ∀ c, st.record.get TransferFeeConfig = some c → c.withheldAmount = 0) : Sound d where
  account h := and_imp.mpr (account _) (unpack_eq_ok.mp h)
  mint h := and_imp.mpr (mint _) (unpack_eq_ok.mp h)
  newAccount h := and_imp.mpr (newAccount _) (unpackUninitialized_eq_ok.mp h)
  newMint h := and_imp.mpr (newMint _) (unpackUninitialized_eq_ok.mp h)

/-- A token account, also one that starts uninitialised. -/
theorem Sound.of_account (h : st.Shape)
    (htype : st.accountType = [] ∨ st.accountType = [AccountType.account.toByte]) (ha : st.HasArea)
    : Sound st.bytes := by
  obtain ⟨E, hE⟩ := ha
  apply Sound.of_views
  · intro st' heq hv
    exact ⟨E, HasArea.share h hv.toShape heq hE⟩
  · intro m heq hv
    exact absurd heq (h.ne_of_types hv.toShape htype hv.type_eq (by decide))
  · intro st' heq hu
    refine ⟨⟨E, HasArea.share h hu.toShape heq hE⟩, fun x hx => ?_⟩
    -- without an account type there is no area either
    have hnil : st'.tlvData = [] := by
      rcases hu.toShape.slots with ⟨-, -, ht⟩ | ⟨-, ⟨b, hb⟩, -⟩
      · exact ht
      · have hshare := (h.share hu.toShape heq).1
        rw [hb] at hshare
        rcases htype with ht | ht <;> rw [ht] at hshare
        · cases hshare
        · have hne := hu.type_eq.resolve_left (by rw [hb]; exact cons_ne_nil _ _)
          rw [hb, ← hshare] at hne
          exact absurd hne (by decide)
    rw [get_of_zeros (by rw [hnil]; exact fun _ hb => absurd hb not_mem_nil)] at hx
    cases hx
  · intro m heq hu
    exact absurd heq (h.ne_of_types hu.toShape htype hu.type_eq (by decide))

theorem Sound.of_mint {st : StateWithExtensionsMut Mint} (h : st.Valid) (ha : st.HasArea) :
    Sound st.bytes := by
  obtain ⟨E, hE⟩ := ha
  apply Sound.of_views
  · intro a heq hv
    exact absurd heq.symm (hv.toShape.ne_of_types h.toShape hv.type_eq h.type_eq (by decide))
  · intro st' heq hv
    exact ⟨E, HasArea.share h.toShape hv.toShape heq hE⟩
  · intro a heq hu
    exact absurd heq.symm (hu.toShape.ne_of_types h.toShape hu.type_eq h.type_eq (by decide))
  · intro st' heq hu
    exact absurd heq (h.ne_unclaimed hu)

theorem Sound.of_newMint {st : StateWithExtensionsMut Mint} (h : st.Unclaimed) (ha : st.HasArea)
    (hsupply : st.base.supply = 0)
    (hwithheld : ∀ c, st.record.get TransferFeeConfig = some c → c.withheldAmount = 0) :
    Sound st.bytes := by
  obtain ⟨E, hE⟩ := ha
  apply Sound.of_views
  · intro a heq hv
    exact absurd heq.symm (hv.toShape.ne_of_types h.toShape hv.type_eq h.type_eq (by decide))
  · intro st' heq hv
    exact absurd heq.symm (hv.ne_unclaimed h)
  · intro a heq hu
    -- both kinds accept the first extension, so there is none
    have htlv := HasArea.share h.toShape hu.toShape heq hE
    have hfirst := hu.first_eq
    rw [htlv] at hfirst
    have hzeros := bytes_of_types_eq_nil (types_eq_nil (by decide) hfirst)
    rw [← htlv] at hzeros
    exact ⟨hasArea_of_zeros hzeros, fun x hx => by rw [get_of_zeros hzeros] at hx; cases hx⟩
  · intro st' heq hu
    have htlv := HasArea.share h.toShape hu.toShape heq hE
    have hbase := hu.base_eq
    rw [← h.toShape.baseData_eq hu.toShape heq, h.base_eq] at hbase
    have hbase' := ok.inj hbase
    refine ⟨⟨E, htlv⟩, hbase' ▸ hsupply, fun c hc => hwithheld c ?_⟩
    rwa [record_congr hbase' (hE.trans htlv.symm)]

/-- A token account before its initialisation, with an extension. -/
theorem Sound.of_newAccount (h : st.Unclaimed) {E : Extensions Account} (hE : st.tlvData = E.bytes)
    (hne : E.types ≠ [])
    (hwithheld : ∀ x, st.record.get TransferFeeAmount = some x → x.withheldAmount = 0) :
    Sound st.bytes := by
  apply Sound.of_views
  · intro st' heq hv
    exact absurd heq.symm (hv.ne_unclaimed h)
  · intro m heq hv
    exact absurd heq (h.toShape.ne_of_types hv.toShape h.type_eq hv.type_eq (by decide))
  · intro st' heq hu
    have htlv := HasArea.share h.toShape hu.toShape heq hE
    have hbase := hu.base_eq
    rw [← h.toShape.baseData_eq hu.toShape heq, h.base_eq] at hbase
    refine ⟨⟨E, htlv⟩, fun x hx => hwithheld x ?_⟩
    rwa [record_congr (ok.inj hbase) (hE.trans htlv.symm)]
  · intro m heq hu
    have hfirst := hu.first_eq
    rw [HasArea.share h.toShape hu.toShape heq hE] at hfirst
    exact absurd (types_eq_nil (by decide) hfirst) hne

theorem mem_bytes {st : StateWithExtensionsMut S} {b : UInt8} :
    b ∈ st.bytes ↔ b ∈ st.baseData ∨ b ∈ st.padding ∨ b ∈ st.accountType ∨ b ∈ st.tlvData := by
  simp [bytes]

theorem Sound.of_zeros (h : ∀ b ∈ d, b = 0) : Sound d := by
  have htlv : ∀ {S : Type} {st : StateWithExtensionsMut S}, d = st.bytes →
      ∀ b ∈ st.tlvData, b = 0 := fun heq b hb =>
    h b (heq ▸ mem_bytes.mpr (.inr (.inr (.inr hb))))
  refine .of_views (fun _ heq _ => hasArea_of_zeros (htlv heq))
    (fun _ heq _ => hasArea_of_zeros (htlv heq)) ?_ ?_
  · intro st heq _
    refine ⟨hasArea_of_zeros (htlv heq), fun x hx => ?_⟩
    rw [get_of_zeros (htlv heq)] at hx
    cases hx
  · intro st heq hu
    have hbase : ∀ b ∈ st.baseData, b = 0 := fun b hb => h b (heq ▸ mem_bytes.mpr (.inl hb))
    refine ⟨hasArea_of_zeros (htlv heq), (Mint.unpackUnchecked_zero hbase hu.base_eq).2, ?_⟩
    intro c hc
    rw [get_of_zeros (htlv heq)] at hc
    cases hc

theorem Sound.of_multisig (h : d.length = Pack.len Multisig) : Sound d := by
  have hno : ∀ {S : Type} [BaseState S] {st : StateWithExtensionsMut S}, st.Shape →
      d ≠ st.bytes := fun hs heq => hs.not_multisig (heq ▸ h)
  exact .of_views (fun _ heq hv => absurd heq (hno hv.toShape))
    (fun _ heq hv => absurd heq (hno hv.toShape)) (fun _ heq hu => absurd heq (hno hu.toShape))
    fun _ heq hu => absurd heq (hno hu.toShape)

/-! ## Entries -/

/-- What the program keeps at an address. -/
inductive Entry
  | vacant
  /-- A mint that is not initialised, with its fees. -/
  | draft (config : TransferFeeConfig)
  | account (r : Record Account)
  | mint (r : Record Mint)

/-- The entry of a mint that is not initialised. -/
def Entry.ofConfig : Option TransferFeeConfig → Entry
  | some config => .draft config
  | none => .vacant

def entryOf (d : List UInt8) : Entry :=
  match unpack Account d with
  | .ok st => .account st.record
  | .error _ =>
    match unpack Mint d with
    | .ok st => .mint st.record
    | .error _ =>
      match unpackUninitialized Mint d with
      | .ok st => .ofConfig (st.record.get TransferFeeConfig)
      | .error _ => .vacant

theorem entryOf_account (h : st.Valid) : entryOf st.bytes = .account st.record := by
  rw [entryOf, unpack_eq_ok.mpr ⟨rfl, h⟩]

theorem entryOf_mint {st : StateWithExtensionsMut Mint} (h : st.Valid) :
    entryOf st.bytes = .mint st.record := by
  rw [entryOf, unpack_eq_ok.mpr ⟨rfl, h⟩]
  cases ha : unpack Account st.bytes with
  | error => rfl
  | ok =>
    obtain ⟨heq, hv⟩ := unpack_eq_ok.mp ha
    exact absurd heq.symm (hv.toShape.ne_of_types h.toShape hv.type_eq h.type_eq (by decide))

theorem entryOf_of_unclaimed
    (ha : ∀ st : StateWithExtensionsMut Account, st.Valid → d ≠ st.bytes)
    (hm : ∀ st : StateWithExtensionsMut Mint, st.Valid → d ≠ st.bytes) :
    entryOf d = match unpackUninitialized Mint d with
      | .ok st => .ofConfig (st.record.get TransferFeeConfig)
      | .error _ => .vacant := by
  unfold entryOf
  cases h : unpack Account d with
  | ok st => exact absurd (unpack_eq_ok.mp h).1 (ha st (unpack_eq_ok.mp h).2)
  | error =>
    cases h' : unpack Mint d with
    | ok st => exact absurd (unpack_eq_ok.mp h').1 (hm st (unpack_eq_ok.mp h').2)
    | error => rfl

theorem entryOf_eq_vacant (ha : ∀ st : StateWithExtensionsMut Account, st.Valid → d ≠ st.bytes)
    (hm : ∀ st : StateWithExtensionsMut Mint, st.Valid → d ≠ st.bytes)
    (hu : ∀ st : StateWithExtensionsMut Mint, st.Unclaimed → d = st.bytes →
      st.record.get TransferFeeConfig = none) : entryOf d = .vacant := by
  rw [entryOf_of_unclaimed ha hm]
  cases h : unpackUninitialized Mint d with
  | error => rfl
  | ok st =>
    obtain ⟨hbytes, h⟩ := unpackUninitialized_eq_ok.mp h
    simp only [hu st h hbytes, Entry.ofConfig]

theorem Entry.ofConfig_ne_account (c : Option TransferFeeConfig) (r : Record Account) :
    Entry.ofConfig c ≠ .account r := by
  cases c <;> simp [Entry.ofConfig]

theorem Entry.ofConfig_ne_mint (c : Option TransferFeeConfig) (r : Record Mint) :
    Entry.ofConfig c ≠ .mint r := by
  cases c <;> simp [Entry.ofConfig]

theorem entryOf_eq_account {r : Record Account} (h : entryOf d = .account r) :
    ∃ st : StateWithExtensionsMut Account, d = st.bytes ∧ st.Valid ∧ r = st.record := by
  unfold entryOf at h
  split at h
  next st hu =>
    cases h
    exact ⟨st, (unpack_eq_ok.mp hu).1, (unpack_eq_ok.mp hu).2, rfl⟩
  next =>
    split at h
    · cases h
    · split at h
      · exact absurd h (Entry.ofConfig_ne_account _ _)
      · cases h

theorem entryOf_eq_mint {r : Record Mint} (h : entryOf d = .mint r) :
    ∃ st : StateWithExtensionsMut Mint, d = st.bytes ∧ st.Valid ∧ r = st.record := by
  unfold entryOf at h
  split at h
  next => cases h
  next =>
    split at h
    next st hu =>
      cases h
      exact ⟨st, (unpack_eq_ok.mp hu).1, (unpack_eq_ok.mp hu).2, rfl⟩
    next =>
      split at h
      · exact absurd h (Entry.ofConfig_ne_mint _ _)
      · cases h

/-- A mint that is not claimed yet has at most its fees in the book. -/
theorem entryOf_newMint {st : StateWithExtensionsMut Mint} (h : st.Unclaimed) :
    entryOf st.bytes = .ofConfig (st.record.get TransferFeeConfig) := by
  rw [entryOf_of_unclaimed (fun a ha heq => ?_) fun m hm heq => hm.ne_unclaimed h heq.symm,
    unpackUninitialized_eq_ok.mpr ⟨rfl, h⟩]
  exact ha.toShape.ne_of_types h.toShape ha.type_eq h.type_eq (by decide) heq.symm

theorem entryOf_newAccount (h : st.Unclaimed) (ha : st.HasArea) : entryOf st.bytes = .vacant := by
  refine entryOf_eq_vacant (fun _ ha heq => ha.ne_unclaimed h heq.symm) (fun _ hm heq =>
    h.toShape.ne_of_types hm.toShape h.type_eq hm.type_eq (by decide) heq) fun m hu heq => ?_
  -- both kinds accept the first extension, so there is none
  obtain ⟨E, hE⟩ := ha
  have htlv := HasArea.share h.toShape hu.toShape heq hE
  have hfirst := hu.first_eq
  rw [htlv] at hfirst
  refine get_of_zeros ?_
  rw [htlv]
  exact bytes_of_types_eq_nil (types_eq_nil (by decide) hfirst)

theorem entryOf_multisig (h : d.length = Pack.len Multisig) : entryOf d = .vacant :=
  entryOf_eq_vacant (fun _ ha heq => ha.not_multisig (heq ▸ h)) (fun _ hm heq =>
    hm.not_multisig (heq ▸ h)) fun _ hu heq => absurd (heq ▸ h) hu.not_multisig

theorem entryOf_zeros (h : ∀ b ∈ d, b = 0) : entryOf d = .vacant := by
  refine entryOf_eq_vacant (fun st hv heq => ?_) (fun st hv heq => ?_) fun st _ heq => ?_
  · exact Account.unpack_zero (fun b hb => h b (heq ▸ mem_bytes.mpr (.inl hb))) hv.base_eq
  · exact Mint.unpack_zero (fun b hb => h b (heq ▸ mem_bytes.mpr (.inl hb))) hv.base_eq
  · exact get_of_zeros fun b hb => h b (heq ▸ mem_bytes.mpr (.inr (.inr (.inr hb))))

/-! ## The book -/

abbrev Book := Pubkey → Entry

/-- The book of the accounts the program owns. -/
def book (id : Pubkey) (s : Bank) : Book := fun k =>
  if (s k).owner = id then entryOf (s k).data else .vacant

def AllSound (id : Pubkey) (s : Bank) : Prop := ∀ k, (s k).owner = id → Sound (s k).data

section Book

variable {id k : Pubkey} {s s' : Bank} {d : List UInt8}

theorem book_of_owner (h : (s k).owner = id) : book id s k = entryOf (s k).data := if_pos h

theorem book_of_owner_ne (h : (s k).owner ≠ id) : book id s k = .vacant := if_neg h

theorem book_setData (howner : (s k).owner = id) :
    book id (s.setData k d) = Function.update (book id s) k (entryOf d) := by
  funext k'
  by_cases hk : k' = k
  · subst hk
    simp [book, howner]
  · simp [book, Bank.setData_of_ne s hk, hk]

theorem book_congr (h : ∀ k, (s' k).owner = (s k).owner ∧ (s' k).data = (s k).data) :
    book id s' = book id s := by
  funext k
  simp [book, (h k).1, (h k).2]

theorem AllSound.congr (hs : AllSound id s)
    (h : ∀ k, (s' k).owner = (s k).owner ∧ (s' k).data = (s k).data) : AllSound id s' := by
  intro k howner
  rw [(h k).2]
  exact hs k ((h k).1 ▸ howner)

theorem AllSound.setData (h : AllSound id s) (hd : Sound d) : AllSound id (s.setData k d) := by
  intro k' howner
  by_cases hk : k' = k
  · subst hk
    simpa using hd
  · rw [Bank.setData_of_ne s hk] at howner ⊢
    exact h k' howner

end Book

end SolanaPrograms.Token2022
