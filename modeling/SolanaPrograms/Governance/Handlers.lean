import SolanaPrograms.Governance.Placement

/-!
# The effects of the handlers

First what the calls of the system program and of the token program do to the store, then for each
handler the chain of its effects (`Runs`). A handler is inverted once, here; everything after this
file argues about effects.
-/

namespace SolanaPrograms.Governance

open Function Outcome World ProposalV2 TokenOwnerRecordV2 List RealmV2

/-! ## The system program -/

/-- The account was empty and is now as given; time stands still. -/
structure NewAccount (w w' : World) (k : Address) (a : Account) : Prop where
  empty : w.accounts k = .empty
  accounts : w'.accounts = update w.accounts k a
  time : w'.unixTimestamp = w.unixTimestamp

variable {w w' : World} {k signatory : Address} {a : Account} {payer info authority : AccountMeta}
  {authorityType : AuthorityType} {configArgs : RealmConfigArgs} {options : List (List UInt8)}
  {rent : Account → ℕ} {it' : List AccountMeta} {useCouncilMint : Bool} {u : Unit}
  {voteType : VoteType} {lamports amount : ℕ} {p : ProposalV2}

theorem systemTransfer_ok {source : AccountMeta} {destination : Address}
    (h : w.systemTransfer source destination lamports = .ok w') :
    w'.accounts = w.accounts ∧ w'.unixTimestamp = w.unixTimestamp := by
  simp only [systemTransfer, failIf_bind_eq_ok, pure_eq_ok] at h
  obtain ⟨-, rfl⟩ := h
  exact ⟨rfl, rfl⟩

theorem allocateAndAssign_ok (h : w.allocateAndAssign k a = .ok w') : NewAccount w w' k a := by
  simp only [allocateAndAssign, failIf_bind_eq_ok, pure_eq_ok, Account.isEmpty_eq_false,
    ne_eq, not_not] at h
  obtain ⟨hempty, rfl⟩ := h
  exact ⟨hempty, rfl, rfl⟩

theorem createAccount_ok (h : w.createAccount payer k a lamports = .ok w') :
    NewAccount w w' k a := by
  simp only [createAccount, checks] at h
  obtain ⟨-, _, hallocate, htransfer⟩ := h
  have hnew := allocateAndAssign_ok hallocate
  obtain ⟨haccounts, htime⟩ := systemTransfer_ok htransfer
  exact ⟨hnew.empty, haccounts.trans hnew.accounts, htime.trans hnew.time⟩

theorem createAndSerializeAccountSigned_ok
    {address : Address} (h : w.createAndSerializeAccountSigned rent payer info a address = .ok w') :
    address = info.key ∧ NewAccount w w' address a := by
  simp only [createAndSerializeAccountSigned, failIf_bind_eq_ok, ne_eq, not_not] at h
  obtain ⟨rfl, h⟩ := h
  refine ⟨rfl, ?_⟩
  split at h
  · split at h
    · rw [bind_eq_ok] at h
      obtain ⟨_, hpaid, h⟩ := h
      obtain ⟨haccounts, htime⟩ := systemTransfer_ok hpaid
      have hnew := allocateAndAssign_ok h
      exact ⟨haccounts ▸ hnew.empty, haccounts ▸ hnew.accounts, hnew.time.trans htime⟩
    · exact allocateAndAssign_ok h
  · exact createAccount_ok h

theorem disposeAccount_ok {beneficiary : Address} (h : w.disposeAccount k beneficiary = .ok w') :
    w'.accounts = update w.accounts k .zeroed ∧ w'.unixTimestamp = w.unixTimestamp := by
  simp only [disposeAccount, checks] at h
  obtain ⟨-, -, rfl⟩ := h
  exact ⟨rfl, rfl⟩

/-! ## The token program -/

theorem createSplTokenAccountSigned_ok {address mint owner : Address}
    (h : createSplTokenAccountSigned rent payer info address mint owner w = .ok w') :
    NewAccount w w' address (.token ⟨mint, owner, 0, none, 0, none, false, false⟩) ∧
      ∃ m, w.accounts mint = .mint m := by
  simp only [createSplTokenAccountSigned, checks, Account.views, ne_eq, not_not] at h
  obtain ⟨rfl, _, hcreate, m, hmint, rfl⟩ := h
  have hnew := createAccount_ok hcreate
  refine ⟨hnew, m, ?_⟩
  rw [hnew.accounts] at hmint
  by_cases hk : mint = info.key
  · rw [hk, update_self] at hmint
    cases hmint
  · rwa [update_of_ne hk] at hmint

section Tokens

variable {acc : Address → Account} {b : Tokens.Book Address} {e e' : Tokens.Entry Address}
  {i : TokenInstruction} {a : TokenAccount} {m : Mint} {authority k' : Address}

theorem entry_eq_account {x : Account} : x.entry = .account a ↔ x = .token a ∧ a.native = false := by
  cases x with
  | token c =>
    by_cases hc : c.native = true <;> simp [Account.entry, hc] <;> rintro rfl <;> simpa using hc
  | _ => simp [Account.entry]

theorem entry_eq_mint {x : Account} : x.entry = .mint m ↔ x = .mint m := by
  cases x <;> simp [Account.entry]
  split <;> simp

theorem post_entry (x : Account) : x.post x.entry = x := by
  cases x with
  | token c =>
    by_cases hc : c.native = true <;> simp [Account.post, Account.entry, hc, Account.ofEntry]
  | _ => rfl

theorem post_token (h : a.native = false) : (Account.token a).post e = .ofEntry e := by
  simp [Account.post, h]

theorem post_update : (fun j => (acc j).post (update b k e j)) =
    update (fun j => (acc j).post (b j)) k ((acc k).post e) := by
  funext j
  by_cases hj : j = k
  · subst hj
    simp
  · simp [hj]

/-- The writes of the token program are writes to the store. -/
theorem post_one : (fun j => (w.accounts j).post (update w.book k e j)) =
    update w.accounts k ((w.accounts k).post e) := by
  rw [post_update]
  simp only [book, post_entry]

theorem post_two : (fun j => (w.accounts j).post (update (update w.book k e) k' e' j)) =
    update (update w.accounts k ((w.accounts k).post e)) k' ((w.accounts k').post e') := by
  rw [post_update, post_one]

theorem tokenProcess_eq_ok : w.tokenProcess i = .ok w' ↔ ∃ b,
    Tokens.exec (only i.signer) (fun k => k = i.signer ∧ (w.accounts k).isEmpty) w.book i = some b ∧
      { w with
        accounts := fun k => (w.accounts k).post (b k)
        lamports := w.closeLamports i } = w' := by
  simp only [tokenProcess, checks]

theorem transfer_ok {source destination : Address}
    (h : w.tokenProcess (.transfer source destination authority amount) = .ok w') :
    Transferred w.accounts w'.accounts source destination authority amount ∧
      w'.unixTimestamp = w.unixTimestamp := by
  obtain ⟨b, hb, rfl⟩ := tokenProcess_eq_ok.mp h
  obtain ⟨sa, da, spent, hsa, hda, hmint, hspent, hcase⟩ := Tokens.transfer_some hb
  obtain ⟨hsa, hnative⟩ := entry_eq_account.mp hsa
  obtain ⟨hda, hnative'⟩ := entry_eq_account.mp hda
  refine ⟨⟨sa, da, spent, hsa, hda, hmint, hspent, ?_⟩, rfl⟩
  obtain ⟨hself, rfl⟩ | ⟨hne, rfl⟩ := hcase
  · rw [if_pos hself]
    simp only [book, post_entry]
  · rw [if_neg hne]
    simp only [post_two, hsa, hda, post_token hnative, post_token hnative', Account.ofEntry]

/-- A guarded account has an owner that cannot sign, and nobody else to close it. -/
theorem not_guarded (hsign : authority.canSign = true)
    (h : a.owner = authority ∨ a.closeAuthority.getD a.owner = authority) : ¬ a.Guarded := by
  intro hguarded
  have howner := hguarded.owner
  rw [hguarded.closeAuthority, Option.getD_none, or_self] at h
  rw [h, hsign] at howner
  cases howner

theorem tokenStep_account {a' : TokenAccount} (ha : w.book k = .account a)
    (hsign : authority.canSign = true)
    (h : a.owner = authority ∨ a.closeAuthority.getD a.owner = authority)
    (hmint : a'.mint = a.mint) (hamount : a'.amount = a.amount) :
    TokenStep w.accounts (fun j => (w.accounts j).post (update w.book k (.account a') j)) := by
  obtain ⟨ha, hnative⟩ := entry_eq_account.mp ha
  rw [post_one, ha, post_token hnative]
  exact .account ha (not_guarded hsign h) hmint hamount

theorem tokenStep_mint {m' : Mint} (hm : w.book k = .mint m) (hsupply : m'.supply = m.supply) :
    TokenStep w.accounts (fun j => (w.accounts j).post (update w.book k (.mint m') j)) := by
  have hm := entry_eq_mint.mp hm
  rw [post_one, hm]
  exact .mint hm hsupply

theorem setAuthority_ok {account : Address} {newAuthority : Option Address}
    (hsign : authority.canSign = true)
    (h : w.tokenProcess (.setAuthority account authority authorityType newAuthority) = .ok w') :
    TokenStep w.accounts w'.accounts ∧ w'.unixTimestamp = w.unixTimestamp := by
  obtain ⟨b, hb, rfl⟩ := tokenProcess_eq_ok.mp h
  refine ⟨?_, rfl⟩
  cases authorityType with
  | mintTokens | freezeAccount =>
    simp only [Tokens.exec, Tokens.setAuthority, Tokens.Book.steps] at hb
    obtain ⟨m, hm, -, rfl⟩ := hb
    exact tokenStep_mint hm rfl
  | accountOwner =>
    cases newAuthority with
    | none => cases hb
    | some owner =>
      obtain ⟨a, ha, ⟨-, howner, -⟩, rfl⟩ := Tokens.byOwner_some.mp hb
      exact tokenStep_account ha hsign (.inl howner) (by rfl) (by rfl)
  | closeAccount =>
    simp only [Tokens.exec, Tokens.setAuthority, Tokens.Book.steps] at hb
    obtain ⟨a, ha, ⟨-, hclose, -⟩, rfl⟩ := hb
    exact tokenStep_account ha hsign (.inr hclose) rfl rfl

theorem tokenStep_supply {a' : TokenAccount} {m' : Mint} (ha : w.book k = .account a)
    (hm : w.book a.mint = .mint m)
    (h : w.accounts k = .token a → w.accounts a.mint = .mint m →
      TokenStep w.accounts (update (update w.accounts a.mint (.mint m')) k (.token a'))) :
    TokenStep w.accounts (fun j =>
      (w.accounts j).post (update (update w.book k (.account a')) a.mint (.mint m') j)) := by
  obtain ⟨ha, hnative⟩ := entry_eq_account.mp ha
  have hm := entry_eq_mint.mp hm
  have hne : k ≠ a.mint := by
    intro heq
    rw [← heq, ha] at hm
    cases hm
  rw [post_two, ha, hm, post_token hnative, Function.update_comm hne]
  exact h ha hm

theorem empty_of_fresh (h : decide (k = k' ∧ (w.accounts k).isEmpty = true) = true) :
    w.accounts k = .empty := by
  have h : (w.accounts k).isEmpty = true := (of_decide_eq_true h).2
  cases hk : w.accounts k <;> simp_all [Account.isEmpty]

theorem tokenProcess_ok (hsign : i.signer.canSign = true) (h : w.tokenProcess i = .ok w') :
    TokenStep w.accounts w'.accounts ∧ w'.unixTimestamp = w.unixTimestamp := by
  obtain ⟨b, hb, rfl⟩ := tokenProcess_eq_ok.mp h
  refine ⟨?_, rfl⟩
  cases i with
  | initializeMint k =>
    simp only [Tokens.exec, Tokens.Book.steps] at hb
    obtain ⟨⟨-, hfresh⟩, rfl⟩ := hb
    have hempty := empty_of_fresh hfresh
    rw [post_one, hempty]
    exact .initializeMint hempty hsign rfl
  | initializeAccount k mint =>
    simp only [Tokens.exec, Tokens.Book.steps] at hb
    obtain ⟨m, hm, ⟨-, hfresh, -⟩, rfl⟩ := hb
    have hempty := empty_of_fresh hfresh
    rw [post_one, hempty]
    exact .initializeAccount hempty hsign (entry_eq_mint.mp hm) rfl
  | initializeNative => simp [Tokens.exec, Tokens.Special.native] at hb
  | transfer => exact .transfer hsign (transfer_ok h).1
  | mintTo =>
    obtain ⟨m, a, hm, ha, rfl, -, -, hfits, rfl⟩ := Tokens.mintTo_some hb
    exact tokenStep_supply ha hm fun ha hm => .mintTo ha hm hfits
  | burn =>
    obtain ⟨m, a, a', hm, ha, rfl, hspent, hsupply, rfl⟩ := Tokens.burn_some hb
    exact tokenStep_supply ha hm fun ha hm => .burn hsign ha hm hspent hsupply
  | approve | revoke =>
    obtain ⟨a, ha, ⟨-, howner, -⟩, rfl⟩ := Tokens.byOwner_some.mp hb
    exact tokenStep_account ha hsign (.inl howner) (by rfl) (by rfl)
  | setAuthority => exact (setAuthority_ok hsign h).1
  | closeAccount k =>
    simp only [Tokens.exec, Tokens.Book.steps] at hb
    obtain ⟨a, ha, ⟨-, hamount, hclose⟩, rfl⟩ := hb
    obtain ⟨ha, hnative⟩ := entry_eq_account.mp ha
    rw [post_one, ha, post_token hnative]
    exact .closeAccount ha (not_guarded hsign (.inr hclose.1)) (by simpa [hnative] using hamount)
  | setFrozen k _ frozen =>
    simp only [Tokens.exec, Tokens.Book.steps] at hb
    obtain ⟨a, ha, _, -, -, rfl⟩ := hb
    obtain ⟨ha, hnative⟩ := entry_eq_account.mp ha
    rw [post_one, ha, post_token hnative]
    exact .frozen ha frozen
  | syncNative =>
    simp only [Tokens.exec, Tokens.Book.steps] at hb
    obtain ⟨a, ha, ⟨hnative, -⟩, -⟩ := hb
    rw [(entry_eq_account.mp ha).2] at hnative
    cases hnative

end Tokens

/-! ## Reading records -/

namespace World

/-- What the readings of records established, as one set of rewrite rules. -/
theorem reads :
    (∀ {l p}, nextAccountInfo l = .ok p ↔ l = p.1 :: p.2) ∧
    (∀ {r : RealmV2} {mint u}, r.assertIsValidGoverningTokenMint mint = .ok u ↔ r.Governs mint) ∧
    ∀ {w : World},
    (∀ {α : Type} {view : Account → Option α} {k a},
      w.read view k = .ok a ↔ view (w.accounts k) = some a) ∧
    (∀ {realm mint r}, w.getRealmDataForGoverningTokenMint realm mint = .ok r ↔
      w.accounts realm = .realm r ∧ r.Governs mint) ∧
    (∀ {realm authority r}, w.getRealmDataForAuthority realm authority = .ok r ↔
      w.accounts realm = .realm r ∧ r.authority = some authority) ∧
    (∀ {realmConfig realm d}, w.getRealmConfigDataForRealm realmConfig realm = .ok d ↔
      w.accounts realmConfig = .realmConfig d ∧ d.realm = realm) ∧
    (∀ {governance realm g}, w.getGovernanceDataForRealm governance realm = .ok g ↔
      w.accounts governance = .governance g ∧ g.realm = realm) ∧
    (∀ {proposal governance p}, w.getProposalDataForGovernance proposal governance = .ok p ↔
      w.accounts proposal = .proposal p ∧ p.governance = governance) ∧
    (∀ {proposal governance mint p},
      w.getProposalDataForGovernanceAndGoverningMint proposal governance mint = .ok p ↔
        (w.accounts proposal = .proposal p ∧ p.governance = governance) ∧
          p.governingTokenMint = mint) ∧
    (∀ {record address t}, w.getTokenOwnerRecordDataForSeeds record address = .ok t ↔
      address = record ∧ w.accounts record = .tokenOwnerRecord t) ∧
    (∀ {record realm t}, w.getTokenOwnerRecordDataForRealm record realm = .ok t ↔
      w.accounts record = .tokenOwnerRecord t ∧ t.realm = realm) ∧
    (∀ {record realm mint t},
      w.getTokenOwnerRecordDataForRealmAndGoverningMint record realm mint = .ok t ↔
        (w.accounts record = .tokenOwnerRecord t ∧ t.realm = realm) ∧
          t.governingTokenMint = mint) ∧
    (∀ {record owner t}, w.getTokenOwnerRecordDataForProposalOwner record owner = .ok t ↔
      record = owner ∧ w.accounts record = .tokenOwnerRecord t) ∧
    (∀ {record proposal signatory s},
      w.getSignatoryRecordDataForSeeds record proposal signatory = .ok s ↔
        getSignatoryRecordAddress proposal signatory = record ∧
          w.accounts record = .signatoryRecord s) ∧
    (∀ {transaction proposal t}, w.getProposalTransactionDataForProposal transaction proposal = .ok t
      ↔ w.accounts transaction = .transaction t ∧ t.proposal = proposal) ∧
    (∀ {record proposal owner v},
      w.getVoteRecordDataForProposalAndTokenOwner record proposal owner = .ok v ↔
        w.accounts record = .voteRecord v ∧ v.proposal = proposal ∧
          v.governingTokenOwner = owner) := by
  simp only [nextAccountInfo_eq_ok, read_eq_ok, getRealmDataForAuthority, checks,
    getVoteRecordDataForProposalAndTokenOwner, getRealmDataForGoverningTokenMint,
    assertIsValidGoverningTokenMint, getRealmConfigDataForRealm, getGovernanceDataForRealm,
    getProposalDataForGovernance,
    getProposalDataForGovernanceAndGoverningMint, getTokenOwnerRecordDataForSeeds,
    getTokenOwnerRecordDataForRealm, getTokenOwnerRecordDataForRealmAndGoverningMint,
    getTokenOwnerRecordDataForProposalOwner, getSignatoryRecordDataForSeeds,
    getProposalTransactionDataForProposal, Account.views, RealmV2.Governs, ne_eq, not_and_or,
    not_not, implies_true]
  simp +contextual [← and_assoc]

end World

@[simp] theorem assertTokenOwnerOrDelegateIsSigner_eq_ok {t : TokenOwnerRecordV2} :
    t.assertTokenOwnerOrDelegateIsSigner authority = .ok u ↔ authority.isSigner = true ∧
      (t.governingTokenOwner = authority.key ∨ t.governanceDelegate = some authority.key) := by
  rw [assertTokenOwnerOrDelegateIsSigner, failIf_eq_ok, not_not]

/-! ## Runs of effects -/

/-- The world runs through a chain of effects while time stands still. -/
def Runs (F : Prop) (c : Context) (w w' : World) : Prop :=
  Effects F c w.accounts w'.accounts ∧ w'.unixTimestamp = w.unixTimestamp

section Runs

variable {F : Prop} {c : Context} {w w' w'' : World}

theorem Runs.refl (w : World) : Runs F c w w := ⟨.refl, rfl⟩

theorem Runs.trans (h : Runs F c w w') (h' : Runs F c w' w'') : Runs F c w w'' :=
  ⟨h.1.trans h'.1, h'.2.trans h.2⟩

theorem Runs.of_effect (h : Effect F c w.accounts w'.accounts)
    (htime : w'.unixTimestamp = w.unixTimestamp) : Runs F c w w' :=
  ⟨.single h, htime⟩

variable {k : Address} {a : Account}

theorem Runs.edit {a' : Account} (hk : w.accounts k = a) (h : Edit F c w.accounts k a a') :
    Runs F c w (w.write k a') :=
  .of_effect (.edit hk h) rfl

theorem Runs.create (hnew : NewAccount w w' k a) (h : Created c w.accounts k a) :
    Runs F c w w' := by
  refine .of_effect ?_ hnew.time
  rw [hnew.accounts]
  exact .create hnew.empty h

theorem Runs.token (h : TokenStep w.accounts w'.accounts ∧ w'.unixTimestamp = w.unixTimestamp) :
    Runs F c w w' := .of_effect (.token h.1) h.2

theorem NewAccount.other {k' : Address} {b : Account} (h : NewAccount w w' k a)
    (hk' : w.accounts k' = b) (hb : b ≠ .empty := by simp) : w'.accounts k' = b := by
  rw [h.accounts]
  exact update_eq_of_ne hk' h.empty hb

end Runs

def World.context (w : World) (instruction : GovernanceInstruction)
    (accounts : List AccountMeta) : Context :=
  ⟨instruction, accounts, w.unixTimestamp, w.accounts⟩

/-! ## Realms and deposits -/

section Handlers

variable {rent : Account → ℕ} {accounts : List AccountMeta} {F : Prop} {c : Context}
  {w w' : World}

variable {payer : AccountMeta} {realm : Address} {it : List AccountMeta} {config : GovernanceConfig}

theorem createCouncilHolding_ok {councilMint : Option Address}
    (h : createCouncilHolding rent useCouncilMint payer realm it w = .ok (councilMint, it', w')) :
    councilMint = none ∧ w' = w ∨ ∃ mint m, councilMint = some mint ∧ w.accounts mint = .mint m ∧
      NewAccount w w' (getGoverningTokenHoldingAddress realm mint)
        (.token ⟨mint, realm, 0, none, 0, none, false, false⟩) := by
  unfold createCouncilHolding at h
  split at h
  · simp only [checks, reads] at h
    obtain ⟨mintInfo, _, -, _, _, -, _, hcreate, rfl, -, rfl⟩ := h
    obtain ⟨hnew, m, hmint⟩ := createSplTokenAccountSigned_ok hcreate
    exact .inr ⟨mintInfo.key, m, rfl, hmint, hnew⟩
  · cases h
    exact .inl ⟨rfl, rfl⟩

theorem createRealmConfig_ok {useAddins : Bool} {config : RealmConfigAccount}
    (h : createRealmConfig rent useAddins payer config it w = .ok w') :
    w' = w ∨ NewAccount w w' (.realmConfig config.realm) (.realmConfig config) := by
  unfold createRealmConfig at h
  split at h
  · simp only [checks, reads] at h
    obtain ⟨_, _, -, h⟩ := h
    exact .inr (createAndSerializeAccountSigned_ok h).2
  · cases h
    exact .inl rfl

theorem processCreateRealm_runs {name : List UInt8}
    (h : processCreateRealm rent accounts name configArgs w = .ok w') : Runs F c w w' := by
  simp only [processCreateRealm, checks, reads] at h
  obtain ⟨_, _, -, _, _, -, mintInfo, _, -, _, _, -, _, _, -, _, _, -,
    _, _, -, _, _, -, -, _, hvalid, w₁, hholding, councilMint, _, w₂, hcouncil, _, _, -,
    _, _, -, w₃, hconfig, -, hrealm⟩ := h
  obtain ⟨haddress, hnew⟩ := createAndSerializeAccountSigned_ok hrealm
  rw [← haddress] at hholding hcouncil hconfig
  obtain ⟨hnewHolding, m, hm⟩ := createSplTokenAccountSigned_ok hholding
  have hself₁ : w₁.accounts (getGoverningTokenHoldingAddress (getRealmAddress name) mintInfo.key) =
      .token ⟨mintInfo.key, getRealmAddress name, 0, none, 0, none, false, false⟩ := by
    rw [hnewHolding.accounts, update_self]
  have hkeep₁ := hnewHolding.other hm
  have hrun₁ : Runs F c w w₁ := .create hnewHolding (.holding rfl hm)
  -- The governing mints of the realm and their holding accounts, after the council's is created.
  have hstep₂ : Runs F c w₁ w₂ ∧ ∀ mint, mintInfo.key = mint ∨ councilMint = some mint → ∃ m,
      w₂.accounts (getGoverningTokenHoldingAddress (getRealmAddress name) mint) =
        .token ⟨mint, getRealmAddress name, 0, none, 0, none, false, false⟩ ∧
      w₂.accounts mint = .mint m := by
    rcases createCouncilHolding_ok hcouncil with ⟨rfl, rfl⟩ | ⟨mint₂, m₂, rfl, hm₂, hnew₂⟩
    · refine ⟨.refl _, ?_⟩
      rintro mint (rfl | hnone)
      · exact ⟨m, hself₁, hkeep₁⟩
      · cases hnone
    · refine ⟨.create hnew₂ (.holding rfl hm₂), ?_⟩
      rintro mint (rfl | hsome)
      · exact ⟨m, hnew₂.other hself₁, hnew₂.other hkeep₁⟩
      · cases hsome
        exact ⟨m₂, by rw [hnew₂.accounts, update_self], hnew₂.other hm₂⟩
  have hstep₃ : Runs F c w₂ w₃ ∧ ∀ mint, mintInfo.key = mint ∨ councilMint = some mint → ∃ m,
      w₃.accounts (getGoverningTokenHoldingAddress (getRealmAddress name) mint) =
        .token ⟨mint, getRealmAddress name, 0, none, 0, none, false, false⟩ ∧
      w₃.accounts mint = .mint m := by
    rcases createRealmConfig_ok hconfig with rfl | hnew₃
    · exact ⟨.refl _, hstep₂.2⟩
    · refine ⟨.create hnew₃ (.realmConfig rfl), fun mint hmint => ?_⟩
      obtain ⟨m', htoken, hm'⟩ := hstep₂.2 mint hmint
      exact ⟨m', hnew₃.other htoken, hnew₃.other hm'⟩
  exact ((hrun₁.trans hstep₂.1).trans hstep₃.1).trans
    (.create hnew (.realm rfl (assertValidRealmConfigArgs_ok hvalid) hstep₃.2))

theorem processDepositGoverningTokens_runs
    (hsign : ∀ a ∈ accounts, a.isSigner = true → a.key.canSign = true)
    (h : processDepositGoverningTokens rent accounts amount w = .ok w') : Runs F c w w' := by
  simp only [processDepositGoverningTokens, checks, reads, Account.views,
    assertIsValidGoverningTokenMintAndHolding, ne_eq, not_not, Bool.not_eq_false] at h
  obtain ⟨_, _, e₀, _, _, e₁, _, _, e₂, _, _, e₃, authority, _,
    e₄, _, _, -, _, _, -, _, _, -, _, _, -, realmData, hrealm, _, _, _, -,
    ⟨hgoverns, haddress⟩, hsigner, _, htransfer, h⟩ := h
  obtain ⟨htransferred, htime⟩ := transfer_ok htransfer
  have hcan : authority.key.canSign = true :=
    hsign authority (by simp [e₀, e₁, e₂, e₃, e₄]) hsigner
  rw [← haddress] at htransferred
  split at h
  · simp only [checks] at h
    obtain ⟨_, -, -, h⟩ := h
    obtain ⟨-, hnew⟩ := createAndSerializeAccountSigned_ok h
    refine .of_effect ?_ (hnew.time.trans htime)
    rw [hnew.accounts]
    exact .deposit ⟨⟨realmData, hrealm, hgoverns⟩, ⟨_, _, hcan, htransferred⟩,
      .inl ⟨hnew.empty, rfl⟩⟩
  · simp only [checks, reads, checkedAdd_eq_ok] at h
    obtain ⟨record, ⟨hkey, hrecord⟩, _, ⟨-, rfl⟩, rfl⟩ := h
    rw [← hkey] at hrecord ⊢
    exact .of_effect (.deposit ⟨⟨realmData, hrealm, hgoverns⟩, ⟨_, _, hcan, htransferred⟩,
      .inr ⟨record, hrecord, rfl⟩⟩) htime

theorem processWithdrawGoverningTokens_runs
    (h : processWithdrawGoverningTokens accounts w = .ok w') : Runs F c w w' := by
  simp only [processWithdrawGoverningTokens, checks, reads, Account.views,
    assertIsValidGoverningTokenMintAndHolding, ne_eq, not_not,
    assertCanWithdrawGoverningTokens, Nat.not_lt, Nat.le_zero_eq] at h
  obtain ⟨_, _, -, _, _, -, _, _, -, _, _, -, _, _,
    -, _, _, -, -, _, _, _, _, ⟨_, haddress⟩, _,
    ⟨hkey, hrecord⟩, ⟨hvotes, -⟩, -, _, htransfer, rfl⟩ := h
  obtain ⟨htransferred, htime⟩ := transfer_ok htransfer
  rw [← haddress] at htransferred
  rw [← hkey] at hrecord ⊢
  exact .of_effect (.withdraw ⟨hrecord, hvotes, _, htransferred⟩) htime

theorem processSetGovernanceDelegate_runs {newGovernanceDelegate : Option Address}
    (h : processSetGovernanceDelegate accounts newGovernanceDelegate w = .ok w') :
    Runs F c w w' := by
  simp only [processSetGovernanceDelegate, checks, reads, Account.views] at h
  obtain ⟨_, _, -, _, _, -, _, hrecord, _, -, rfl⟩ := h
  exact .edit hrecord (.tokenOwnerRecord ⟨rfl, rfl, rfl, rfl⟩ rfl rfl)

theorem processCreateTokenOwnerRecord_runs
    (h : processCreateTokenOwnerRecord rent accounts w = .ok w') : Runs F c w w' := by
  simp only [processCreateTokenOwnerRecord, checks, reads, Account.views] at h
  obtain ⟨_, _, -, _, _, -, _, _, -, _, _, -, _, _, -, _, _, -, _, hrealm, hgoverns, -, h⟩ := h
  exact .create (createAndSerializeAccountSigned_ok h).2 (.tokenOwnerRecord rfl hrealm hgoverns)

theorem processSetRealmAuthority_runs {action : SetRealmAuthorityAction}
    (h : processSetRealmAuthority accounts action w = .ok w') : Runs F c w w' := by
  simp only [processSetRealmAuthority, checks, reads] at h
  obtain ⟨_, _, -, _, _, -, _, ⟨hrealm, -⟩, -, _, -, rfl⟩ := h
  exact .edit hrealm (.realm rfl rfl (.inl rfl))

/-- The account for the add-ins is not the realm's. -/
theorem writeRealmConfig_runs {used useAddins : Bool} {config : RealmConfigAccount}
    (h : writeRealmConfig rent used useAddins info config it w = .ok w') :
    Runs F c w w' ∧ ∀ k r, w.accounts k = .realm r → w'.accounts k = .realm r := by
  have hupdate : (do
      let realmConfigData ← w.getRealmConfigDataForRealm info.key config.realm
      return w.write info.key (.realmConfig { realmConfigData with
        communityVoterWeightAddin := config.communityVoterWeightAddin
        maxCommunityVoterWeightAddin := config.maxCommunityVoterWeightAddin })) = .ok w' →
      Runs F c w w' ∧ ∀ k r, w.accounts k = .realm r → w'.accounts k = .realm r := by
    intro h
    simp only [checks, reads] at h
    obtain ⟨_, ⟨hd, -⟩, rfl⟩ := h
    exact ⟨.edit hd (.realmConfig _ _), fun k r hk => update_eq_of_ne hk hd⟩
  unfold writeRealmConfig at h
  split at h
  · simp only [checks, reads] at h
    obtain ⟨_, _, -, h⟩ := h
    split at h
    · obtain ⟨-, hnew⟩ := createAndSerializeAccountSigned_ok h
      exact ⟨.create hnew (.realmConfig rfl), fun k r hk => hnew.other hk⟩
    · exact hupdate h
  · split at h
    · exact hupdate h
    · cases h
      exact ⟨.refl w, fun k r hk => hk⟩

theorem keepCouncilMint_ok {councilMint councilMint' : Option Address}
    (h : keepCouncilMint councilMint useCouncilMint it = .ok (councilMint', it')) :
    councilMint' = councilMint ∨ councilMint' = none := by
  unfold keepCouncilMint at h
  split at h
  · simp only [checks, reads] at h
    obtain ⟨_, _, -, _, _, -, -, rfl, -⟩ := h
    exact .inl rfl
  · cases h
    exact .inr rfl

def ConfigsKept (before after : Address → Account) : Prop :=
  (∀ k r r', before k = .realm r → after k = .realm r' → r'.config = r.config) ∧
    ∀ k g g', before k = .governance g → after k = .governance g' → g'.config = g.config

theorem processSetRealmConfig_runs (h : processSetRealmConfig rent accounts configArgs w = .ok w')
    (hF : F ∨ ConfigsKept w.accounts w'.accounts) : Runs F c w w' := by
  simp only [processSetRealmConfig, checks, reads] at h
  obtain ⟨_, _, -, _, _, -, _, ⟨hrealm, -⟩, -, _, hvalid, _, _,
    hcouncil, _, _, -, _, _, -, _, _, -, _, _, -, _, hconfig, rfl⟩ := h
  obtain ⟨hruns, hkeep⟩ := writeRealmConfig_runs (F := F) (c := c) hconfig
  have hrealm₁ := hkeep _ _ hrealm
  refine hruns.trans (.edit hrealm₁ (.realm rfl rfl ?_))
  rcases hF with hF | hF
  · exact .inr ⟨hF, assertValidRealmConfigArgs_ok hvalid, keepCouncilMint_ok hcouncil⟩
  · exact .inl (hF.1 _ _ _ hrealm (update_self ..))

/-! ## Governances -/

theorem createGovernanceOf_runs {kind : GovernanceKind} {governed record : Address}
    {info createAuthority : AccountMeta}
    (h : createGovernanceOf rent kind realm info governed record payer createAuthority it config w =
      .ok w') : Runs F c w w' := by
  simp only [createGovernanceOf, bind_eq_ok, reads, Account.views] at h
  obtain ⟨_, hrealm, _, hvalid, _, -, h⟩ := h
  exact .create (createAndSerializeAccountSigned_ok h).2
    (.governance rfl hrealm (assertIsValidGovernanceConfig_ok hvalid))

theorem setSplTokenAccountAuthority_runs {account newAuthority : Address}
    (hsign : authority.isSigner = true → authority.key.canSign = true)
    (h : setSplTokenAccountAuthority account authority newAuthority authorityType w = .ok w') :
    Runs F c w w' := by
  simp only [setSplTokenAccountAuthority, checks, Bool.not_eq_false] at h
  exact .token (setAuthority_ok (hsign h.1) h.2)

theorem processCreateGovernance_runs (h : processCreateGovernance rent accounts config w = .ok w') :
    Runs F c w w' := by
  simp only [processCreateGovernance, checks, reads] at h
  obtain ⟨_, _, -, _, _, -, _, _, -, _, _, -, _, _, -, _, _, -, _, _, -, h⟩ := h
  exact createGovernanceOf_runs h

theorem processCreateProgramGovernance_runs {transferUpgradeAuthority : Bool}
    (h : processCreateProgramGovernance rent accounts config transferUpgradeAuthority w = .ok w') :
    Runs F c w w' := by
  simp only [processCreateProgramGovernance, checks, reads] at h
  obtain ⟨_, _, -, _, _, -, _, _, -, _, _, -, _, _, -, _, _, -, _, _, -, _, _, -, _, _, -, _, _, -,
    _, hcreate, h⟩ := h
  refine (createGovernanceOf_runs hcreate).trans ?_
  split at h
  · simp only [setProgramUpgradeAuthority, checks, reads, Account.views] at h
    obtain ⟨-, _, hcurrent, -, rfl⟩ := h
    exact .edit hcurrent (.programData _ _)
  · simp only [checks] at h
    obtain ⟨_, -, rfl⟩ := h
    exact .refl _

theorem processCreateMintGovernance_runs {transferMintAuthorities : Bool}
    (hsign : ∀ a ∈ accounts, a.isSigner = true → a.key.canSign = true)
    (h : processCreateMintGovernance rent accounts config transferMintAuthorities w = .ok w') :
    Runs F c w w' := by
  simp only [processCreateMintGovernance, checks, reads] at h
  obtain ⟨_, _, e₀, _, _, e₁, _, _, e₂, authority, _, e₃, _, _, -, _, _, -, _, _, -, _, _, -, _, _,
    -, _, hcreate, h⟩ := h
  have hcan := hsign authority (by simp [e₀, e₁, e₂, e₃])
  refine (createGovernanceOf_runs hcreate).trans ?_
  split at h
  · simp only [bind_eq_ok, reads] at h
    obtain ⟨_, hfirst, _, -, h⟩ := h
    refine (setSplTokenAccountAuthority_runs hcan hfirst).trans ?_
    split at h
    · exact setSplTokenAccountAuthority_runs hcan h
    · cases h
      exact .refl _
  · simp only [checks] at h
    obtain ⟨_, -, -, -, -, rfl⟩ := h
    exact .refl _

theorem processCreateTokenGovernance_runs {transferAccountAuthorities : Bool}
    (hsign : ∀ a ∈ accounts, a.isSigner = true → a.key.canSign = true)
    (h : processCreateTokenGovernance rent accounts config transferAccountAuthorities w = .ok w') :
    Runs F c w w' := by
  simp only [processCreateTokenGovernance, checks, reads] at h
  obtain ⟨_, _, e₀, _, _, e₁, _, _, e₂, owner, _, e₃, _, _, -, _, _, -, _, _, -, _, _, -, _, _, -,
    _, hcreate, h⟩ := h
  have hcan := hsign owner (by simp [e₀, e₁, e₂, e₃])
  refine (createGovernanceOf_runs hcreate).trans ?_
  split at h
  · simp only [bind_eq_ok, reads] at h
    obtain ⟨_, hfirst, _, -, h⟩ := h
    refine (setSplTokenAccountAuthority_runs hcan hfirst).trans ?_
    split at h
    · exact setSplTokenAccountAuthority_runs hcan h
    · cases h
      exact .refl _
  · simp only [checks] at h
    obtain ⟨_, -, -, -, rfl⟩ := h
    exact .refl _

theorem processSetGovernanceConfig_runs (h : processSetGovernanceConfig accounts config w = .ok w')
    (hF : F ∨ ConfigsKept w.accounts w'.accounts) : Runs F c w w' := by
  simp only [processSetGovernanceConfig, checks, reads, Account.views] at h
  obtain ⟨_, _, -, -, _, hvalid, _, hgovernance, rfl⟩ := h
  refine .edit hgovernance (.governance rfl rfl rfl ?_)
  rcases hF with hF | hF
  · exact .inr ⟨hF, assertIsValidGovernanceConfig_ok hvalid⟩
  · exact .inl (hF.2 _ _ _ hgovernance (update_self ..))

theorem processCreateNativeTreasury_runs
    (h : processCreateNativeTreasury rent accounts w = .ok w') : Runs F c w w' := by
  simp only [processCreateNativeTreasury, checks, reads] at h
  obtain ⟨_, _, -, _, _, -, _, _, -, _, _, -, _, -, h⟩ := h
  exact .create (createAndSerializeAccountSigned_ok h).2 .nativeTreasury

theorem processUpdateProgramMetadata_runs
    (h : processUpdateProgramMetadata rent accounts w = .ok w') : Runs F c w w' := by
  simp only [processUpdateProgramMetadata, checks, reads] at h
  obtain ⟨_, _, -, _, _, -, _, _, -, h⟩ := h
  split at h
  · exact .create (createAndSerializeAccountSigned_ok h).2 (.programMetadata rfl)
  · simp only [checks, reads, Account.views] at h
    obtain ⟨_, hn, rfl⟩ := h
    exact .edit hn (.programMetadata _ _)

/-! ## Drafting proposals -/

theorem assertValidProposalOptions_ok
    (h : assertValidProposalOptions options voteType = .ok u) : options ≠ [] := by
  simp only [assertValidProposalOptions, checks, not_or] at h
  exact h.1.1

theorem processCreateProposal_runs {name descriptionLink : List UInt8} {useDenyOption : Bool}
    (h : processCreateProposal rent accounts name descriptionLink voteType options useDenyOption w =
      .ok w') : Runs F c w w' := by
  simp only [processCreateProposal, checks, reads, checkedAdd_eq_ok] at h
  obtain ⟨_, _, -, _, _, -, _, _, -, ownerInfo, _, -, _, _, -,
    _, _, -, _, _, -, _, _, -, -, _, ⟨hrealm, hgoverns⟩, _,
    ⟨hgovernance, hgrealm⟩, ownerRecord, ⟨howner, -⟩, _, -, _, _, -, _, _, -, _, -, _, ⟨-, rfl⟩, _,
    hoptions, _, hcreate, _, ⟨-, rfl⟩, rfl⟩ := h
  obtain ⟨-, hnew⟩ := createAndSerializeAccountSigned_ok hcreate
  let record : Account := .tokenOwnerRecord { ownerRecord with
    outstandingProposalCount := ownerRecord.outstandingProposalCount + 1 }
  have hgovernance₁ := update_eq_of_ne (x := record) hgovernance howner
  have hrealm₁ := update_eq_of_ne (x := record) hrealm howner
  have hrecord : Runs F c w (w.write ownerInfo.key record) :=
    .edit howner (.tokenOwnerRecord ⟨rfl, rfl, rfl, rfl⟩ rfl rfl)
  refine (hrecord.trans (.create hnew ?_)).trans (.edit (hnew.other hgovernance₁)
    (.governance rfl rfl rfl (.inl rfl)))
  refine .proposal rfl hgovernance₁ (hgrealm ▸ hrealm₁) hgoverns (update_self ..) rfl ?_ ?_
    ?_
  · simpa using assertValidProposalOptions_ok hoptions
  · simp
  · cases useDenyOption <;> rfl

theorem processAddSignatory_runs (hc : c = w.context (.addSignatory signatory) accounts)
    (h : processAddSignatory rent accounts signatory w = .ok w') : Runs F c w w' := by
  simp only [processAddSignatory, checks, reads, Account.views,
    assertCanEditSignatories, ne_eq, not_not, checkedAdd_eq_ok] at h
  obtain ⟨_, _, e₀, _, _, -, _, _, -, _, _, -, _, _, -, _, _, -, _,
    hproposal, hdraft, _, -, _, -, _, hcreate, _, ⟨-, rfl⟩, rfl⟩ := h
  obtain ⟨-, hnew⟩ := createAndSerializeAccountSigned_ok hcreate
  refine (Runs.create hnew ?_).trans (.edit (hnew.other hproposal) (.draft hdraft hdraft rfl))
  subst hc
  exact .signatoryRecord rfl hproposal rfl ⟨_, by simp [context, e₀]; rfl⟩

theorem processRemoveSignatory_runs
    (h : processRemoveSignatory accounts signatory w = .ok w') : Runs F c w w' := by
  simp only [processRemoveSignatory, checks, reads, Account.views,
    assertCanEditSignatories, ne_eq, not_not, checkedSub_eq_ok] at h
  obtain ⟨_, _, -, _, _, -, _, _, -, _, _, -, _, _, -, _,
    hproposal, hdraft, _, -, _, -, _, ⟨-, hrecord⟩, -, _, -, h⟩ := h
  obtain ⟨haccounts, htime⟩ := disposeAccount_ok h
  refine .trans ?_ (.of_effect ?_ htime)
  · exact .edit hproposal (.draft hdraft hdraft rfl)
  · rw [haccounts]
    exact .dispose (update_eq_of_ne hrecord hproposal) (.signatoryRecord _)

theorem map_set_of_eq {α β : Type} (f : α → β) {l : List α} {i : ℕ} {a a' : α}
    (ha : l[i]? = some a) (h : f a' = f a) : (l.set i a').map f = l.map f := by
  refine ext_getElem? fun j => ?_
  rw [getElem?_map, getElem?_set, getElem?_map]
  split
  next hij =>
    subst hij
    split
    · simp [ha, h]
    next hlength => simp [getElem?_eq_none (Nat.le_of_not_lt hlength)]
  next => rfl

theorem ballot_set_option {i : ℕ} {o o' : ProposalOption}
    (ho : p.options[i]? = some o) (hweight : o'.voteWeight = o.voteWeight) :
    ({ p with options := p.options.set i o' } : ProposalV2).ballot = p.ballot := by
  simp only [ballot, map_set_of_eq ProposalOption.voteWeight ho hweight]

theorem processInsertTransaction_runs {optionIndex index holdUpTime : ℕ}
    {instructions : List InstructionData}
    (hc : c = w.context (.insertTransaction optionIndex index holdUpTime instructions) accounts)
    (h : processInsertTransaction rent accounts optionIndex index holdUpTime instructions w =
      .ok w') : Runs F c w w' := by
  simp only [processInsertTransaction, checks, reads, Account.views,
    assertCanEditInstructions, ne_eq, not_not, Nat.not_lt, checkedAdd_eq_ok,
    assertTokenOwnerOrDelegateIsSigner_eq_ok] at h
  obtain ⟨governanceInfo, _, e₀, proposalInfo, _, e₁, recordInfo, _, e₂, authority, _, e₃,
    transactionInfo, rest, e₄, _, _, -, _, _, -, _, _, -, -, governanceData, hgovernance, hholdUp,
    proposal, ⟨hproposal, hgov⟩, ⟨hdraft, -⟩, record, ⟨hkey, hrecord⟩, ⟨hsigner, howner⟩, _,
    hoption, -, _, -, _, ⟨-, rfl⟩, h⟩ := h
  obtain ⟨haddress, hnew⟩ := createAndSerializeAccountSigned_ok h
  refine .trans (.edit hproposal (.draft hdraft ?_ ?_))
    (.create hnew (.transaction rfl (update_self ..) rfl ?_))
  · exact hdraft
  · exact ballot_set_option hoption rfl
  subst hc
  refine ⟨rfl, governanceInfo, proposalInfo, recordInfo, authority, transactionInfo, rest,
    governanceData, proposal, record, ?_, rfl, haddress.symm, hgovernance, hholdUp, hproposal, hgov,
    hdraft, hkey.symm, hrecord, hsigner, howner⟩
  rw [context, e₀, e₁, e₂, e₃, e₄]

theorem processRemoveTransaction_runs
    (h : processRemoveTransaction accounts w = .ok w') : Runs F c w w' := by
  simp only [processRemoveTransaction, checks, reads, Account.views,
    assertCanEditInstructions, ne_eq, not_not, checkedSub_eq_ok] at h
  obtain ⟨_, _, -, _, _, -, _, _, -, _, _, -, _, _, -, proposal,
    hproposal, ⟨hdraft, -⟩, _, -, _, -, transaction, ⟨htransaction, hof⟩, w₁, hdispose, _,
    hoption, _, -, rfl⟩ := h
  obtain ⟨haccounts, htime⟩ := disposeAccount_ok hdispose
  have hdisposed : Runs F c w w₁ := by
    refine .of_effect ?_ htime
    rw [haccounts]
    exact .dispose htransaction (.transaction (hof ▸ hproposal) hdraft)
  refine hdisposed.trans (.edit (a := .proposal proposal) ?_
    (.draft hdraft hdraft (ballot_set_option hoption rfl)))
  rw [haccounts]
  exact update_eq_of_ne hproposal htransaction

theorem edit_decrease {acc : Address → Account} {k : Address} (t : TokenOwnerRecordV2) :
    Edit F c acc k (.tokenOwnerRecord t)
      (.tokenOwnerRecord t.decreaseOutstandingProposalCount) := by
  refine .tokenOwnerRecord (sameDeposit_decrease t) ?_ ?_
  all_goals
    unfold decreaseOutstandingProposalCount
    split <;> rfl

theorem counters_runs {governance : Address} {r r' : RealmV2} {g g' : GovernanceV2}
    (hrealm : w.accounts realm = .realm r) (hgovernance : w.accounts governance = .governance g)
    (hr : r' = { r with votingProposalCount := r'.votingProposalCount })
    (hg : g' = { g with votingProposalCount := g'.votingProposalCount }) :
    Runs F c w ((w.write realm (.realm r')).write governance (.governance g')) := by
  refine .trans (.edit hrealm (.realm ?_ ?_ (.inl ?_))) (.edit (a := .governance g) ?_
    (.governance ?_ ?_ ?_ (.inl ?_)))
  any_goals rw [hr]
  any_goals rw [hg]
  exact update_eq_of_ne hgovernance hrealm

theorem assertCanCancel_ok {now : ℤ}
    (h : p.assertCanCancel config now = .ok u) : p.Pending ∨ p.state = .voting := by
  unfold assertCanCancel at h
  split at h
  next hstate => exact .inl (.inl hstate)
  next hstate => exact .inl (.inr hstate)
  next hstate => exact .inr hstate
  next => cases h

theorem processCancelProposal_runs
    (h : processCancelProposal accounts w = .ok w') : Runs F c w w' := by
  simp only [processCancelProposal, checks, reads, Account.views] at h
  obtain ⟨_, _, -, _, _, -, _, _, -, recordInfo, _, -, _, _, -,
    _, hrealm, _, ⟨hgovernance, -⟩, proposal, ⟨hproposal, -⟩, _, hcancel,
    record, ⟨-, hrecord⟩, _, -, rfl⟩ := h
  let after : Account := .tokenOwnerRecord record.decreaseOutstandingProposalCount
  have hrecord' : Runs F c w (w.write recordInfo.key after) := .edit hrecord (edit_decrease record)
  have hrealm₁ := update_eq_of_ne (x := after) hrealm hrecord
  have hgovernance₁ := update_eq_of_ne (x := after) hgovernance hrecord
  have hproposal₁ := update_eq_of_ne (x := after) hproposal hrecord
  split
  · refine (hrecord'.trans (counters_runs hrealm₁ hgovernance₁ rfl rfl)).trans
      (.edit (a := .proposal proposal) ?_ (.cancel (assertCanCancel_ok hcancel) rfl rfl))
    exact update_eq_of_ne (update_eq_of_ne hproposal₁ hrealm₁)
      (update_eq_of_ne hgovernance₁ hrealm₁)
  · exact hrecord'.trans (.edit hproposal₁ (.cancel (assertCanCancel_ok hcancel) rfl rfl))

end Handlers

end SolanaPrograms.Governance
