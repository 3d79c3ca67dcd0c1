import SolanaPrograms.Governance.Handlers

/-!
# The effects of voting and execution

The handlers that move a proposal from its draft to the end of its vote, and what follows. The last
theorem collects all handlers: every instruction but `ExecuteTransaction` is a chain of effects.
-/

namespace SolanaPrograms.Governance

open Function Outcome World ProposalV2 TokenOwnerRecordV2

section Handlers

variable {rent : Account → ℕ} {accounts : List AccountMeta} {F : Prop} {c : Context}
  {w w' : World}

/-! ## Signing off -/

variable {p : ProposalV2} {it : List AccountMeta} {t t' : TokenOwnerRecordV2} {realm : Address}
  {r : RealmV2} {g : GovernanceV2} {maxVoterWeight : ℕ} {now : ℤ}

theorem assertCanSignOff_ok {u : Unit} (h : p.assertCanSignOff = .ok u) : p.Pending := by
  rw [assertCanSignOff, failIf_eq_ok] at h
  unfold ProposalV2.Pending
  by_contra hnot
  rw [not_or] at hnot
  exact h hnot

theorem signOff_ok {signatory : AccountMeta} {proposalKey : Address} {p' : ProposalV2}
    (hpending : p.Pending) (h : signOff signatory proposalKey p it w = .ok (p', w')) :
    p'.ballot = p.ballot ∧ p'.Pending ∧ Runs F c w w' ∧
      ∀ k a, w.accounts k = a → a.signatoryRecord? = none → w'.accounts k = a := by
  unfold signOff at h
  split at h
  · simp only [checks] at h
    obtain ⟨_, _, -, _, -, _, -, rfl, rfl⟩ := h
    exact ⟨rfl, hpending, .refl _, fun k a hk _ => hk⟩
  · simp only [checks, reads] at h
    obtain ⟨_, _, -, _, ⟨-, hrecord⟩, _, -, _, -, rfl, rfl⟩ := h
    refine ⟨?_, ?_, .edit hrecord (.signatoryRecord rfl rfl), fun k a hk ha => ?_⟩
    · split <;> rfl
    · split
      · exact .inr rfl
      · exact hpending
    · refine update_eq_of_ne hk hrecord ?_
      rintro rfl
      cases ha

theorem processSignOffProposal_runs (hc : c.unixTimestamp = w.unixTimestamp)
    (h : processSignOffProposal accounts w = .ok w') : Runs F c w w' := by
  simp only [processSignOffProposal, checks, reads, Account.views, checkedAdd_eq_ok] at h
  obtain ⟨_, _, -, _, _, -, _, _, -, _, _, -, _,
    hrealm, _, ⟨hgovernance, -⟩, _, ⟨hproposal, -⟩, _, hcan, _, _, hsign, _,
    ⟨-, rfl⟩, _, ⟨-, rfl⟩, rfl⟩ := h
  obtain ⟨hballot, hpending, hruns, hkeep⟩ :=
    signOff_ok (F := F) (c := c) (assertCanSignOff_ok hcan) hsign
  have hproposal₁ := hkeep _ _ hproposal rfl
  have hrealm₁ := hkeep _ _ hrealm rfl
  have hgovernance₁ := hkeep _ _ hgovernance rfl
  refine hruns.trans (.trans ?_ (counters_runs (update_eq_of_ne hrealm₁ hproposal₁)
    (update_eq_of_ne hgovernance₁ hproposal₁) rfl rfl))
  refine .edit hproposal₁ (.signOff (assertCanSignOff_ok hcan) ?_ ?_)
  · split
    · exact .inr ⟨rfl, by rw [hc, hruns.2]⟩
    · exact .inl hpending
  · split
    · exact hballot
    · exact hballot

/-! ## Casting votes -/

theorem resolveVoterWeight_ok {realmConfig target : Address} {it' : List AccountMeta}
    {action : VoterWeightAction} {weight : ℕ}
    (h : w.resolveVoterWeight t realmConfig it realm r action target = .ok (weight, it'))
    (haddin : r.config.useCommunityVoterWeightAddin = false) :
    weight = t.governingTokenDepositAmount := by
  unfold resolveVoterWeight at h
  rw [if_neg (by simp [haddin])] at h
  cases h
  rfl

theorem resolveMaxVoterWeight_ok {realmConfig mint : Address}
    (h : w.resolveMaxVoterWeight p realmConfig mint it realm r = .ok maxVoterWeight) :
    MaxVoterWeight w.accounts r p maxVoterWeight := by
  unfold resolveMaxVoterWeight at h
  split at h
  next haddin => exact .inl haddin.1
  next =>
    simp only [checks, ne_eq, not_not, reads, Account.views] at h
    obtain ⟨hmint, m, hm, h⟩ := h
    exact .inr ⟨m, by rw [hmint, hm], h⟩

theorem countVote_ok (h : countVote t = .ok t') :
    SameDeposit t t' ∧ t'.unrelinquishedVotesCount = t.unrelinquishedVotesCount + 1 ∧
      t'.totalVotesCount = t.totalVotesCount + 1 := by
  simp only [countVote, checks, checkedAdd_eq_ok] at h
  obtain ⟨_, ⟨-, rfl⟩, _, ⟨-, rfl⟩, rfl⟩ := h
  exact ⟨⟨rfl, rfl, rfl, rfl⟩, rfl, rfl⟩

/-- Everything but the counters of realm and governance and the owner's record stays. -/
structure TipKeeps (w w' : World) (realm governance voterRecord : Address) (r : RealmV2)
    (g : GovernanceV2) : Prop where
  voter : ∀ x, w.accounts voterRecord = .tokenOwnerRecord x →
    w'.accounts voterRecord = .tokenOwnerRecord x
  other : ∀ k a, w.accounts k = a → a.realm? = none → a.governance? = none →
    a.tokenOwnerRecord? = none → w'.accounts k = a
  realm : ∃ r', w'.accounts realm = .realm r' ∧ r'.config = r.config
  governance : ∃ g', w'.accounts governance = .governance g' ∧ g'.config = g.config ∧
    g'.realm = g.realm

theorem endVoting_keeps {governance voterRecord : Address} (hrealm : w.accounts realm = .realm r)
    (hgovernance : w.accounts governance = .governance g) :
    TipKeeps w (endVoting realm governance r g w) realm governance voterRecord r g := by
  have hgovernance₁ := update_eq_of_ne (x := .realm { r with
    votingProposalCount := r.votingProposalCount - 1 }) hgovernance hrealm
  have hother : ∀ k a, w.accounts k = a → a.realm? = none → a.governance? = none →
      (endVoting realm governance r g w).accounts k = a := by
    intro k a hk hr hg
    refine update_eq_of_ne (update_eq_of_ne hk hrealm ?_) hgovernance₁ ?_
    · rintro rfl
      cases hr
    · rintro rfl
      cases hg
  refine ⟨fun x hx => hother _ _ hx rfl rfl, fun k a hk hr hg _ => hother k a hk hr hg, ?_, ?_⟩
  · exact ⟨_, update_eq_of_ne (update_self ..) hgovernance₁, rfl⟩
  · exact ⟨_, update_self .., rfl, rfl⟩

/-- The end of a tipped vote: the counters and the owner's record, but not the voter's. -/
theorem tipVote_ok {tipped : Bool} {governance ownerRecord voterRecord : Address}
    (hrealm : w.accounts realm = .realm r) (hgovernance : w.accounts governance = .governance g)
    (h : tipVote tipped realm governance ownerRecord voterRecord r g p t w = .ok (t', w')) :
    Runs F c w w' ∧ (t' = t ∨ t' = t.decreaseOutstandingProposalCount) ∧
      TipKeeps w w' realm governance voterRecord r g := by
  unfold tipVote at h
  split at h
  · simp only [bind_eq_ok, reads] at h
    obtain ⟨owner, ⟨-, howner⟩, h⟩ := h
    split at h
    · cases h
      exact ⟨counters_runs hrealm hgovernance rfl rfl, .inr rfl,
        endVoting_keeps hrealm hgovernance⟩
    next hne =>
      cases h
      let record : Account := .tokenOwnerRecord owner.decreaseOutstandingProposalCount
      have hrealm₁ := update_eq_of_ne (x := record) hrealm howner
      have hgovernance₁ := update_eq_of_ne (x := record) hgovernance howner
      have hkeeps : TipKeeps (w.write ownerRecord record) _ realm governance voterRecord r g :=
        endVoting_keeps hrealm₁ hgovernance₁
      refine ⟨(Runs.edit howner (edit_decrease owner)).trans
        (counters_runs hrealm₁ hgovernance₁ rfl rfl), .inl rfl, fun x hx => ?_,
        fun k a hk hr hg ht => ?_, hkeeps.realm, hkeeps.governance⟩
      · refine hkeeps.voter x ?_
        rw [write_accounts, update_of_ne (.symm hne), hx]
      · refine hkeeps.other k a (update_eq_of_ne hk howner ?_) hr hg ht
        rintro rfl
        cases ht
  · cases h
    exact ⟨.refl w, .inl rfl, fun x hx => hx, fun k a hk _ _ _ => hk, ⟨r, hrealm, rfl⟩,
      ⟨g, hgovernance, rfl, rfl⟩⟩

theorem MaxVoterWeight.congr {acc acc' : Address → Account} {r' : RealmV2}
    (h : MaxVoterWeight acc r p maxVoterWeight) (hconfig : r'.config = r.config)
    (hmint : ∀ m, acc p.governingTokenMint = .mint m → acc' p.governingTokenMint = .mint m) :
    MaxVoterWeight acc' r' p maxVoterWeight := by
  rcases h with haddin | ⟨m, hm, h⟩
  · exact .inl (by rw [hconfig]; exact haddin)
  · refine .inr ⟨m, hmint m hm, ?_⟩
    unfold getMaxVoterWeightFromMintSupply at h ⊢
    rwa [hconfig]

theorem processCastVote_runs {vote : Vote} (hc : c = w.context (.castVote vote) accounts)
    (h : processCastVote rent accounts vote w = .ok w') : Runs F c w w' := by
  simp only [processCastVote, checks, reads, assertCanCastVote, ne_eq, not_not,
    Bool.not_eq_true] at h
  obtain ⟨realmInfo, _, e₀, governanceInfo, _, e₁, proposalInfo, _, e₂, ownerInfo, _, e₃, voterInfo,
    rest, e₄, _, _, -, _, _, -, _, _, -, _, _, -, _, _, -, -, _,
    ⟨hrealm, -⟩, _, ⟨hgovernance, hgrealm⟩, proposal, ⟨⟨hproposal, hpgov⟩, hpmint⟩,
    ⟨hvoting, _, hintime, rfl⟩, record, ⟨⟨hrecord, htrealm⟩, htmint⟩, _, -, counted, hcount, _, _, -,
    _, _, hweight, _, hvalid, q, hq, maxVoterWeight, hmax, _, tipped, htip, t', w₁, htipped,
    h⟩ := h
  obtain ⟨hsame, hvotes, htotal⟩ := countVote_ok hcount
  obtain ⟨hruns, ht', hkeeps⟩ := tipVote_ok (F := F) (c := c) hrealm hgovernance htipped
  obtain ⟨-, hnew⟩ := createAndSerializeAccountSigned_ok h
  obtain ⟨r', hr', hrconfig⟩ := hkeeps.realm
  obtain ⟨g', hg', hgconfig, hgrealm'⟩ := hkeeps.governance
  -- The voter's record: one more vote, and one proposal less if the owner's own vote tips it.
  have hrecord' : SameDeposit record t' ∧
      t'.unrelinquishedVotesCount = record.unrelinquishedVotesCount + 1 ∧
      t'.totalVotesCount = record.totalVotesCount + 1 := by
    rcases ht' with rfl | rfl
    · exact ⟨hsame, hvotes, htotal⟩
    · have hdecrease := sameDeposit_decrease counted
      refine ⟨⟨hdecrease.realm.trans hsame.realm, hdecrease.mint.trans hsame.mint,
        hdecrease.owner.trans hsame.owner, hdecrease.deposit.trans hsame.deposit⟩, ?_, ?_⟩
      · rw [← hvotes, decreaseOutstandingProposalCount]
        split <;> rfl
      · rw [← htotal, decreaseOutstandingProposalCount]
        split <;> rfl
  have hfresh : w₁.accounts (getVoteRecordAddress proposalInfo.key voterInfo.key) = .empty := by
    have hempty := hnew.empty
    rw [write_accounts, write_accounts] at hempty
    rw [← hempty, update_of_ne, update_of_ne]
    · intro heq
      rw [heq] at hempty
      by_cases hP : voterInfo.key = proposalInfo.key
      · rw [hP, update_self] at hempty
        cases hempty
      · rw [update_of_ne hP, update_self] at hempty
        cases hempty
    · intro heq
      rw [heq, update_self] at hempty
      cases hempty
  refine hruns.trans (.of_effect ?_ hnew.time)
  rw [hnew.accounts]
  subst hc
  refine .castVote (r := r') (g := g') ⟨hkeeps.other _ _ hproposal rfl rfl rfl, hproposal,
    hkeeps.voter _ hrecord, hfresh, hpgov ▸ hg', ?_, rfl, ?_, hvoting, ?_, ?_, ?_, hvalid, rfl,
    hrecord'.1.owner, rfl, fun haddin => ?_, hrecord'.1, hrecord'.2.1, hrecord'.2.2,
    q, maxVoterWeight, tipped, hq, ?_, ?_⟩
  · rw [hgrealm', hgrealm, hr']
  · refine ⟨realmInfo.key, governanceInfo.key, ownerInfo.key, rest.map AccountMeta.key, ?_⟩
    simp only [context, e₀, e₁, e₂, e₃, e₄, List.map_cons]
  · rw [hgconfig]
    exact hintime
  · rw [hgrealm', htrealm]
  · rw [htmint, hpmint]
  · rw [hrconfig] at haddin
    rw [resolveVoterWeight_ok hweight haddin, hsame.deposit]
  · refine (resolveMaxVoterWeight_ok hmax).congr hrconfig fun m hm => ?_
    exact hkeeps.other _ _ hm rfl rfl rfl
  · rw [hgconfig]
    exact htip

/-! ## Ending votes -/

theorem processFinalizeVote_runs (hc : c = w.context .finalizeVote accounts)
    (h : processFinalizeVote accounts w = .ok w') : Runs F c w w' := by
  simp only [processFinalizeVote, checks, reads] at h
  obtain ⟨_, _, -, _, _, -, proposalInfo, _, -, ownerInfo, _, -, _, _, -,
    _, ⟨hrealm, -⟩, _, ⟨hgovernance, hgrealm⟩, proposal,
    ⟨⟨hproposal, hpgov⟩, _⟩, _, _, -, _, hmax, p', hfinal, owner, ⟨-, howner⟩,
    rfl⟩ := h
  let record : Account := .tokenOwnerRecord owner.decreaseOutstandingProposalCount
  have hproposal₁ := update_eq_of_ne (x := record) hproposal howner
  have hrealm₁ := update_eq_of_ne (x := record) hrealm howner
  have hgovernance₁ := update_eq_of_ne (x := record) hgovernance howner
  have hrecord : Runs F c w (w.write ownerInfo.key record) := .edit howner (edit_decrease owner)
  have hfinalized : Runs F c (w.write ownerInfo.key record)
      ((w.write ownerInfo.key record).write proposalInfo.key (.proposal p')) := by
    subst hc
    refine .edit hproposal₁ (.finalize hproposal (hpgov ▸ hgovernance₁) (hgrealm ▸ hrealm₁) ?_ rfl
      hfinal)
    exact (resolveMaxVoterWeight_ok hmax).congr rfl fun m hm => update_eq_of_ne hm howner
  exact (hrecord.trans hfinalized).trans (counters_runs (update_eq_of_ne hrealm₁ hproposal₁)
    (update_eq_of_ne hgovernance₁ hproposal₁) rfl rfl)

theorem releaseVote_ok (h : releaseVote t = .ok t') :
    SameDeposit t t' ∧ t'.unrelinquishedVotesCount + 1 = t.unrelinquishedVotesCount ∧
      t'.totalVotesCount = t.totalVotesCount := by
  simp only [releaseVote, checks, checkedSub_eq_ok] at h
  obtain ⟨_, ⟨hle, rfl⟩, rfl⟩ := h
  exact ⟨⟨rfl, rfl, rfl, rfl⟩, Nat.sub_add_cancel hle, rfl⟩

theorem voteRecord_address (hplaced : Placed w.accounts) {P T V : Address} {v : VoteRecordV2}
    (hproposal : w.accounts P = .proposal p) (hgovernance : w.accounts p.governance = .governance g)
    (hrecord : w.accounts T = .tokenOwnerRecord t) (hrealm : t.realm = g.realm)
    (hmint : t.governingTokenMint = p.governingTokenMint) (hvote : w.accounts V = .voteRecord v)
    (hof : v.proposal = P) (howner : v.governingTokenOwner = t.governingTokenOwner) :
    V = getVoteRecordAddress P T ∧
      ∀ choices, v.vote = .approve choices → p.options.length = choices.length := by
  have hV := hplaced.of_eq hvote
  obtain ⟨T', _, _, _, hV, ht', hp', hg', -, hrealm', hmint', howner', hlength⟩ := hV.voter
  rw [hof, hproposal] at hp'
  cases hp'
  rw [hgovernance] at hg'
  cases hg'
  have hT := hplaced T
  have hT' := hplaced T'
  rw [hrecord] at hT
  rw [ht'] at hT'
  have heq : T' = T := by
    rw [hT.1, hT'.1, hrealm', hmint', howner', hrealm, hmint, howner]
  rw [hV, hof, heq]
  exact ⟨rfl, hlength⟩

theorem hasVoteEnded_ok {config : GovernanceConfig} {ended : Bool}
    (h : hasVoteEnded p config now = .ok ended) :
    (ended = false → p.state = .voting) ∧
      (ended = true → p.state = .voting → p.hasVoteTimeEnded config now = .ok true) := by
  unfold hasVoteEnded at h
  split at h
  next hvoting =>
    refine ⟨fun _ => hvoting, fun htrue _ => ?_⟩
    rw [h, htrue]
  next hnot =>
    cases h
    exact ⟨nofun, fun _ hvoting => absurd hvoting hnot⟩

theorem processRelinquishVote_runs (hplaced : Placed w.accounts)
    (hc : c.unixTimestamp = w.unixTimestamp)
    (h : processRelinquishVote accounts w = .ok w') : Runs F c w w' := by
  simp only [processRelinquishVote, checks, reads, Account.views, Bool.not_eq_true] at h
  obtain ⟨_, _, -, _, _, -, _, _, -, _, _, -, _, _,
    -, governanceData, hgovernance, _, ⟨⟨hproposal, hpgov⟩, hpmint⟩, record,
    ⟨⟨hrecord, htrealm⟩, htmint⟩, vote, ⟨hvote, hof, howner⟩, hkept, _, hended, h⟩ := h
  rw [← hpgov] at hgovernance
  obtain ⟨haddress, hlength⟩ := voteRecord_address hplaced hproposal hgovernance hrecord htrealm
    (htmint.trans hpmint.symm) hvote hof howner
  rw [haddress] at h hvote
  obtain ⟨hopen, hclosed⟩ := hasVoteEnded_ok hended
  split at h
  next hfalse =>
    simp only [checks, reads, checkedSub_eq_ok] at h
    obtain ⟨_, _, -, _, _, -, _, -, _, hp', _, hdispose, _, ⟨hle, rfl⟩, _, ht', rfl⟩ := h
    obtain ⟨haccounts, htime⟩ := disposeAccount_ok hdispose
    obtain ⟨hsame, hvotes, htotal⟩ := releaseVote_ok ht'
    refine .of_effect ?_ htime
    rw [write_accounts, haccounts]
    refine .withdrawVote (v := vote) (t := record) ⟨hproposal, hrecord, hvote, hof, hkept,
      hopen hfalse, hlength, hp', ⟨hsame.realm, hsame.mint, hsame.owner, hsame.deposit⟩, hvotes, ?_⟩
    rw [htotal]
    exact Nat.sub_add_cancel hle
  next htrue =>
    simp only [checks] at h
    obtain ⟨_, ht', rfl⟩ := h
    obtain ⟨hsame, hvotes, htotal⟩ := releaseVote_ok ht'
    refine .of_effect ?_ rfl
    refine .releaseVote ⟨hproposal, hrecord, hvote, hof, hkept, fun hvoting => ?_, hsame, hvotes,
      htotal⟩
    exact ⟨governanceData, hgovernance, hc ▸ hclosed (by simpa using htrue) hvoting⟩

/-! ## Flagging errors -/

theorem assertCanExecuteTransaction_ok {t : ProposalTransactionV2} {u : Unit}
    (h : p.assertCanExecuteTransaction t now = .ok u) :
    p.isExecutable = true ∧ (∃ o, p.options[t.optionIndex]? = some o ∧ o.voteResult = .succeeded) ∧
      (∃ completedAt, p.votingCompletedAt = some completedAt ∧ completedAt + t.holdUpTime < now) ∧
      t.executedAt = none := by
  simp only [assertCanExecuteTransaction, addSeconds, checks, ne_eq, not_not, Bool.not_eq_false,
    Int.not_le] at h
  obtain ⟨hexecutable, o, ho, hresult, completedAt, hcompleted, _, ⟨-, rfl⟩, htime, hexecuted⟩ := h
  exact ⟨hexecutable, ⟨o, ho, hresult⟩, ⟨completedAt, hcompleted, htime⟩, hexecuted⟩

theorem processFlagTransactionError_runs
    (h : processFlagTransactionError accounts w = .ok w') : Runs F c w w' := by
  simp only [processFlagTransactionError, checks, reads, Account.views,
    assertCanFlagTransactionError] at h
  obtain ⟨_, _, -, _, _, -, _, _, -, _, _, -, _, hproposal,
    transaction, ⟨htransaction, -⟩, ⟨_, hcan, -⟩, _, -, _, -, rfl⟩ := h
  refine .trans (.edit hproposal (.flag (assertCanExecuteTransaction_ok hcan).1 ?_ ?_))
    (.edit (update_eq_of_ne htransaction hproposal) (.transaction ?_ ?_))
  · rfl
  · rfl
  · exact ⟨rfl, rfl, rfl, rfl, rfl⟩
  · rfl

/-! ## All handlers -/

/-- The instructions that leave configurations alone. -/
def GovernanceInstruction.keepsConfigs : GovernanceInstruction → Bool
  | setRealmConfig _ | setGovernanceConfig _ | executeTransaction => false
  | _ => true

/-- **Step.** Every instruction but `ExecuteTransaction` is a chain of effects. If configurations
are kept, no effect changes one. -/
theorem processInstruction_runs {instruction : GovernanceInstruction} (hplaced : Placed w.accounts)
    (hsign : ∀ a ∈ accounts, a.isSigner = true → a.key.canSign = true)
    (h : processInstruction rent accounts instruction w = .ok w')
    (hF : instruction.keepsConfigs = true ∨ F ∨ ConfigsKept w.accounts w'.accounts) :
    Runs F (w.context instruction accounts) w w' := by
  cases instruction with
  | createRealm => exact processCreateRealm_runs h
  | depositGoverningTokens => exact processDepositGoverningTokens_runs hsign h
  | withdrawGoverningTokens => exact processWithdrawGoverningTokens_runs h
  | setGovernanceDelegate => exact processSetGovernanceDelegate_runs h
  | createGovernance => exact processCreateGovernance_runs h
  | createProgramGovernance => exact processCreateProgramGovernance_runs h
  | createMintGovernance => exact processCreateMintGovernance_runs hsign h
  | createTokenGovernance => exact processCreateTokenGovernance_runs hsign h
  | createProposal => exact processCreateProposal_runs h
  | addSignatory => exact processAddSignatory_runs rfl h
  | removeSignatory => exact processRemoveSignatory_runs h
  | insertTransaction =>
    exact processInsertTransaction_runs rfl h
  | removeTransaction => exact processRemoveTransaction_runs h
  | cancelProposal => exact processCancelProposal_runs h
  | signOffProposal => exact processSignOffProposal_runs rfl h
  | castVote => exact processCastVote_runs rfl h
  | finalizeVote => exact processFinalizeVote_runs rfl h
  | relinquishVote => exact processRelinquishVote_runs hplaced rfl h
  | executeTransaction => cases h
  | setGovernanceConfig => exact processSetGovernanceConfig_runs h (hF.resolve_left nofun)
  | flagTransactionError => exact processFlagTransactionError_runs h
  | setRealmAuthority => exact processSetRealmAuthority_runs h
  | setRealmConfig => exact processSetRealmConfig_runs h (hF.resolve_left nofun)
  | createTokenOwnerRecord => exact processCreateTokenOwnerRecord_runs h
  | updateProgramMetadata => exact processUpdateProgramMetadata_runs h
  | createNativeTreasury => exact processCreateNativeTreasury_runs h

end Handlers

end SolanaPrograms.Governance
