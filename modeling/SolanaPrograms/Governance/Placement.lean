import SolanaPrograms.Governance.Ballots

/-!
# Where accounts are

Every account of the program is at the address derived for it, and what it refers to exists
(`Placed`). This holds along every chain of effects, because what accounts refer to stays: realms,
governances, token owner records, proposals and mints are never disposed of, voting that has begun
does not go back to a draft, and the holding accounts of realms cannot be taken away (`Persists`).
-/

namespace SolanaPrograms.Governance

open Outcome ProposalV2 World Option
open Function (update update_of_ne update_self)

/-! ## What persists -/

/-- What every effect keeps of the store. -/
structure Persists (acc acc' : Address → Account) : Prop where
  identity : ∀ k i, (acc k).identity = some i → (acc' k).identity = some i
  started : ∀ k p, acc k = .proposal p → ¬ p.Pending → ∃ p', acc' k = .proposal p' ∧ ¬ p'.Pending
  guarded : ∀ k a, acc k = .token a → a.Guarded → 
    ∃ amount frozen, acc' k = .token { a with amount, frozen }

/-- What a write has to keep of the account it replaces. -/
structure Continues (a a' : Account) : Prop where
  identity : ∀ i, a.identity = some i → a'.identity = some i
  started : ∀ p, a = .proposal p → ¬ p.Pending → ∃ p', a' = .proposal p' ∧ ¬ p'.Pending
  guarded : ∀ x, a = .token x → x.Guarded → 
    ∃ amount frozen, a' = .token { x with amount, frozen }

theorem Persists.refl (acc : Address → Account) : Persists acc acc :=
  ⟨fun _ _ h => h, fun _ p h hp => ⟨p, h, hp⟩, fun _ a h _ => ⟨a.amount, a.frozen, h⟩⟩

variable {acc acc' acc'' : Address → Account} {k k' : Address} {a b a' : Account} {g : GovernanceV2}
  {r : RealmV2} {p : ProposalV2}

theorem Persists.trans (h : Persists acc acc') (h' : Persists acc' acc'') : Persists acc acc'' := by
  refine ⟨fun k i hk => h'.identity k i (h.identity k i hk), fun k p hk hp => ?_,
    fun k a hk ha => ?_⟩
  · obtain ⟨p', hk', hp'⟩ := h.started k p hk hp
    exact h'.started k p' hk' hp'
  · obtain ⟨_, _, hk'⟩ := h.guarded k a hk ha
    obtain ⟨y, z, hk''⟩ := h'.guarded k _ hk' ⟨ha.owner, ha.delegate, ha.closeAuthority⟩
    exact ⟨y, z, hk''⟩

theorem Persists.update (h : Continues (acc k) a) : Persists acc (update acc k a) := by
  refine ⟨fun x i hx => ?_, fun x p hx hp => ?_, fun x b hx hb => ?_⟩
  all_goals
    by_cases hxk : x = k
    · subst hxk
      rw [update_self]
      first
        | exact h.identity i hx
        | exact h.started p hx hp
        | exact h.guarded b hx hb
    · rw [update_of_ne hxk]
      first
        | exact hx
        | exact ⟨p, hx, hp⟩
        | exact ⟨b.amount, b.frozen, hx⟩

/-- Nothing is kept of an account without an identity that is not a token account. -/
theorem Continues.of_none (h : a.identity = none) (htoken : a.token? = none) : Continues a a' := by
  refine ⟨fun i hi => ?_, fun p hp => ?_, fun x hx => ?_⟩
  · rw [h] at hi
    cases hi
  · rw [hp] at h
    cases h
  · rw [hx] at htoken
    cases htoken

/-- An account that is neither a proposal nor a token account keeps its identity only. -/
theorem Continues.of_identity (h : a'.identity = a.identity)
    (hproposal : a.proposal? = none) (htoken : a.token? = none) : Continues a a' := by
  refine ⟨fun i hi => h.trans hi, fun p hp => ?_, fun x hx => ?_⟩
  · rw [hp] at hproposal
    cases hproposal
  · rw [hx] at htoken
    cases htoken

theorem Continues.proposal {p p' : ProposalV2}
    (hidentity : (Account.proposal p').identity = (Account.proposal p).identity)
    (hstarted : ¬ p.Pending → ¬ p'.Pending) : Continues (.proposal p) (.proposal p') := by
  refine ⟨fun i hi => hidentity.trans hi, fun q hq hpending => ?_, fun x hx => by cases hx⟩
  cases hq
  exact ⟨p', rfl, hstarted hpending⟩

theorem Continues.token {a a' : TokenAccount}
    (h : a.Guarded → ∃ amount frozen, a' = { a with amount, frozen }) :
    Continues (.token a) (.token a') := by
  refine ⟨fun i hi => (by cases hi), fun p hp => (by cases hp), fun x hx hguarded => ?_⟩
  cases hx
  obtain ⟨y, z, hy⟩ := h hguarded
  exact ⟨y, z, by rw [hy]⟩

section Kinds

variable {acc acc' : Address → Account} {k : Address}

variable (h : Persists acc acc')
include h

/-! An account with the identity of a realm is one, and so on for the other kinds. -/

theorem Persists.realm (hk : acc k = .realm r) :
    ∃ r', acc' k = .realm r' ∧ r'.communityMint = r.communityMint ∧ r'.name = r.name := by
  have hidentity := h.identity k _ (congrArg Account.identity hk)
  cases hk' : acc' k <;> simp_all [Account.identity]

theorem Persists.governance (hk : acc k = .governance g) :
    ∃ g', acc' k = .governance g' ∧ g'.kind = g.kind ∧ g'.realm = g.realm ∧ g'.governedAccount =
      g.governedAccount := by
  have hidentity := h.identity k _ (congrArg Account.identity hk)
  cases hk' : acc' k <;> simp_all [Account.identity]

theorem Persists.tokenOwnerRecord {t : TokenOwnerRecordV2} (hk : acc k = .tokenOwnerRecord t) :
    ∃ t', acc' k = .tokenOwnerRecord t' ∧ t'.realm = t.realm ∧ t'.governingTokenMint =
      t.governingTokenMint ∧ t'.governingTokenOwner = t.governingTokenOwner := by
  have hidentity := h.identity k _ (congrArg Account.identity hk)
  cases hk' : acc' k <;> simp_all [Account.identity]

theorem Persists.proposal (hk : acc k = .proposal p) :
    ∃ p', acc' k = .proposal p' ∧ p'.governance = p.governance ∧
      p'.governingTokenMint = p.governingTokenMint ∧ p'.tokenOwnerRecord = p.tokenOwnerRecord ∧
      p'.voteType = p.voteType ∧ p'.options.length = p.options.length ∧
      p'.denyVoteWeight.isSome = p.denyVoteWeight.isSome := by
  have hidentity := h.identity k _ (congrArg Account.identity hk)
  cases hk' : acc' k <;> simp_all [Account.identity]

theorem Persists.mint {m : Mint} (hk : acc k = .mint m) : ∃ m', acc' k = .mint m' := by
  have hidentity := h.identity k _ (congrArg Account.identity hk)
  cases hk' : acc' k <;> simp_all [Account.identity]

end Kinds

/-! ## Placement -/

structure VotePlaced (acc : Address → Account) (k : Address) (v : VoteRecordV2) : Prop where
  voter : ∃ T t p g, k = getVoteRecordAddress v.proposal T ∧ acc T = .tokenOwnerRecord t ∧
    acc v.proposal = .proposal p ∧ acc p.governance = .governance g ∧ ¬ p.Pending ∧
    t.realm = g.realm ∧ t.governingTokenMint = p.governingTokenMint ∧
    t.governingTokenOwner = v.governingTokenOwner ∧
    ∀ choices, v.vote = .approve choices → p.options.length = choices.length

/-- What the state of a proposal says about its other fields: a vote has begun at some time, and only
a proposal that could be rejected is executed. -/
structure ProposalV2.Staged (p : ProposalV2) : Prop where
  voting : p.state = .voting → ∃ since, p.votingAt = some since
  executable : p.isExecutable = true → p.denyVoteWeight ≠ none

theorem ProposalV2.Staged.of_state (hvoting : p.state ≠ .voting)
    (hexecutable : p.isExecutable = false) : p.Staged :=
  ⟨fun h => absurd h hvoting, fun h => by simp [hexecutable] at h⟩

def PlacedAt (acc : Address → Account) (k : Address) : Account → Prop
  | .empty | .zeroed => True
  | .realm r => k = .named r.name ∧ r.config.Valid ∧
      ∀ mint, r.Governs mint → (∃ m, acc mint = .mint m) ∧
        ∃ a, acc (getGoverningTokenHoldingAddress k mint) = .token a ∧ a.Guarded
  | .realmConfig _ => ∃ realm, k = .realmConfig realm
  | .governance g => k = g.address ∧ g.config.Valid ∧ ∃ r, acc g.realm = .realm r
  | .tokenOwnerRecord t =>
      k = getTokenOwnerRecordAddress t.realm t.governingTokenMint t.governingTokenOwner ∧
        ∃ r, acc t.realm = .realm r
  | .proposal p => (∃ index, k = .proposal p.governance p.governingTokenMint index) ∧
      (∃ g, acc p.governance = .governance g) ∧ (∃ m, acc p.governingTokenMint = .mint m) ∧
      (∃ t, acc p.tokenOwnerRecord = .tokenOwnerRecord t) ∧ p.options ≠ [] ∧ p.Staged
  | .signatoryRecord s => k = getSignatoryRecordAddress s.proposal s.signatory ∧
      ∃ p, acc s.proposal = .proposal p
  | .voteRecord v => VotePlaced acc k v
  | .transaction t => k = .transaction t.proposal t.optionIndex t.transactionIndex ∧
      ∃ p, acc t.proposal = .proposal p
  | .programMetadata _ => k = .metadata
  | .voterWeightRecord _ _ | .maxVoterWeightRecord _ _ | .programData _ => k.isOutside = true
  | .token a => (∃ m, acc a.mint = .mint m) ∧
      ∀ x y, k = .pair x y → a.Guarded ∧ a.mint = y ∧ a.owner = x ∧ ∃ name, x = .named name
  | .mint _ => k.canSign = true

def Placed (acc : Address → Account) : Prop := ∀ k, PlacedAt acc k (acc k)

theorem Placed.of_eq (h : Placed acc) (hk : acc k = a) : PlacedAt acc k a := hk ▸ h k

theorem PlacedAt.mono (h : Persists acc acc') (hk : PlacedAt acc k a) : PlacedAt acc' k a := by
  cases a with
  | realm =>
    obtain ⟨hname, hvalid, hmints⟩ := hk
    refine ⟨hname, hvalid, fun mint hgoverns => ?_⟩
    obtain ⟨⟨_, hm⟩, a, ha, hguarded⟩ := hmints mint hgoverns
    obtain ⟨_, _, ha'⟩ := h.guarded _ a ha hguarded
    exact ⟨h.mint hm, _, ha', hguarded.owner, hguarded.delegate, hguarded.closeAuthority⟩
  | governance =>
    obtain ⟨haddress, hvalid, _, hr⟩ := hk
    obtain ⟨r', hr', -⟩ := h.realm hr
    exact ⟨haddress, hvalid, r', hr'⟩
  | tokenOwnerRecord =>
    obtain ⟨haddress, _, hr⟩ := hk
    obtain ⟨r', hr', -⟩ := h.realm hr
    exact ⟨haddress, r', hr'⟩
  | proposal =>
    obtain ⟨haddress, ⟨_, hg⟩, ⟨_, hm⟩, ⟨_, ht⟩, hrest⟩ := hk
    obtain ⟨g', hg', -⟩ := h.governance hg
    obtain ⟨t', ht', -⟩ := h.tokenOwnerRecord ht
    exact ⟨haddress, ⟨g', hg'⟩, h.mint hm, ⟨t', ht'⟩, hrest⟩
  | signatoryRecord | transaction =>
    obtain ⟨haddress, _, hp⟩ := hk
    obtain ⟨p', hp', -⟩ := h.proposal hp
    exact ⟨haddress, p', hp'⟩
  | voteRecord =>
    obtain ⟨T, _, p, _, haddress, ht, hp, hg, hstarted, hrealm, hmint, howner, _⟩ := hk.voter
    obtain ⟨t', ht', htrealm, htmint, htowner⟩ := h.tokenOwnerRecord ht
    obtain ⟨p', hp', hstarted'⟩ := h.started _ p hp hstarted
    obtain ⟨p'', hp'', hpgovernance, hpmint, -, -, hplength, -⟩ := h.proposal hp
    obtain ⟨g', hg', -, hgrealm, -⟩ := h.governance hg
    obtain rfl : p' = p'' := by
      rw [hp'] at hp''
      cases hp''
      rfl
    refine ⟨T, t', p', g', haddress, ht', hp', ?_, hstarted', ?_, ?_, ?_, ?_⟩
    · rw [hpgovernance, hg']
    · rw [htrealm, hgrealm, hrealm]
    · rw [htmint, hpmint, hmint]
    · rw [htowner, howner]
    · rwa [hplength]
  | token =>
    obtain ⟨⟨_, hm⟩, hpair⟩ := hk
    exact ⟨h.mint hm, hpair⟩
  | empty | zeroed => trivial
  | realmConfig | programMetadata | voterWeightRecord | maxVoterWeightRecord | programData | mint =>
    exact hk

theorem Placed.update (h : Placed acc) (hcontinues : Continues (acc k) a) (ha : PlacedAt acc k a) :
    Placed (update acc k a) := by
  have hpersists := Persists.update hcontinues
  intro x
  by_cases hx : x = k
  · subst hx
    rw [update_self]
    exact ha.mono hpersists
  · rw [update_of_ne hx]
    exact (h x).mono hpersists

/-- What every effect does to the store: it persists, and it is placed if it was. -/
structure Keeps (acc acc' : Address → Account) : Prop where
  persists : Persists acc acc'
  placed : Placed acc → Placed acc'

theorem Keeps.refl (acc : Address → Account) : Keeps acc acc := ⟨.refl acc, id⟩

theorem Keeps.trans (h : Keeps acc acc') (h' : Keeps acc' acc'') : Keeps acc acc'' :=
  ⟨h.persists.trans h'.persists, fun hplaced => h'.placed (h.placed hplaced)⟩

theorem Keeps.write (hk : acc k = a) (hcontinues : Continues a b)
    (hat : Placed acc → PlacedAt acc k b) : Keeps acc (update acc k b) := by
  subst hk
  exact ⟨.update hcontinues, fun hplaced => hplaced.update hcontinues (hat hplaced)⟩

theorem key_ne (h : acc k = a) (h' : acc k' = b) (hab : a ≠ b) : k ≠ k' := by
  rintro rfl
  exact hab (h.symm.trans h')

/-- A write leaves the other accounts, which are told apart by what they hold. -/
theorem update_eq_of_ne {x : Account} (h : acc k = a) (h' : acc k' = b)
    (hab : a ≠ b := by simp) : update acc k' x k = a := by
  rw [update_of_ne (key_ne h h' hab), h]

/-! ## Effects on one account -/

section Single

variable {F : Prop} {c : Context} {acc : Address → Account} {k : Address} {a a' : Account}

variable {p p' : ProposalV2}

theorem not_pending_of_state (h : p.state ≠ .draft) (h' : p.state ≠ .signingOff) :
    ¬ p.Pending := fun hpending => hpending.elim h h'

theorem ProposalV2.decision_ballot (h : p'.decision = p.decision) :
    p'.ballot = p.ballot := congrArg Decision.ballot h

theorem Edit.continues (h : Edit F c acc k a a') : Continues a a' := by
  cases h with
  | realm hmint hname =>
    exact .of_identity (by simp [Account.identity, hmint, hname]) rfl rfl
  | governance hkind hrealm hgoverned =>
    exact .of_identity (by simp [Account.identity, hkind, hrealm, hgoverned]) rfl rfl
  | tokenOwnerRecord h => exact .of_identity h.identity rfl rfl
  | signatoryRecord | transaction | realmConfig | programMetadata | programData =>
    exact .of_none rfl rfl
  | draft hstate _ hballot =>
    exact .proposal (identity_of_ballot hballot) fun hstarted =>
      absurd (.inl hstate) hstarted
  | signOff hstate _ hballot =>
    exact .proposal (identity_of_ballot hballot) fun hstarted => absurd hstate hstarted
  | cancel _ hstate' hballot =>
    refine .proposal (identity_of_ballot hballot) fun _ => ?_
    exact not_pending_of_state (by simp [hstate']) (by simp [hstate'])
  | finalize _ _ _ _ _ h =>
    have hfinal := finalizeVote_ok h
    refine .proposal (identity_of_ballot hfinal.ballot) fun _ => ?_
    rcases hfinal.state with ⟨hstate, -⟩ | hstate | hstate <;>
      exact not_pending_of_state (by simp [hstate]) (by simp [hstate])
  | flag _ hstate' hdecision =>
    refine .proposal (identity_of_ballot (decision_ballot hdecision))
      fun _ => ?_
    exact not_pending_of_state (by simp [hstate']) (by simp [hstate'])

/-- What a proposal needs to be placed, but for its state, depends on its identity. -/
theorem PlacedAt.proposal_of_identity (h : PlacedAt acc k (.proposal p))
    (hidentity : (Account.proposal p').identity = (Account.proposal p).identity)
    (hstaged : p'.Staged) : PlacedAt acc k (.proposal p') := by
  simp only [Account.identity, some.injEq, Identity.proposal.injEq] at hidentity
  obtain ⟨hgovernance, hmint, hrecord, -, hlength, -⟩ := hidentity
  obtain ⟨_, _, _, _, hoptions, -⟩ := h
  refine ⟨?_, ?_, ?_, ?_, fun hnil => hoptions ?_, hstaged⟩
  · rwa [hgovernance, hmint]
  · rwa [hgovernance]
  · rwa [hmint]
  · rwa [hrecord]
  · rw [hnil, List.length_nil] at hlength
    exact List.length_eq_zero_iff.mp hlength.symm

theorem PlacedAt.proposal_of_ballot (h : PlacedAt acc k (.proposal p))
    (hballot : p'.ballot = p.ballot) (hstaged : p'.Staged) : PlacedAt acc k (.proposal p') :=
  h.proposal_of_identity (identity_of_ballot hballot) hstaged

theorem Finalized.staged {maxVoterWeight : ℕ} {config : GovernanceConfig} {now : ℤ}
    (h : Finalized p p' maxVoterWeight config now) : p'.Staged := by
  refine ⟨fun hvoting => ?_, h.rejectable⟩
  rcases h.state with ⟨hstate, -⟩ | hstate | hstate <;> simp [hstate] at hvoting

theorem Edit.placedAt (h : Edit F c acc k a a') (ha : PlacedAt acc k a) : PlacedAt acc k a' := by
  cases h with
  | @realm _ _ hmint hname hconfig =>
    obtain ⟨haddress, hvalid, hmints⟩ := ha
    rcases hconfig with hconfig | ⟨-, hvalid', hcouncil⟩
    · refine ⟨by rw [hname, haddress], hconfig ▸ hvalid, fun mint hgoverns => hmints mint ?_⟩
      rwa [RealmV2.Governs, hmint, hconfig] at hgoverns
    · refine ⟨by rw [hname, haddress], hvalid', fun mint hgoverns => hmints mint ?_⟩
      rw [RealmV2.Governs, hmint] at hgoverns
      rcases hcouncil with hcouncil | hcouncil
      · rwa [hcouncil] at hgoverns
      · rw [hcouncil] at hgoverns
        exact hgoverns.imp_right fun hnone => by cases hnone
  | @governance _ _ hkind hrealm hgoverned hconfig =>
    obtain ⟨haddress, hvalid, _⟩ := ha
    refine ⟨?_, ?_, ?_⟩
    · rw [haddress, GovernanceV2.address, GovernanceV2.address, hkind, hrealm, hgoverned]
    · rcases hconfig with hconfig | ⟨-, hvalid'⟩
      · exact hconfig ▸ hvalid
      · exact hvalid'
    · rwa [hrealm]
  | tokenOwnerRecord h =>
    obtain ⟨haddress, _⟩ := ha
    exact ⟨by rw [haddress, h.realm, h.mint, h.owner], by rwa [h.realm]⟩
  | signatoryRecord hproposal hsignatory =>
    obtain ⟨haddress, _⟩ := ha
    exact ⟨by rw [haddress, hproposal, hsignatory], by rwa [hproposal]⟩
  | transaction h =>
    obtain ⟨haddress, _⟩ := ha
    exact ⟨by rw [haddress, h.proposal, h.optionIndex, h.transactionIndex], by rwa [h.proposal]⟩
  | realmConfig | programMetadata | programData => exact ha
  | draft _ hstate' hballot | cancel _ hstate' hballot =>
    exact ha.proposal_of_ballot hballot (.of_state (by simp [hstate'])
      (by simp [isExecutable, hstate']))
  | signOff _ hstate' hballot =>
    refine ha.proposal_of_ballot hballot ?_
    rcases hstate' with (hstate' | hstate') | ⟨hstate', hsince⟩
    · exact .of_state (by simp [hstate']) (by simp [isExecutable, hstate'])
    · exact .of_state (by simp [hstate']) (by simp [isExecutable, hstate'])
    · exact ⟨fun _ => ⟨_, hsince⟩, by simp [isExecutable, hstate']⟩
  | finalize _ _ _ _ _ h =>
    have hfinal := finalizeVote_ok h
    exact ha.proposal_of_ballot hfinal.ballot hfinal.staged
  | @flag p p' hstate hstate' hdecision =>
    have hballot := decision_ballot hdecision
    refine ha.proposal_of_ballot hballot ⟨by simp [hstate'], fun _ => ?_⟩
    rw [show p'.denyVoteWeight = p.denyVoteWeight from congrArg Ballot.denyVoteWeight hballot]
    exact ha.2.2.2.2.2.executable hstate

theorem Created.placedAt (h : Created c acc k a) (hplaced : Placed acc) : PlacedAt acc k a := by
  cases h with
  | nativeTreasury => trivial
  | realmConfig hk => exact ⟨_, hk⟩
  | programMetadata hk => exact hk
  | @holding name _ m hk hmint =>
    refine ⟨⟨m, hmint⟩, fun x y hxy => ?_⟩
    rw [hk] at hxy
    cases hxy
    exact ⟨⟨rfl, rfl, rfl⟩, rfl, rfl, name, rfl⟩
  | realm hk hvalid hholding =>
    refine ⟨hk, hvalid, fun mint hgoverns => ?_⟩
    obtain ⟨m, htoken, hm⟩ := hholding mint hgoverns
    exact ⟨⟨m, hm⟩, _, htoken, by rw [hk]; rfl, rfl, rfl⟩
  | governance hk hrealm hvalid => exact ⟨hk, hvalid, _, hrealm⟩
  | tokenOwnerRecord hk hrealm => exact ⟨hk, _, hrealm⟩
  | @proposal p g _ t index hk hgovernance hrealm hgoverns hrecord hstate hoptions =>
    have hr := hplaced.of_eq hrealm
    obtain ⟨hm, -⟩ := hr.2.2 p.governingTokenMint hgoverns
    exact ⟨⟨index, hk⟩, ⟨g, hgovernance⟩, hm, ⟨t, hrecord⟩, hoptions,
      .of_state (by simp [hstate]) (by simp [isExecutable, hstate])⟩
  | signatoryRecord hk hproposal => exact ⟨hk, _, hproposal⟩
  | transaction hk hproposal => exact ⟨hk, _, hproposal⟩

theorem Disposed.continues (h : Disposed acc a) : Continues a .zeroed := by
  cases h <;> exact .of_none rfl rfl

end Single

/-! ## Tokens -/

section Tokens

variable {acc acc' : Address → Account}

variable {a a' : TokenAccount} {authority k : Address} {amount : ℕ}

variable (h : a.spend false (only authority) authority amount = some a')
include h

theorem debit_ok :
    amount ≤ a.amount ∧ a'.amount = a.amount - amount ∧ a'.mint = a.mint ∧
      (authority.canSign = true → ¬ a.Guarded) := by
  obtain ⟨hwho, hamount, hmint, -⟩ := Tokens.TokenAccount.spend_some h
  refine ⟨by omega, by omega, hmint, fun hsign hguarded => ?_⟩
  obtain ⟨-, rfl | hdelegate⟩ := hwho rfl
  · exact absurd (hguarded.owner.symm.trans hsign) (by simp)
  · exact absurd (hguarded.delegate.symm.trans hdelegate) (by simp)

theorem debit_guarded (hguarded : a.Guarded) : a' = { a with amount := a.amount - amount } := by
  simp only [Tokens.TokenAccount.spend, hguarded.delegate, reduceCtorEq, if_false, Bool.false_eq_true,
    Option.ite_none_right_eq_some, Option.some.injEq] at h
  rw [hguarded.delegate]
  exact h.2.2.2.symm

omit h

theorem PlacedAt.token_of_amount (h : PlacedAt acc k (.token a)) (x : ℕ) (y : Bool) :
    PlacedAt acc k (.token { a with amount := x, frozen := y }) := by
  obtain ⟨hmint, hpair⟩ := h
  refine ⟨hmint, fun y z hyz => ?_⟩
  obtain ⟨hguarded, hrest⟩ := hpair y z hyz
  exact ⟨⟨hguarded.owner, hguarded.delegate, hguarded.closeAuthority⟩, hrest⟩

theorem PlacedAt.debit (h : PlacedAt acc k (.token a))
    (hdebit : a.spend false (only authority) authority amount = some a') :
    PlacedAt acc k (.token a') := by
  obtain ⟨_, hpair⟩ := h
  refine ⟨by rwa [(debit_ok hdebit).2.2.1], fun y z hyz => ?_⟩
  obtain ⟨hguarded, hrest⟩ := hpair y z hyz
  rw [debit_guarded hdebit hguarded]
  exact ⟨⟨hguarded.owner, hguarded.delegate, hguarded.closeAuthority⟩, hrest⟩

theorem Continues.debit (h : a.spend false (only authority) authority amount = some a') :
    Continues (.token a) (.token a') :=
  .token fun hguarded => ⟨_, a.frozen, debit_guarded h hguarded⟩

variable {source destination : Address}

theorem Transferred.keeps (h : Transferred acc acc' source destination authority amount) :
    Keeps acc acc' := by
  obtain ⟨_, b, a', hsource, hdestination, -, hdebit, rfl⟩ := h
  split
  next => exact .refl acc
  next hne =>
    have hkeep : update acc source (.token a') destination = .token b := by
      rw [update_of_ne (.symm hne), hdestination]
    have hleft : Keeps acc (update acc source (.token a')) :=
      .write hsource (.debit hdebit) fun hplaced => (hsource ▸ hplaced source).debit hdebit
    exact hleft.trans (.write hkeep (.token fun _ => ⟨_, _, rfl⟩) fun hplaced =>
      (hkeep ▸ hplaced destination).token_of_amount _ _)

theorem Transferred.other {a : Account}
    (h : Transferred acc acc' source destination authority amount) (hk : acc k = a)
    (ha : a.token? = none) : acc' k = a := by
  obtain ⟨x, y, _, hsource, hdestination, -, -, rfl⟩ := h
  have hne : ∀ z, a ≠ .token z := by
    rintro z rfl
    cases ha
  split
  next => exact hk
  next =>
    rw [update_of_ne (key_ne hk hdestination (hne y)),
      update_of_ne (key_ne hk hsource (hne x)), hk]

theorem keeps_mint {m : Mint} (m' : Mint) (hk : acc k = .mint m) :
    Keeps acc (update acc k (.mint m')) := by
  refine .write hk (.of_identity rfl rfl rfl) fun hplaced => ?_
  have hm := hplaced.of_eq hk
  exact hm

theorem TokenStep.keeps (h : TokenStep acc acc') : Keeps acc acc' := by
  cases h with
  | initializeMint hk hsign => exact .write hk (.of_none rfl rfl) fun _ => hsign
  | @initializeAccount _ _ m hk hsign hmint =>
    refine .write hk (.of_none rfl rfl) fun _ => ⟨⟨m, hmint⟩, fun x y hxy => ?_⟩
    rw [hxy] at hsign
    cases hsign
  | transfer _ h => exact h.keeps
  | @mintTo k _ m amount hk hmint =>
    have hkeep := update_eq_of_ne (x := .mint { m with supply := m.supply + amount }) hk hmint
    exact (keeps_mint _ hmint).trans (.write hkeep (.token fun _ => ⟨_, _, rfl⟩) fun hplaced =>
      (hkeep ▸ hplaced k).token_of_amount _ _)
  | @burn k _ _ _ m amount _ hk hmint hdebit =>
    have hkeep := update_eq_of_ne (x := .mint { m with supply := m.supply - amount }) hk hmint
    exact (keeps_mint _ hmint).trans (.write hkeep (.debit hdebit) fun hplaced =>
      (hkeep ▸ hplaced k).debit hdebit)
  | @account k _ _ hk hfree hmint =>
    refine .write hk (.token fun hguarded => absurd hguarded hfree) fun hplaced => ?_
    have ha := hplaced.of_eq hk
    exact ⟨by rw [hmint]; exact ha.1, fun x y hxy => absurd (ha.2 x y hxy).1 hfree⟩
  | @frozen k _ hk =>
    exact .write hk (.token fun _ => ⟨_, _, rfl⟩) fun hplaced =>
      (hk ▸ hplaced k).token_of_amount _ _
  | mint hk => exact keeps_mint _ hk
  | @closeAccount _ _ hk hfree =>
    refine .write hk ⟨fun i hi => (by cases hi), fun p hp => (by cases hp), fun x hx hguarded => ?_⟩
      fun _ => trivial
    cases hx
    exact absurd hguarded hfree

end Tokens

/-! ## Votes and deposits -/

section Several

variable {F : Prop} {c : Context} {acc acc₁ : Address → Account} {P T : Address}
  {p p' : ProposalV2} {t t' : TokenOwnerRecordV2} {v : VoteRecordV2}

theorem PlacedAt.tokenOwnerRecord_of_same (h : PlacedAt acc T (.tokenOwnerRecord t))
    (hsame : SameDeposit t t') : PlacedAt acc T (.tokenOwnerRecord t') := by
  obtain ⟨haddress, _⟩ := h
  exact ⟨by rw [haddress, hsame.realm, hsame.mint, hsame.owner], by rwa [hsame.realm]⟩

/-- Casting a vote: the proposal continues, whether the vote tips or not. -/
theorem CastVote.identity (h : CastVote c acc P T p p' t t' v g r) :
    (Account.proposal p').identity = (Account.proposal p).identity ∧ ¬ p'.Pending ∧
      (p.Staged → p'.Staged) := by
  obtain ⟨q, _, _, hq, -, htip⟩ := h.counted
  have hcounted := counted_of_weighVote h.valid hq
  have hvoting : q.state = .voting := hcounted.state.trans h.state
  rcases tryTipVote_ok htip with ⟨-, rfl⟩ | ⟨-, htipped⟩
  · refine ⟨hcounted.identity, not_pending_of_state (by simp [hvoting]) (by simp [hvoting]),
      fun hstaged => ⟨fun _ => ?_, by simp [isExecutable, hvoting]⟩⟩
    rw [hcounted.same]
    exact hstaged.voting h.state
  · refine ⟨(identity_of_ballot htipped.ballot).trans hcounted.identity, ?_, fun _ => ?_⟩
    · rcases htipped.state with hstate | hstate <;>
        exact not_pending_of_state (by simp [hstate]) (by simp [hstate])
    · refine ⟨fun hvoting => ?_, htipped.rejectable⟩
      rcases htipped.state with hstate | hstate <;> simp [hstate] at hvoting

theorem keeps_tokenOwnerRecord (hT : acc T = .tokenOwnerRecord t) (hsame : SameDeposit t t') :
    Keeps acc (update acc T (.tokenOwnerRecord t')) :=
  .write hT (.of_identity hsame.identity rfl rfl) fun hplaced =>
    (hT ▸ hplaced T).tokenOwnerRecord_of_same hsame

/-- The places written by a vote, just before each is written. -/
theorem CastVote.places (h : CastVote c acc P T p p' t t' v g r) :
    update acc T (.tokenOwnerRecord t') P = .proposal p ∧ update
    (update acc T (.tokenOwnerRecord t'))
      P (.proposal p') (getVoteRecordAddress P T) = .empty := by
  have hP := update_eq_of_ne (x := .tokenOwnerRecord t') h.proposal h.record
  exact ⟨hP, update_eq_of_ne (update_eq_of_ne h.fresh h.record) hP⟩

theorem WithdrawVote.places (h : WithdrawVote acc P T p p' t t' v) :
    update acc P (.proposal p') (getVoteRecordAddress P T) = .voteRecord v ∧ update
      (update acc P (.proposal p')) (getVoteRecordAddress P T) .zeroed T = .tokenOwnerRecord t := by
  have hV := update_eq_of_ne (x := .proposal p') h.vote h.proposal
  exact ⟨hV, update_eq_of_ne (update_eq_of_ne h.record h.proposal) hV⟩

theorem CastVote.keeps (h : CastVote c acc P T p p' t t' v g r) :
    Keeps acc (update (update (update acc T (.tokenOwnerRecord t')) P
      (.proposal p')) (getVoteRecordAddress P T) (.voteRecord v)) := by
  obtain ⟨hidentity, hstarted, hstaged⟩ := h.identity
  obtain ⟨hP, hfresh⟩ := h.places
  set acc₁ := update acc T (.tokenOwnerRecord t')
  have hrecord : Keeps acc acc₁ := keeps_tokenOwnerRecord h.record h.same
  have hproposal : Keeps acc₁ (update acc₁ P (.proposal p')) := by
    refine .write hP (.proposal hidentity fun _ => hstarted) fun hplaced => ?_
    have hp := hplaced.of_eq hP
    exact hp.proposal_of_identity hidentity (hstaged hp.2.2.2.2.2)
  refine (hrecord.trans hproposal).trans (.write hfresh (.of_none rfl rfl) fun _ => ?_)
  · have hsame := hidentity
    simp only [Account.identity, some.injEq, Identity.proposal.injEq] at hsame
    obtain ⟨hgovernance, hmint, -, -, hlength, -⟩ := hsame
    refine ⟨T, t', p', g, by rw [h.ofProposal], ?_, ?_, ?_, hstarted, ?_, ?_, ?_, ?_⟩
    · exact update_eq_of_ne (update_self ..) hP
    · rw [h.ofProposal, update_self]
    · rw [hgovernance]
      exact update_eq_of_ne (update_eq_of_ne h.governance h.record) hP
    · rw [h.same.realm, h.recordRealm]
    · rw [h.same.mint, h.recordMint, hmint]
    · rw [h.same.owner, h.ofOwner]
    · intro choices hchoices
      rw [hlength]
      exact assertValidVote_length (hchoices ▸ h.valid)

theorem WithdrawVote.keeps (h : WithdrawVote acc P T p p' t t' v) :
    Keeps acc (update (update (update acc P (.proposal p'))
      (getVoteRecordAddress P T) .zeroed) T (.tokenOwnerRecord t')) := by
  have huncounted := uncounted_of_weighVote h.choices h.counted
  obtain ⟨hV, hT⟩ := h.places
  have hproposal : Keeps acc (update acc P (.proposal p')) := by
    refine .write h.proposal (.proposal huncounted.identity fun hstarted => ?_) fun hplaced => ?_
    · rwa [ProposalV2.Pending, huncounted.state]
    · have hp := hplaced.of_eq h.proposal
      have hstate : p'.state = .voting := huncounted.state.trans h.state
      refine hp.proposal_of_identity huncounted.identity
        ⟨fun _ => ?_, by simp [isExecutable, hstate]⟩
      rw [huncounted.same]
      exact hp.2.2.2.2.2.voting h.state
  exact (hproposal.trans (.write (b := .zeroed) hV (.of_none rfl rfl) fun _ => trivial)).trans
    (keeps_tokenOwnerRecord hT h.same)

theorem ReleaseVote.keeps (h : ReleaseVote c acc P T p t t' v) :
    Keeps acc (update (update acc (getVoteRecordAddress P T)
      (.voteRecord { v with isRelinquished := true })) T (.tokenOwnerRecord t')) := by
  have hvote : Keeps acc (update acc (getVoteRecordAddress P T)
      (.voteRecord { v with isRelinquished := true })) := by
    refine .write h.vote (.of_none rfl rfl) fun hplaced => ?_
    have hv := hplaced.of_eq h.vote
    exact ⟨hv.voter⟩
  exact hvote.trans (keeps_tokenOwnerRecord (update_eq_of_ne h.record h.vote) h.same)

variable {realm mint owner : Address}

theorem Deposit.keeps {amount : ℕ} (h : Deposit acc acc₁ realm mint owner t' amount) :
    Keeps acc (update acc₁ (getTokenOwnerRecordAddress realm mint owner)
      (.tokenOwnerRecord t')) := by
  obtain ⟨_, _, -, htransferred⟩ := h.transferred
  obtain ⟨r, hr, -⟩ := h.governs
  have hr' := htransferred.other hr rfl
  refine htransferred.keeps.trans ?_
  rcases h.record with ⟨hempty, rfl⟩ | ⟨t, ht, rfl⟩
  · exact .write hempty (.of_none rfl rfl) fun _ => ⟨rfl, r, hr'⟩
  · refine .write ht (.of_identity rfl rfl rfl) fun hplaced => ?_
    have hat := hplaced.of_eq ht
    exact hat

theorem Withdrawal.keeps (h : Withdrawal acc acc₁ realm mint owner t) :
    Keeps acc (update acc₁ (getTokenOwnerRecordAddress realm mint owner)
      (.tokenOwnerRecord { t with governingTokenDepositAmount := 0 })) := by
  obtain ⟨_, htransferred⟩ := h.transferred
  have ht := htransferred.other h.record rfl
  refine htransferred.keeps.trans (.write ht (.of_identity rfl rfl rfl) fun hplaced => ?_)
  have hat := hplaced.of_eq ht
  exact hat

variable {acc' : Address → Account}

theorem Effect.keeps (h : Effect F c acc acc') : Keeps acc acc' := by
  cases h with
  | @edit k _ _ hk h =>
    exact .write hk h.continues fun hplaced => h.placedAt (hk ▸ hplaced k)
  | create hk h => exact .write hk (.of_none rfl rfl) h.placedAt
  | dispose hk h => exact .write hk h.continues fun _ => trivial
  | castVote h => exact h.keeps
  | withdrawVote h => exact h.keeps
  | releaseVote h => exact h.keeps
  | deposit h => exact h.keeps
  | withdraw h => exact h.keeps
  | token h => exact h.keeps

theorem Effects.keeps (h : Effects F c acc acc') : Keeps acc acc' := by
  induction h with
  | refl => exact .refl acc
  | tail _ hstep ih => exact ih.trans hstep.keeps

end Several

end SolanaPrograms.Governance
