import SolanaPrograms.Governance.Voting

/-!
# What an effect does to one record

The token program moves between empty accounts, token accounts and mints, so it leaves every record
of the program (`TokenStep.kept`). What an effect can do at one address is listed once (`Change`).
From this the records of each kind are followed, forwards (`Effect.proposal`, `Effect.transaction`)
or backwards (`Effect.proposal_of` and its siblings), where a record can also be new.
-/

namespace SolanaPrograms.Governance

open Function Outcome

/-- What a write over something else does not explain was there before. -/
theorem eq_of_update {acc : Address → Account} {k x : Address} {a b : Account}
    (h : update acc x b k = a) (hb : b ≠ a) : acc k = a := by
  by_cases hk : k = x
  · subst hk
    rw [update_self] at h
    exact absurd h hb
  · rwa [update_of_ne hk] at h

/-! ## Tokens -/

def Account.isLedger : Account → Bool
  | empty | token _ | mint _ => true
  | _ => false

/-- The accounts at `k` are the same, or both belong to the token program. -/
def LedgerOnly (acc acc' : Address → Account) : Prop :=
  ∀ k, acc' k = acc k ∨ (acc k).isLedger = true ∧ (acc' k).isLedger = true

section Ledger

variable {acc acc' acc'' : Address → Account}

theorem LedgerOnly.refl (acc : Address → Account) : LedgerOnly acc acc := fun _ => .inl rfl

theorem LedgerOnly.trans (h : LedgerOnly acc acc') (h' : LedgerOnly acc' acc'') :
    LedgerOnly acc acc'' := by
  intro k
  rcases h k with heq | ⟨hold, hnew⟩
  · rw [← heq]
    exact h' k
  · rcases h' k with heq' | ⟨-, hnew'⟩
    · exact .inr ⟨hold, by rwa [heq']⟩
    · exact .inr ⟨hold, hnew'⟩

variable {k : Address} {a : Account}

theorem LedgerOnly.update (hold : (acc k).isLedger = true) (hnew : a.isLedger = true) :
    LedgerOnly acc (update acc k a) := by
  intro x
  by_cases hx : x = k
  · subst hx
    exact .inr ⟨hold, by rwa [update_self]⟩
  · exact .inl (update_of_ne hx ..)

theorem LedgerOnly.update_update {k' : Address} {a' : Account} (hk : (acc k).isLedger = true)
    (ha : a.isLedger = true) (hk' : (acc k').isLedger = true) (ha' : a'.isLedger = true) :
    LedgerOnly acc (Function.update (Function.update acc k a) k' a') := by
  refine (LedgerOnly.update hk ha).trans (.update ?_ ha')
  by_cases heq : k' = k
  · rwa [heq, update_self]
  · rwa [update_of_ne heq]

variable {source destination authority : Address} {amount : ℕ}

variable (h : Transferred acc acc' source destination authority amount)
include h

theorem Transferred.kept : LedgerOnly acc acc' := by
  obtain ⟨_, _, _, hsource, hdestination, -, -, rfl⟩ := h
  split
  · exact .refl acc
  · exact .update_update (by rw [hsource]; rfl) rfl (by rw [hdestination]; rfl) rfl

theorem Transferred.eq_of_after (hk : acc' k = a) (ha : a.token? = none) : acc k = a := by
  obtain ⟨_, _, _, -, -, -, -, rfl⟩ := h
  have hne : ∀ x, .token x ≠ a := by
    rintro x rfl
    cases ha
  split at hk
  · exact hk
  · exact eq_of_update (eq_of_update hk (hne _)) (hne _)

omit h

theorem TokenStep.kept (h : TokenStep acc acc') : LedgerOnly acc acc' := by
  cases h with
  | initializeMint hk | initializeAccount hk | account hk | frozen hk | mint hk
  | closeAccount hk =>
    exact .update (by rw [hk]; rfl) rfl
  | transfer _ h => exact h.kept
  | mintTo hk hmint | burn _ hk hmint =>
    exact .update_update (by rw [hmint]; rfl) rfl (by rw [hk]; rfl) rfl

theorem LedgerOnly.eq_of_before (h : LedgerOnly acc acc') (hk : acc k = a) (ha : a.isLedger = false)
    : acc' k = a := by
  rcases h k with heq | ⟨hold, -⟩
  · rw [heq, hk]
  · rw [hk, ha] at hold
    cases hold

end Ledger

section Records

variable {F : Prop} {c : Context} {acc acc' : Address → Account}

/-! ## Changes of one account -/

inductive Change (F : Prop) (c : Context) (acc acc' : Address → Account) :
    Address → Account → Account → Prop
  | edit {k : Address} {a a' : Account} (h : Edit F c acc k a a') : Change F c acc acc' k a a'
  | create {k : Address} {a : Account} (h : Created c acc k a) : Change F c acc acc' k .empty a
  | dispose {k : Address} {a : Account} (h : Disposed acc a) : Change F c acc acc' k a .zeroed
  | castProposal {P T : Address} {p p' : ProposalV2} {t t' : TokenOwnerRecordV2}
      {v : VoteRecordV2} {g : GovernanceV2} {r : RealmV2} (h : CastVote c acc P T p p' t t' v g r) :
      Change F c acc acc' P (.proposal p) (.proposal p')
  | castRecord {P T : Address} {p p' : ProposalV2} {t t' : TokenOwnerRecordV2}
      {v : VoteRecordV2} {g : GovernanceV2} {r : RealmV2} (h : CastVote c acc P T p p' t t' v g r) :
      Change F c acc acc' T (.tokenOwnerRecord t) (.tokenOwnerRecord t')
  | castVote {P T : Address} {p p' : ProposalV2} {t t' : TokenOwnerRecordV2}
      {v : VoteRecordV2} {g : GovernanceV2} {r : RealmV2} (h : CastVote c acc P T p p' t t' v g r)
      (hrecord : acc' T = .tokenOwnerRecord t') :
      Change F c acc acc' (getVoteRecordAddress P T) .empty (.voteRecord v)
  | withdrawProposal {P T : Address} {p p' : ProposalV2} {t t' : TokenOwnerRecordV2}
      {v : VoteRecordV2} (h : WithdrawVote acc P T p p' t t' v) :
      Change F c acc acc' P (.proposal p) (.proposal p')
  | withdrawRecord {P T : Address} {p p' : ProposalV2} {t t' : TokenOwnerRecordV2}
      {v : VoteRecordV2} (h : WithdrawVote acc P T p p' t t' v) :
      Change F c acc acc' T (.tokenOwnerRecord t) (.tokenOwnerRecord t')
  | withdrawVote {P T : Address} {p p' : ProposalV2} {t t' : TokenOwnerRecordV2}
      {v : VoteRecordV2} (h : WithdrawVote acc P T p p' t t' v) :
      Change F c acc acc' (getVoteRecordAddress P T) (.voteRecord v) .zeroed
  | releaseRecord {P T : Address} {p : ProposalV2} {t t' : TokenOwnerRecordV2}
      {v : VoteRecordV2} (h : ReleaseVote c acc P T p t t' v) :
      Change F c acc acc' T (.tokenOwnerRecord t) (.tokenOwnerRecord t')
  | releaseVote {P T : Address} {p : ProposalV2} {t t' : TokenOwnerRecordV2}
      {v : VoteRecordV2} (h : ReleaseVote c acc P T p t t' v) (hproposal : acc' P = .proposal p) :
      Change F c acc acc' (getVoteRecordAddress P T) (.voteRecord v)
        (.voteRecord { v with isRelinquished := true })
  | depositNew {acc₁ : Address → Account} {realm mint owner : Address} {amount : ℕ}
      (h : Deposit acc acc₁ realm mint owner (.new realm mint owner amount) amount) :
      Change F c acc acc' (getTokenOwnerRecordAddress realm mint owner) .empty
        (.tokenOwnerRecord (.new realm mint owner amount))
  | depositMore {acc₁ : Address → Account} {realm mint owner : Address} {t : TokenOwnerRecordV2}
      {amount : ℕ} (h : Deposit acc acc₁ realm mint owner
        { t with governingTokenDepositAmount := t.governingTokenDepositAmount + amount } amount) :
      Change F c acc acc' (getTokenOwnerRecordAddress realm mint owner) (.tokenOwnerRecord t)
        (.tokenOwnerRecord
          { t with governingTokenDepositAmount := t.governingTokenDepositAmount + amount })
  | withdrawal {acc₁ : Address → Account} {realm mint owner : Address} {t : TokenOwnerRecordV2}
      (h : Withdrawal acc acc₁ realm mint owner t) :
      Change F c acc acc' (getTokenOwnerRecordAddress realm mint owner) (.tokenOwnerRecord t)
        (.tokenOwnerRecord { t with governingTokenDepositAmount := 0 })
  | ledger {k : Address} {a a' : Account} (hold : a.isLedger = true) (hnew : a'.isLedger = true) :
      Change F c acc acc' k a a'

variable {k T : Address} {a : Account} {p : ProposalV2}

theorem change_of_update {x : Address} {b : Account} (hx : acc x = a)
    (h : Change F c acc acc' x a b) :
    update acc x b k = acc k ∨ Change F c acc acc' k (acc k) (update acc x b k) := by
  by_cases hk : k = x
  · subst hk
    rw [update_self, hx]
    exact .inr h
  · exact .inl (update_of_ne hk ..)

theorem LedgerOnly.change {acc₁ : Address → Account} (h : LedgerOnly acc acc₁) (k : Address) :
    acc₁ k = acc k ∨ Change F c acc acc' k (acc k) (acc₁ k) :=
  (h k).imp_right fun ⟨hold, hnew⟩ => .ledger hold hnew

variable (h : Effect F c acc acc')
include h

theorem Effect.change (k : Address) : acc' k = acc k ∨ Change F c acc acc' k (acc k) (acc' k) := by
  cases h with
  | edit hx h => exact change_of_update hx (.edit h)
  | create hx h => exact change_of_update hx (.create h)
  | dispose hx h => exact change_of_update hx (.dispose h)
  | @castVote P T _ p' _ _ v _ _ h =>
    obtain ⟨hP, hV⟩ := h.places
    have hrecord := update_eq_of_ne (x := .voteRecord v)
      (update_eq_of_ne (x := .proposal p') (update_self ..) hP) hV
    by_cases hV : k = getVoteRecordAddress P T
    · subst hV
      rw [update_self, h.fresh]
      exact .inr (.castVote h hrecord)
    rw [update_of_ne hV]
    by_cases hP : k = P
    · subst hP
      rw [update_self, h.proposal]
      exact .inr (.castProposal h)
    rw [update_of_ne hP]
    exact change_of_update h.record (.castRecord h)
  | @withdrawVote P T _ _ _ _ _ h =>
    by_cases hT : k = T
    · subst hT
      rw [update_self, h.record]
      exact .inr (.withdrawRecord h)
    rw [update_of_ne hT]
    by_cases hV : k = getVoteRecordAddress P T
    · subst hV
      rw [update_self, h.vote]
      exact .inr (.withdrawVote h)
    rw [update_of_ne hV]
    exact change_of_update h.proposal (.withdrawProposal h)
  | @releaseVote _ T _ _ t' v h =>
    let released : Account := .voteRecord { v with isRelinquished := true }
    have hrecord := update_eq_of_ne (x := released) h.record h.vote
    have hproposal := update_eq_of_ne (x := .tokenOwnerRecord t')
      (update_eq_of_ne (x := released) h.proposal h.vote) hrecord
    by_cases hT : k = T
    · subst hT
      rw [update_self, h.record]
      exact .inr (.releaseRecord h)
    rw [update_of_ne hT]
    exact change_of_update h.vote (.releaseVote h hproposal)
  | @deposit _ realm mint owner _ _ h =>
    obtain ⟨_, _, -, htransfer⟩ := h.transferred
    by_cases hk : k = getTokenOwnerRecordAddress realm mint owner
    · subst hk
      rw [update_self]
      rcases h.record with ⟨hempty, rfl⟩ | ⟨t, ht, rfl⟩
      · rw [htransfer.eq_of_after hempty rfl]
        exact .inr (.depositNew h)
      · rw [htransfer.eq_of_after ht rfl]
        exact .inr (.depositMore h)
    · rw [update_of_ne hk]
      exact htransfer.kept.change k
  | @withdraw _ realm mint owner _ h =>
    obtain ⟨_, htransfer⟩ := h.transferred
    by_cases hk : k = getTokenOwnerRecordAddress realm mint owner
    · subst hk
      rw [update_self, h.record]
      exact .inr (.withdrawal h)
    · rw [update_of_ne hk]
      exact htransfer.kept.change k
  | token h => exact h.kept.change k

/-- Forwards: an account with the given content either stays or changes. -/
theorem Effect.change_from (hk : acc k = a) : acc' k = a ∨ Change F c acc acc' k a (acc' k) := by
  subst hk
  exact h.change k

/-- Backwards: an account with the given content either was there or came by a change. -/
theorem Effect.change_to (hk : acc' k = a) : acc k = a ∨ Change F c acc acc' k (acc k) a := by
  subst hk
  exact (h.change k).imp_left .symm

omit h

/-! ## Proposals -/

/-- How an effect changes a proposal. -/
inductive ProposalStep (F : Prop) (c : Context) (acc : Address → Account) (P : Address)
    (p : ProposalV2) : ProposalV2 → Prop
  | same : ProposalStep F c acc P p p
  | edit {p' : ProposalV2} (h : Edit F c acc P (.proposal p) (.proposal p')) :
      ProposalStep F c acc P p p'
  | castVote {p' : ProposalV2} {T : Address} {t t' : TokenOwnerRecordV2} {v : VoteRecordV2}
      {g : GovernanceV2} {r : RealmV2} (h : CastVote c acc P T p p' t t' v g r) :
      ProposalStep F c acc P p p'
  | withdrawVote {p' : ProposalV2} {T : Address} {t t' : TokenOwnerRecordV2} {v : VoteRecordV2}
      (h : WithdrawVote acc P T p p' t t' v) : ProposalStep F c acc P p p'

theorem Edit.of_proposal (h : Edit F c acc k (.proposal p) a) : ∃ p', a = .proposal p' := by
  cases h <;> exact ⟨_, rfl⟩

theorem Effect.proposal (h : Effect F c acc acc') {P : Address} (hP : acc P = .proposal p) :
    ∃ p', acc' P = .proposal p' ∧ ProposalStep F c acc P p p' := by
  rcases h.change_from hP with heq | hchange
  · exact ⟨p, heq, .same⟩
  · generalize acc' P = a at hchange ⊢
    cases hchange with
    | edit h =>
      obtain ⟨p', rfl⟩ := h.of_proposal
      exact ⟨p', rfl, .edit h⟩
    | dispose h => cases h
    | castProposal h => exact ⟨_, rfl, .castVote h⟩
    | withdrawProposal h => exact ⟨_, rfl, .withdrawVote h⟩
    | ledger hold => cases hold

/-! ## Transactions -/

/-- How an effect changes a transaction. -/
def TransactionStep (t t' : ProposalTransactionV2) : Prop :=
  SameContents t t' ∧ t'.executedAt = t.executedAt

variable (h : Effect F c acc acc')
include h

theorem Effect.transaction {t : ProposalTransactionV2} (hT : acc T = .transaction t)
    (hp : acc t.proposal = .proposal p) (hstarted : ¬ p.Pending) :
    ∃ t', acc' T = .transaction t' ∧ TransactionStep t t' := by
  rcases h.change_from hT with heq | hchange
  · exact ⟨t, heq, .refl t, rfl⟩
  · generalize acc' T = a at hchange ⊢
    cases hchange with
    | edit h =>
      cases h with
      | transaction h hexecuted => exact ⟨_, rfl, h, hexecuted⟩
    | dispose h =>
      cases h with
      | transaction hproposal hstate =>
        rw [hp] at hproposal
        cases hproposal
        exact absurd (.inl hstate) hstarted
    | ledger hold => cases hold

/-! ## Realms and governances -/

theorem Effect.realm_of {r' : RealmV2} (hk : acc' k = .realm r') :
    (∃ r, acc k = .realm r ∧ (r'.config = r.config ∨ F)) ∨ acc k = .empty := by
  rcases h.change_to hk with heq | hchange
  · exact .inl ⟨r', heq, .inl rfl⟩
  · generalize acc k = a at hchange ⊢
    cases hchange with
    | edit h =>
      cases h with
      | realm _ _ hconfig => exact .inl ⟨_, rfl, hconfig.imp_right And.left⟩
    | create => exact .inr rfl
    | ledger _ hnew => cases hnew

theorem Effect.governance_of {g' : GovernanceV2} (hk : acc' k = .governance g') :
    (∃ g, acc k = .governance g ∧ (g'.config = g.config ∨ F)) ∨ acc k = .empty := by
  rcases h.change_to hk with heq | hchange
  · exact .inl ⟨g', heq, .inl rfl⟩
  · generalize acc k = a at hchange ⊢
    cases hchange with
    | edit h =>
      cases h with
      | governance _ _ _ hconfig =>
        exact .inl ⟨_, rfl, hconfig.imp_right And.left⟩
    | create => exact .inr rfl
    | ledger _ hnew => cases hnew

omit h

/-! ## Token owner records -/

structure RecordStep (t t' : TokenOwnerRecordV2) : Prop where
  realm : t'.realm = t.realm
  deposit : t.governingTokenDepositAmount ≤ t'.governingTokenDepositAmount ∨
    t.unrelinquishedVotesCount = 0

theorem SameDeposit.step {t t' : TokenOwnerRecordV2} (h : SameDeposit t t') : RecordStep t t' :=
  ⟨h.realm, .inl (Nat.le_of_eq h.deposit.symm)⟩

theorem Effect.tokenOwnerRecord_of (h : Effect F c acc acc') {t' : TokenOwnerRecordV2}
    (hT : acc' T = .tokenOwnerRecord t') :
    (∃ t, acc T = .tokenOwnerRecord t ∧ RecordStep t t') ∨ acc T = .empty := by
  rcases h.change_to hT with heq | hchange
  · exact .inl ⟨t', heq, (SameDeposit.refl t').step⟩
  · generalize acc T = a at hchange ⊢
    cases hchange with
    | edit h =>
      cases h with
      | tokenOwnerRecord h => exact .inl ⟨_, rfl, h.step⟩
    | create | depositNew => exact .inr rfl
    | castRecord h | withdrawRecord h | releaseRecord h => exact .inl ⟨_, rfl, h.same.step⟩
    | depositMore => exact .inl ⟨_, rfl, rfl, .inl (Nat.le_add_right _ _)⟩
    | withdrawal h => exact .inl ⟨_, rfl, rfl, .inr h.votes⟩
    | ledger _ hnew => cases hnew

/-! ## Vote records -/

theorem Effect.voteRecord_of (h : Effect F c acc acc') {v' : VoteRecordV2}
    (hk : acc' k = .voteRecord v') :
    acc k = .voteRecord v' ∨
      (∃ P T p p' t t' g r, k = getVoteRecordAddress P T ∧ CastVote c acc P T p p' t t' v' g r ∧
        acc' T = .tokenOwnerRecord t') ∨
      ∃ P T p t t' v, ReleaseVote c acc P T p t t' v ∧ v' = { v with isRelinquished := true } ∧
        acc' P = .proposal p := by
  rcases h.change_to hk with heq | hchange
  · exact .inl heq
  · generalize acc k = a at hchange ⊢
    cases hchange with
    | edit h => cases h
    | create h => cases h
    | castVote h hrecord => exact .inr (.inl ⟨_, _, _, _, _, _, _, _, rfl, h, hrecord⟩)
    | releaseVote h hproposal => exact .inr (.inr ⟨_, _, _, _, _, _, h, rfl, hproposal⟩)
    | ledger _ hnew => cases hnew

def VotesKept (acc acc' : Address → Account) : Prop :=
  ∀ k, (acc' k).voteRecord? = (acc k).voteRecord?

theorem VotesKept.update (h : a.voteRecord? = (acc k).voteRecord?) :
    VotesKept acc (update acc k a) := by
  intro x
  by_cases hx : x = k
  · subst hx
    rw [update_self, h]
  · rw [update_of_ne hx]

theorem LedgerOnly.votesKept (h : LedgerOnly acc acc') : VotesKept acc acc' := by
  intro k
  rcases h k with heq | ⟨hold, hnew⟩
  · rw [heq]
  · cases hk : acc k <;> cases hk' : acc' k <;> simp_all [Account.isLedger, Account.voteRecord?]

end Records

end SolanaPrograms.Governance
