import SolanaPrograms.Governance.Tallies

/-!
# Custody of deposits

The token program keeps the supply of a mint equal to the tokens that are held (`Backed`). A holding
account of a realm has at least the deposits booked for it (`Covered`), since nobody but the program
can take tokens out of it. While a vote counts, the deposit behind it cannot be withdrawn, so in a
realm without voter-weight add-ins the votes on an open proposal never weigh more than the supply.
-/

namespace SolanaPrograms.Governance

open Outcome Weight Nat Int ProposalV2
open Function (update update_of_ne update_self)

/-! ## Tokens and supply -/

theorem Account.token?_empty : Account.empty.token? = none := rfl

def tokenWeight (f : Address → TokenAccount → ℕ) : Weight Address Account .empty :=
  .view Account.token? Account.token?_empty f

def held (M : Address) : Weight Address Account .empty :=
  tokenWeight fun _ a => if a.mint = M then a.amount else 0

def Backed (acc : Address → Account) : Prop :=
  ∀ M m, acc M = .mint m → (held M).total acc = m.supply

section Tokens

variable {acc acc' : Address → Account} {k M : Address} {a a' : TokenAccount}
  {x : Account}

theorem held_token : (held M).of k (.token a) = if a.mint = M then a.amount else 0 := rfl

theorem held_of_none (h : x.token? = none) : (held M).of k x = 0 := by
  unfold held tokenWeight
  exact view_none h

theorem held_update (hs : Sparse .empty acc) (hk : acc k = .token a) (hmint : a'.mint = a.mint) :
    (held M).total (update acc k (.token a')) + (if a.mint = M then a.amount else 0) =
      (held M).total acc + if a.mint = M then a'.amount else 0 := by
  have h := (held M).total_update hs k (.token a')
  rwa [hk, held_token, held_token, hmint] at h

theorem held_write (hold : (acc k).token? = none) (hnew : x.token? = none) :
    (held M).total (update acc k x) = (held M).total acc := by
  refine total_update_of_eq _ ?_
  rw [held_of_none hold, held_of_none hnew]

theorem held_create (hold : (acc k).token? = none) (hamount : a.amount = 0) :
    (held M).total (update acc k (.token a)) = (held M).total acc := by
  refine total_update_of_eq _ ?_
  rw [held_of_none hold, held_token, hamount, ite_self]

theorem Transferred.held {source destination authority : Address} {amount : ℕ}
    (h : Transferred acc acc' source destination authority amount) (hs : Sparse .empty acc) :
    (held M).total acc' = (held M).total acc := by
  obtain ⟨_, b, a', hsource, hdestination, hmint, hdebit, rfl⟩ := h
  obtain ⟨_, _, hmint', -⟩ := debit_ok hdebit
  split
  next => rfl
  next hne =>
    have hkeep : update acc source (.token a') destination = .token b := by
      rw [update_of_ne (.symm hne), hdestination]
    have hdebited := held_update (M := M) hs hsource hmint'
    have hcredited := held_update (M := M) (hs.update source (.token a')) hkeep
      (show { b with amount := b.amount + amount }.mint = b.mint from rfl)
    split at hdebited
    · simp_all
      omega
    · simp_all

theorem held_of_no_mint (hplaced : Placed acc) (hM : acc M = .empty) : (held M).total acc = 0 := by
  refine total_eq_zero _ fun k => ?_
  cases hk : acc k with
  | token =>
    have ha := hplaced.of_eq hk
    obtain ⟨⟨_, hm⟩, -⟩ := ha
    refine if_neg ?_
    rintro rfl
    rw [hM] at hm
    cases hm
  | _ => exact held_of_none rfl

variable (h : Backed acc)
include h

theorem Backed.of_held (hheld : ∀ M, (Governance.held M).total acc' =
    (Governance.held M).total acc) (hmints : ∀ M m, acc' M = .mint m → acc M = .mint m) :
    Backed acc' := fun M m hM => (hheld M).trans (h M m (hmints M m hM))

theorem Backed.write {x y : Account} (hk : acc k = x) (hold : x.token? = none)
    (hnew : y.token? = none) (hmint : y.mint? = none) : Backed (update acc k y) := by
  subst hk
  refine h.of_held (fun M => held_write hold hnew) fun M m hM => eq_of_update hM ?_
  rintro rfl
  cases hmint

theorem Backed.mint {m : Mint} (hk : acc k = x)
    (hx : x.token? = none) (hsupply : (held k).total acc = m.supply) :
    Backed (update acc k (.mint m)) := by
  intro M m' hM
  rw [held_write (by rw [hk, hx]) rfl]
  by_cases heq : M = k
  · subst heq
    rw [update_self] at hM
    cases hM
    exact hsupply
  · rw [update_of_ne heq] at hM
    exact h M m' hM

theorem Backed.issue {m m' : Mint} (hs : Sparse .empty acc)
    (hk : acc k = .token a) (hm : acc a.mint = .mint m) (hmint : a'.mint = a.mint)
    (hsum : a'.amount + m.supply = a.amount + m'.supply) :
    Backed (update (update acc a.mint (.mint m')) k (.token a')) := by
  intro M m'' hM
  have hkeep := update_eq_of_ne (x := .mint m') hk hm
  have hheld := held_update (M := M) (hs.update _ _) hkeep hmint
  rw [held_write (k := a.mint) (by rw [hm]; rfl) rfl] at hheld
  have hM₁ := eq_of_update hM nofun
  by_cases heq : M = a.mint
  · subst heq
    rw [update_self] at hM₁
    cases hM₁
    have hbefore := h a.mint m hm
    simp only [if_true] at hheld
    omega
  · rw [update_of_ne heq] at hM₁
    have hbefore := h M m'' hM₁
    rw [if_neg (Ne.symm heq), if_neg (Ne.symm heq)] at hheld
    omega

omit h

theorem TokenStep.backed (h : TokenStep acc acc') (hplaced : Placed acc) (hs : Sparse .empty acc)
    (hbacked : Backed acc) : Backed acc' := by
  cases h with
  | initializeMint hk _ hsupply =>
    exact hbacked.mint hk rfl (by rw [hsupply, held_of_no_mint hplaced hk])
  | @initializeAccount _ _ _ hk _ _ hamount =>
    refine hbacked.of_held (fun M => held_create (by rw [hk]; rfl) hamount) fun M m' hM => ?_
    exact eq_of_update hM nofun
  | transfer _ h =>
    exact hbacked.of_held (fun M => h.held hs) fun M m' hM => h.eq_of_after hM rfl
  | mintTo hk hmint => exact hbacked.issue hs hk hmint rfl (by dsimp only; omega)
  | burn _ hk hmint hdebit hsupply =>
    obtain ⟨hle, hamount, hmint', -⟩ := debit_ok hdebit
    exact hbacked.issue hs hk hmint hmint' (by dsimp only; omega)
  | @account _ _ _ hk _ hmint hamount =>
    refine hbacked.of_held (fun M => ?_) fun M m' hM => eq_of_update hM nofun
    have hheld := held_update (M := M) hs hk hmint
    rw [hamount] at hheld
    exact add_right_cancel hheld
  | @frozen _ a hk frozen =>
    refine hbacked.of_held (fun M => ?_) fun M m' hM => eq_of_update hM nofun
    have hheld := held_update (M := M) hs hk (show { a with frozen }.mint = a.mint from rfl)
    exact add_right_cancel hheld
  | mint hk hsupply => exact hbacked.mint hk rfl (by rw [hsupply, hbacked _ _ hk])
  | @closeAccount _ _ hk _ hamount =>
    refine hbacked.of_held (fun M => ?_) fun M m' hM => eq_of_update hM nofun
    refine total_update_of_eq _ ?_
    rw [hk, held_token, held_of_none rfl, hamount, ite_self]

end Tokens

/-! ## Deposits -/

theorem Account.tokenOwnerRecord?_empty : Account.empty.tokenOwnerRecord? = none := rfl

def deposited (R M : Address) : Weight Address Account .empty :=
  .view Account.tokenOwnerRecord? Account.tokenOwnerRecord?_empty fun _ t =>
    if t.realm = R ∧ t.governingTokenMint = M then t.governingTokenDepositAmount else 0

def Account.balance : Account → ℕ
  | token a => a.amount
  | _ => 0

def Covered (acc : Address → Account) : Prop :=
  ∀ R M, (deposited R M).total acc ≤ (acc (getGoverningTokenHoldingAddress R M)).balance

section Deposits

variable {F : Prop} {c : Context} {acc acc' acc₁ : Address → Account} {k P T R M : Address}
  {a x : Account} {t t' : TokenOwnerRecordV2} {p p' : ProposalV2} {v : VoteRecordV2}

theorem deposited_record : (deposited R M).of k (.tokenOwnerRecord t) =
    if t.realm = R ∧ t.governingTokenMint = M then t.governingTokenDepositAmount else 0 := rfl

theorem deposited_of_none (h : x.tokenOwnerRecord? = none) : (deposited R M).of k x = 0 := by
  exact view_none h

theorem SameDeposit.deposited (h : SameDeposit t t') : (deposited R M).of k (.tokenOwnerRecord t') =
    (Governance.deposited R M).of k (.tokenOwnerRecord t) := by
  rw [deposited_record, deposited_record, h.realm, h.mint, h.deposit]

def HoldingsKept (acc acc' : Address → Account) : Prop :=
  ∀ R M, (acc (getGoverningTokenHoldingAddress R M)).balance ≤
    (acc' (getGoverningTokenHoldingAddress R M)).balance

theorem Covered.of_kept (h : Covered acc) (hholdings : HoldingsKept acc acc')
    (hdeposits : ∀ R M, (deposited R M).total acc' = (deposited R M).total acc) : Covered acc' :=
  fun R M => le_trans (le_of_eq (hdeposits R M)) (le_trans (h R M) (hholdings R M))

theorem Covered.write (h : Covered acc) (hk : acc k = a)
    (hdeposits : ∀ R M, (deposited R M).of k x = (deposited R M).of k a)
    (hbalance : a.balance ≤ x.balance) : Covered (update acc k x) := by
  subst hk
  refine h.of_kept (fun R M => ?_) fun R M => total_update_of_eq _ (hdeposits R M)
  by_cases hkey : getGoverningTokenHoldingAddress R M = k
  · rw [hkey, update_self]
    exact hbalance
  · rw [update_of_ne hkey]

variable {amount : ℕ} {realm mint owner : Address}

variable {source destination authority : Address}

variable (h : Transferred acc acc' source destination authority amount)
include h

theorem Transferred.balance :
    (∀ k, k ≠ source → (acc k).balance ≤ (acc' k).balance) ∧
      (acc source).balance ≤ (acc' source).balance + amount ∧
      (source ≠ destination → (acc' destination).balance = (acc destination).balance + amount) := by
  obtain ⟨_, _, _, hsource, hdestination, -, hdebit, rfl⟩ := h
  obtain ⟨_, _, -, -⟩ := debit_ok hdebit
  split
  next heq => exact ⟨fun _ _ => le_refl _, le_add_right _ _, fun hne => absurd heq hne⟩
  next hne =>
    refine ⟨fun k hk => ?_, ?_, fun _ => ?_⟩
    · by_cases hkd : k = destination
      · subst hkd
        rw [update_self, hdestination]
        exact le_add_right _ _
      · rw [update_of_ne hkd, update_of_ne hk]
    · rw [update_of_ne hne, update_self, hsource]
      simp only [Account.balance]
      omega
    · rw [update_self, hdestination]
      rfl

/-- Nobody who can sign debits a holding account. -/
theorem Transferred.not_holding (hplaced : Placed acc) (hsign : authority.canSign = true) :
    getGoverningTokenHoldingAddress R M ≠ source := by
  rintro rfl
  obtain ⟨_, _, _, hsource, -, -, hdebit, -⟩ := h
  have hat := hplaced.of_eq hsource
  exact (debit_ok hdebit).2.2.2 hsign (hat.2 R M rfl).1

omit h

theorem Placed.guarded {b : TokenAccount} (hplaced : Placed acc)
    (hk : acc (getGoverningTokenHoldingAddress R M) = .token b) : b.Guarded := by
  have hat := hplaced.of_eq hk
  exact (hat.2 R M rfl).1

theorem HoldingsKept.write (h : ∀ R M, k = getGoverningTokenHoldingAddress R M →
    (acc k).balance ≤ x.balance) : HoldingsKept acc (update acc k x) := by
  intro R M
  by_cases hkey : getGoverningTokenHoldingAddress R M = k
  · have hle := h R M hkey.symm
    rw [hkey, update_self]
    exact hle
  · rw [update_of_ne hkey]

theorem HoldingsKept.trans {acc'' : Address → Account} (h : HoldingsKept acc acc')
    (h' : HoldingsKept acc' acc'') : HoldingsKept acc acc'' :=
  fun R M => le_trans (h R M) (h' R M)

theorem TokenStep.holdings (h : TokenStep acc acc') (hplaced : Placed acc) :
    HoldingsKept acc acc' := by
  cases h with
  | initializeMint hk | initializeAccount hk =>
    exact .write fun _ _ _ => by rw [hk]; exact zero_le _
  | transfer hsign h => exact fun R M => h.balance.1 _ (h.not_holding hplaced hsign)
  | @mintTo _ _ m amount hk hmint =>
    have hkeep := update_eq_of_ne (x := .mint { m with supply := m.supply + amount }) hk hmint
    refine (HoldingsKept.write fun _ _ _ => ?_).trans (.write fun _ _ _ => ?_)
    · rw [hmint]
      exact zero_le _
    · rw [hkeep]
      exact le_add_right _ _
  | @burn _ _ _ _ _ _ hsign hk hmint hdebit =>
    refine (HoldingsKept.write fun _ _ _ => ?_).trans (.write fun R M hkey => ?_)
    · rw [hmint]
      exact zero_le _
    · exact absurd (hplaced.guarded (hkey ▸ hk)) ((debit_ok hdebit).2.2.2 hsign)
  | account hk hfree | closeAccount hk hfree =>
    exact .write fun R M hkey => absurd (hplaced.guarded (hkey ▸ hk)) hfree
  | frozen hk => exact .write fun _ _ _ => by rw [hk]; exact le_refl _
  | mint hk => exact .write fun _ _ _ => by rw [hk]; exact zero_le _

theorem LedgerOnly.deposited (h : LedgerOnly acc acc') :
    (deposited R M).total acc' = (Governance.deposited R M).total acc := by
  refine total_congr _ _ fun k => ?_
  rcases h k with heq | ⟨hold, hnew⟩
  · rw [heq]
  · have hnone : ∀ a : Account, a.isLedger = true → a.tokenOwnerRecord? = none := by
      intro a ha
      cases a <;> simp_all [Account.isLedger, Account.tokenOwnerRecord?]
    rw [deposited_of_none (hnone _ hold), deposited_of_none (hnone _ hnew)]

theorem Placed.record_seeds (hplaced : Placed acc)
    (hk : acc (getTokenOwnerRecordAddress realm mint owner) = .tokenOwnerRecord t) :
    t.realm = realm ∧ t.governingTokenMint = mint := by
  have hat := hplaced.of_eq hk
  have haddress := hat.1
  simp only [getTokenOwnerRecordAddress, Address.triple.injEq] at haddress
  exact ⟨haddress.1.symm, haddress.2.1.symm⟩

theorem holding_ne_record :
    getGoverningTokenHoldingAddress R M ≠ getTokenOwnerRecordAddress realm mint owner := by
  intro h
  cases h

theorem deposited_rebook (hplaced : Placed acc) (hs : Sparse .empty acc)
    (hk : acc (getTokenOwnerRecordAddress realm mint owner) = .tokenOwnerRecord t) (amount : ℕ) :
    (deposited R M).total (update acc (getTokenOwnerRecordAddress realm mint owner)
      (.tokenOwnerRecord { t with governingTokenDepositAmount := amount })) +
      (if realm = R ∧ mint = M then t.governingTokenDepositAmount else 0) =
    (deposited R M).total acc + if realm = R ∧ mint = M then amount else 0 := by
  have htotal := (deposited R M).total_update hs (getTokenOwnerRecordAddress realm mint owner)
    (.tokenOwnerRecord { t with governingTokenDepositAmount := amount })
  obtain ⟨hrealm, hmint⟩ := hplaced.record_seeds hk
  simp only [hk, deposited_record] at htotal
  simpa only [hrealm, hmint] using htotal

theorem Deposit.total (h : Deposit acc acc₁ realm mint owner t' amount) (hplaced : Placed acc₁)
    (hs : Sparse .empty acc₁) :
    (deposited R M).total (update acc₁ (getTokenOwnerRecordAddress realm mint owner)
      (.tokenOwnerRecord t')) =
      (deposited R M).total acc₁ + if realm = R ∧ mint = M then amount else 0 := by
  rcases h.record with ⟨hempty, rfl⟩ | ⟨t, ht, rfl⟩
  · have htotal := (deposited R M).total_update hs (getTokenOwnerRecordAddress realm mint owner)
      (.tokenOwnerRecord (.new realm mint owner amount))
    rwa [hempty, deposited_of_none rfl, deposited_record] at htotal
  · have htotal := deposited_rebook (R := R) (M := M) hplaced hs ht
      (t.governingTokenDepositAmount + amount)
    split at htotal
    next heq =>
      rw [if_pos heq]
      omega
    next hne =>
      rw [if_neg hne]
      exact htotal

theorem Deposit.covered (h : Deposit acc acc₁ realm mint owner t' amount) (hplaced : Placed acc)
    (hs : Sparse .empty acc) (hcovered : Covered acc) :
    Covered (update acc₁ (getTokenOwnerRecordAddress realm mint owner)
      (.tokenOwnerRecord t')) := by
  obtain ⟨_, _, hsign, htransfer⟩ := h.transferred
  obtain ⟨hothers, -, hcredit⟩ := htransfer.balance
  intro R M
  rw [h.total (htransfer.keeps.placed hplaced) (htransfer.sparse hs), htransfer.kept.deposited,
    update_of_ne holding_ne_record]
  have hbefore := hcovered R M
  split
  next heq =>
    obtain ⟨rfl, rfl⟩ := heq
    rw [hcredit (.symm (htransfer.not_holding hplaced hsign))]
    omega
  next => exact le_trans hbefore (hothers _ (htransfer.not_holding hplaced hsign))

theorem Withdrawal.covered (h : Withdrawal acc acc₁ realm mint owner t) (hplaced : Placed acc)
    (hs : Sparse .empty acc) (hcovered : Covered acc) :
    Covered (update acc₁ (getTokenOwnerRecordAddress realm mint owner)
      (.tokenOwnerRecord { t with governingTokenDepositAmount := 0 })) := by
  obtain ⟨_, htransfer⟩ := h.transferred
  obtain ⟨hothers, _, -⟩ := htransfer.balance
  intro R M
  have htotal := deposited_rebook (R := R) (M := M) (htransfer.keeps.placed hplaced)
    (htransfer.sparse hs) (htransfer.kept.eq_of_before h.record rfl) 0
  rw [htransfer.kept.deposited, ite_self] at htotal
  rw [update_of_ne holding_ne_record]
  have hbefore := hcovered R M
  by_cases heq : realm = R ∧ mint = M
  · obtain ⟨rfl, rfl⟩ := heq
    rw [if_pos ⟨rfl, rfl⟩] at htotal
    omega
  · rw [if_neg heq] at htotal
    have hne : getGoverningTokenHoldingAddress R M ≠ getGoverningTokenHoldingAddress realm mint := by
      intro hkey
      cases hkey
      exact heq ⟨rfl, rfl⟩
    have hle := hothers _ hne
    omega

theorem Edit.deposited (h : Edit F c acc k a x) :
    (deposited R M).of k x = (Governance.deposited R M).of k a := by
  cases h with
  | tokenOwnerRecord h => exact h.deposited
  | _ => rfl

theorem Created.deposited (h : Created c acc k a) : (deposited R M).of k a = 0 := by
  cases h with
  | tokenOwnerRecord => exact ite_self _
  | _ => exact deposited_of_none rfl

end Deposits

/-! ## Votes and time -/

/-- What is known of votes when configurations stay fixed. -/
structure Pledged (acc : Address → Account) (now : ℤ) : Prop where
  /-- A vote that was not relinquished has its deposit behind it. -/
  weight : ∀ V v T t r, acc V = .voteRecord v → V = getVoteRecordAddress v.proposal T →
    v.isRelinquished = false → acc T = .tokenOwnerRecord t → acc t.realm = .realm r →
    r.config.useCommunityVoterWeightAddin = false →
    v.voterWeight ≤ t.governingTokenDepositAmount
  /-- A vote that was relinquished and still counts cannot be followed by others. -/
  released : ∀ V v p g, acc V = .voteRecord v → v.isRelinquished = true →
    acc v.proposal = .proposal p → p.state = .voting → acc p.governance = .governance g →
    p.hasVoteTimeEnded g.config now = .ok true

section Votes

variable {c : Context} {acc acc' : Address → Account} {P T V : Address} {p p' : ProposalV2}
  {t t' : TokenOwnerRecordV2} {v : VoteRecordV2} {now : ℤ}

variable {config : GovernanceConfig}

theorem hasVoteTimeEnded_ok {b : Bool} :
    p.hasVoteTimeEnded config now = .ok b ↔ ∃ since, p.votingAt = some since ∧
      since + config.maxVotingTime < 2 ^ 63 ∧ decide (since + config.maxVotingTime < now) = b := by
  simp only [hasVoteTimeEnded, addSeconds, checks, Int.not_le, and_assoc, exists_and_left,
    exists_eq_left']

theorem hasVoteTimeEnded_mono {now' : ℤ} (hle : now ≤ now')
    (h : p.hasVoteTimeEnded config now = .ok true) : p.hasVoteTimeEnded config now' = .ok true := by
  rw [hasVoteTimeEnded_ok] at h ⊢
  obtain ⟨since, hsince, hrange, hended⟩ := h
  refine ⟨since, hsince, hrange, ?_⟩
  simp only [decide_eq_true_eq] at hended ⊢
  omega

theorem ProposalStep.votingAt {F : Prop} (h : ProposalStep F c acc P p p') (hstarted : ¬ p.Pending)
    (hvoting : p'.state = .voting) : p.state = .voting ∧ p'.votingAt = p.votingAt := by
  cases h with
  | same => exact ⟨hvoting, rfl⟩
  | edit h =>
    cases h with
    | draft _ hstate' => simp [hstate'] at hvoting
    | signOff hstate => exact absurd hstate hstarted
    | cancel _ hstate' => simp [hstate'] at hvoting
    | finalize _ _ _ _ _ h =>
      rcases (finalizeVote_ok h).state with ⟨hstate, -⟩ | hstate | ⟨hstate, -⟩ <;>
        simp [hstate] at hvoting
    | flag _ hstate' => simp [hstate'] at hvoting
  | castVote h =>
    obtain ⟨_, _, _, hq, -, htip⟩ := h.counted
    have hcounted := counted_of_weighVote h.valid hq
    rcases tryTipVote_ok htip with ⟨-, rfl⟩ | ⟨-, htipped⟩
    · exact ⟨h.state, by rw [hcounted.same]⟩
    · rcases htipped.state with hstate | hstate <;> simp [hstate] at hvoting
  | withdrawVote h =>
    have huncounted := uncounted_of_weighVote h.choices h.counted
    exact ⟨h.state, by rw [huncounted.same]⟩

variable (hplaced : Placed acc)
include hplaced

theorem Placed.voter (hV : acc V = .voteRecord v) (haddress : V = getVoteRecordAddress v.proposal T)
    : ∃ t, acc T = .tokenOwnerRecord t := by
  have hat := hplaced.of_eq hV
  obtain ⟨_, t, _, _, haddress', ht, -⟩ := hat.voter
  rw [haddress] at haddress'
  cases haddress'
  exact ⟨t, ht⟩

theorem Placed.voted (hV : acc V = .voteRecord v) :
    ∃ p g, acc v.proposal = .proposal p ∧ acc p.governance = .governance g ∧ ¬ p.Pending := by
  have hat := hplaced.of_eq hV
  obtain ⟨_, _, p, g, _, _, hp, hg, hstarted, -⟩ := hat.voter
  exact ⟨p, g, hp, hg, hstarted⟩

variable (h : Effect False c acc acc') {r' : RealmV2}
include h

theorem Effect.realm_before (hT : acc T = .tokenOwnerRecord t)
    (hr' : acc' t.realm = .realm r') : ∃ r, acc t.realm = .realm r ∧ r'.config = r.config := by
  rcases h.realm_of hr' with ⟨r, hr, hconfig⟩ | hempty
  · exact ⟨r, hr, hconfig.resolve_right id⟩
  · have hat := hplaced.of_eq hT
    obtain ⟨-, _, hr⟩ := hat
    rw [hempty] at hr
    cases hr

theorem Effect.weight (htallied : Tallied acc) (hpledged : Pledged acc now) {V T : Address}
    {v : VoteRecordV2} {t' : TokenOwnerRecordV2} (hV : acc V = .voteRecord v)
    (haddress : V = getVoteRecordAddress v.proposal T) (hkept : v.isRelinquished = false)
    (hT : acc' T = .tokenOwnerRecord t') (hr' : acc' t'.realm = .realm r')
    (haddin : r'.config.useCommunityVoterWeightAddin = false) :
    v.voterWeight ≤ t'.governingTokenDepositAmount := by
  obtain ⟨_, ht₀⟩ := hplaced.voter hV haddress
  rcases h.tokenOwnerRecord_of hT with ⟨t, ht, hstep⟩ | hempty
  · rw [hstep.realm] at hr'
    obtain ⟨r, hr, hconfig⟩ := h.realm_before hplaced ht hr'
    have hle := hpledged.weight V v T t r hV haddress hkept ht hr (hconfig ▸ haddin)
    rcases hstep.deposit with hdeposit | hnone
    · exact le_trans hle hdeposit
    · -- A withdrawal needs that no vote counts, but this one does.
      obtain ⟨_, -, hp, -⟩ := hplaced.voted hV
      have hpos := (htallied.covers hp ht (haddress ▸ hV) rfl).2.2.1 hkept
      omega
  · rw [hempty] at ht₀
    cases ht₀

omit hplaced

theorem Effect.governance_before {g₀ g' : GovernanceV2} {k : Address} (hg₀ : acc k = .governance g₀)
    (hg' : acc' k = .governance g') : g'.config = g₀.config := by
  rcases h.governance_of hg' with ⟨g, hg, hconfig⟩ | hempty
  · rw [hg₀] at hg
    cases hg
    exact hconfig.resolve_right id
  · rw [hempty] at hg₀
    cases hg₀

/-- **Step.** -/
theorem Effect.pledged (hplaced : Placed acc) (htallied : Tallied acc)
    (hpledged : Pledged acc c.unixTimestamp) : Pledged acc' c.unixTimestamp := by
  refine ⟨fun V v T t r hV haddress hkept hT hr haddin => ?_,
    fun V v p g hV hreleased hp hvoting hg => ?_⟩
  · rcases h.voteRecord_of hV with hold | ⟨P, T', p, p', t₀, t', g, r₀, rfl, hcast, hrecord⟩ |
      ⟨P, T', p, t₀, t', v₀, -, rfl, -⟩
    · exact h.weight hplaced htallied hpledged hold haddress hkept hT hr haddin
    · rw [hcast.ofProposal] at haddress
      cases haddress
      rw [hrecord] at hT
      cases hT
      rw [hcast.same.realm] at hr
      obtain ⟨_, hr₁, hconfig⟩ := h.realm_before hplaced hcast.record hr
      rw [hcast.recordRealm, hcast.realm] at hr₁
      cases hr₁
      rw [hcast.weight (hconfig ▸ haddin), hcast.same.deposit]
    · cases hkept
  · rcases h.voteRecord_of hV with hold | ⟨P, T', p₀, p', t₀, t', g₀, r₀, -, hcast, -⟩ |
      ⟨P, T', p₀, t₀, t', v₀, hrelease, rfl, hproposal⟩
    · obtain ⟨p₀, g₀, hp₀, hg₀, hstarted⟩ := hplaced.voted hold
      obtain ⟨_, hp₁, hstep⟩ := h.proposal hp₀
      rw [hp] at hp₁
      cases hp₁
      obtain ⟨hvoting₀, hsince⟩ := hstep.votingAt hstarted hvoting
      have hgovernance : p.governance = p₀.governance := by
        obtain ⟨_, hp₂, heq, -⟩ := h.keeps.persists.proposal hp₀
        rw [hp] at hp₂
        cases hp₂
        exact heq
      rw [hgovernance] at hg
      have hended := hpledged.released V v p₀ g₀ hold hreleased hp₀ hvoting₀ hg₀
      rw [hasVoteTimeEnded_ok] at hended ⊢
      rwa [hsince, h.governance_before hg₀ hg]
    · rw [hcast.kept] at hreleased
      cases hreleased
    · rw [show v₀.proposal = P from hrelease.ofProposal, hproposal] at hp
      cases hp
      obtain ⟨_, hg₀, _⟩ := hrelease.ended hvoting
      rwa [h.governance_before hg₀ hg]

end Votes

/-! ## Runs -/

section Secured

variable {F : Prop} {c : Context} {acc acc' : Address → Account} {k : Address} {a x : Account}

theorem Edit.token? (h : Edit F c acc k a x) :
    a.token? = none ∧ x.token? = none ∧ x.mint? = none := by
  cases h <;> exact ⟨rfl, rfl, rfl⟩

/-- A new account is no mint, and if it is a token account it is empty. -/
theorem Created.backed (h : Created c acc k a) (hk : acc k = .empty) (hbacked : Backed acc) :
    Backed (update acc k a) := by
  cases h with
  | holding =>
    refine hbacked.of_held (fun M => held_create (by rw [hk]; rfl) rfl) fun M m hM => ?_
    exact eq_of_update hM nofun
  | _ => exact hbacked.write hk rfl rfl rfl

/-- What is known of tokens. -/
structure Funded (acc : Address → Account) : Prop where
  backed : Backed acc
  covered : Covered acc

theorem Funded.write (h : Funded acc) (hk : acc k = a) (hold : a.token? = none)
    (hnew : x.token? = none) (hmint : x.mint? = none)
    (hdeposits : ∀ R M, (deposited R M).of k x = (deposited R M).of k a) :
    Funded (update acc k x) := by
  have hbalance : a.balance = 0 := by cases a <;> first | rfl | cases hold
  exact ⟨h.backed.write hk hold hnew hmint,
    h.covered.write hk hdeposits (hbalance ▸ zero_le _)⟩

/-- **Step.** Every effect keeps mints backed and deposits covered. -/
theorem Effect.funded (h : Effect F c acc acc') (hplaced : Placed acc) (hs : Sparse .empty acc)
    (hfunded : Funded acc) : Funded acc' := by
  cases h with
  | edit hk h =>
    exact hfunded.write hk h.token?.1 h.token?.2.1 h.token?.2.2 fun _ _ => h.deposited
  | create hk h =>
    exact ⟨h.backed hk hfunded.backed, hfunded.covered.write hk
      (fun R M => h.deposited.trans (deposited_of_none rfl).symm) (zero_le _)⟩
  | dispose hk h =>
    exact hfunded.write hk (by cases h <;> rfl) rfl rfl fun _ _ => by cases h <;> rfl
  | @castVote _ _ _ p' _ _ _ _ _ h =>
    obtain ⟨hP, hV⟩ := h.places
    have hrecord := hfunded.write h.record rfl rfl rfl fun _ _ => h.same.deposited
    have hproposal := hrecord.write (x := .proposal p') hP rfl rfl rfl fun _ _ => rfl
    exact hproposal.write hV rfl rfl rfl fun _ _ => rfl
  | @withdrawVote _ _ _ p' _ _ _ h =>
    obtain ⟨hV, hT⟩ := h.places
    have hproposal := hfunded.write (x := .proposal p') h.proposal rfl rfl rfl fun _ _ => rfl
    have hvote := hproposal.write (x := .zeroed) hV rfl rfl rfl fun _ _ => rfl
    exact hvote.write hT rfl rfl rfl fun _ _ => h.same.deposited
  | @releaseVote _ _ _ _ _ v h =>
    let released : Account := .voteRecord { v with isRelinquished := true }
    have hT := update_eq_of_ne (x := released) h.record h.vote
    have hvote := hfunded.write (x := released) h.vote rfl rfl rfl fun _ _ => rfl
    exact hvote.write hT rfl rfl rfl fun _ _ => h.same.deposited
  | deposit h =>
    obtain ⟨_, _, -, htransfer⟩ := h.transferred
    have hbacked := hfunded.backed.of_held (fun M => htransfer.held hs) fun M m hM =>
      htransfer.eq_of_after hM rfl
    refine ⟨?_, h.covered hplaced hs hfunded.covered⟩
    rcases h.record with ⟨hempty, -⟩ | ⟨t, ht, -⟩
    · exact hbacked.write hempty rfl rfl rfl
    · exact hbacked.write ht rfl rfl rfl
  | withdraw h =>
    obtain ⟨_, htransfer⟩ := h.transferred
    have hbacked := hfunded.backed.of_held (fun M => htransfer.held hs) fun M m hM =>
      htransfer.eq_of_after hM rfl
    exact ⟨hbacked.write (htransfer.kept.eq_of_before h.record rfl) rfl rfl rfl,
      h.covered hplaced hs hfunded.covered⟩
  | token h =>
    exact ⟨h.backed hplaced hs hfunded.backed,
      hfunded.covered.of_kept (h.holdings hplaced) fun R M => h.kept.deposited⟩

/-- Everything that is known of deposits and votes when configurations stay fixed. -/
structure Secured (acc : Address → Account) (now : ℤ) : Prop where
  placed : Placed acc
  tallied : Tallied acc
  backed : Backed acc
  covered : Covered acc
  pledged : Pledged acc now

theorem Secured.funded {now : ℤ} (h : Secured acc now) : Funded acc := ⟨h.backed, h.covered⟩

theorem Effect.secured (h : Effect False c acc acc') (hsecured : Secured acc c.unixTimestamp) :
    Secured acc' c.unixTimestamp := by
  have hfunded := h.funded hsecured.placed hsecured.tallied.sparse hsecured.funded
  exact ⟨h.keeps.placed hsecured.placed, h.tallied hsecured.placed hsecured.tallied,
    hfunded.backed, hfunded.covered,
    h.pledged hsecured.placed hsecured.tallied hsecured.pledged⟩

theorem Effects.secured (h : Effects False c acc acc') (hsecured : Secured acc c.unixTimestamp) :
    Secured acc' c.unixTimestamp := by
  induction h with
  | refl => exact hsecured
  | tail _ hstep ih => exact hstep.secured ih

def Account.isPledge : Account → Bool
  | realm _ | governance _ | tokenOwnerRecord _ | voteRecord _ => true
  | proposal p => decide (p.state = .voting)
  | _ => false

variable {now : ℤ}

/-- Pledges depend on few accounts, and on the time. -/
theorem Pledged.of_same {now' : ℤ} (h : Pledged acc now) (hle : now ≤ now')
    (hsame : ∀ k, (acc' k).isPledge = true → acc k = acc' k) : Pledged acc' now' := by
  refine ⟨fun V v T t r hV haddress hkept hT hr haddin => ?_,
    fun V v p g hV hreleased hp hvoting hg => hasVoteTimeEnded_mono hle ?_⟩
  · exact h.weight V v T t r ((hsame V (by rw [hV]; rfl)).trans hV) haddress hkept
      ((hsame T (by rw [hT]; rfl)).trans hT) ((hsame _ (by rw [hr]; rfl)).trans hr) haddin
  · refine h.released V v p g ((hsame V (by rw [hV]; rfl)).trans hV) hreleased
      ((hsame _ ?_).trans hp) hvoting ((hsame _ (by rw [hg]; rfl)).trans hg)
    rw [hp]
    exact decide_eq_true hvoting

/-- A write of an account that votes do not depend on. -/
theorem same_of_update (hx : x.isPledge = false) (y : Address)
    (hy : (update acc k x y).isPledge = true) : acc y = update acc k x y := by
  by_cases hyk : y = k
  · subst hyk
    rw [update_self, hx] at hy
    cases hy
  · rw [update_of_ne hyk]

theorem isPledge_of_isLedger (h : a.isLedger = true) : a.isPledge = false := by
  cases a <;> simp_all [Account.isLedger, Account.isPledge]

theorem outside_views (h : a.isOutside = true) :
    a.token? = none ∧ a.mint? = none ∧ a.tokenOwnerRecord? = none := by
  cases a <;> simp [Account.isOutside] at h <;> exact ⟨rfl, rfl, rfl⟩

theorem isPledge_of_isOutside (h : a.isOutside = true) : a.isPledge = false := by
  cases a <;> simp_all [Account.isOutside, Account.isPledge]

theorem Executed.secured {accounts : List AccountMeta} {before : World} {e : Execution}
    {p p' : ProposalV2} {t t' : ProposalTransactionV2}
    (h : Executed accounts before e p p' t t' acc) (hsecured : Secured acc now)
    (htallied : Tallied (update (update acc e.proposal (.proposal p'))
      e.transaction (.transaction t'))) :
    Secured (update (update acc e.proposal (.proposal p')) e.transaction
      (.transaction t')) now := by
  have hT := update_eq_of_ne (x := .proposal p') h.transaction h.proposal
  have hfunded := (hsecured.funded.write (x := .proposal p') h.proposal rfl rfl rfl
    fun _ _ => rfl).write (x := .transaction t') hT rfl rfl rfl fun _ _ => rfl
  refine ⟨h.keeps.placed hsecured.placed, htallied, hfunded.backed, hfunded.covered, ?_⟩
  have hended : (Account.proposal p').isPledge = false := decide_eq_false h.approved'.state.2.2
  exact (hsecured.pledged.of_same (le_refl _) (same_of_update hended)).of_same (le_refl _)
    (same_of_update rfl)

/-- **Step.** Every transition that changes no configuration keeps deposits and votes secured. -/
theorem Transition.secured {m m' : Machine} (h : Transition False m m')
    (hsecured : Secured m.world.accounts m.world.unixTimestamp) :
    Secured m'.world.accounts m'.world.unixTimestamp := by
  have hplaced := h.keeps.placed hsecured.placed
  have htallied := h.tallied hsecured.placed hsecured.tallied
  cases h with
  | @call w _ accounts h =>
    show Secured w.accounts w.unixTimestamp
    rw [h.2]
    exact h.1.secured hsecured
  | @executed w _ accounts _ _ _ _ _ h haccounts htime =>
    show Secured w.accounts w.unixTimestamp
    change Tallied w.accounts at htallied
    rw [haccounts] at htallied ⊢
    rw [htime]
    exact h.secured hsecured htallied
  | @token _ h htime =>
    refine ⟨hplaced, htallied, h.backed hsecured.placed hsecured.tallied.sparse hsecured.backed,
      hsecured.covered.of_kept (h.holdings hsecured.placed) fun R M => h.kept.deposited,
      hsecured.pledged.of_same (le_of_eq htime.symm) fun k hk => ?_⟩
    rcases h.kept k with heq | ⟨-, hnew⟩
    · exact heq.symm
    · rw [isPledge_of_isLedger hnew] at hk
      cases hk
  | @pass _ haccounts htime =>
    refine ⟨hplaced, htallied, ?_, ?_, hsecured.pledged.of_same htime fun k _ => ?_⟩
    · exact (congrArg Backed haccounts).mpr hsecured.backed
    · exact (congrArg Covered haccounts).mpr hsecured.covered
    · exact (congrFun haccounts k).symm
  | @outside _ _ _ hold hnew =>
    obtain ⟨hold, -, hold'⟩ := outside_views hold
    obtain ⟨hnew₁, hmint, hnew₂⟩ := outside_views hnew
    have hfunded := hsecured.funded.write rfl hold hnew₁ hmint fun R M =>
      (deposited_of_none hnew₂).trans (deposited_of_none hold').symm
    exact ⟨hplaced, htallied, hfunded.backed, hfunded.covered,
      hsecured.pledged.of_same (le_refl _) (same_of_update (isPledge_of_isOutside hnew))⟩
  | reclaim hk =>
    have hfunded := hsecured.funded.write (x := .empty) hk rfl rfl rfl fun _ _ => rfl
    exact ⟨hplaced, htallied, hfunded.backed, hfunded.covered,
      hsecured.pledged.of_same (le_refl _) (same_of_update rfl)⟩

theorem secured_empty (now : ℤ) : Secured (fun _ => .empty) now := by
  refine ⟨placed_empty, tallied_empty, fun M m hM => ?_, fun R M => ?_,
    ⟨fun V v T t r hV => ?_, fun V v p g hV => ?_⟩⟩
  · cases hM
  · rw [total_eq_zero _ fun k => deposited_of_none rfl]
    exact zero_le _
  · cases hV
  · cases hV

/-- **Run.** -/
theorem Reachable.secured {rent : Account → ℕ} {depth : ℕ} {m : Machine}
    (h : Reachable rent depth m) (hfixed : m.ConfigsFixed) :
    Secured m.world.accounts m.world.unixTimestamp := by
  refine Reachable.invariant (F := False)
    (I := fun m => Secured m.world.accounts m.world.unixTimestamp) (fun m haccounts _ => ?_)
    (fun m m' hstep => hstep.secured) h (.inr hfixed)
  rw [haccounts]
  exact secured_empty _

/-! ## Main result -/

theorem Secured.votes_le (h : Secured acc now) {P : Address} {p : ProposalV2} {g : GovernanceV2}
    {r : RealmV2} (hP : acc P = .proposal p) (hg : acc p.governance = .governance g)
    (hr : acc g.realm = .realm r) (haddin : r.config.useCommunityVoterWeightAddin = false)
    (hvoting : p.state = .voting) (hopen : p.hasVoteTimeEnded g.config now = .ok false) (i : ℕ) :
    ((approvals P i).add (denials P)).total acc ≤
      (deposited g.realm p.governingTokenMint).total acc := by
  refine total_le_of_injective _ _ h.tallied.sparse (getVoteRecordAddress P)
    (fun T T' heq => by cases heq; rfl) fun V hne => ?_
  cases hV : acc V with
  | voteRecord v =>
    rw [hV] at hne
    have hof : v.proposal = P := by
      by_contra hnot
      refine hne ?_
      show ite _ _ _ + ite _ _ _ = 0
      rw [if_neg hnot, if_neg hnot]
    have hat := h.placed.of_eq hV
    obtain ⟨T, t, _, _, haddress, ht, hp₀, hg₀, -, hrealm, hmint, -, -⟩ := hat.voter
    rw [hof, hP] at hp₀
    cases hp₀
    rw [hg] at hg₀
    cases hg₀
    have hkept : v.isRelinquished = false := by
      by_contra hreleased
      rw [Bool.not_eq_false] at hreleased
      have hended := h.pledged.released V v p g hV hreleased (hof ▸ hP) hvoting hg
      rw [hopen] at hended
      cases hended
    refine ⟨T, by rw [haddress, hof], ?_⟩
    rw [ht, deposited_record, if_pos ⟨hrealm, hmint⟩]
    refine le_trans ?_ (h.pledged.weight V v T t r hV haddress hkept ht (hrealm ▸ hr) haddin)
    show ite _ _ _ + ite _ _ _ ≤ _
    rw [if_pos hof, if_pos hof]
    exact v.vote.approval_add_denial_le i v.voterWeight
  | _ =>
    rw [hV] at hne
    exact absurd rfl hne

/-- What is booked in a holding account is part of the supply. -/
theorem Secured.deposited_le (h : Secured acc now) (R : Address) {M : Address} {m : Mint}
    (hM : acc M = .mint m) : (deposited R M).total acc ≤ m.supply := by
  rw [← h.backed M m hM]
  refine le_trans (h.covered R M)
    (le_trans ?_ ((held M).le_total h.tallied.sparse (getGoverningTokenHoldingAddress R M)))
  cases hk : acc (getGoverningTokenHoldingAddress R M) with
  | token =>
    have hat := h.placed.of_eq hk
    rw [held_token, if_pos (hat.2 R M rfl).2.1]
    exact le_refl _
  | _ => exact zero_le _

end Secured

end SolanaPrograms.Governance
