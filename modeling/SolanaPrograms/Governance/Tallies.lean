import SolanaPrograms.Governance.Runs
import SolanaPrograms.Lib.Total

/-!
# Tallies

The weights of a proposal are the totals of its vote records, and the counters of a token owner
record are the numbers of its vote records (`Tallied`). Every transition keeps this, whatever
happens to configurations, so taking a vote back never goes below zero.
-/

namespace SolanaPrograms.Governance

open Outcome ProposalV2 World Weight TokenOwnerRecordV2 List Option
open Function (update update_of_ne update_self)

/-! ## Totals of vote records -/

def voteWeight (f : Address → VoteRecordV2 → ℕ) : Weight Address Account .empty :=
  .view Account.voteRecord? rfl f

/-- What the vote records of a proposal give to one of its options. -/
def approvals (P : Address) (i : ℕ) : Weight Address Account .empty :=
  voteWeight fun _ v => if v.proposal = P then v.vote.approval i v.voterWeight else 0

def denials (P : Address) : Weight Address Account .empty :=
  voteWeight fun _ v => if v.proposal = P then v.vote.denial v.voterWeight else 0

def allVotes (T : Address) : Weight Address Account .empty :=
  voteWeight fun k v => if k = getVoteRecordAddress v.proposal T then 1 else 0

/-- Those of them that are not relinquished. -/
def openVotes (T : Address) : Weight Address Account .empty :=
  voteWeight fun k v =>
    if k = getVoteRecordAddress v.proposal T ∧ v.isRelinquished = false then 1 else 0

section Totals

variable {f : Address → VoteRecordV2 → ℕ} {acc acc' : Address → Account} {k : Address}
  {a : Account} {v : VoteRecordV2}

@[simp] theorem voteWeight_voteRecord : (voteWeight f).of k (.voteRecord v) = f k v := rfl

@[simp] theorem voteWeight_blank :
    (voteWeight f).of k .empty = 0 ∧ (voteWeight f).of k .zeroed = 0 := ⟨rfl, rfl⟩

theorem voteWeight_of_none (h : a.voteRecord? = none) : (voteWeight f).of k a = 0 :=
  view_none h

theorem VotesKept.total (h : VotesKept acc acc') :
    (voteWeight f).total acc' = (voteWeight f).total acc := total_view_congr h

end Totals

/-! ## The invariant -/

def TalliedAt (acc : Address → Account) (k : Address) : Account → Prop
  | .proposal p =>
    (∀ i x, p.ballot.weights[i]? = some x → x = (approvals k i).total acc) ∧
      p.ballot.denyVoteWeight.getD 0 = (denials k).total acc
  | .tokenOwnerRecord t => t.unrelinquishedVotesCount = (openVotes k).total acc ∧
      t.totalVotesCount = (allVotes k).total acc
  | _ => True

structure Tallied (acc : Address → Account) : Prop where
  sparse : Sparse .empty acc
  exact : ∀ k, TalliedAt acc k (acc k)

section Tallied

variable {F : Prop} {c : Context} {acc acc' acc₁ : Address → Account} {k P T : Address}
  {a a' : Account} {p p' : ProposalV2} {t t' : TokenOwnerRecordV2} {v : VoteRecordV2}
  {f : Address → VoteRecordV2 → ℕ}

theorem Tallied.of_eq (h : Tallied acc) (hk : acc k = a) : TalliedAt acc k a := hk ▸ h.exact k

theorem TalliedAt.of_kept (hvotes : VotesKept acc acc') (h : TalliedAt acc k a) :
    TalliedAt acc' k a := by
  cases a with
  | proposal =>
    obtain ⟨hoptions, hdeny⟩ := h
    refine ⟨fun i x hx => ?_, ?_⟩
    · rw [hoptions i x hx, approvals, hvotes.total]
    · rw [hdeny, denials, hvotes.total]
  | tokenOwnerRecord =>
    obtain ⟨hopen, hall⟩ := h
    refine ⟨?_, ?_⟩
    · rw [hopen, openVotes, hvotes.total]
    · rw [hall, allVotes, hvotes.total]
  | _ => trivial

theorem Tallied.write (h : Tallied acc) (hvotes : a.voteRecord? = (acc k).voteRecord?)
    (ha : TalliedAt acc k a) : Tallied (update acc k a) := by
  refine ⟨h.sparse.update k a, fun x => ?_⟩
  have hkept := VotesKept.update hvotes
  by_cases hx : x = k
  · subst hx
    rw [update_self]
    exact ha.of_kept hkept
  · rw [update_of_ne hx]
    exact (h.exact x).of_kept hkept

theorem Tallied.ledger (h : Tallied acc) (hledger : LedgerOnly acc acc')
    (hs : Sparse .empty acc') : Tallied acc' := by
  refine ⟨hs, fun k => ?_⟩
  rcases hledger k with heq | ⟨-, hnew⟩
  · rw [heq]
    exact (h.exact k).of_kept hledger.votesKept
  · cases hk : acc' k <;> simp_all [Account.isLedger] <;> trivial

theorem Transferred.sparse {source destination authority : Address} {amount : ℕ}
    (h : Transferred acc acc' source destination authority amount) (hs : Sparse .empty acc) :
    Sparse .empty acc' := by
  obtain ⟨_, _, _, -, -, -, -, rfl⟩ := h
  split
  · exact hs
  · exact (hs.update _ _).update _ _

theorem TokenStep.sparse (h : TokenStep acc acc') (hs : Sparse .empty acc) :
    Sparse .empty acc' := by
  cases h with
  | transfer _ h => exact h.sparse hs
  | mintTo | burn => exact (hs.update _ _).update _ _
  | initializeMint | initializeAccount | account | frozen | mint | closeAccount =>
    exact hs.update _ _

/-! ## Effects on one account -/

theorem TalliedAt.of_ballot (h : TalliedAt acc k (.proposal p)) (hballot : p'.ballot = p.ballot) :
    TalliedAt acc k (.proposal p') := by
  obtain ⟨_, _⟩ := h
  exact ⟨by rwa [hballot], by rwa [hballot]⟩

theorem Edit.talliedAt (h : Edit F c acc k a a') (ha : TalliedAt acc k a) : TalliedAt acc k a' := by
  cases h with
  | tokenOwnerRecord _ hvotes htotal =>
    obtain ⟨hopen, hall⟩ := ha
    exact ⟨by rw [hvotes, hopen], by rw [htotal, hall]⟩
  | draft _ _ hballot | signOff _ _ hballot | cancel _ _ hballot => exact ha.of_ballot hballot
  | finalize _ _ _ _ _ h =>
    exact ha.of_ballot (finalizeVote_ok h).ballot
  | flag _ _ hdecision => exact ha.of_ballot (decision_ballot hdecision)
  | _ => trivial

theorem Edit.voteRecord? (h : Edit F c acc k a a') : a'.voteRecord? = a.voteRecord? := by
  cases h <;> rfl

theorem Created.voteRecord? (h : Created c acc k a) : a.voteRecord? = none := by
  cases h <;> rfl

theorem Disposed.voteRecord? (h : Disposed acc a) : a.voteRecord? = none := by
  cases h <;> rfl

theorem total_of_no_proposal (hplaced : Placed acc) (hP : acc P = .empty)
    (hf : ∀ k v, v.proposal ≠ P → f k v = 0) :
    (voteWeight f).total acc = 0 := by
  refine total_eq_zero _ fun k => ?_
  cases hk : acc k with
  | voteRecord v =>
    refine hf k v ?_
    rintro rfl
    have hv := hplaced.of_eq hk
    obtain ⟨_, _, _, _, _, _, hp, -⟩ := hv.voter
    rw [hP] at hp
    cases hp
  | _ => exact voteWeight_of_none rfl

theorem total_of_no_record (hplaced : Placed acc) (hT : acc T = .empty)
    (hf : ∀ k v, k ≠ getVoteRecordAddress v.proposal T → f k v = 0)
    : (voteWeight f).total acc = 0 := by
  refine total_eq_zero _ fun k => ?_
  cases hk : acc k with
  | voteRecord v =>
    refine hf k v ?_
    rintro rfl
    have hv := hplaced.of_eq hk
    obtain ⟨_, _, _, _, haddress, ht, -⟩ := hv.voter
    cases haddress
    rw [hT] at ht
    cases ht
  | _ => exact voteWeight_of_none rfl

theorem talliedAt_new_record (hplaced : Placed acc) (hk : acc k = .empty)
    (hvotes : t.unrelinquishedVotesCount = 0) (htotal : t.totalVotesCount = 0) :
    TalliedAt acc k (.tokenOwnerRecord t) := by
  refine ⟨hvotes.trans (total_of_no_record hplaced hk fun x v hx => ?_).symm,
    htotal.trans (total_of_no_record hplaced hk fun x v hx => ?_).symm⟩
  · exact if_neg fun hand => hx hand.1
  · exact if_neg hx

theorem Created.talliedAt (h : Created c acc k a) (hplaced : Placed acc) (hk : acc k = .empty) :
    TalliedAt acc k a := by
  cases h with
  | tokenOwnerRecord => exact talliedAt_new_record hplaced hk rfl rfl
  | @proposal _ _ _ _ _ _ _ _ _ _ _ _ hweights hdeny =>
    refine ⟨fun i x hx => ?_, hdeny.trans (total_of_no_proposal hplaced hk fun x v hv => ?_).symm⟩
    · simp only [ballot, getElem?_map, map_eq_some_iff] at hx
      obtain ⟨o, ho, rfl⟩ := hx
      rw [hweights o (mem_of_getElem? ho)]
      exact (total_of_no_proposal hplaced hk fun x v hv => if_neg hv).symm
    · exact if_neg hv
  | _ => trivial

/-! ## Votes -/

theorem Weighed.ballot {rel : ℕ → ℕ → ℕ → Prop} {q : ProposalV2} {vote : Vote} {weight : ℕ}
    (h : Weighed rel p q vote weight) {i x' : ℕ} (hx : q.ballot.weights[i]? = some x') :
    ∃ x, p.ballot.weights[i]? = some x ∧ rel x (vote.approval i weight) x' := by
  simp only [ProposalV2.ballot, getElem?_map, map_eq_some_iff] at hx ⊢
  obtain ⟨o', ho', rfl⟩ := hx
  obtain ⟨o, ho, -, hrel⟩ := h.options i o' ho'
  exact ⟨o.voteWeight, ⟨o, ho, rfl⟩, hrel⟩

/-- A vote of `T` on `P` writes their records and the vote record between them, `y` before and `x`
after. It moves the tallies of the two by what it adds, and no others. -/
theorem Tallied.of_vote {x y : Account} (htallied : Tallied acc) (hs : Sparse .empty acc')
    (hP : acc P = .proposal p) (hT : acc T = .tokenOwnerRecord t)
    (hV : acc (getVoteRecordAddress P T) = y) (hP' : acc' P = .proposal p')
    (hT' : acc' T = .tokenOwnerRecord t') (hV' : acc' (getVoteRecordAddress P T) = x)
    (hothers : ∀ k, k ≠ P → k ≠ T → k ≠ getVoteRecordAddress P T → acc' k = acc k)
    (hx : ∀ k, TalliedAt acc' k x)
    (hof : ∀ v, x = .voteRecord v ∨ y = .voteRecord v → v.proposal = P)
    (hweights : ∀ i n', p'.ballot.weights[i]? = some n' → ∃ n, p.ballot.weights[i]? = some n ∧
      n' + (approvals P i).of (getVoteRecordAddress P T) y =
        n + (approvals P i).of (getVoteRecordAddress P T) x)
    (hdeny : p'.ballot.denyVoteWeight.getD 0 + (denials P).of (getVoteRecordAddress P T) y =
      p.ballot.denyVoteWeight.getD 0 + (denials P).of (getVoteRecordAddress P T) x)
    (hopen : t'.unrelinquishedVotesCount + (openVotes T).of (getVoteRecordAddress P T) y =
      t.unrelinquishedVotesCount + (openVotes T).of (getVoteRecordAddress P T) x)
    (hall : t'.totalVotesCount + (allVotes T).of (getVoteRecordAddress P T) y =
      t.totalVotesCount + (allVotes T).of (getVoteRecordAddress P T) x) : Tallied acc' := by
  set V := getVoteRecordAddress P T with hVdef
  have hkept : VotesKept (update acc V x) acc' := by
    intro k
    by_cases hkV : k = V
    · rw [hkV, update_self, hV']
    rw [update_of_ne hkV]
    by_cases hkP : k = P
    · rw [hkP, hP, hP']
      rfl
    by_cases hkT : k = T
    · rw [hkT, hT, hT']
      rfl
    rw [hothers k hkP hkT hkV]
  have hmove : ∀ {f n n'}, n = (voteWeight f).total acc →
      n' + (voteWeight f).of V y = n + (voteWeight f).of V x → n' = (voteWeight f).total acc' := by
    intro f n n' hn hmoved
    have htotal := (voteWeight f).total_update htallied.sparse V x
    rw [hV, ← hkept.total] at htotal
    omega
  -- The other records do not count the vote record.
  have hother : ∀ {f n}, n = (voteWeight f).total acc → (∀ v, v.proposal = P → f V v = 0) →
      n = (voteWeight f).total acc' := by
    intro f n hn hf
    have hzero : ∀ z, (∀ v, z = .voteRecord v → v.proposal = P) → (voteWeight f).of V z = 0 := by
      intro z hz
      cases z with
      | voteRecord v => exact hf v (hz v rfl)
      | _ => rfl
    refine hmove hn ?_
    rw [hzero x fun v hv => hof v (.inl hv), hzero y fun v hv => hof v (.inr hv)]
  refine ⟨hs, fun k => ?_⟩
  by_cases hkP : k = P
  · have hbefore := htallied.of_eq hP
    rw [hkP, hP']
    refine ⟨fun i n' hn' => ?_, hmove hbefore.2 hdeny⟩
    obtain ⟨n, hn, hmoved⟩ := hweights i n' hn'
    exact hmove (hbefore.1 i n hn) hmoved
  by_cases hkT : k = T
  · have hbefore := htallied.of_eq hT
    rw [hkT, hT']
    exact ⟨hmove hbefore.1 hopen, hmove hbefore.2 hall⟩
  by_cases hkV : k = V
  · rw [hkV, hV']
    exact hx V
  rw [hothers k hkP hkT hkV]
  have hbefore := htallied.exact k
  cases hk : acc k with
  | proposal =>
    rw [hk] at hbefore
    have hne : ∀ v : VoteRecordV2, v.proposal = P → v.proposal ≠ k := fun v hv heq =>
      hkP (heq.symm.trans hv)
    exact ⟨fun i n hn => hother (hbefore.1 i n hn) fun v hv => if_neg (hne v hv),
      hother hbefore.2 fun v hv => if_neg (hne v hv)⟩
  | tokenOwnerRecord =>
    rw [hk] at hbefore
    have hne : ∀ v : VoteRecordV2, V ≠ getVoteRecordAddress v.proposal k := by
      intro v heq
      rw [hVdef] at heq
      cases heq
      exact hkT rfl
    exact ⟨hother hbefore.1 fun v _ => if_neg fun hand => hne v hand.1,
      hother hbefore.2 fun v _ => if_neg (hne v)⟩
  | _ => trivial

theorem CastVote.tallied {g : GovernanceV2} {r : RealmV2} (h : CastVote c acc P T p p' t t' v g r)
    (htallied : Tallied acc) :
    Tallied (update (update (update acc T (.tokenOwnerRecord t')) P
      (.proposal p')) (getVoteRecordAddress P T) (.voteRecord v)) := by
  obtain ⟨hP, hV⟩ := h.places
  obtain ⟨q, _, _, hq, -, htip⟩ := h.counted
  have hcounted := counted_of_weighVote h.valid hq
  have hballot : p'.ballot = q.ballot := by
    rcases tryTipVote_ok htip with ⟨-, rfl⟩ | ⟨-, htipped⟩
    · rfl
    · exact htipped.ballot
  refine htallied.of_vote (((htallied.sparse.update _ _).update _ _).update _ _) h.proposal
    h.record h.fresh (update_eq_of_ne (update_self ..) hV)
    (update_eq_of_ne (update_eq_of_ne (update_self ..) hP) hV) (update_self ..)
    (fun k hkP hkT hkV => ?_) (fun _ => trivial) ?_ (fun i n' hn' => ?_) ?_ ?_ ?_
  · rw [update_of_ne hkV, update_of_ne hkP, update_of_ne hkT]
  · rintro w (hw | hw) <;> cases hw
    exact h.ofProposal
  · rw [hballot] at hn'
    obtain ⟨n, hn, rfl⟩ := hcounted.ballot hn'
    exact ⟨n, hn, by simp [approvals, h.ofProposal]⟩
  · rw [hballot]
    simpa [denials, ballot, h.ofProposal] using hcounted.deny
  · simp [openVotes, h.votes, h.ofProposal, h.kept]
  · simp [allVotes, h.total, h.ofProposal]

theorem WithdrawVote.tallied (h : WithdrawVote acc P T p p' t t' v) (htallied : Tallied acc) :
    Tallied (update (update (update acc P (.proposal p'))
      (getVoteRecordAddress P T) .zeroed) T (.tokenOwnerRecord t')) := by
  obtain ⟨hV, hT⟩ := h.places
  have huncounted := uncounted_of_weighVote h.choices h.counted
  refine htallied.of_vote (((htallied.sparse.update _ _).update _ _).update _ _) h.proposal
    h.record h.vote (update_eq_of_ne (update_eq_of_ne (update_self ..) hV) hT)
    (update_self ..) (update_eq_of_ne (update_self ..) hT)
    (fun k hkP hkT hkV => ?_) (fun _ => trivial) ?_ (fun i n' hn' => ?_) ?_ ?_ ?_
  · rw [update_of_ne hkT, update_of_ne hkV, update_of_ne hkP]
  · rintro w (hw | hw) <;> cases hw
    exact h.ofProposal
  · obtain ⟨n, hn, hmoved⟩ := huncounted.ballot hn'
    exact ⟨n, hn, by simpa [approvals, h.ofProposal] using hmoved⟩
  · simpa [denials, ballot, h.ofProposal] using huncounted.deny
  · simp [openVotes, h.votes, h.ofProposal, h.kept]
  · simp [allVotes, h.total, h.ofProposal]

theorem ReleaseVote.tallied (h : ReleaseVote c acc P T p t t' v) (htallied : Tallied acc) :
    Tallied (update (update acc (getVoteRecordAddress P T)
      (.voteRecord { v with isRelinquished := true })) T (.tokenOwnerRecord t')) := by
  let released : Account := .voteRecord { v with isRelinquished := true }
  have hT := update_eq_of_ne (x := released) h.record h.vote
  refine htallied.of_vote ((htallied.sparse.update _ _).update _ _) h.proposal
    h.record h.vote (update_eq_of_ne (update_eq_of_ne h.proposal h.vote) hT)
    (update_self ..) (update_eq_of_ne (update_self ..) hT)
    (fun k hkP hkT hkV => ?_) (fun _ => trivial) ?_ (fun i n hn => ⟨n, hn, rfl⟩) rfl ?_ ?_
  · rw [update_of_ne hkT, update_of_ne hkV]
  · rintro w (hw | hw) <;> cases hw <;> exact h.ofProposal
  · simp [openVotes, h.votes, h.ofProposal, h.kept]
  · rw [h.total]
    rfl

/-! ## Effects and transitions -/

/-- **Step.** Every effect keeps the tallies exact. -/
theorem Effect.tallied (h : Effect F c acc acc') (hplaced : Placed acc) (htallied : Tallied acc) :
    Tallied acc' := by
  cases h with
  | @edit k _ _ hk h =>
    subst hk
    exact htallied.write h.voteRecord? (h.talliedAt (htallied.exact k))
  | create hk h =>
    exact htallied.write (by rw [hk, h.voteRecord?]; rfl) (h.talliedAt hplaced hk)
  | dispose hk h =>
    subst hk
    exact htallied.write h.voteRecord?.symm trivial
  | castVote h => exact h.tallied htallied
  | withdrawVote h => exact h.tallied htallied
  | releaseVote h => exact h.tallied htallied
  | deposit h =>
    obtain ⟨_, _, -, htransfer⟩ := h.transferred
    have htallied₁ := htallied.ledger htransfer.kept (htransfer.sparse htallied.sparse)
    have hplaced₁ := htransfer.keeps.placed hplaced
    rcases h.record with ⟨hempty, rfl⟩ | ⟨t, ht, rfl⟩
    · exact htallied₁.write (by rw [hempty]; rfl) (talliedAt_new_record hplaced₁ hempty rfl rfl)
    · refine htallied₁.write (by rw [ht]; rfl) ?_
      have hat := htallied₁.of_eq ht
      exact hat
  | withdraw h =>
    obtain ⟨_, htransfer⟩ := h.transferred
    have htallied₁ := htallied.ledger htransfer.kept (htransfer.sparse htallied.sparse)
    have ht := htransfer.kept.eq_of_before h.record rfl
    refine htallied₁.write (by rw [ht]; rfl) ?_
    have hat := htallied₁.of_eq ht
    exact hat
  | token h => exact htallied.ledger h.kept (h.sparse htallied.sparse)

theorem Effects.tallied (h : Effects F c acc acc') (hplaced : Placed acc) (htallied : Tallied acc) :
    Tallied acc' := by
  induction h with
  | refl => exact htallied
  | tail hrun hstep ih => exact hstep.tallied (Effects.keeps hrun |>.placed hplaced) ih

theorem Transition.tallied {m m' : Machine} (h : Transition F m m')
    (hplaced : Placed m.world.accounts) (htallied : Tallied m.world.accounts) :
    Tallied m'.world.accounts := by
  cases h with
  | call h => exact h.1.tallied hplaced htallied
  | @executed w _ accounts e _ p' _ _ h haccounts =>
    show Tallied w.accounts
    rw [haccounts]
    have hat := htallied.of_eq h.proposal
    have hfirst := htallied.write (k := e.proposal) (a := .proposal p') (by rw [h.proposal]; rfl)
      (hat.of_ballot (decision_ballot h.decision))
    refine hfirst.write ?_ trivial
    rw [update_eq_of_ne h.transaction h.proposal]
    rfl
  | token h => exact htallied.ledger h.kept (h.sparse htallied.sparse)
  | @pass w haccounts =>
    show Tallied w.accounts
    rwa [haccounts]
  | @outside k a hk _ hnew =>
    refine htallied.write ?_ ?_
    · cases hk : m.world.accounts k <;> cases a <;>
        simp_all [Account.isOutside, Account.voteRecord?]
    · cases a <;> simp [Account.isOutside] at hnew <;> trivial
  | reclaim hk => exact htallied.write (by rw [hk]; rfl) trivial

theorem tallied_empty : Tallied fun _ => .empty := ⟨sparse_const, fun _ => trivial⟩

/-- **Run.** -/
theorem Reachable.tallied {rent : Account → ℕ} {depth : ℕ} {m : Machine}
    (h : Reachable rent depth m) : Tallied m.world.accounts := by
  refine (Reachable.invariant (F := True)
    (I := fun m => Placed m.world.accounts ∧ Tallied m.world.accounts)
    (fun m haccounts _ => ?_) (fun m m' hstep ⟨hplaced, htallied⟩ => ?_) h (.inl trivial)).2
  · rw [haccounts]
    exact ⟨placed_empty, tallied_empty⟩
  · exact ⟨hstep.keeps.placed hplaced, hstep.tallied hplaced htallied⟩

end Tallied

/-! ## No underflow -/

section Underflow

variable {w : World} {rent : Account → ℕ} {accounts it : List AccountMeta} {p q : ProposalV2}

@[simp] theorem avoids_checkedAdd {bits a b : ℕ} : Avoids .underflow (checkedAdd bits a b) := by
  unfold checkedAdd
  split <;> simp

@[simp] theorem avoids_checkedSub {a b : ℕ} : Avoids .underflow (checkedSub a b) ↔ b ≤ a := by
  unfold checkedSub
  split <;> simp_all

@[simp] theorem nextAccountInfo_avoids : Avoids .underflow (nextAccountInfo it) := by
  cases it <;> simp [nextAccountInfo]

variable {k realm mint P T : Address} {t : TokenOwnerRecordV2} {r : RealmV2} {vote : Vote}
  {weight : ℕ} {config : GovernanceConfig} {α : Type} {now : ℤ}

@[simp] theorem read_avoids {view : Account → Option α} : Avoids .underflow (w.read view k) := by
  simp [World.read]

@[simp] theorem unwrap_avoids {x : Except Fault α} : Avoids .underflow (unwrap x) := by
  cases x <;> simp [unwrap]

@[simp] theorem resolveVoterWeight_avoids {realmConfig target : Address}
    {action : VoterWeightAction} :
    Avoids .underflow (w.resolveVoterWeight t realmConfig it realm r action target) := by
  simp [resolveVoterWeight, avoids_ite, avoids_bind, getRealmConfigDataForRealm,
    VoterWeightRecord.assertForTokenOwnerRecord, VoterWeightRecord.assertIsValidVoterWeight]

@[simp] theorem resolveMaxVoterWeight_avoids {realmConfig : Address} :
    Avoids .underflow (w.resolveMaxVoterWeight p realmConfig mint it realm r) := by
  have hsupply : ∀ supply,
      Avoids .underflow (p.getMaxVoterWeightFromMintSupply r supply) := fun supply => by
    unfold getMaxVoterWeightFromMintSupply
    repeat' split
    all_goals simp [coerceMaxVoterWeight, avoids_bind]
  simp [resolveMaxVoterWeight, avoids_ite, avoids_bind, getRealmConfigDataForRealm,
    MaxVoterWeightRecord.assertIsValid, coerceMaxVoterWeight, hsupply]

@[simp] theorem tryTipVote_avoids {maxVoterWeight : ℕ} :
    Avoids .underflow (p.tryTipVote maxVoterWeight config now) := by
  have htipped : Avoids .underflow (p.tryGetTippedVoteState maxVoterWeight config) := by
    unfold tryGetTippedVoteState
    split
    · simp [avoids_ite, avoids_bind]
    · simp
  simp only [tryTipVote, avoids_bind, htipped, true_and]
  rintro ⟨q, state⟩ -
  cases state <;> simp

@[simp] theorem tipVote_avoids {tipped : Bool} {governance ownerRecord voterRecord : Address}
    {g : GovernanceV2} :
    Avoids .underflow (tipVote tipped realm governance ownerRecord voterRecord r g p t w) := by
  simp [tipVote, avoids_ite, avoids_bind, getTokenOwnerRecordDataForProposalOwner]

@[simp] theorem assertValidVote_avoids : Avoids .underflow (p.assertValidVote vote) := by
  have hcount : ∀ choices count,
      Avoids .underflow (countChoices count choices) := by
    intro choices
    induction choices with
    | nil => simp [countChoices]
    | cons _ _ ih => simp [countChoices, avoids_ite, avoids_bind, ih]
  cases vote with
  | approve =>
    simp only [assertValidVote, avoids_bind, avoids_failIf, hcount, true_and]
    refine ⟨by simp, fun _ _ _ _ => ?_⟩
    split <;> simp
  | deny | abstain | veto => simp [assertValidVote]

theorem getChoiceWeight_avoids {choice : VoteChoice} :
    Avoids .underflow (choice.getChoiceWeight weight) := by
  simp [VoteChoice.getChoiceWeight, avoids_ite]

/-- Weighing a vote goes below zero only where the operation does. -/
theorem weighVote_avoids {op : ℕ → ℕ → Except Fault ℕ}
    (hoptions : ∀ i x, p.ballot.weights[i]? = some x →
      Avoids .underflow (op x (vote.approval i weight)))
    (hdeny : ∀ x, p.denyVoteWeight = some x → Avoids .underflow (op x (vote.denial weight))) :
    Avoids .underflow (p.weighVote op vote weight) := by
  cases vote with
  | approve choices =>
    have hweigh : ∀ (options : List ProposalOption) (choices : List VoteChoice),
        (∀ i o, options[i]? = some o →
          Avoids .underflow (op o.voteWeight ((Vote.approve choices).approval i weight))) →
        Avoids .underflow (weighOptions op weight options choices) := by
      intro options
      induction options with
      | nil => simp [weighOptions]
      | cons option _ ih =>
        intro choices hop
        cases choices with
        | nil => simp [weighOptions]
        | cons _ choices =>
          simp only [weighOptions, avoids_bind, getChoiceWeight_avoids, true_and, avoids_pure,
            implies_true, and_true]
          refine fun x hx => ⟨?_, fun _ _ => ih choices fun i o ho => ?_⟩
          · rw [getChoiceWeight_ok hx]
            simpa [Vote.approval] using hop 0 option rfl
          · simpa [Vote.approval] using hop (i + 1) o (by simpa using ho)
    simp only [weighVote, avoids_bind, avoids_pure, implies_true, and_true]
    refine hweigh _ _ fun i o ho => hoptions i _ ?_
    simp [ballot, ho]
  | deny =>
    simp only [weighVote, avoids_bind, avoids_okOr, okOr_eq_ok, avoids_pure, implies_true, and_true]
    exact ⟨by simp, hdeny⟩
  | abstain | veto => simp [weighVote]

@[simp] theorem systemTransfer_avoids {source : AccountMeta} {destination : Address}
    {lamports : ℕ} : Avoids .underflow (w.systemTransfer source destination lamports) := by
  simp [systemTransfer]

theorem createAndSerializeAccountSigned_avoids {payer info : AccountMeta} {a : Account}
    {address : Address} :
    Avoids .underflow (w.createAndSerializeAccountSigned rent payer info a address) := by
  simp [createAndSerializeAccountSigned, avoids_ite, avoids_bind, createAccount,
    allocateAndAssign]

theorem getProposalDataForGovernanceAndGoverningMint_avoids {governance : Address} :
    Avoids .underflow
      (w.getProposalDataForGovernanceAndGoverningMint P governance mint) := by
  simp [getProposalDataForGovernanceAndGoverningMint, getProposalDataForGovernance,
    avoids_bind]

theorem getTokenOwnerRecordDataForRealmAndGoverningMint_avoids :
    Avoids .underflow
      (w.getTokenOwnerRecordDataForRealmAndGoverningMint T realm mint) := by
  simp [getTokenOwnerRecordDataForRealmAndGoverningMint,
    getTokenOwnerRecordDataForRealm, avoids_bind]

theorem getVoteRecordDataForProposalAndTokenOwner_avoids {V owner : Address} :
    Avoids .underflow (w.getVoteRecordDataForProposalAndTokenOwner V P owner) := by
  simp [getVoteRecordDataForProposalAndTokenOwner, avoids_bind]

@[simp] theorem hasVoteTimeEnded_avoids : Avoids .underflow (p.hasVoteTimeEnded config now) := by
  simp only [hasVoteTimeEnded, addSeconds, avoids_bind]
  simp

theorem processCastVote_avoids : Avoids .underflow (processCastVote rent accounts vote w) := by
  simp [processCastVote, avoids_bind, getRealmDataForGoverningTokenMint,
    RealmV2.assertIsValidGoverningTokenMint, getGovernanceDataForRealm,
    getProposalDataForGovernanceAndGoverningMint_avoids,
    assertCanCastVote,
    getTokenOwnerRecordDataForRealmAndGoverningMint_avoids,
    assertTokenOwnerOrDelegateIsSigner, countVote, weighVote_avoids,
    createAndSerializeAccountSigned_avoids]

@[simp] theorem hasVoteEnded_avoids : Avoids .underflow (hasVoteEnded p config now) := by
  simp [hasVoteEnded, avoids_ite]

@[simp] theorem disposeAccount_avoids {beneficiary : Address} :
    Avoids .underflow (w.disposeAccount k beneficiary) := by
  simp [disposeAccount]

theorem Tallied.covers {acc : Address → Account} (h : Tallied acc) {v : VoteRecordV2}
    (hP : acc P = .proposal p) (hT : acc T = .tokenOwnerRecord t)
    (hV : acc (getVoteRecordAddress P T) = .voteRecord v) (hof : v.proposal = P) :
    (∀ i x, p.ballot.weights[i]? = some x → v.vote.approval i v.voterWeight ≤ x) ∧
      v.vote.denial v.voterWeight ≤ p.ballot.denyVoteWeight.getD 0 ∧
      (v.isRelinquished = false → 1 ≤ t.unrelinquishedVotesCount) ∧ 1 ≤ t.totalVotesCount := by
  have hatP := h.of_eq hP
  have hatT := h.of_eq hT
  have hle : ∀ {f n}, f (getVoteRecordAddress P T) v = n → n ≤ (voteWeight f).total acc := by
    rintro f _ rfl
    simpa [hV] using (voteWeight f).le_total h.sparse (getVoteRecordAddress P T)
  refine ⟨fun i x hx => ?_, ?_, fun hkept => ?_, ?_⟩
  · rw [hatP.1 i x hx]
    exact hle (if_pos hof)
  · rw [hatP.2]
    exact hle (if_pos hof)
  · rw [hatT.1]
    exact hle (if_pos ⟨by rw [hof], hkept⟩)
  · rw [hatT.2]
    exact hle (if_pos (by rw [hof]))

/-- Relinquishing a vote subtracts what was counted. -/
theorem processRelinquishVote_avoids (hplaced : Placed w.accounts) (htallied : Tallied w.accounts) :
    Avoids .underflow (processRelinquishVote accounts w) := by
  simp only [processRelinquishVote, avoids_bind, nextAccountInfo_avoids, read_avoids, true_and,
    Prod.forall, reads, Account.views, getProposalDataForGovernanceAndGoverningMint_avoids,
    getTokenOwnerRecordDataForRealmAndGoverningMint_avoids,
    getVoteRecordDataForProposalAndTokenOwner_avoids, hasVoteEnded_avoids, avoids_failIf,
    failIf_eq_ok, Bool.not_eq_true]
  rintro governanceInfo _ _ proposalInfo _ _ recordInfo _ _ voteInfo _ _ mintInfo it _ g hgovernance
    p ⟨⟨hproposal, hpgov⟩, hpmint⟩ t ⟨⟨hrecord, htrealm⟩, htmint⟩ v ⟨hvote, hof, howner⟩
  refine ⟨by simp, fun _ hkept ended hended => ?_⟩
  rw [← hpgov] at hgovernance
  obtain ⟨haddress, -⟩ := voteRecord_address hplaced hproposal hgovernance hrecord htrealm
    (htmint.trans hpmint.symm) hvote hof howner
  rw [haddress] at hvote
  obtain ⟨hoptions, hdeny, hopen, hall⟩ := htallied.covers hproposal hrecord hvote hof
  rw [avoids_ite]
  refine ⟨fun _ => ?_, fun _ => ?_⟩
  · simp only [avoids_bind, nextAccountInfo_avoids, true_and, releaseVote, avoids_checkedSub,
      disposeAccount_avoids, avoids_pure, implies_true, and_true, checkedSub_eq_ok,
      assertTokenOwnerOrDelegateIsSigner, avoids_failIf]
    refine fun _ _ _ _ => ⟨by simp, fun _ _ => ⟨weighVote_avoids (fun i x hx => ?_)
      fun x hx => ?_, fun _ _ _ _ => ⟨hall, fun _ _ => hopen hkept⟩⟩⟩
    · exact avoids_checkedSub.mpr (hoptions i x hx)
    · exact avoids_checkedSub.mpr (by simpa [ballot, hx] using hdeny)
  · simp only [avoids_bind, releaseVote, avoids_checkedSub, avoids_pure, implies_true, and_true]
    exact hopen hkept

end Underflow

/-! ## Main result -/

/-- In every reachable state the weights of a proposal that is voted on, or was, are the totals of
its vote records, and neither casting nor relinquishing a vote can go below zero. -/
theorem tallies_exact {rent : Account → ℕ} {depth : ℕ} {m : Machine}
    (h : Reachable rent depth m) :
    Sparse .empty m.world.accounts ∧
    (∀ P p, m.world.accounts P = .proposal p → ¬ p.Pending →
      (∀ i o, p.options[i]? = some o →
        o.voteWeight = (approvals P i).total m.world.accounts) ∧
      p.denyVoteWeight.getD 0 = (denials P).total m.world.accounts) ∧
    ∀ accounts, (∀ vote, processCastVote rent accounts vote m.world ≠ .error .underflow) ∧
      processRelinquishVote accounts m.world ≠ .error .underflow := by
  have htallied := h.tallied
  refine ⟨htallied.sparse, fun P p hP _ => ?_, fun accounts => ⟨fun vote => ?_, ?_⟩⟩
  · have hat := htallied.of_eq hP
    refine ⟨fun i o ho => hat.1 i _ ?_, hat.2⟩
    simp [ballot, ho]
  · exact processCastVote_avoids
  · exact processRelinquishVote_avoids h.placed htallied

/-- The founder of a realm votes with ten tokens. -/
theorem tallies_exact_founder :
    let m := Run.after (Run.found 10 ++ Run.draft ++ Run.openVote ++ Run.vote Run.approve)
    (∃ p o, m.world.accounts Run.proposal = .proposal p ∧ p.state = .succeeded ∧
      p.options[0]? = some o ∧ o.voteWeight = 10) ∧
    (approvals Run.proposal 0).total m.world.accounts = 10 ∧
    (denials Run.proposal).total m.world.accounts = 0 ∧
    processRelinquishVote [] m.world ≠ .error .underflow := by
  intro m
  have hp : (m.world.accounts Run.proposal).proposal?.map
      (fun p => (p.state, p.denyVoteWeight, p.options.map ProposalOption.voteWeight)) =
        some (.succeeded, some 0, [10]) := by
    decide +kernel
  simp only [map_eq_some_iff, Prod.mk.injEq, Account.views] at hp
  obtain ⟨p, hp, hstate, hdeny, hweights⟩ := hp
  obtain ⟨o, hoptions, hweight⟩ : ∃ o, p.options = [o] ∧ o.voteWeight = 10 := by
    simpa [map_eq_cons_iff] using hweights
  have hoption : p.options[0]? = some o := by rw [hoptions]; rfl
  obtain ⟨-, htallies, hunderflow⟩ := tallies_exact (Run.reachable
    (Run.found 10 ++ Run.draft ++ Run.openVote ++ Run.vote Run.approve))
  obtain ⟨happrove, hdenied⟩ := htallies Run.proposal p hp
    (not_pending_of_state (by simp [hstate]) (by simp [hstate]))
  refine ⟨⟨p, o, hp, hstate, hoption, hweight⟩, ?_, ?_, (hunderflow []).2⟩
  · exact (happrove 0 o hoption).symm.trans hweight
  · rw [← hdenied, hdeny]
    rfl

end SolanaPrograms.Governance
