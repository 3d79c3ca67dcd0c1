import SolanaPrograms.Governance.Records

/-!
# Runs of the program

An executed transaction may call the program again, and afterwards the proposal and the transaction
are written back as they were read before the calls. Nothing is lost by that: an approved proposal
keeps its decision and its transactions keep their contents, whatever is called in between
(`Sealed`). So every state that is reachable, also between the calls of a transaction, is reached by
a flat chain of transitions (`Reachable.transitions`), and an invariant has to be shown for each
kind of transition only.
-/

namespace SolanaPrograms.Governance

open Outcome List Machine ProposalV2
open Function (update update_of_ne update_self)

/-! ## What stays of decided proposals -/

/-- Approved proposals keep their decision, and the transactions of a proposal that is no draft keep
their contents and stay executed. -/
structure Sealed (acc acc' : Address → Account) : Prop extends Persists acc acc' where
  approved : ∀ P p, acc P = .proposal p → p.Approved →
    ∃ p', acc' P = .proposal p' ∧ p'.decision = p.decision ∧ p'.Approved
  contents : ∀ T t p, acc T = .transaction t → acc t.proposal = .proposal p → ¬ p.Pending →
    ∃ t', acc' T = .transaction t' ∧ SameContents t t' ∧ (t.executedAt ≠ none → t'.executedAt ≠ none)

section Sealed

variable {acc acc' acc'' : Address → Account} {F : Prop} {c : Context}

theorem Sealed.refl (acc : Address → Account) : Sealed acc acc :=
  ⟨.refl acc, fun _ p h hp => ⟨p, h, rfl, hp⟩, fun _ t _ h _ _ => ⟨t, h, .refl t, id⟩⟩

theorem Sealed.trans (h : Sealed acc acc') (h' : Sealed acc' acc'') : Sealed acc acc'' := by
  refine ⟨h.toPersists.trans h'.toPersists, fun P p hP hp => ?_, fun T t p hT hp hstarted => ?_⟩
  · obtain ⟨p', hP', hdecision, hp'⟩ := h.approved P p hP hp
    obtain ⟨p'', hP'', hdecision', hp''⟩ := h'.approved P p' hP' hp'
    exact ⟨p'', hP'', hdecision'.trans hdecision, hp''⟩
  · obtain ⟨t', hT', hsame, hexecuted⟩ := h.contents T t p hT hp hstarted
    obtain ⟨p', hp', hstarted'⟩ := h.started _ p hp hstarted
    obtain ⟨t'', hT'', hsame', hexecuted'⟩ :=
      h'.contents T t' p' hT' (hsame.proposal ▸ hp') hstarted'
    exact ⟨t'', hT'', hsame.trans hsame', hexecuted' ∘ hexecuted⟩

variable {p : ProposalV2}

theorem ProposalV2.Approved.state (h : p.Approved) :
    p.state ≠ .draft ∧ p.state ≠ .signingOff ∧ p.state ≠ .voting := by
  rcases h with h | ⟨h, -⟩
  · refine ⟨?_, ?_, ?_⟩ <;>
    · intro hstate
      simp [isExecutable, hstate] at h
  · rw [h]
    simp

theorem ProposalV2.Approved.not_pending (h : p.Approved) : ¬ p.Pending :=
  not_pending_of_state h.state.1 h.state.2.1

theorem ProposalStep.approved {P : Address} {p' : ProposalV2} (h : ProposalStep F c acc P p p')
    (hp : p.Approved) : p'.decision = p.decision ∧ p'.Approved := by
  obtain ⟨hdraft, _, hvoting⟩ := hp.state
  cases h with
  | same => exact ⟨rfl, hp⟩
  | edit h =>
    cases h with
    | draft hstate => exact absurd hstate hdraft
    | signOff hstate => exact absurd hstate hp.not_pending
    | cancel hstate => exact absurd hstate (not_or.mpr ⟨hp.not_pending, hvoting⟩)
    | finalize _ _ _ _ _ h =>
      exact absurd (finalizeVote_ok h).voting hvoting
    | flag _ hstate' hdecision =>
      exact ⟨hdecision, .inl (by simp [isExecutable, hstate'])⟩
  | castVote h | withdrawVote h => exact absurd h.state hvoting

theorem Effect.sealed (h : Effect F c acc acc') : Sealed acc acc' := by
  refine ⟨h.keeps.persists, fun P p hP hp => ?_, fun T t p hT hp hstarted => ?_⟩
  · obtain ⟨p', hP', hstep⟩ := h.proposal hP
    exact ⟨p', hP', hstep.approved hp⟩
  · obtain ⟨t', hT', hsame, hexecuted⟩ := h.transaction hT hp hstarted
    exact ⟨t', hT', hsame, by rw [hexecuted]; exact id⟩

theorem Effects.sealed (h : Effects F c acc acc') : Sealed acc acc' := by
  induction h with
  | refl => exact .refl acc
  | tail _ hstep ih => exact ih.trans hstep.sealed

theorem Sealed.of_ne {k : Address} {a : Account} (h : Persists acc (update acc k a))
    (hproposal : (acc k).proposal? = none) (htransaction : (acc k).transaction? = none) :
    Sealed acc (update acc k a) := by
  refine ⟨h, fun P p hP hp => ⟨p, ?_, rfl, hp⟩, fun T t p hT _ _ => ⟨t, ?_, .refl t, id⟩⟩
  · rw [update_of_ne, hP]
    rintro rfl
    rw [hP] at hproposal
    cases hproposal
  · rw [update_of_ne, hT]
    rintro rfl
    rw [hT] at htransaction
    cases htransaction

end Sealed

/-! ## Executed transactions -/

/-- What is known when the instructions of a transaction begin. -/
structure Begun (accounts : List AccountMeta) (w : World) (e : Execution) : Prop where
  governance : w.accounts e.governance = .governance e.governanceData
  proposal : w.accounts e.proposal = .proposal e.proposalData
  transaction : w.accounts e.transaction = .transaction e.transactionData
  names : ∃ rest, accounts.map AccountMeta.key = e.governance :: e.proposal :: e.transaction :: rest
  ofGovernance : e.proposalData.governance = e.governance
  ofProposal : e.transactionData.proposal = e.proposal
  executable : e.proposalData.isExecutable = true
  option : ∃ o, e.proposalData.options[e.transactionData.optionIndex]? = some o ∧
    o.voteResult = .succeeded
  heldUp : ∃ completedAt, e.proposalData.votingCompletedAt = some completedAt ∧
    completedAt + e.transactionData.holdUpTime < w.unixTimestamp
  notExecuted : e.transactionData.executedAt = none

variable {e : Execution} {i : InstructionData} {now : ℤ}

theorem beginExecuteTransaction_ok {accounts : List AccountMeta} {w : World}
    (h : beginExecuteTransaction accounts w = .ok e) : Begun accounts w e := by
  simp only [beginExecuteTransaction, checks, World.reads, Account.views] at h
  obtain ⟨_, _, e₀, _, _, e₁, _, it, e₂, _,
    hgovernance, _, ⟨hproposal, hpgov⟩, _, ⟨htransaction, htproposal⟩, _, hcan,
    rfl⟩ := h
  obtain ⟨hexecutable, hoption, hheld, hexecuted⟩ := assertCanExecuteTransaction_ok hcan
  refine ⟨hgovernance, hproposal, htransaction, ⟨it.map AccountMeta.key, ?_⟩, hpgov, htproposal,
    hexecutable, hoption, hheld, hexecuted⟩
  simp only [e₀, e₁, e₂, map_cons]

/-- Marking a transaction as executed keeps the decision. -/
theorem Execution.executed_ok {p' : ProposalV2} (hexecutable : e.proposalData.isExecutable = true)
    (hdeny : e.proposalData.denyVoteWeight ≠ none)
    (h : e.executed now = .ok p') : p'.decision = e.proposalData.decision ∧ p'.Approved := by
  simp only [Execution.executed, checks, checkedAdd_eq_ok] at h
  set q : ProposalV2 := if e.proposalData.state = .succeeded then _ else _ with hq
  have hdecision : q.decision = e.proposalData.decision := by
    rw [hq]
    split <;> rfl
  have hexecutable' : q.isExecutable = true := by
    rw [hq]
    split
    · rfl
    · exact hexecutable
  have hdeny' : q.denyVoteWeight = e.proposalData.denyVoteWeight :=
    congrArg (fun d => d.ballot.denyVoteWeight) hdecision
  obtain ⟨o, ho, n, -, h⟩ := h
  let o' : ProposalOption := { o with transactionsExecutedCount := n }
  have hset : ({ q with options := q.options.set e.transactionData.optionIndex o' } :
      ProposalV2).decision = q.decision := by
    simp only [decision, ballot_set_option ho (show o'.voteWeight = _ from rfl),
      map_set_of_eq _ ho (show o'.voteResult = _ from rfl)]
  split at h
  · cases h
    exact ⟨hset.trans hdecision, .inr ⟨rfl, by simpa [hdeny'] using hdeny⟩⟩
  · cases h
    exact ⟨hset.trans hdecision, .inl hexecutable'⟩

/-! ## Transitions -/

/-- The state after the instructions of a transaction: the proposal keeps its decision, and the
transaction is marked. -/
structure Executed (accounts : List AccountMeta) (before : World) (e : Execution)
    (p p' : ProposalV2) (t t' : ProposalTransactionV2) (acc : Address → Account) : Prop where
  begun : Begun accounts before e
  proposal : acc e.proposal = .proposal p
  transaction : acc e.transaction = .transaction t
  approved : p.Approved
  decided : e.proposalData.decision = p.decision
  approved' : p'.Approved
  decision : p'.decision = p.decision
  begunContents : SameContents e.transactionData t
  contents : SameContents t t'
  executed : t'.executedAt ≠ none

/-- One change of the machine. `F` says whether configurations may change. -/
inductive Transition (F : Prop) : Machine → Machine → Prop
  | call {m : Machine} {w : World} {instruction : GovernanceInstruction}
      {accounts : List AccountMeta}
      (h : Runs F (m.world.context instruction accounts) m.world w) :
      Transition F m (m.complete instruction accounts m.world w)
  | executed {m : Machine} {w before : World} {accounts : List AccountMeta} {e : Execution}
      {p p' : ProposalV2} {t t' : ProposalTransactionV2}
      (h : Executed accounts before e p p' t t' m.world.accounts)
      (haccounts : w.accounts = update (update m.world.accounts e.proposal
        (.proposal p')) e.transaction (.transaction t'))
      (htime : w.unixTimestamp = m.world.unixTimestamp) :
      Transition F m (m.complete .executeTransaction accounts before w)
  | token {m : Machine} {w : World} (h : TokenStep m.world.accounts w.accounts)
      (htime : w.unixTimestamp = m.world.unixTimestamp) : Transition F m { m with world := w }
  /-- Time passes, or lamports come in. -/
  | pass {m : Machine} {w : World} (haccounts : w.accounts = m.world.accounts)
      (htime : m.world.unixTimestamp ≤ w.unixTimestamp) : Transition F m { m with world := w }
  | outside {m : Machine} {k : Address} {a : Account} (hk : k.isOutside = true)
      (hold : (m.world.accounts k).isOutside = true) (hnew : a.isOutside = true) :
      Transition F m { m with world := m.world.write k a }
  | reclaim {m : Machine} {k : Address} (hk : m.world.accounts k = .zeroed) :
      Transition F m { m with world := m.world.write k .empty }

abbrev Transitions (F : Prop) : Machine → Machine → Prop := Relation.ReflTransGen (Transition F)

section Transitions

variable {F : Prop} {m m' : Machine}

variable {accounts : List AccountMeta} {before : World} {e : Execution} {p p' : ProposalV2}
  {t t' : ProposalTransactionV2}

variable {acc : Address → Account}

variable (h : Executed accounts before e p p' t t' acc)
include h

theorem Executed.keeps :
    Keeps acc (update (update acc e.proposal (.proposal p')) e.transaction
      (.transaction t')) := by
  have hballot := decision_ballot h.decision
  have hdeny : p'.denyVoteWeight = p.denyVoteWeight := congrArg Ballot.denyVoteWeight hballot
  have hT := update_eq_of_ne (x := .proposal p') h.transaction h.proposal
  refine .trans (.write h.proposal (.proposal (identity_of_ballot hballot)
    fun _ => h.approved'.not_pending) fun hplaced => ?_) (.write hT (.of_none rfl rfl)
    fun hplaced => ?_)
  · have hp := hplaced.of_eq h.proposal
    refine hp.proposal_of_ballot hballot ⟨fun hvoting => absurd hvoting h.approved'.state.2.2, ?_⟩
    rw [hdeny]
    intro
    rcases h.approved with hexecutable | ⟨-, hsome⟩
    · exact hp.2.2.2.2.2.executable hexecutable
    · exact hsome
  · have ht := hplaced.of_eq hT
    obtain ⟨haddress, _⟩ := ht
    exact ⟨by rw [haddress, h.contents.proposal, h.contents.optionIndex,
      h.contents.transactionIndex], by rwa [h.contents.proposal]⟩

theorem Executed.sealed :
    Sealed acc (update (update acc e.proposal (.proposal p')) e.transaction
      (.transaction t')) := by
  have hT := update_eq_of_ne (x := .proposal p') h.transaction h.proposal
  refine ⟨h.keeps.persists, fun P q hP hq => ?_, fun T s q hTs _ _ => ?_⟩
  · by_cases heq : P = e.proposal
    · subst heq
      rw [h.proposal] at hP
      cases hP
      exact ⟨p', update_eq_of_ne (update_self ..) hT, h.decision, h.approved'⟩
    · refine ⟨q, update_eq_of_ne ?_ hT, rfl, hq⟩
      rwa [update_of_ne heq]
  · by_cases heq : T = e.transaction
    · subst heq
      rw [h.transaction] at hTs
      cases hTs
      exact ⟨t', update_self .., h.contents, fun _ => h.executed⟩
    · refine ⟨s, ?_, .refl s, id⟩
      rw [update_of_ne heq]
      exact update_eq_of_ne hTs h.proposal

omit h

theorem Continues.of_isOutside {a a' : Account} (h : a.isOutside = true) : Continues a a' := by
  cases a <;> simp [Account.isOutside] at h <;> exact .of_none rfl rfl

/-- **Step.** Every transition keeps accounts placed and decisions sealed. -/
theorem Transition.keeps (h : Transition F m m') : Keeps m.world.accounts m'.world.accounts := by
  cases h with
  | call h => exact h.1.keeps
  | executed h haccounts => exact haccounts ▸ h.keeps
  | token h => exact h.keeps
  | pass haccounts => exact haccounts ▸ .refl _
  | @outside _ a _ hold hnew =>
    refine .write rfl (.of_isOutside hold) fun _ => ?_
    cases a <;> simp [Account.isOutside] at hnew <;> trivial
  | reclaim hk => exact .write hk (.of_none rfl rfl) fun _ => trivial

theorem Transition.sealed (h : Transition F m m') : Sealed m.world.accounts m'.world.accounts := by
  have hpersists := h.keeps.persists
  cases h with
  | call h => exact h.1.sealed
  | executed h haccounts => exact haccounts ▸ h.sealed
  | token h => exact (Effect.token (F := F) (c := m.world.context .finalizeVote []) h).sealed
  | pass haccounts => exact haccounts ▸ .refl _
  | @outside k _ _ hold =>
    cases hold' : m.world.accounts k <;> simp [Account.isOutside, hold'] at hold <;>
      exact .of_ne hpersists (by rw [hold']; rfl) (by rw [hold']; rfl)
  | reclaim hk => exact .of_ne hpersists (by rw [hk]; rfl) (by rw [hk]; rfl)

/-- **Run.** -/
theorem Transitions.keeps (h : Transitions F m m') : Keeps m.world.accounts m'.world.accounts := by
  induction h with
  | refl => exact .refl _
  | tail _ hstep ih => exact ih.trans hstep.keeps

theorem Transitions.sealed (h : Transitions F m m') :
    Sealed m.world.accounts m'.world.accounts := by
  induction h with
  | refl => exact .refl _
  | tail _ hstep ih => exact ih.trans hstep.sealed

theorem Transitions.history (h : Transitions F m m') : m.history <:+ m'.history := by
  induction h with
  | refl => exact suffix_rfl
  | tail _ hstep ih =>
    refine ih.trans ?_
    cases hstep with
    | call | executed => exact suffix_cons ..
    | token | pass | outside | reclaim => exact suffix_rfl

theorem Transitions.kept {G : Prop} (h : Transitions G m m')
    (hF : F ∨ ∀ c ∈ m'.history, ConfigsKept c.before c.after) :
    F ∨ ∀ c ∈ m.history, ConfigsKept c.before c.after :=
  hF.imp_right fun hkept c hc => hkept c (h.history.subset hc)

end Transitions

/-! ## Calls -/

section Calls

variable {F : Prop} {rent : Account → ℕ}

def CanSign (accounts : List AccountMeta) : Prop :=
  ∀ a ∈ accounts, a.isSigner = true → a.key.canSign = true

variable {accounts : List AccountMeta}

theorem Execution.signers_canSign (hsign : CanSign accounts) {k : Address}
    (hk : k ∈ e.signers accounts) : k.canSign = true := by
  simp only [Execution.signers, mem_append, mem_map, mem_filter, mem_cons] at hk
  rcases hk with ⟨a, ⟨ha, hsigner⟩, rfl⟩ | rfl | hk
  · exact hsign a ha hsigner
  · rfl
  · split at hk
    · rw [mem_singleton] at hk
      rw [hk]
      rfl
    · cases hk

/-- Completed calls are chains of transitions. -/
def Flattens (F : Prop)
    (call : GovernanceInstruction → List AccountMeta → Machine → Except Fault Machine) : Prop :=
  ∀ instruction accounts m m', Placed m.world.accounts → CanSign accounts →
    call instruction accounts m = .ok m' →
    (F ∨ ∀ c ∈ m'.history, ConfigsKept c.before c.after) → Transitions F m m'

section Instructions

variable {call : GovernanceInstruction → List AccountMeta → Machine → Except Fault Machine}
  {signers available : List Address}

theorem invokeSigned_transitions (hcall : Flattens F call) {m m' : Machine}
    (hplaced : Placed m.world.accounts) (hsigners : ∀ k ∈ signers, k.canSign = true)
    (h : invokeSigned call signers available m i = .ok m')
    (hF : F ∨ ∀ c ∈ m'.history, ConfigsKept c.before c.after) : Transitions F m m' := by
  simp only [invokeSigned, checks] at h
  obtain ⟨hsigned, -, h⟩ := h
  have hsign : CanSign i.accounts := by
    intro a ha hsigner
    refine hsigners _ ?_
    by_contra hnot
    exact hsigned ⟨a, ha, hsigner, hnot⟩
  cases i with
  | governance => exact hcall _ _ _ _ hplaced hsign h hF
  | token =>
    simp only [checks] at h
    obtain ⟨_, hw, rfl⟩ := h
    have hstep := tokenProcess_ok (hsign _ (mem_singleton.mpr rfl) rfl) hw
    exact .single (.token hstep.1 hstep.2)
  | other =>
    cases h
    exact .refl

/-- The instructions of a transaction, one after the other. Configurations that are kept at the end
were kept by each call, since the history only grows. -/
theorem foldlM_transitions (hcall : ∀ F, Flattens F call)
    (hsigners : ∀ k ∈ signers, k.canSign = true) :
    ∀ {instructions : List InstructionData} {F : Prop} {m m' : Machine}, Placed m.world.accounts →
      instructions.foldlM (invokeSigned call signers available) m = .ok m' →
      (F ∨ ∀ c ∈ m'.history, ConfigsKept c.before c.after) → Transitions F m m'
  | [], _, m, m', _, h, _ => by
    cases h
    exact .refl
  | i :: instructions, F, m, m', hplaced, h, hF => by
    rw [foldlM_cons, bind_eq_ok] at h
    obtain ⟨m₁, hm₁, h⟩ := h
    have hplaced₁ := (invokeSigned_transitions (hcall True) hplaced hsigners hm₁
      (.inl trivial)).keeps.placed hplaced
    have hrest : Transitions True m₁ m' :=
      foldlM_transitions hcall hsigners hplaced₁ h (.inl trivial)
    exact (invokeSigned_transitions (hcall F) hplaced hsigners hm₁ (hrest.kept hF)).trans
      (foldlM_transitions hcall hsigners hplaced₁ h hF)

end Instructions

/-- What was begun is finished on what the calls left. -/
theorem finishExecuteTransaction_ok {before w w' : World}
    (hplaced : Placed before.accounts) (hbegun : Begun accounts before e)
    (hsealed : Sealed before.accounts w.accounts) (h : finishExecuteTransaction e now w = .ok w') :
    ∃ p p' t t', Executed accounts before e p p' t t' w.accounts ∧
      w'.accounts = update (update w.accounts e.proposal (.proposal p'))
        e.transaction (.transaction t') ∧ w'.unixTimestamp = w.unixTimestamp := by
  have hat := hplaced.of_eq hbegun.proposal
  have happroved : e.proposalData.Approved := .inl hbegun.executable
  obtain ⟨p, hp, hdecision, happroved'⟩ := hsealed.approved _ _ hbegun.proposal happroved
  obtain ⟨t, ht, hcontents, -⟩ := hsealed.contents _ _ _ hbegun.transaction
    (hbegun.ofProposal ▸ hbegun.proposal) happroved.not_pending
  simp only [finishExecuteTransaction, checks] at h
  obtain ⟨p', hp', rfl⟩ := h
  obtain ⟨hdecision', happroved''⟩ := Execution.executed_ok hbegun.executable
    (hat.2.2.2.2.2.executable hbegun.executable) hp'
  refine ⟨p, p', t, _, ⟨hbegun, hp, ht, happroved', hdecision.symm, happroved'',
    hdecision'.trans hdecision.symm, hcontents, ?_, ?_⟩, rfl, rfl⟩
  · exact ⟨hcontents.proposal.symm, hcontents.optionIndex.symm, hcontents.transactionIndex.symm,
      hcontents.holdUpTime.symm, hcontents.instructions.symm⟩
  · exact Option.some_ne_none _

theorem process_ok {depth : ℕ} {instruction : GovernanceInstruction} {m m' : Machine}
    (h : process rent depth instruction accounts m = .ok m') :
    (∃ depth' e m₁ w, depth = depth' + 1 ∧ instruction = .executeTransaction ∧
      beginExecuteTransaction accounts m.world = .ok e ∧
      e.transactionData.instructions.foldlM (invokeSigned (process rent depth') (e.signers accounts)
        (e.instructionAccounts.map AccountMeta.key)) m = .ok m₁ ∧
      finishExecuteTransaction e m.world.unixTimestamp m₁.world = .ok w ∧
      m' = m₁.complete .executeTransaction accounts m.world w) ∨
    ∃ w, processInstruction rent accounts instruction m.world = .ok w ∧
      m' = m.complete instruction accounts m.world w := by
  unfold process at h
  split at h
  next => cases h
  next =>
    simp only [checks] at h
    obtain ⟨e, he, m₁, hm₁, w, hw, rfl⟩ := h
    exact .inl ⟨_, e, m₁, w, rfl, rfl, he, hm₁, hw, rfl⟩
  next =>
    simp only [checks] at h
    obtain ⟨w, hw, rfl⟩ := h
    exact .inr ⟨w, hw, rfl⟩

/-- Every call is a chain of transitions, by induction on the call depth. -/
theorem process_transitions (depth : ℕ) (F : Prop) : Flattens F (process rent depth) := by
  induction depth generalizing F with
  | zero => exact fun _ _ _ _ _ _ h => by cases h
  | succ depth ih =>
    intro instruction accounts m m' hplaced hsign h hF
    rcases process_ok h with ⟨depth', e, m₁, w, hdepth, -, hbegin, hfold, hfinish, rfl⟩ |
      ⟨w, hw, rfl⟩
    · obtain rfl : depth = depth' := Nat.succ.inj hdepth
      have hF₁ : F ∨ ∀ c ∈ m₁.history, ConfigsKept c.before c.after :=
        hF.imp_right fun hkept c hc => hkept c (mem_cons_of_mem _ hc)
      have hcalls := foldlM_transitions ih (fun k hk => Execution.signers_canSign hsign hk)
        hplaced hfold hF₁
      obtain ⟨_, _, _, _, hexecuted, haccounts, htime⟩ := finishExecuteTransaction_ok hplaced
        (beginExecuteTransaction_ok hbegin) hcalls.sealed hfinish
      exact hcalls.tail (.executed hexecuted haccounts htime)
    · refine .single (.call (processInstruction_runs hplaced hsign hw ?_))
      exact .inr (hF.imp_right fun hkept => hkept _ (mem_cons_self ..))

end Calls

/-! ## Reachable states -/

/-- The states in which the program may be called, with the call depth that is left: after any
number of events from an empty store, and between the calls of a transaction that is executed. -/
inductive Reachable (rent : Account → ℕ) : ℕ → Machine → Prop
  | start {m : Machine} (haccounts : m.world.accounts = fun _ => .empty) (hhistory : m.history = []) :
      Reachable rent maxDepth m
  | step {m : Machine} (e : Event) (h : Reachable rent maxDepth m) :
      Reachable rent maxDepth (m.step rent e)
  | nested {depth : ℕ} {m m' : Machine} {accounts : List AccountMeta} {e : Execution}
      {done left : List InstructionData} (h : Reachable rent (depth + 1) m)
      (hsign : CanSign accounts) (hbegin : beginExecuteTransaction accounts m.world = .ok e)
      (hinstructions : e.transactionData.instructions = done ++ left)
      (hdone : done.foldlM (invokeSigned (process rent depth) (e.signers accounts)
        (e.instructionAccounts.map AccountMeta.key)) m = .ok m') : Reachable rent depth m'

/-- The configurations of realms and governances stayed as they were in every call so far. -/
def Machine.ConfigsFixed (m : Machine) : Prop := ∀ c ∈ m.history, ConfigsKept c.before c.after

variable {F : Prop} {m : Machine} {depth : ℕ} {e : Event}

theorem Machine.step_transitions {rent : Account → ℕ}
    (hplaced : Placed m.world.accounts) (hF : F ∨ (m.step rent e).ConfigsFixed) :
    Transitions F m (m.step rent e) := by
  cases e with
  | tick seconds =>
    refine .single (.pass rfl ?_)
    exact Int.le_add_of_nonneg_right (Int.natCast_nonneg seconds)
  | deposit => exact .single (.pass rfl (Int.le_refl _))
  | instruction =>
    simp only [step] at hF ⊢
    split
    next hsign =>
      split
      next m' h =>
        refine process_transitions maxDepth F _ _ _ _ hplaced
          (fun a ha hsigner => Address.canSign_of_isWallet (hsign a ha hsigner)) h ?_
        rw [if_pos hsign, h] at hF
        exact hF
      next => exact .refl
    next => exact .refl
  | token =>
    simp only [step]
    split
    next hsign =>
      split
      next w h =>
        have hstep := tokenProcess_ok (Address.canSign_of_isWallet hsign) h
        exact .single (.token hstep.1 hstep.2)
      next => exact .refl
    next => exact .refl
  | outside =>
    simp only [step]
    split
    next h => exact .single (.outside h.1 h.2.1 h.2.2)
    next => exact .refl
  | reclaim =>
    simp only [step]
    split
    next hzeroed =>
      split
      · exact .single (.reclaim hzeroed)
      · exact .refl
    next => exact .refl

theorem placed_empty : Placed fun _ => .empty := fun _ => trivial

/-- **Run.** Every reachable state is reached from an empty store by transitions. If configurations
stayed fixed, none of them changes one. -/
theorem Reachable.transitions {rent : Account → ℕ} (h : Reachable rent depth m)
    (hF : F ∨ m.ConfigsFixed) :
    ∃ m₀ : Machine, (m₀.world.accounts = fun _ => .empty) ∧ m₀.history = [] ∧
      Transitions F m₀ m := by
  induction h generalizing F with
  | @start m haccounts hhistory => exact ⟨m, haccounts, hhistory, .refl⟩
  | @step m e _ ih =>
    obtain ⟨_, hempty, -, hrun⟩ := ih (F := True) (.inl trivial)
    have hplaced := hrun.keeps.placed (hempty ▸ placed_empty)
    have hlast : Transitions True m (m.step rent e) := step_transitions hplaced (.inl trivial)
    obtain ⟨m₀, haccounts, hhistory, hrun⟩ := ih (hlast.kept hF)
    exact ⟨m₀, haccounts, hhistory, hrun.trans (step_transitions hplaced hF)⟩
  | @nested depth m _ accounts _ _ _ _ hsign _ _ hdone ih =>
    obtain ⟨_, hempty, -, hrun⟩ := ih (F := True) (.inl trivial)
    have hplaced := hrun.keeps.placed (hempty ▸ placed_empty)
    have hcalls {F : Prop} := foldlM_transitions (F := F) (process_transitions depth)
      (fun k hk => Execution.signers_canSign hsign hk) hplaced hdone
    have hall : Transitions True _ _ := hcalls (.inl trivial)
    obtain ⟨m₀, haccounts, hhistory, hrun⟩ := ih (hall.kept hF)
    exact ⟨m₀, haccounts, hhistory, hrun.trans (hcalls hF)⟩

theorem Reachable.invariant {rent : Account → ℕ} {I : Machine → Prop}
    (hstart : ∀ m : Machine, (m.world.accounts = fun _ => .empty) → m.history = [] → I m)
    (hstep : ∀ m m', Transition F m m' → I m → I m') (h : Reachable rent depth m)
    (hF : F ∨ m.ConfigsFixed) : I m := by
  obtain ⟨m₀, haccounts, hhistory, hrun⟩ := h.transitions hF
  clear h hF
  induction hrun with
  | refl => exact hstart m₀ haccounts hhistory
  | tail _ hlast ih => exact hstep _ _ hlast ih

theorem Reachable.placed {rent : Account → ℕ} (h : Reachable rent depth m) :
    Placed m.world.accounts := by
  refine Reachable.invariant (F := True) (I := fun m => Placed m.world.accounts)
    (fun m haccounts _ => haccounts ▸ placed_empty) (fun m m' hstep => hstep.keeps.placed) h
    (.inl trivial)

/-! ## A run -/

variable {c : Context} {acc acc' : Address → Account}

theorem Effect.configsKept (h : Effect False c acc acc') : ConfigsKept acc acc' := by
  refine ⟨fun k r r' hk hk' => ?_, fun k g g' hk hk' => ?_⟩
  · rcases h.realm_of hk' with ⟨r₀, hr₀, hconfig⟩ | hempty
    · rw [hk] at hr₀
      cases hr₀
      exact hconfig.resolve_right id
    · rw [hk] at hempty
      cases hempty
  · rcases h.governance_of hk' with ⟨g₀, hg₀, hconfig⟩ | hempty
    · rw [hk] at hg₀
      cases hg₀
      exact hconfig.resolve_right id
    · rw [hk] at hempty
      cases hempty

theorem Effects.configsKept (h : Effects False c acc acc') : ConfigsKept acc acc' := by
  induction h with
  | refl =>
    refine ⟨fun k r r' hk hk' => ?_, fun k g g' hk hk' => ?_⟩
    · rw [hk] at hk'
      cases hk'
      rfl
    · rw [hk] at hk'
      cases hk'
      rfl
  | tail hrun hstep ih =>
    refine ⟨fun k r r' hk hk' => ?_, fun k g g' hk hk' => ?_⟩
    · obtain ⟨r₁, hr₁, -⟩ := (Effects.keeps hrun).persists.realm hk
      exact (hstep.configsKept.1 k r₁ r' hr₁ hk').trans (ih.1 k r r₁ hk hr₁)
    · obtain ⟨g₁, hg₁, -⟩ := (Effects.keeps hrun).persists.governance hk
      exact (hstep.configsKept.2 k g₁ g' hg₁ hk').trans (ih.2 k g g₁ hk hg₁)

/-- Events that change no configuration: `SetRealmConfig` and `SetGovernanceConfig` do, and so may
what a transaction executes. -/
def Event.keepsConfigs : Event → Bool
  | instruction i _ => i.keepsConfigs
  | _ => true

theorem Machine.ConfigsFixed.step {rent : Account → ℕ} (hfixed : m.ConfigsFixed)
    (hplaced : Placed m.world.accounts) (he : e.keepsConfigs = true) :
    (m.step rent e).ConfigsFixed := by
  cases e with
  | tick | deposit => exact hfixed
  | instruction =>
    simp only [Machine.step]
    split
    next hsign =>
      split
      next m' h =>
        rcases process_ok h with ⟨_, _, _, _, -, rfl, -⟩ | ⟨w, hw, rfl⟩
        · cases he
        · intro c hc
          rcases mem_cons.mp hc with rfl | hc
          · have hruns := processInstruction_runs (F := False) hplaced (fun a ha hsigner =>
              Address.canSign_of_isWallet (hsign a ha hsigner)) hw (.inl he)
            exact hruns.1.configsKept
          · exact hfixed c hc
      next => exact hfixed
    next => exact hfixed
  | token | reclaim =>
    simp only [Machine.step]
    repeat' split
    all_goals exact hfixed
  | outside =>
    simp only [Machine.step]
    split <;> exact hfixed

namespace Run

/-- The founder of the realm, who pays for everything. -/
def founder : Address := .wallet 0

def mint : Address := .wallet 1

def tokens : Address := .wallet 2

/-- Stands for the programs and the sysvars in account lists. -/
def program : Address := .wallet 3

def realm : Address := getRealmAddress [1]

def governance : Address := .governance .account realm program

def record : Address := getTokenOwnerRecordAddress realm mint founder

def proposal : Address := .proposal governance mint 0

/-- A governance with a threshold of 60 percent and without tipping. -/
def config : GovernanceConfig := ⟨.yesVote 60, 0, 0, 100, .disabled, 0, 0⟩

def signed (k : Address) : AccountMeta := ⟨k, true⟩

def named (k : Address) : AccountMeta := ⟨k, false⟩

/-- Nothing exists but the founder's lamports. -/
def start : Machine := ⟨⟨fun _ => .empty, fun k => if k = founder then 1000 else 0, 0, 0⟩, []⟩

def rent : Account → ℕ := fun _ => 1

def found (supply : ℕ) : List Event :=
  [.token (.initializeMint mint founder none),
   .token (.initializeAccount tokens mint founder),
   .token (.mintTo mint tokens founder supply),
   .instruction (.createRealm [1] ⟨false, 0, .supplyFraction supplyFractionBase, false, false⟩)
     [named realm, named founder, named mint, named (getGoverningTokenHoldingAddress realm mint),
      signed founder, named program, named program, named program],
   .instruction (.depositGoverningTokens supply)
     [named realm, named (getGoverningTokenHoldingAddress realm mint), named tokens,
      signed founder, signed founder, named record, signed founder, named program, named program],
   .instruction (.createGovernance config)
     [named realm, named governance, named program, named record, signed founder, named program,
      signed founder]]

def draft : List Event :=
  [.instruction (.createProposal [1] [] .singleChoice [[1]] true)
     [named realm, named proposal, named governance, named record, named mint, signed founder,
      signed founder, named program, named (.realmConfig realm)]]

def openVote : List Event :=
  [.instruction .signOffProposal
     [named realm, named governance, named proposal, signed founder, named record]]

def vote (vote : Vote) : List Event :=
  [.instruction (.castVote vote)
     [named realm, named governance, named proposal, named record, named record, signed founder,
      named (getVoteRecordAddress proposal record), named mint, signed founder, named program,
      named (.realmConfig realm)]]

def approve : Vote := .approve [⟨0, 100⟩]

def transaction : Address := .transaction proposal 0 0

def approved : List Event :=
  found 10 ++ draft ++
  [.instruction (.insertTransaction 0 0 0 [.token (.mintTo mint tokens founder 5)])
     [named governance, named proposal, named record, signed founder, named transaction,
      signed founder, named program, named program]] ++
  openVote ++ vote approve ++
  [.tick 101 0,
   .instruction .finalizeVote
     [named realm, named governance, named proposal, named record, named mint,
      named (.realmConfig realm)]]

def execution : List Event :=
  [.tick 1 0,
   .instruction .executeTransaction
     [named governance, named proposal, named transaction, signed founder]]

def after (events : List Event) : Machine := events.foldl (.step rent) start

theorem reachable (events : List Event) : Reachable rent maxDepth (after events) := by
  have hstart : Reachable rent maxDepth start := .start rfl rfl
  unfold after
  generalize start = m at hstart
  induction events generalizing m with
  | nil => exact hstart
  | cons e _ ih => exact ih _ (.step e hstart)

theorem configsFixed {events : List Event} (h : ∀ e ∈ events, e.keepsConfigs = true) :
    (after events).ConfigsFixed := by
  have hstart : Reachable rent maxDepth start := .start rfl rfl
  have hfixed : start.ConfigsFixed := nofun
  unfold after
  generalize start = m at hstart hfixed
  induction events generalizing m with
  | nil => exact hfixed
  | cons e _ ih =>
    exact ih (fun e' he' => h e' (mem_cons_of_mem e he')) _ (.step e hstart)
      (hfixed.step hstart.placed (h e (mem_cons_self ..)))

end Run

/-- **Decisions are final.** Whatever follows a reachable state, an approved proposal stays approved
with the decision it has, and the transactions of a proposal that is no longer pending keep their
contents and, once executed, stay executed. -/
theorem decisions_final {rent : Account → ℕ} {m : Machine} (h : Reachable rent maxDepth m)
    (events : List Event) :
    Sealed m.world.accounts (events.foldl (.step rent) m).world.accounts := by
  induction events generalizing m with
  | nil => exact .refl _
  | cons e _ ih =>
    have hstep : Transitions True m (m.step rent e) := m.step_transitions h.placed (.inl trivial)
    exact hstep.sealed.trans (ih (h.step e))

/-- The approved proposal is executed, which completes it. -/
theorem decisions_final_executed :
    let m := Run.after Run.approved
    let m' := Run.execution.foldl (.step Run.rent) m
    ((m.world.accounts Run.proposal).proposal?.map (·.state),
      (m.world.accounts Run.transaction).transaction?.map (·.executedAt)) =
      (some .succeeded, some none) ∧
    Sealed m.world.accounts m'.world.accounts ∧
    ((m'.world.accounts Run.proposal).proposal?.map (·.state),
      (m'.world.accounts Run.transaction).transaction?.map (·.executedAt),
      (m'.world.accounts Run.tokens).token?.map (·.amount)) =
      (some .completed, some (some 102), some 5) :=
  ⟨by decide +kernel, decisions_final (Run.reachable _) _, by decide +kernel⟩

end SolanaPrograms.Governance
