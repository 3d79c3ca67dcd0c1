import SolanaPrograms.Governance.Effects

/-!
# Counting votes

What a vote adds to the weights of a proposal, what withdrawing it takes away, and what the two ways
to end a vote, tipping and finalizing, decide.
-/

namespace SolanaPrograms.Governance

open Outcome ProposalV2 ProposalOption List Option

/-! ## The weight of a vote -/

variable (vote : Vote)

def Vote.approval (i weight : ℕ) : ℕ :=
  match vote with
  | .approve choices =>
    match choices[i]? with
    | some choice => if choice.weightPercentage = 100 then weight else 0
    | none => 0
  | _ => 0

def Vote.denial (weight : ℕ) : ℕ :=
  match vote with
  | .deny => weight
  | _ => 0

theorem Vote.approval_add_denial_le (i weight : ℕ) :
    vote.approval i weight + vote.denial weight ≤ weight := by
  cases vote with
  | approve =>
    simp only [approval, denial]
    split
    · split <;> omega
    · omega
  | deny => simp [approval, denial]
  | abstain => simp [approval, denial]
  | veto => simp [approval, denial]

variable {weight maxVoterWeight minimum best count : ℕ} {rel : ℕ → ℕ → ℕ → Prop}
  {p q p' : ProposalV2} {vote : Vote} {config : GovernanceConfig} {now : ℤ}
  {options : List ProposalOption}

theorem getChoiceWeight_ok {choice : VoteChoice} {x : ℕ} (h : choice.getChoiceWeight weight = .ok x)
    : x = if choice.weightPercentage = 100 then weight else 0 := by
  unfold VoteChoice.getChoiceWeight at h
  split at h
  next hc =>
    cases h
    rw [if_pos hc]
  next hc =>
    split at h
    · cases h
      rw [if_neg hc]
    · cases h

variable {op : ℕ → ℕ → Except Fault ℕ} {rest : List ProposalOption} {option : ProposalOption}

theorem weighOptions_ok :
    ∀ {options : List ProposalOption} {choices : List VoteChoice} {options' : List ProposalOption},
      options.length = choices.length →
      weighOptions op weight options choices = .ok options' →
      options'.length = options.length ∧ ∀ i o', options'[i]? = some o' →
        ∃ o, options[i]? = some o ∧ o' = { o with voteWeight := o'.voteWeight } ∧
          op o.voteWeight ((Vote.approve choices).approval i weight) = .ok o'.voteWeight
  | [], [], options', _, h => by
    cases h
    simp
  | option :: options, choice :: choices, options', hlength, h => by
    simp only [weighOptions, checks] at h
    obtain ⟨_, hx, _, hop, _, hrest, rfl⟩ := h
    obtain ⟨hlen, hih⟩ := weighOptions_ok (by simpa using hlength) hrest
    refine ⟨by simp [hlen], fun i o' hi => ?_⟩
    cases i with
    | zero =>
      simp only [getElem?_cons_zero, some.injEq] at hi
      subst hi
      refine ⟨option, rfl, rfl, ?_⟩
      rw [getChoiceWeight_ok hx] at hop
      simpa [Vote.approval] using hop
    | succ i =>
      rw [getElem?_cons_succ] at hi ⊢
      obtain ⟨o, ho, heq, hop'⟩ := hih i o' hi
      exact ⟨o, ho, heq, by simpa [Vote.approval] using hop'⟩

structure Weighed (rel : ℕ → ℕ → ℕ → Prop) (p q : ProposalV2) (vote : Vote) (weight : ℕ) :
    Prop where
  same : q = { p with options := q.options, denyVoteWeight := q.denyVoteWeight }
  length : q.options.length = p.options.length
  options : ∀ i o', q.options[i]? = some o' → ∃ o, p.options[i]? = some o ∧
    o' = { o with voteWeight := o'.voteWeight } ∧
    rel o.voteWeight (vote.approval i weight) o'.voteWeight
  isSome : q.denyVoteWeight.isSome = p.denyVoteWeight.isSome
  deny : rel (p.denyVoteWeight.getD 0) (vote.denial weight) (q.denyVoteWeight.getD 0)

theorem weighVote_ok (hop : ∀ {a b c}, op a b = .ok c → rel a b c) (hzero : ∀ a, rel a 0 a)
    (hlength : ∀ choices, vote = .approve choices → p.options.length = choices.length)
    (h : p.weighVote op vote weight = .ok q) : Weighed rel p q vote weight := by
  cases vote with
  | approve choices =>
    simp only [weighVote, checks] at h
    obtain ⟨_, hoptions, rfl⟩ := h
    obtain ⟨hlen, hall⟩ := weighOptions_ok (hlength choices rfl) hoptions
    refine ⟨rfl, hlen, fun i o' hi => ?_, rfl, hzero _⟩
    obtain ⟨o, ho, heq, hrel⟩ := hall i o' hi
    exact ⟨o, ho, heq, hop hrel⟩
  | deny =>
    simp only [weighVote, checks] at h
    obtain ⟨_, hd, _, hd', rfl⟩ := h
    refine ⟨rfl, rfl, fun i o' hi => ⟨o', hi, rfl, hzero _⟩, by simp [hd], ?_⟩
    simpa [hd, Vote.denial] using hop hd'
  | abstain => cases h
  | veto => cases h

abbrev Counted := Weighed fun a b c => c = a + b

/-- Taking a vote back. -/
abbrev Uncounted := Weighed fun a b c => c + b = a

theorem assertValidVote_length {choices : List VoteChoice} {u : Unit}
    (h : p.assertValidVote (.approve choices) = .ok u) : p.options.length = choices.length := by
  simp only [assertValidVote, checks, ne_eq, not_not] at h
  exact h.1

theorem counted_of_weighVote {u : Unit} (hvalid : p.assertValidVote vote = .ok u)
    (h : p.weighVote (checkedAdd 64) vote weight = .ok q) : Counted p q vote weight := by
  refine weighVote_ok (fun hop => ?_) (fun a => rfl) (fun choices hvote => ?_) h
  · exact (checkedAdd_eq_ok.mp hop).2.symm
  · subst hvote
    exact assertValidVote_length hvalid

theorem uncounted_of_weighVote
    (hlength : ∀ choices, vote = .approve choices → p.options.length = choices.length)
    (h : p.weighVote checkedSub vote weight = .ok q) : Uncounted p q vote weight := by
  refine weighVote_ok (fun hop => ?_) (fun a => rfl) hlength h
  obtain ⟨hle, rfl⟩ := checkedSub_eq_ok.mp hop
  exact Nat.sub_add_cancel hle

theorem Weighed.identity (h : Weighed rel p q vote weight) :
    (Account.proposal q).identity = (Account.proposal p).identity := by
  have hlength := h.length
  have hsome := h.isSome
  have hsame := h.same
  generalize q.options = options at hsame hlength
  generalize q.denyVoteWeight = deny at hsame hsome
  subst hsame
  simp [Account.identity, hlength, hsome]

theorem Weighed.state (h : Weighed rel p q vote weight) : q.state = p.state := by
  rw [h.same]

/-! ## Tipping -/

/-- What tipping writes: the results and the end of the vote. -/
structure Tipped (q p' : ProposalV2) (maxVoterWeight : ℕ) (config : GovernanceConfig) (now : ℤ) :
    Prop where
  ballot : p'.ballot = q.ballot
  completed : p'.votingCompletedAt = some now
  maxVoteWeight : p'.maxVoteWeight = some maxVoterWeight
  threshold : p'.voteThresholdPercentage = some config.voteThresholdPercentage
  votingAt : p'.votingAt = q.votingAt
  state : p'.state = .defeated ∨ p'.state = .succeeded
  /-- A vote tips to success on a single option, by one of three conditions. -/
  succeeded : p'.state = .succeeded → q.voteType = .singleChoice ∧ ∃ yes deny,
    q.options = [yes] ∧ q.denyVoteWeight = some deny ∧
    (yes.voteWeight = maxVoterWeight ∨ ∃ minimum,
      getMinVoteThresholdWeight config.voteThresholdPercentage maxVoterWeight = .ok minimum ∧
      minimum ≤ yes.voteWeight ∧
      (maxVoterWeight - yes.voteWeight < yes.voteWeight ∨ deny < yes.voteWeight))

theorem unwrap_eq_ok {α : Type} {x : Except Fault α} {a : α} : unwrap x = .ok a ↔ x = .ok a := by
  cases x <;> simp [unwrap]

theorem tryGetTippedVoteState_ok {q' : ProposalV2} {result : Option ProposalState}
    (h : q.tryGetTippedVoteState maxVoterWeight config = .ok (q', result)) :
    (result = none ∧ q' = q) ∨ ∃ yes deny r state, q.voteType = .singleChoice ∧ q.options = [yes] ∧
      q.denyVoteWeight = some deny ∧ result = some state ∧
      q' = { q with options := [{ yes with voteResult := r }] } ∧
      (state = .defeated ∨ state = .succeeded ∧ (yes.voteWeight = maxVoterWeight ∨ ∃ minimum,
        getMinVoteThresholdWeight config.voteThresholdPercentage maxVoterWeight = .ok minimum ∧
        minimum ≤ yes.voteWeight ∧
        (maxVoterWeight - yes.voteWeight < yes.voteWeight ∨ deny < yes.voteWeight))) := by
  unfold tryGetTippedVoteState at h
  split at h
  next deny yes htype hdeny hoptions =>
    dsimp only at h
    split at h
    next hall =>
      cases h
      exact .inr ⟨yes, deny, _, _, htype, hoptions, hdeny, rfl, rfl, .inr ⟨rfl, .inl hall⟩⟩
    next =>
      split at h
      · cases h
        exact .inr ⟨yes, deny, _, _, htype, hoptions, hdeny, rfl, rfl, .inl rfl⟩
      · rw [bind_eq_ok] at h
        obtain ⟨minimum, hminimum, h⟩ := h
        rw [unwrap_eq_ok] at hminimum
        split at h
        next hstrict =>
          cases h
          exact .inr ⟨yes, deny, _, _, htype, hoptions, hdeny, rfl, rfl,
            .inr ⟨rfl, .inr ⟨minimum, hminimum, hstrict.2.1, .inl hstrict.2.2⟩⟩⟩
        next =>
          split at h
          next hearly =>
            cases h
            exact .inr ⟨yes, deny, _, _, htype, hoptions, hdeny, rfl, rfl,
              .inr ⟨rfl, .inr ⟨minimum, hminimum, hearly.2.1, .inr hearly.2.2⟩⟩⟩
          next =>
            split at h
            · cases h
              exact .inr ⟨yes, deny, _, _, htype, hoptions, hdeny, rfl, rfl, .inl rfl⟩
            · cases h
              exact .inl ⟨rfl, rfl⟩
  next =>
    cases h
    exact .inl ⟨rfl, rfl⟩

theorem tryTipVote_ok {tipped : Bool}
    (h : q.tryTipVote maxVoterWeight config now = .ok (p', tipped)) :
    (tipped = false ∧ p' = q) ∨ tipped = true ∧ Tipped q p' maxVoterWeight config now := by
  simp only [tryTipVote, checks] at h
  obtain ⟨_, _, hresult, h⟩ := h
  rcases tryGetTippedVoteState_ok hresult with ⟨rfl, rfl⟩ |
    ⟨yes, deny, r, state, htype, hoptions, hdeny, rfl, rfl, hstate⟩
  · cases h
    exact .inl ⟨rfl, rfl⟩
  · cases h
    refine .inr ⟨rfl, ?_, rfl, rfl, rfl, rfl, ?_, ?_⟩
    · simp [ballot, hoptions]
    · rcases hstate with hstate | ⟨hstate, -⟩
      · exact .inl hstate
      · exact .inr hstate
    · intro hsucceeded
      rcases hstate with hstate | ⟨-, hcondition⟩
      · rw [hstate] at hsucceeded
        cases hsucceeded
      · exact ⟨htype, yes, deny, hoptions, hdeny, hcondition⟩

/-! ## Finalizing -/

/-- The option reaches the threshold and more than the denial. -/
def Passes (minimum deny : ℕ) (o : ProposalOption) : Prop :=
  minimum ≤ o.voteWeight ∧ deny < o.voteWeight

instance (minimum deny : ℕ) (o : ProposalOption) : Decidable (Passes minimum deny o) :=
  inferInstanceAs (Decidable (_ ∧ _))

/-- What the loop over the options returns: the options with their results, and the best weight with
the number of options that passed with it. -/
structure OptionsCounted (minimum deny best count : ℕ) (options options' : List ProposalOption)
    (best' count' : ℕ) : Prop where
  weights : options'.map voteWeight = options.map voteWeight
  results : ∀ o ∈ options', o.voteResult = .succeeded → Passes minimum deny o
  mono : best ≤ best'
  bound : ∀ o ∈ options, Passes minimum deny o → o.voteWeight ≤ best'
  attained : best' = best ∨ ∃ o ∈ options, Passes minimum deny o ∧ o.voteWeight = best'
  count : count' = (if best' = best then count else 0) +
    options.countP fun o => Passes minimum deny o ∧ o.voteWeight = best'

/-- One option that passed in front of the rest; `b` and `n` are the best weight and its number after
it. -/
theorem OptionsCounted.cons_passes {deny b n best' count' : ℕ}
    (hpasses : Passes minimum deny option) (hb : best ≤ b)
    (hw : option.voteWeight ≤ b) (hfrom : b = best ∨ option.voteWeight = b)
    (hn : ∀ c, b ≤ c → (if c = b then n else 0) =
      (if c = best then count else 0) + if option.voteWeight = c then 1 else 0)
    (h : OptionsCounted minimum deny b n options rest best' count') :
    OptionsCounted minimum deny best count (option :: options)
      ({ option with voteResult := .succeeded } :: rest) best' count' := by
  refine ⟨by simp [h.weights], ?_, Nat.le_trans hb h.mono, ?_, ?_, ?_⟩
  · rintro o (_ | ⟨_, ho⟩)
    · intro
      exact hpasses
    · exact h.results o ho
  · rintro o (_ | ⟨_, ho⟩)
    · intro
      exact Nat.le_trans hw h.mono
    · exact h.bound o ho
  · rcases h.attained with rfl | ⟨o, ho, hbest⟩
    · exact hfrom.imp_right fun heq => ⟨option, mem_cons_self, hpasses, heq⟩
    · exact .inr ⟨o, mem_cons_of_mem _ ho, hbest⟩
  · rw [h.count, countP_cons, hn best' h.mono]
    simp only [hpasses, true_and, decide_eq_true_eq]
    omega

theorem OptionsCounted.cons_fails {deny best' count' : ℕ} (hfails : ¬ Passes minimum deny option)
    (h : OptionsCounted minimum deny best count options rest best' count') :
    OptionsCounted minimum deny best count (option :: options)
      ({ option with voteResult := .defeated } :: rest) best' count' := by
  refine ⟨by simp [h.weights], ?_, h.mono, ?_, ?_, ?_⟩
  · rintro o (_ | ⟨_, ho⟩)
    · intro hresult
      cases hresult
    · exact h.results o ho
  · rintro o (_ | ⟨_, ho⟩)
    · intro hpasses
      exact absurd hpasses hfails
    · exact h.bound o ho
  · exact h.attained.imp_right fun ⟨o, ho, hbest⟩ => ⟨o, mem_cons_of_mem _ ho, hbest⟩
  · rw [h.count, countP_cons]
    simp [hfails]

theorem countOptions_ok {minimum deny : ℕ} : ∀ {options options' : List ProposalOption}
    {best count best' count' : ℕ},
    countOptions minimum deny best count options = .ok (options', best', count') →
    OptionsCounted minimum deny best count options options' best' count'
  | [], options', best, count, best', count', h => by
    cases h
    exact ⟨rfl, by simp, Nat.le_refl _, by simp, .inl rfl, by simp⟩
  | option :: options, options', best, count, best', count', h => by
    unfold countOptions at h
    split at h
    next hpasses =>
      dsimp only at h
      split at h
      next hlt =>
        simp only [ok_bind, checks] at h
        obtain ⟨_, _, _, hrest, heq⟩ := h
        cases heq
        refine (countOptions_ok hrest).cons_passes hpasses (Nat.le_of_lt hlt) (Nat.le_refl _)
          (.inr rfl) ?_
        intro c hc
        split <;> split <;> split <;> omega
      next hle =>
        split at h
        next heq =>
          simp only [checks, checkedAdd_eq_ok, ok_bind] at h
          obtain ⟨_, ⟨-, rfl⟩, _, _, _, hrest, hcons⟩ := h
          cases hcons
          refine (countOptions_ok hrest).cons_passes hpasses (Nat.le_refl _) (by omega) (.inl rfl) ?_
          intro c hc
          split <;> split <;> omega
        next hne =>
          simp only [ok_bind, checks] at h
          obtain ⟨_, _, _, hrest, hcons⟩ := h
          cases hcons
          refine (countOptions_ok hrest).cons_passes hpasses (Nat.le_refl _) (by omega) (.inl rfl) ?_
          intro c hc
          split <;> split <;> omega
    next hfails =>
      simp only [checks] at h
      obtain ⟨_, _, _, hrest, heq⟩ := h
      cases heq
      exact (countOptions_ok hrest).cons_fails hfails

theorem index_eq_of_countP_le_one {α : Type} {P : α → Bool} : ∀ {l : List α} {i j : ℕ} {a b : α},
    l.countP P ≤ 1 → l[i]? = some a → l[j]? = some b → P a = true → P b = true → i = j
  | x :: l, 0, 0, a, b, _, _, _, _, _ => rfl
  | x :: l, 0, j + 1, a, b, h, hi, hj, ha, hb => by
    rw [getElem?_cons_zero, some.injEq] at hi
    rw [getElem?_cons_succ] at hj
    have : 0 < l.countP P := countP_pos_iff.mpr ⟨b, mem_of_getElem? hj, hb⟩
    rw [countP_cons, hi, if_pos ha] at h
    omega
  | x :: l, i + 1, 0, a, b, h, hi, hj, ha, hb => by
    rw [getElem?_cons_zero, some.injEq] at hj
    rw [getElem?_cons_succ] at hi
    have : 0 < l.countP P := countP_pos_iff.mpr ⟨a, mem_of_getElem? hi, ha⟩
    rw [countP_cons, hj, if_pos hb] at h
    omega
  | x :: l, i + 1, j + 1, a, b, h, hi, hj, ha, hb => by
    rw [getElem?_cons_succ] at hi hj
    rw [countP_cons] at h
    rw [index_eq_of_countP_le_one (by omega) hi hj ha hb]

/-- The option at index `i` won: it passes, and in a single choice it has more than any other. -/
def Wins (b : Ballot) (minimum i : ℕ) : Prop :=
  ∃ weight, b.weights[i]? = some weight ∧ minimum ≤ weight ∧ b.denyVoteWeight.getD 0 < weight ∧
    (b.voteType = .singleChoice →
      ∀ j weight', b.weights[j]? = some weight' → j ≠ i → weight' < weight)

theorem wins_of_best {i : ℕ} {o : ProposalOption}
    (hbound : ∀ o ∈ p.options, Passes minimum (p.denyVoteWeight.getD 0) o → o.voteWeight ≤ best)
    (hcount : (p.options.countP fun o =>
      Passes minimum (p.denyVoteWeight.getD 0) o ∧ o.voteWeight = best) = 1)
    (hi : p.options[i]? = some o) (hweight : o.voteWeight = best) : Wins p.ballot minimum i := by
  -- Some option passed with the best weight, so every option with that weight passes.
  obtain ⟨_, -, hx⟩ := countP_pos_iff.mp (show 0 < p.options.countP _ by rw [hcount]; omega)
  simp only [decide_eq_true_eq] at hx
  obtain ⟨⟨hminimum, hdeny⟩, hxbest⟩ := hx
  rw [hxbest] at hminimum hdeny
  refine ⟨best, by simp [ballot, hi, hweight], hminimum, hdeny,
    fun _ j weight' hj hne => ?_⟩
  simp only [ballot, getElem?_map, map_eq_some_iff] at hj
  obtain ⟨o', hj, rfl⟩ := hj
  by_contra hge
  have hpasses : Passes minimum (p.denyVoteWeight.getD 0) o' := ⟨by omega, by omega⟩
  have hle := hbound o' (mem_of_getElem? hj) hpasses
  refine hne (index_eq_of_countP_le_one (Nat.le_of_eq hcount) hj hi ?_ ?_)
  · exact decide_eq_true ⟨hpasses, by omega⟩
  · exact decide_eq_true ⟨⟨by omega, by omega⟩, hweight⟩

structure Finalized (p p' : ProposalV2) (maxVoterWeight : ℕ) (config : GovernanceConfig)
    (now : ℤ) : Prop where
  voting : p.state = .voting
  ended : p.hasVoteTimeEnded config now = .ok true
  ballot : p'.ballot = p.ballot
  completed : p'.votingCompletedAt = some now
  maxVoteWeight : p'.maxVoteWeight = some maxVoterWeight
  threshold : p'.voteThresholdPercentage = some config.voteThresholdPercentage
  state : p'.state = .completed ∧ p'.denyVoteWeight = none ∨ p'.state = .defeated ∨
    p'.state = .succeeded ∧ p'.denyVoteWeight ≠ none
  succeeded : p'.state = .succeeded → ∃ minimum,
    getMinVoteThresholdWeight config.voteThresholdPercentage maxVoterWeight = .ok minimum ∧
    ∀ i o, p'.options[i]? = some o → o.voteResult = .succeeded → Wins p.ballot minimum i

/-- Only a proposal that could be rejected comes to be executed. -/
theorem Tipped.rejectable (h : Tipped q p' maxVoterWeight config now)
    (hexecutable : p'.isExecutable = true) : p'.denyVoteWeight ≠ none := by
  rcases h.state with hstate | hstate
  · simp [isExecutable, hstate] at hexecutable
  · obtain ⟨-, -, _, -, hdeny, -⟩ := h.succeeded hstate
    have heq : p'.denyVoteWeight = q.denyVoteWeight := congrArg Ballot.denyVoteWeight h.ballot
    simp [heq, hdeny]

theorem Finalized.rejectable (h : Finalized p p' maxVoterWeight config now)
    (hexecutable : p'.isExecutable = true) : p'.denyVoteWeight ≠ none := by
  rcases h.state with ⟨hstate, -⟩ | hstate | ⟨-, hdeny⟩
  · simp [isExecutable, hstate] at hexecutable
  · simp [isExecutable, hstate] at hexecutable
  · exact hdeny

/-- The results of a vote that succeeded are those of options that won. -/
theorem settleOptions_spec
    (h : OptionsCounted minimum (p.denyVoteWeight.getD 0) 0 0 p.options options best count) :
    let settled := settleOptions p.voteType best count options
    settled.1.map voteWeight = p.options.map voteWeight ∧
      (settled.2 = .defeated ∨ settled.2 = .succeeded ∧
        ∀ i o, settled.1[i]? = some o → o.voteResult = .succeeded → Wins p.ballot minimum i) := by
  have hcount := h.count
  simp only [ite_self, Nat.zero_add] at hcount
  have hweights : ∀ w, (coerceResults w options).map voteWeight =
      p.options.map voteWeight :=
    fun w => by simpa [coerceResults, Function.comp_def] using h.weights
  unfold settleOptions
  split
  next => exact ⟨h.weights, .inl rfl⟩
  next hsome =>
    split
    next htype =>
      split
      next => exact ⟨hweights _, .inl rfl⟩
      next hone =>
        refine ⟨hweights _, .inr ⟨rfl, fun i o hi ho => ?_⟩⟩
        have hbest : o.voteWeight = best := by
          simp only [coerceResults, getElem?_map, map_eq_some_iff] at hi
          obtain ⟨_, -, rfl⟩ := hi
          by_contra hne
          rw [if_neg hne] at ho
          cases ho
        have hi' : (p.options.map voteWeight)[i]? = some best := by
          rw [← hweights best, getElem?_map, hi, map_some, hbest]
        rw [getElem?_map, map_eq_some_iff] at hi'
        obtain ⟨_, hx, hxbest⟩ := hi'
        exact wins_of_best h.bound (by omega) hx hxbest
    next a b htype =>
      refine ⟨h.weights, .inr ⟨rfl, fun i o hi ho => ?_⟩⟩
      obtain ⟨hminimum, hdeny⟩ := h.results o (mem_of_getElem? hi) ho
      have hweight : p.ballot.weights[i]? = some o.voteWeight := by
        rw [show p.ballot.weights = _ from h.weights.symm, getElem?_map, hi]
        rfl
      refine ⟨o.voteWeight, hweight, hminimum, hdeny, fun hsingle => ?_⟩
      rw [show p.ballot.voteType = p.voteType from rfl, htype] at hsingle
      cases hsingle

theorem finalizeVote_ok (h : p.finalizeVote maxVoterWeight config now = .ok p') :
    Finalized p p' maxVoterWeight config now := by
  simp only [finalizeVote, assertCanFinalizeVote,
    resolveFinalVoteState, checks, unwrap_eq_ok, ne_eq, not_not, Bool.not_eq_false] at h
  obtain ⟨⟨hvoting, _, hended, rfl⟩, _, _, ⟨minimum, hminimum, _, _, _, hcount, rfl, rfl⟩, rfl⟩ := h
  obtain ⟨hweights, hsettled⟩ := settleOptions_spec (countOptions_ok hcount)
  refine ⟨hvoting, hended, by simp [ballot, hweights], rfl, rfl, rfl, ?_, ?_⟩
  · simp only
    split
    next hdeny => exact .inl ⟨rfl, hdeny⟩
    next hdeny => exact .inr (hsettled.imp_right fun h => ⟨h.1, hdeny⟩)
  · intro hsucceeded
    split at hsucceeded
    · cases hsucceeded
    · rcases hsettled with hdefeated | ⟨-, hwins⟩
      · rw [hdefeated] at hsucceeded
        cases hsucceeded
      · exact ⟨minimum, hminimum, hwins⟩

end SolanaPrograms.Governance
