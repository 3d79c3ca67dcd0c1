import SolanaPrograms.Governance.Tipping

/-!
# The final count

`resolveFinalVoteState` goes over the options once, keeps the best weight that passed and how many
options have it, and in a single choice goes over them again and marks those with the winning
weight. If several options tie, the winning weight is replaced by the greatest `u64`, which stands
for no winner.

The count is right (`FinalCount`) unless the tie is at the greatest `u64` itself: then all tied
options are marked as winners of a proposal that is defeated (`final_count_iff`).
-/

namespace SolanaPrograms.Governance

open Outcome ProposalV2 List Ballot

/-- The right result of a vote with the given threshold: the options are marked as they deserve, and
nothing else changes. -/
structure FinalCount (p : ProposalV2) (minimum : ℕ) (q : ProposalV2) (state : ProposalState) :
    Prop where
  same : q = { p with options := q.options }
  options : ∀ i : ℕ, q.options[i]?.map (fun o => { o with voteResult := .none }) =
    p.options[i]?.map fun o => { o with voteResult := .none }
  results : ∀ i o, q.options[i]? = some o → (o.voteResult = .succeeded ↔ Wins p.ballot minimum i)
  state : state = if p.denyVoteWeight = none then .completed
    else if ∃ o ∈ q.options, o.voteResult = .succeeded then .succeeded else .defeated

def CountsRight (config : GovernanceConfig) (p : ProposalV2) (maxVoteWeight : ℕ) : Prop :=
  ∃ percentage q state, config.voteThresholdPercentage = .yesVote percentage ∧
    p.resolveFinalVoteState maxVoteWeight config = .ok (q, state) ∧
    FinalCount p (minimumWeight percentage maxVoteWeight) q state

def TiedAtMax (p : ProposalV2) : Prop :=
  p.voteType = .singleChoice ∧ p.denyVoteWeight.getD 0 < 2 ^ 64 - 1 ∧
    2 ≤ p.options.countP fun o => o.voteWeight = 2 ^ 64 - 1

instance (p : ProposalV2) : Decidable (TiedAtMax p) := by unfold TiedAtMax; infer_instance

/-! ## The first pass -/

section FirstPass

variable {minimum deny best count : ℕ} {options : List ProposalOption}

def mark (minimum deny : ℕ) (o : ProposalOption) : ProposalOption :=
  { o with voteResult := if Passes minimum deny o then .succeeded else .defeated }

theorem countOptions_total (minimum deny : ℕ) (options : List ProposalOption) (best count : ℕ)
    (hcount : count + options.length < 2 ^ 16) :
    ∃ best' count', countOptions minimum deny best count options =
      .ok (options.map (mark minimum deny), best', count') := by
  induction options generalizing best count with
  | nil => exact ⟨best, count, rfl⟩
  | cons option _ ih =>
    rw [length_cons] at hcount
    unfold countOptions
    split
    next hpasses =>
      have hmark : mark minimum deny option = { option with voteResult := .succeeded } := by
        rw [mark, if_pos (show Passes minimum deny option from hpasses)]
      split
      next =>
        obtain ⟨best', count', h⟩ := ih option.voteWeight 1 (by omega)
        exact ⟨best', count', by simp [h, hmark, ok_bind]⟩
      next =>
        split
        next =>
          obtain ⟨best', count', h⟩ := ih best (count + 1) (by omega)
          have hadd : checkedAdd 16 count 1 = .ok (count + 1) :=
            checkedAdd_eq_ok.mpr ⟨by omega, rfl⟩
          exact ⟨best', count', by simp [h, hadd, hmark, ok_bind]⟩
        next =>
          obtain ⟨best', count', h⟩ := ih best count (by omega)
          exact ⟨best', count', by simp [h, hmark, ok_bind]⟩
    next hfails =>
      have hmark : mark minimum deny option = { option with voteResult := .defeated } := by
        rw [mark, if_neg (show ¬ Passes minimum deny option from hfails)]
      obtain ⟨best', count', h⟩ := ih best count (by omega)
      exact ⟨best', count', by simp [h, hmark, ok_bind]⟩

variable {options' : List ProposalOption} {best' count' : ℕ}

/-- What the first pass knows: the best weight of the options that pass and how many have it. -/
structure Best (minimum deny : ℕ) (options : List ProposalOption) (best count : ℕ) : Prop where
  bound : ∀ o ∈ options, Passes minimum deny o → o.voteWeight ≤ best
  tally : count = options.countP fun o => Passes minimum deny o ∧ o.voteWeight = best
  nobody : count = 0 → ∀ o ∈ options, ¬ Passes minimum deny o

theorem countOptions_best
    (h : countOptions minimum deny 0 0 options = .ok (options', best', count')) :
    Best minimum deny options best' count' := by
  have hcounted := countOptions_ok h
  have hcount := hcounted.count
  simp only [ite_self, Nat.zero_add] at hcount
  refine ⟨hcounted.bound, hcount, fun hzero o ho hpasses => ?_⟩
  have hle := hcounted.bound o ho hpasses
  have hpositive := hpasses.2
  rcases hcounted.attained with rfl | ⟨x, hx, hbest⟩
  · omega
  · have hpos : 0 < options.countP fun o => Passes minimum deny o ∧ o.voteWeight = best' :=
      countP_pos_iff.mpr ⟨x, hx, decide_eq_true hbest⟩
    omega

theorem Best.attained (h : Best minimum deny options best count) (hpos : 0 < count) :
    ∃ o ∈ options, Passes minimum deny o ∧ o.voteWeight = best := by
  rw [h.tally] at hpos
  obtain ⟨o, ho, hbest⟩ := countP_pos_iff.mp hpos
  exact ⟨o, ho, of_decide_eq_true hbest⟩

end FirstPass

/-! ## Winners -/

section Winners

variable {p : ProposalV2} {minimum best count i : ℕ} {o : ProposalOption}

theorem wins_weight (h : Wins p.ballot minimum i) :
    ∃ o, p.options[i]? = some o ∧ Passes minimum (p.denyVoteWeight.getD 0) o ∧
      (p.voteType = .singleChoice → ∀ j o', p.options[j]? = some o' → j ≠ i →
        o'.voteWeight < o.voteWeight) := by
  obtain ⟨_, hweight, hminimum, hdeny, hothers⟩ := h
  simp only [ballot, getElem?_map, Option.map_eq_some_iff] at hweight
  obtain ⟨o, ho, rfl⟩ := hweight
  refine ⟨o, ho, ⟨hminimum, hdeny⟩, fun hsingle j o' hj hne => hothers hsingle j _ ?_ hne⟩
  simp [ballot, hj]

theorem wins_iff_passes (hmulti : p.voteType ≠ .singleChoice) (hi : p.options[i]? = some o) :
    Wins p.ballot minimum i ↔ Passes minimum (p.denyVoteWeight.getD 0) o := by
  constructor
  · intro h
    obtain ⟨_, ho', hpasses, -⟩ := wins_weight h
    cases hi.symm.trans ho'
    exact hpasses
  · intro hpasses
    refine ⟨o.voteWeight, by simp [ballot, hi], hpasses.1, hpasses.2, fun hsingle => ?_⟩
    exact absurd hsingle hmulti

theorem exists_two_of_countP {α : Type} {P : α → Bool} {l : List α} (h : 2 ≤ l.countP P) :
    ∃ (i j : ℕ) (a b : α), i ≠ j ∧ l[i]? = some a ∧ l[j]? = some b ∧ P a = true ∧ P b = true := by
  induction l with
  | nil => simp at h
  | cons x l ih =>
    rw [countP_cons] at h
    by_cases hx : P x = true
    · rw [if_pos hx] at h
      obtain ⟨b, hb, hPb⟩ := countP_pos_iff.mp (show 0 < l.countP P by omega)
      obtain ⟨j, hj⟩ := mem_iff_getElem?.mp hb
      exact ⟨0, j + 1, x, b, by omega, rfl, hj, hx, hPb⟩
    · rw [if_neg hx] at h
      obtain ⟨i, j, a, b, _, hi, hj, hPa, hPb⟩ := ih h
      exact ⟨i + 1, j + 1, a, b, by omega, hi, hj, hPa, hPb⟩

variable (hsingle : p.voteType = .singleChoice)
  (hbest : Best minimum (p.denyVoteWeight.getD 0) p.options best count)
include hsingle hbest

theorem wins_iff_best (hone : count = 1) (hi : p.options[i]? = some o) :
    Wins p.ballot minimum i ↔ o.voteWeight = best := by
  constructor
  · intro h
    obtain ⟨_, ho', hpasses, hothers⟩ := wins_weight h
    cases hi.symm.trans ho'
    have hle := hbest.bound o (mem_of_getElem? hi) hpasses
    obtain ⟨x, hx, -, hxbest⟩ := hbest.attained (by omega)
    obtain ⟨j, hj⟩ := mem_iff_getElem?.mp hx
    by_cases hne : j = i
    · subst hne
      cases hi.symm.trans hj
      exact hxbest
    · have := hothers hsingle j x hj hne
      omega
  · intro hweight
    exact wins_of_best hbest.bound (hbest.tally.symm.trans hone) hi hweight

theorem not_wins_of_tie (htie : 2 ≤ count) : ¬ Wins p.ballot minimum i := by
  intro h
  obtain ⟨o, hi, hpasses, hothers⟩ := wins_weight h
  have hle := hbest.bound o (mem_of_getElem? hi) hpasses
  obtain ⟨j, k, a, b, hne, hj, hk, ha, hb⟩ := exists_two_of_countP (hbest.tally ▸ htie)
  obtain ⟨-, _⟩ := of_decide_eq_true ha
  obtain ⟨-, _⟩ := of_decide_eq_true hb
  by_cases hji : j = i
  · have := hothers hsingle k b hk (fun hki => hne (hji.trans hki.symm))
    omega
  · have := hothers hsingle j a hj hji
    omega

end Winners

/-! ## The second pass -/

section SecondPass

variable {p : ProposalV2} {minimum best count maxVoteWeight : ℕ} {config : GovernanceConfig}
  {state : ProposalState}

theorem coerceResults_mark (minimum deny w : ℕ) (options : List ProposalOption) :
    coerceResults w (options.map (mark minimum deny)) = coerceResults w options := by
  rw [coerceResults, map_map]
  rfl

/-- A result for every option makes a count; `result` says which. -/
theorem FinalCount.of_results (result : ProposalOption → OptionVoteResult)
    (hresults : ∀ i o, p.options[i]? = some o → (result o = .succeeded ↔ Wins p.ballot minimum i))
    (hstate : state = if p.denyVoteWeight = none then .completed
      else if ∃ o ∈ p.options, result o = .succeeded then .succeeded else .defeated) :
    FinalCount p minimum
      { p with options := p.options.map fun o => { o with voteResult := result o } } state := by
  refine ⟨rfl, fun i => ?_, fun i o hi => ?_, ?_⟩
  · simp only [getElem?_map, Option.map_map, Function.comp_def]
  · simp only [getElem?_map, Option.map_eq_some_iff] at hi
    obtain ⟨o', hi, rfl⟩ := hi
    exact hresults i o' hi
  · simpa using hstate

/-- What the second pass makes of the options that the first one marked. -/
def settled (p : ProposalV2) (minimum best count : ℕ) : List ProposalOption × ProposalState :=
  settleOptions p.voteType best count (p.options.map (mark minimum (p.denyVoteWeight.getD 0)))

theorem resolveFinalVoteState_eq {percentage : ℕ}
    (hthreshold : config.voteThresholdPercentage = .yesVote percentage) (hle : percentage ≤ 100)
    (hbound : maxVoteWeight < 2 ^ 64) (hlength : p.options.length ≤ 10) :
    ∃ best count, Best (minimumWeight percentage maxVoteWeight) (p.denyVoteWeight.getD 0) p.options
        best count ∧
      p.resolveFinalVoteState maxVoteWeight config = .ok (
        { p with options := (settled p (minimumWeight percentage maxVoteWeight) best count).1 },
        if p.denyVoteWeight = none then .completed
          else (settled p (minimumWeight percentage maxVoteWeight) best count).2) := by
  obtain ⟨best, count, hcount⟩ := countOptions_total (minimumWeight percentage maxVoteWeight)
    (p.denyVoteWeight.getD 0) p.options 0 0 (by omega)
  refine ⟨best, count, countOptions_best hcount, ?_⟩
  simp [resolveFinalVoteState, hthreshold, getMinVoteThresholdWeight_eq hle hbound, unwrap, hcount,
    ok_bind, pure, Except.pure, settled]

variable (hweights : ∀ o ∈ p.options, o.voteWeight < 2 ^ 64)
  (hbest : Best minimum (p.denyVoteWeight.getD 0) p.options best count)
include hweights hbest

/-- No tie at the weight that stands for no winner: no option has that weight. -/
theorem not_max_of_tie (hsingle : p.voteType = .singleChoice) (htie : 2 ≤ count)
    (hnot : ¬ TiedAtMax p) : ∀ o ∈ p.options, o.voteWeight ≠ 2 ^ 64 - 1 := by
  intro o ho hmax
  obtain ⟨x, hx, hpasses, _⟩ := hbest.attained (by omega)
  have hxlt := hweights x hx
  have hxminimum := hpasses.1
  have hxdeny := hpasses.2
  -- the greatest weight passes as well, so it is the best
  have hle := hbest.bound o ho ⟨by omega, by omega⟩
  have htop : best = 2 ^ 64 - 1 := by omega
  refine hnot ⟨hsingle, by omega, ?_⟩
  calc 2 ≤ count := htie
    _ = p.options.countP fun o => Passes minimum (p.denyVoteWeight.getD 0) o ∧
        o.voteWeight = best := hbest.tally
    _ ≤ p.options.countP fun o => o.voteWeight = 2 ^ 64 - 1 :=
        countP_mono_left fun y _ hy => by
          have := (of_decide_eq_true hy).2
          exact decide_eq_true (this.trans htop)

theorem finalCount_of_not_tied (hnot : ¬ TiedAtMax p) :
    FinalCount p minimum { p with options := (settled p minimum best count).1 }
      (if p.denyVoteWeight = none then .completed else (settled p minimum best count).2) := by
  unfold settled settleOptions
  split
  next hzero =>
    -- nothing passes
    refine .of_results _ (fun i o hi => ?_) ?_
    · have hfails := hbest.nobody hzero o (mem_of_getElem? hi)
      rw [if_neg hfails]
      refine ⟨nofun, fun hwins => ?_⟩
      obtain ⟨_, ho', hpasses, -⟩ := wins_weight hwins
      cases hi.symm.trans ho'
      exact absurd hpasses hfails
    · congr 1
      rw [if_neg]
      rintro ⟨o, ho, hresult⟩
      rw [if_neg (hbest.nobody hzero o ho)] at hresult
      cases hresult
  next hsome =>
    split
    next hsingle =>
      split
      next htie =>
        -- a tie: no option has the weight that stands for no winner
        have hmax := not_max_of_tie hweights hbest hsingle htie hnot
        rw [coerceResults_mark]
        refine .of_results _ (fun i o hi => ?_) ?_
        · rw [if_neg (hmax o (mem_of_getElem? hi))]
          exact ⟨nofun, fun hwins => absurd hwins (not_wins_of_tie hsingle hbest htie)⟩
        · congr 1
          rw [if_neg]
          rintro ⟨o, ho, hresult⟩
          rw [if_neg (hmax o ho)] at hresult
          cases hresult
      next hone =>
        rw [coerceResults_mark]
        refine .of_results _ (fun i o hi => ?_) ?_
        · rw [wins_iff_best hsingle hbest (by omega) hi]
          split
          next heq => exact ⟨fun _ => heq, fun _ => rfl⟩
          next hne => exact ⟨nofun, fun heq => absurd heq hne⟩
        · obtain ⟨x, hx, -, hxbest⟩ := hbest.attained (by omega)
          congr 1
          rw [if_pos]
          exact ⟨x, hx, if_pos hxbest⟩
    next a b hmulti =>
      have hne : p.voteType ≠ .singleChoice := by
        rw [hmulti]
        nofun
      refine .of_results _ (fun i o hi => ?_) ?_
      · rw [wins_iff_passes hne hi]
        split
        next hpasses => exact ⟨fun _ => hpasses, fun _ => rfl⟩
        next hfails => exact ⟨nofun, fun hpasses => absurd hpasses hfails⟩
      · obtain ⟨x, hx, hpasses, -⟩ := hbest.attained (by omega)
        congr 1
        rw [if_pos]
        exact ⟨x, hx, if_pos hpasses⟩

/-- With a tie at the top, options that tie are marked as winners. -/
theorem not_finalCount_of_tied (hminimum : minimum < 2 ^ 64) (htied : TiedAtMax p) :
    ¬ FinalCount p minimum { p with options := (settled p minimum best count).1 } state := by
  obtain ⟨hsingle, _, htwo⟩ := htied
  obtain ⟨i, _, a, _, _, hi, _, ha, hb⟩ := exists_two_of_countP htwo
  have ha := of_decide_eq_true ha
  have htop : best = 2 ^ 64 - 1 := by
    have hle := hbest.bound a (mem_of_getElem? hi) ⟨by omega, by omega⟩
    by_contra hneq
    -- the best weight is that of an option
    have hzero : count = 0 := by
      rw [hbest.tally, countP_eq_zero]
      intro x hx hpx
      have := hweights x hx
      have := (of_decide_eq_true hpx).2
      omega
    exact hbest.nobody hzero a (mem_of_getElem? hi) ⟨by omega, by omega⟩
  have htie : 2 ≤ count := by
    rw [hbest.tally]
    refine Nat.le_trans htwo (countP_mono_left fun x _ hx => ?_)
    have hx := of_decide_eq_true hx
    exact decide_eq_true ⟨⟨by omega, by omega⟩, by omega⟩
  intro hright
  have hresult := (hright.results i { a with voteResult := .succeeded } ?_).mp rfl
  · exact not_wins_of_tie hsingle hbest htie hresult
  · simp only [settled, settleOptions, if_neg (show count ≠ 0 by omega), hsingle,
      if_pos (show 1 < count by omega), coerceResults_mark]
    simp [coerceResults, hi, ha]

end SecondPass

/-- **The final count picks the right winners**, for every accepted configuration and all weights,
exactly if no two options of a single choice tie at the greatest `u64`. -/
theorem final_count_iff {config : GovernanceConfig} {p : ProposalV2} {maxVoteWeight : ℕ}
    (hconfig : assertIsValidGovernanceConfig config = .ok ()) (hmax : maxVoteWeight < 2 ^ 64)
    (hlength : 1 ≤ p.options.length ∧ p.options.length ≤ 10)
    (hweights : ∀ o ∈ p.options, o.voteWeight < 2 ^ 64) :
    CountsRight config p maxVoteWeight ↔ ¬ TiedAtMax p := by
  obtain ⟨percentage, hthreshold, _, hhundred⟩ := assertIsValidGovernanceConfig_ok hconfig
  obtain ⟨_, _, hbest, heq⟩ := resolveFinalVoteState_eq (p := p) hthreshold hhundred hmax
    hlength.2
  constructor
  · rintro ⟨percentage', q, state, hthreshold', hresolve, hright⟩ htied
    cases hthreshold.symm.trans hthreshold'
    rw [heq] at hresolve
    cases hresolve
    have hminimum : minimumWeight percentage maxVoteWeight < 2 ^ 64 :=
      Nat.lt_of_le_of_lt (minimumWeight_le hhundred) hmax
    exact not_finalCount_of_tied hweights hbest hminimum htied hright
  · intro hnot
    exact ⟨percentage, _, _, hthreshold, heq, finalCount_of_not_tied hweights hbest hnot⟩

/-- A choice between options of the given weights, against nobody. -/
def Ballot.choice (weights : List ℕ) : ProposalV2 :=
  { proposal 0 0 with options := weights.map option }

/-- Seven to three, the first option wins. -/
theorem final_count_seven_to_three :
    ¬ TiedAtMax (choice [7, 3]) ∧ CountsRight config (choice [7, 3]) 10 :=
  ⟨by decide, (final_count_iff rfl (by decide) (by decide) (by decide)).mpr (by decide)⟩

/-- Two options with the greatest weight there is: both are marked as winners of a proposal that is
defeated. -/
theorem final_count_tied_at_max :
    assertIsValidGovernanceConfig config = .ok () ∧
    (choice [2 ^ 64 - 1, 2 ^ 64 - 1]).resolveFinalVoteState (2 ^ 64 - 1) config =
      .ok ({ choice [] with
        options := .replicate 2 { option (2 ^ 64 - 1) with voteResult := .succeeded } },
        .defeated) ∧
    ¬ CountsRight config (choice [2 ^ 64 - 1, 2 ^ 64 - 1]) (2 ^ 64 - 1) := by
  refine ⟨rfl, rfl, ?_⟩
  rintro ⟨percentage, q, state, -, hresolve, hright⟩
  cases hresolve
  -- the first option counts as a winner, although the second one has as much
  have hwins := (hright.results 0 _ rfl).mp rfl
  obtain ⟨_, ho, -, hothers⟩ := wins_weight hwins
  cases ho
  exact absurd (hothers rfl 1 _ rfl (by decide)) (Nat.lt_irrefl _)

end SolanaPrograms.Governance
