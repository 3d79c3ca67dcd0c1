import SolanaPrograms.Governance.Ballots

/-!
# Tipping against the final count

A vote on one option with a denial can be decided before its time is over. `tryGetTippedVoteState`
compares the weights with the greatest possible weight, `resolveFinalVoteState` with the threshold
and with each other. The two agree, also for all weights that can still come, as long as anything
can be voted with. If the greatest possible weight is zero, the vote tips to a success with no votes
at all, while the final count is a tie and resolved as a defeat.
-/

namespace SolanaPrograms.Governance

open Outcome Ballot ProposalV2 Nat ProposalOption

/-! ## The threshold -/

/-- The least weight that is at least the given percentage of all. -/
def minimumWeight (percentage maxVoteWeight : ℕ) : ℕ := (percentage * maxVoteWeight + 99) / 100

variable {maxVoteWeight percentage : ℕ}

theorem minimumWeight_le (h : percentage ≤ 100) :
    minimumWeight percentage maxVoteWeight ≤ maxVoteWeight := by
  have hle : percentage * maxVoteWeight ≤ 100 * maxVoteWeight := mul_le_mul_right _ h
  unfold minimumWeight
  omega

/-- The source rounds up and cuts to 64 bits, which does nothing. -/
theorem getMinVoteThresholdWeight_eq (h : percentage ≤ 100) (hbound : maxVoteWeight < 2 ^ 64) :
    getMinVoteThresholdWeight (.yesVote percentage) maxVoteWeight =
      .ok (minimumWeight percentage maxVoteWeight) := by
  have hle : minimumWeight percentage maxVoteWeight ≤ maxVoteWeight := minimumWeight_le h
  have hround : (if percentage * maxVoteWeight / 100 * 100 < percentage * maxVoteWeight then
      percentage * maxVoteWeight / 100 + 1 else percentage * maxVoteWeight / 100) =
      minimumWeight percentage maxVoteWeight := by
    unfold minimumWeight
    split <;> omega
  simp only [getMinVoteThresholdWeight, hround]
  rw [Nat.mod_eq_of_lt (Nat.lt_of_le_of_lt hle hbound)]

/-! ## One option -/

section Single

variable {config : GovernanceConfig} {p q : ProposalV2} {yes : ProposalOption}
  {deny maxVoteWeight percentage : ℕ} {state : ProposalState}

def ProposalV2.withResult (p : ProposalV2) (yes : ProposalOption) (result : OptionVoteResult) :
    ProposalV2 :=
  { p with options := [{ yes with voteResult := result }] }

structure ProposalV2.Single (p : ProposalV2) (yes : ProposalOption) (deny : ℕ) : Prop where
  voteType : p.voteType = .singleChoice
  options : p.options = [yes]
  denyVoteWeight : p.denyVoteWeight = some deny

theorem ProposalV2.Single.withResult_eq (h : p.Single yes deny) (result : OptionVoteResult) :
    p.withResult yes result = { p with
      voteType := .singleChoice
      options := [{ yes with voteResult := result }]
      denyVoteWeight := some deny } := by
  rw [← h.voteType, ← h.denyVoteWeight]
  rfl

theorem countOptions_single (minimum deny : ℕ) (yes : ProposalOption) :
    countOptions minimum deny 0 0 [yes] =
      if Passes minimum deny yes then
        .ok ([{ yes with voteResult := .succeeded }], yes.voteWeight, 1)
      else .ok ([{ yes with voteResult := .defeated }], 0, 0) := by
  by_cases hpasses : Passes minimum deny yes
  · have hpos : 0 < yes.voteWeight := Nat.lt_of_le_of_lt (Nat.zero_le _) hpasses.2
    simp only [countOptions, ok_bind, if_pos hpasses, if_pos hpos, hpasses.1, hpasses.2,
      and_self, if_true]
  · have hfails : ¬ (minimum ≤ yes.voteWeight ∧ deny < yes.voteWeight) := hpasses
    simp only [countOptions, ok_bind, if_neg hpasses, if_neg hfails]

variable (h : p.Single yes deny) (hthreshold : config.voteThresholdPercentage = .yesVote percentage)
  (hle : percentage ≤ 100) (hbound : maxVoteWeight < 2 ^ 64)
include h hthreshold hle hbound

theorem resolveFinalVoteState_single :
    p.resolveFinalVoteState maxVoteWeight config =
      if Passes (minimumWeight percentage maxVoteWeight) deny yes then
        .ok (p.withResult yes .succeeded, .succeeded)
      else .ok (p.withResult yes .defeated, .defeated) := by
  simp only [resolveFinalVoteState, hthreshold, getMinVoteThresholdWeight_eq hle hbound,
    unwrap, h.denyVoteWeight, h.options, Option.getD_some, ok_bind, countOptions_single, h.voteType]
  split
  · simp [settleOptions, coerceResults, h.withResult_eq, pure, Except.pure]
  · simp [settleOptions, h.withResult_eq, pure, Except.pure]

/-- What a vote that tips is known to be. -/
theorem tryGetTippedVoteState_single
    (htipped : p.tryGetTippedVoteState maxVoteWeight config = .ok (q, some state)) :
    (state = .succeeded ∧ q = p.withResult yes .succeeded ∧
      (yes.voteWeight = maxVoteWeight ∨
        minimumWeight percentage maxVoteWeight ≤ yes.voteWeight ∧
          (maxVoteWeight - yes.voteWeight < yes.voteWeight ∨
            config.voteTipping = .early ∧ deny < yes.voteWeight))) ∨
    (state = .defeated ∧ q = p.withResult yes .defeated ∧ yes.voteWeight ≠ maxVoteWeight ∧
      (deny = maxVoteWeight ∨
        maxVoteWeight - minimumWeight percentage maxVoteWeight < deny ∨
        maxVoteWeight - deny ≤ deny)) := by
  simp only [tryGetTippedVoteState, h.voteType, h.denyVoteWeight, h.options, hthreshold,
    getMinVoteThresholdWeight_eq hle hbound, unwrap, ok_bind] at htipped
  split at htipped
  next hall =>
    cases htipped
    exact .inl ⟨rfl, (h.withResult_eq _).symm, .inl hall⟩
  next hnot =>
    split at htipped
    next hdeny =>
      cases htipped
      exact .inr ⟨rfl, (h.withResult_eq _).symm, hnot, .inl hdeny⟩
    next =>
      split at htipped
      next hstrict =>
        cases htipped
        exact .inl ⟨rfl, (h.withResult_eq _).symm, .inr ⟨hstrict.2.1, .inl hstrict.2.2⟩⟩
      next =>
        split at htipped
        next hearly =>
          cases htipped
          exact .inl ⟨rfl, (h.withResult_eq _).symm, .inr ⟨hearly.2.1, .inr ⟨hearly.1, hearly.2.2⟩⟩⟩
        next =>
          split at htipped
          next hlost =>
            cases htipped
            exact .inr ⟨rfl, (h.withResult_eq _).symm, hnot, .inr hlost.2⟩
          next => cases htipped

omit h hthreshold hle hbound

def ProposalV2.withWeights (p : ProposalV2) (yes : ProposalOption) (yesWeight denyWeight : ℕ) :
    ProposalV2 :=
  { p with
    options := [{ yes with voteWeight := yesWeight }]
    denyVoteWeight := some denyWeight }

theorem ProposalV2.Single.withWeights (h : p.Single yes deny) (yesWeight denyWeight : ℕ) :
    (p.withWeights yes yesWeight denyWeight).Single { yes with voteWeight := yesWeight }
      denyWeight :=
  ⟨h.voteType, rfl, rfl⟩

/-- A vote that tips is decided as the final count decides it, now and, unless it succeeded early,
for all weights that can still come. -/
def TippingAgrees (config : GovernanceConfig) (p : ProposalV2) (yes : ProposalOption)
    (deny maxVoteWeight : ℕ) : Prop :=
  ∀ q state, p.tryGetTippedVoteState maxVoteWeight config = .ok (q, some state) →
    p.resolveFinalVoteState maxVoteWeight config = .ok (q, state) ∧
    (state = .defeated ∨ config.voteTipping ≠ .early →
      ∀ yesWeight denyWeight, yes.voteWeight ≤ yesWeight → deny ≤ denyWeight →
        yesWeight + denyWeight ≤ maxVoteWeight →
        ∃ q', (p.withWeights yes yesWeight denyWeight).resolveFinalVoteState maxVoteWeight config =
            .ok (q', state) ∧
          q'.options.map voteResult = q.options.map voteResult)

variable (h : p.Single yes deny) (hthreshold : config.voteThresholdPercentage = .yesVote percentage)
include h hthreshold

/-- Without any weight a vote tips at once, though nobody approved. -/
theorem not_tippingAgrees_zero (hle : percentage ≤ 100) (hsum : yes.voteWeight + deny ≤ 0) :
    ¬ TippingAgrees config p yes deny 0 := by
  intro hagrees
  have hyes : yes.voteWeight = 0 := by omega
  have htipped : p.tryGetTippedVoteState 0 config =
      .ok (p.withResult yes .succeeded, some .succeeded) := by
    simp only [tryGetTippedVoteState, h.voteType, h.denyVoteWeight, h.options,
      h.withResult_eq, hyes, if_true]
  have hfinal := (hagrees _ _ htipped).1
  have hfails : ¬ Passes (minimumWeight percentage 0) deny yes := fun hpasses => by
    have := hpasses.2
    omega
  rw [resolveFinalVoteState_single h hthreshold hle (by decide), if_neg hfails] at hfinal
  cases hfinal

theorem tippingAgrees_of_pos (hle : percentage ≤ 100)
    (hbound : maxVoteWeight < 2 ^ 64) (hsum : yes.voteWeight + deny ≤ maxVoteWeight)
    (hpos : 0 < maxVoteWeight) : TippingAgrees config p yes deny maxVoteWeight := by
  intro q state htipped
  have hminimum : minimumWeight percentage maxVoteWeight ≤ maxVoteWeight := minimumWeight_le hle
  have hfinal := fun yesWeight denyWeight => resolveFinalVoteState_single
    (h.withWeights yesWeight denyWeight) hthreshold hle hbound
  rw [resolveFinalVoteState_single h hthreshold hle hbound]
  rcases tryGetTippedVoteState_single h hthreshold hle hbound htipped with
    ⟨rfl, rfl, hwon⟩ | ⟨rfl, rfl, hnot, hlost⟩
  · refine ⟨?_, fun hlater yesWeight denyWeight hyes hdeny hsum' => ?_⟩
    · exact if_pos ⟨by omega, by omega⟩
    · have hearly : config.voteTipping ≠ .early := hlater.resolve_left nofun
      have hpasses : Passes (minimumWeight percentage maxVoteWeight) denyWeight
          { yes with voteWeight := yesWeight } := by
        rcases hwon with hall | ⟨hreached, hmajority | ⟨hearly', -⟩⟩
        · exact ⟨show _ ≤ yesWeight by omega, show denyWeight < yesWeight by omega⟩
        · exact ⟨show _ ≤ yesWeight by omega, show denyWeight < yesWeight by omega⟩
        · exact absurd hearly' hearly
      exact ⟨_, (hfinal yesWeight denyWeight).trans (if_pos hpasses), rfl⟩
  · refine ⟨?_, fun _ yesWeight denyWeight hyes hdeny hsum' => ?_⟩
    · refine if_neg fun hpasses => ?_
      have hfirst := hpasses.1
      have hsecond := hpasses.2
      omega
    · have hfails : ¬ Passes (minimumWeight percentage maxVoteWeight) denyWeight
          { yes with voteWeight := yesWeight } := fun hpasses => by
        have hfirst : _ ≤ yesWeight := hpasses.1
        have hsecond : denyWeight < yesWeight := hpasses.2
        omega
      exact ⟨_, (hfinal yesWeight denyWeight).trans (if_neg hfails), rfl⟩

omit h hthreshold

/-- Tipping agrees with the final count exactly if there is any weight to vote with. -/
theorem tipping_agrees_iff (hvalid : assertIsValidGovernanceConfig config = .ok ())
    (h : p.Single yes deny) (hbound : maxVoteWeight < 2 ^ 64)
    (hsum : yes.voteWeight + deny ≤ maxVoteWeight) :
    TippingAgrees config p yes deny maxVoteWeight ↔ 0 < maxVoteWeight := by
  obtain ⟨_, hthreshold, -, hle⟩ := assertIsValidGovernanceConfig_ok hvalid
  refine ⟨fun hagrees => ?_, tippingAgrees_of_pos h hthreshold hle hbound hsum⟩
  by_contra hnot
  obtain rfl : maxVoteWeight = 0 := by omega
  exact not_tippingAgrees_zero h hthreshold hle hsum hagrees

end Single

/-! ## Two votes -/

namespace Ballot

/-- A threshold of 60 percent, the vote tips as soon as the result is certain. -/
def config : GovernanceConfig := ⟨.yesVote 60, 0, 0, 100, .strict, 0, 0⟩

def option (voteWeight : ℕ) : ProposalOption := ⟨[1], voteWeight, .none, 0, 0, 0⟩

variable (yesWeight denyWeight : ℕ)

def proposal : ProposalV2 where
  governance := .wallet 0
  governingTokenMint := .wallet 1
  state := .voting
  tokenOwnerRecord := .wallet 2
  signatoriesCount := 0
  signatoriesSignedOffCount := 0
  voteType := .singleChoice
  options := [option yesWeight]
  denyVoteWeight := some denyWeight
  draftAt := 0
  signingOffAt := none
  votingAt := some 0
  votingAtSlot := some 0
  votingCompletedAt := none
  executingAt := none
  closedAt := none
  maxVoteWeight := none
  voteThresholdPercentage := none
  name := [1]
  descriptionLink := []

theorem single : (proposal yesWeight denyWeight).Single (option yesWeight) denyWeight :=
  ⟨rfl, rfl, rfl⟩

end Ballot

/-- A mint without a supply: the vote of nobody tips to a success, the final count is a defeat. -/
theorem tipping_disagrees_without_supply :
    assertIsValidGovernanceConfig config = .ok () ∧
    (proposal 0 0).Single (option 0) 0 ∧ (option 0).voteWeight + 0 ≤ 0 ∧
    (proposal 0 0).tryGetTippedVoteState 0 config =
      .ok ((proposal 0 0).withResult (option 0) .succeeded, some .succeeded) ∧
    (proposal 0 0).resolveFinalVoteState 0 config =
      .ok ((proposal 0 0).withResult (option 0) .defeated, .defeated) ∧
    ¬ TippingAgrees config (proposal 0 0) (option 0) 0 0 :=
  ⟨rfl, single 0 0, Nat.le_refl 0, rfl, rfl,
    not_tippingAgrees_zero (single 0 0) rfl (by decide) (by decide)⟩

/-- Seven of ten tip the vote, and three denials do not change it. -/
theorem tipping_agrees_seven_of_ten :
    (proposal 7 0).tryGetTippedVoteState 10 config =
      .ok ((proposal 7 0).withResult (option 7) .succeeded, some .succeeded) ∧
    TippingAgrees config (proposal 7 0) (option 7) 0 10 :=
  ⟨rfl, (tipping_agrees_iff rfl (single 7 0) (by decide) (by decide)).mpr (by decide)⟩

end SolanaPrograms.Governance
