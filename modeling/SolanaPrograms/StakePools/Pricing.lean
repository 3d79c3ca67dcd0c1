import SolanaPrograms.StakePools.State

/-!
# What the conversions are worth

Deposits mint the exact number of pool tokens rounded down, withdrawals pay the exact number of
lamports rounded up unless it is below one. The fee of an epoch is the greatest number of tokens
that, once minted, are worth at most the fee.
-/

namespace SolanaPrograms.StakePools

open Checked Option Nat

namespace StakePool

variable {p : StakePool}

/-! ## Deposits and withdrawals -/

theorem calcPoolTokensForDeposit_mul_le {lamports tokens : ℕ} (hT : 0 < p.totalLamports)
    (hS : 0 < p.poolTokenSupply) (h : p.calcPoolTokensForDeposit lamports = some tokens) :
    tokens * p.totalLamports ≤ lamports * p.poolTokenSupply := by
  rw [calcPoolTokensForDeposit, if_neg (by omega)] at h
  simp only [bind_eq_bind, bind_eq_some_iff, mul_eq_some, div_eq_some,
    tryFrom_eq_some] at h
  obtain ⟨_, ⟨-, rfl⟩, _, ⟨-, rfl⟩, -, rfl⟩ := h
  exact div_mul_le_self _ _

variable {tokens lamports T S r fee f : ℕ} (hS : 0 < p.poolTokenSupply)
  (h : p.calcLamportsWithdrawAmount tokens = some lamports)
include hS h

/-- Paid lamports are rounded up, and nothing is paid for less than a lamport. -/
theorem calcLamportsWithdrawAmount_eq :
    (tokens * p.totalLamports < p.poolTokenSupply ∧ lamports = 0) ∨
      (p.poolTokenSupply ≤ tokens * p.totalLamports ∧
        lamports = tokens * p.totalLamports ⌈/⌉ p.poolTokenSupply) := by
  simp only [calcLamportsWithdrawAmount, bind_eq_bind, bind_eq_some_iff,
    mul_eq_some] at h
  obtain ⟨_, ⟨-, rfl⟩, h⟩ := h
  split_ifs at h with hsmall
  · have hlt := hsmall.resolve_right (ne_of_gt hS)
    exact .inl ⟨hlt, (some.inj h).symm⟩
  · simp only [bind_eq_some_iff, Prod.exists, tryFrom_eq_some] at h
    obtain ⟨_, _, hdiv, -, rfl⟩ := h
    obtain ⟨-, hle, rfl, -⟩ := Math.checkedCeilDiv_eq_some hdiv
    exact .inr ⟨hle, rfl⟩

theorem calcLamportsWithdrawAmount_mul_lt :
    lamports * p.poolTokenSupply < tokens * p.totalLamports + p.poolTokenSupply := by
  rcases calcLamportsWithdrawAmount_eq hS h with ⟨-, rfl⟩ | ⟨-, rfl⟩
  · omega
  · rw [ceilDiv_eq_add_pred_div]
    have := div_mul_le_self (tokens * p.totalLamports + p.poolTokenSupply - 1)
      p.poolTokenSupply
    omega

omit hS h

/-! ## The fee of an epoch -/

theorem Fee.apply_of_lt {fee : Fee} {amount : ℕ} (h : amount * fee.numerator < 2 ^ 128) :
    fee.apply amount = some (amount * fee.numerator / fee.denominator) := by
  unfold Fee.apply
  split_ifs with hzero
  · rw [hzero, Nat.div_zero]
  · simp only [mul_of_lt h, div_of_pos (pos_of_ne_zero hzero), bind_eq_bind,
      bind_some]

theorem Fee.mul_div_le {fee : Fee} (h : fee.numerator ≤ fee.denominator) (amount : ℕ) :
    amount * fee.numerator / fee.denominator ≤ amount := by
  rcases Nat.eq_zero_or_pos fee.denominator with hzero | hpos
  · rw [hzero, Nat.div_zero]
    exact zero_le _
  · exact Nat.div_le_of_le_mul (by rw [Nat.mul_comm]; exact Nat.mul_le_mul_right _ h)

/-- A number of new tokens is worth at most the fee exactly if it is at most the quotient by what
is left after the fee. -/
theorem worth_le_iff (hT : 0 < T) (hfee : fee ≤ r) :
    f * (T + r) ≤ fee * (S + f) ↔ f ≤ S * fee / (T + r - fee) := by
  have hrest : 0 < T + r - fee := by omega
  have hsplit : f * (T + r) = f * (T + r - fee) + f * fee := by
    rw [← mul_add]
    congr 1
    omega
  rw [le_div_iff_mul_le hrest, hsplit, mul_add, mul_comm fee f, mul_comm fee S]
  omega

/-- New tokens that are worth at most the fee cost the holders at most the reward. -/
theorem holders_keep (hfee : fee ≤ r) (h : f * (T + r) ≤ fee * (S + f)) :
    T * (S + f) ≤ (T + r) * S := by
  nlinarith [mul_le_mul_right S hfee, mul_le_mul_right f hfee]

/-- The amount is the quotient, or nothing if the quotient does not fit. -/
theorem calcEpochFeeAmount_eq {rewardLamports : ℕ} (hT : 0 < p.totalLamports)
    (hS : 0 < p.poolTokenSupply) (hsupply : p.poolTokenSupply < 2 ^ 64)
    (hfee : p.epochFee.numerator ≤ p.epochFee.denominator)
    (hdenominator : p.epochFee.denominator < 2 ^ 64)
    (hrange : p.totalLamports + rewardLamports < 2 ^ 64) :
    p.calcEpochFeeAmount rewardLamports =
      tryFrom 64 (p.poolTokenSupply *
        (rewardLamports * p.epochFee.numerator / p.epochFee.denominator) /
        (p.totalLamports + rewardLamports -
          rewardLamports * p.epochFee.numerator / p.epochFee.denominator)) := by
  have hle := Fee.mul_div_le hfee rewardLamports
  have happly : p.epochFee.apply rewardLamports = _ :=
    Fee.apply_of_lt (mul_lt_two_pow (m := 64) (n := 64) (by omega) (by omega) (by decide))
  generalize rewardLamports * p.epochFee.numerator / p.epochFee.denominator = feeLamports at *
  unfold calcEpochFeeAmount
  split_ifs with hzero
  · obtain rfl : feeLamports = 0 := by omega
    simp [tryFrom]
  · have hproduct : p.poolTokenSupply * feeLamports < 2 ^ 128 :=
      mul_lt_two_pow (m := 64) (n := 64) hsupply (by omega) (by decide)
    have hne : ¬ (p.totalLamports + rewardLamports = feeLamports ∨ p.poolTokenSupply = 0) := by
      omega
    simp only [bind_eq_bind, add_of_lt (show p.totalLamports + rewardLamports < 2 ^ 128 by
      omega), happly, bind_some, if_neg hne, mul_of_lt hproduct,
      sub_of_le (show feeLamports ≤ p.totalLamports + rewardLamports by omega),
      div_of_pos (show 0 < p.totalLamports + rewardLamports - feeLamports by omega)]

/-- The epoch fee is worth at most its share of the reward, leaves the holders what they had, and is
the greatest such number; it is missing only if that number does not fit. -/
theorem epoch_fee_fair (p : StakePool) (rewardLamports : ℕ) (hT : 0 < p.totalLamports)
    (hS : 0 < p.poolTokenSupply) (hsupply : p.poolTokenSupply < 2 ^ 64)
    (hfee : p.epochFee.numerator ≤ p.epochFee.denominator)
    (hdenominator : p.epochFee.denominator < 2 ^ 64)
    (hrange : p.totalLamports + rewardLamports < 2 ^ 64) :
    let T := p.totalLamports
    let S := p.poolTokenSupply
    let fee := rewardLamports * p.epochFee.numerator / p.epochFee.denominator
    (p.calcEpochFeeAmount rewardLamports = none →
      ∃ due, 2 ^ 64 ≤ due ∧ due * (T + rewardLamports) ≤ fee * (S + due)) ∧
    ∀ f, p.calcEpochFeeAmount rewardLamports = some f →
      f * (T + rewardLamports) ≤ fee * (S + f) ∧
      T * (S + f) ≤ (T + rewardLamports) * S ∧
      ∀ g, g * (T + rewardLamports) ≤ fee * (S + g) → g ≤ f := by
  intro T S fee
  have hle : fee ≤ rewardLamports := Fee.mul_div_le hfee rewardLamports
  rw [calcEpochFeeAmount_eq hT hS hsupply hfee hdenominator hrange]
  constructor
  · intro hnone
    refine ⟨S * fee / (T + rewardLamports - fee), ?_, (worth_le_iff hT hle).mpr (le_refl _)⟩
    by_contra hlt
    rw [tryFrom, if_pos (Nat.lt_of_not_le hlt)] at hnone
    cases hnone
  · intro f hf
    obtain ⟨-, rfl⟩ := tryFrom_eq_some.mp hf
    have hworth := (worth_le_iff (S := S) hT hle).mpr (le_refl _)
    exact ⟨hworth, holders_keep hle hworth, fun g hg => (worth_le_iff hT hle).mp hg⟩

def tenPercent (totalLamports poolTokenSupply : ℕ) : StakePool where
  manager := .key 0
  staker := .key 1
  stakeDepositAuthority := .depositAuthority (.key 2)
  validatorList := .key 3
  reserveStake := .key 4
  poolMint := .key 5
  managerFeeAccount := .key 6
  tokenProgramId := .program .token
  totalLamports := totalLamports
  poolTokenSupply := poolTokenSupply
  lastUpdateEpoch := 0
  epochFee := ⟨10, 1⟩
  nextEpochFee := none
  preferredDepositValidatorVoteAddress := none
  preferredWithdrawValidatorVoteAddress := none
  stakeDepositFee := ⟨0, 0⟩
  stakeWithdrawalFee := ⟨0, 0⟩
  nextStakeWithdrawalFee := none
  stakeReferralFee := 0
  solDepositAuthority := none
  solDepositFee := ⟨0, 0⟩
  solReferralFee := 0
  solWithdrawAuthority := none
  solWithdrawalFee := ⟨0, 0⟩
  nextSolWithdrawalFee := none
  lastEpochPoolTokenSupply := 0
  lastEpochTotalLamports := 0

/-- Ten percent of a reward of 10 SOL on 100 SOL. -/
theorem epoch_fee_fair_ten_sol :
    (tenPercent 100000000000 100000000000).calcEpochFeeAmount 10000000000 = some 917431192 ∧
    917431192 * 110000000000 ≤ 1000000000 * (100000000000 + 917431192) ∧
    100000000000 * (100000000000 + 917431192) ≤ 110000000000 * 100000000000 ∧
    ∀ g, g * 110000000000 ≤ 1000000000 * (100000000000 + g) → g ≤ 917431192 :=
  have h : (tenPercent 100000000000 100000000000).calcEpochFeeAmount 10000000000 =
    some 917431192 := by decide +kernel
  ⟨h, (epoch_fee_fair (tenPercent 100000000000 100000000000) 10000000000 (by decide) (by decide)
    (by decide) (by decide) (by decide) (by decide)).2 _ h⟩

end StakePool

end SolanaPrograms.StakePools
