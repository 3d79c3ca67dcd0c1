import SolanaPrograms.Lending.State

/-!
# What a liquidation pays

`calculateLiquidation` turns an offer into a claim on the collateral: the value of the debt that is
settled, with a bonus. If the claim is below the value of the collateral, a part of it is withdrawn
and the payment is the settled amount rounded down, so what is settled and withdrawn can be worth up
to a token more than what is paid. If not, all of it is withdrawn and the payment is rounded up.

A debt below two tokens is closed out as a whole, however small the offer is; the results about the
payment therefore ask for an offer that covers such a debt.
-/

namespace SolanaPrograms.Lending

open Outcome Decimal Reserve Nat Obligation ObligationLiquidity

/-! ## Numbers -/

section Numbers

variable {W K q claim value collateral deposited : ℕ}

theorem part_mul_le (W : ℕ) (deposited value collateral : ℕ) :
    deposited * (value * W / collateral) / W * collateral ≤ deposited * value := by
  rcases Nat.eq_zero_or_pos W with rfl | hW
  · simp
  · refine le_of_mul_le_mul_right ?_ hW
    have hpart := div_mul_le_self (deposited * (value * W / collateral)) W
    have hratio := div_mul_le_self (value * W) collateral
    calc deposited * (value * W / collateral) / W * collateral * W
        = deposited * (value * W / collateral) / W * W * collateral := mul_right_comm _ _ _
      _ ≤ deposited * (value * W / collateral) * collateral := mul_le_mul_right _ hpart
      _ = deposited * (value * W / collateral * collateral) := mul_assoc _ _ _
      _ ≤ deposited * (value * W) := mul_le_mul_left _ hratio
      _ = deposited * value * W := (mul_assoc _ _ _).symm

/-- A claim above the value of the collateral is paid in their ratio, up to the last digits of the
ratio and of the payment. -/
theorem ratio_paid {paid repaid : ℕ} (hvalue : 0 < value) (hW : 0 < W)
    (hclaim : value * K ≤ claim * q) (hpaid : paid = claim * (collateral * W / value) / W)
    (hrepaid : paid ≤ repaid * W) : collateral * W * K ≤ q * (repaid * W * W + W + claim) := by
  have hratio : collateral * W < (collateral * W / value + 1) * value := by
    rw [mul_comm (_ + 1)]
    exact lt_mul_div_succ _ hvalue
  have hround : claim * (collateral * W / value) < (paid + 1) * W := by
    rw [mul_comm (_ + 1), hpaid]
    exact lt_mul_div_succ _ hW
  generalize collateral * W / value = ratio at hratio hround
  have hpart : claim * ratio ≤ repaid * W * W + W := by
    have := mul_le_mul_right W hrepaid
    rw [add_mul] at hround
    omega
  calc collateral * W * K ≤ (ratio + 1) * value * K := mul_le_mul_right _ hratio.le
    _ = (ratio + 1) * (value * K) := mul_assoc _ _ _
    _ ≤ (ratio + 1) * (claim * q) := mul_le_mul_left _ hclaim
    _ = q * (claim * ratio + claim) := by ring
    _ ≤ q * (repaid * W * W + W + claim) := mul_le_mul_left _ (by omega)

end Numbers

/-! ## Values -/

section Values

variable {r : Reserve} {b v : Decimal}

theorem liquidityValue_mul_le (h : r.liquidityValue b = .ok v) :
    v.scaled * (wad * 10 ^ r.liquidity.mintDecimals.toNat) ≤
      b.scaled * r.liquidity.marketPrice.scaled := by
  simp only [liquidityValue, bind_eq_ok, tenPow, toU64_eq_ok, tryMul_eq_ok,
    tryDivU64_eq_ok] at h
  obtain ⟨_, hdecimals, _, ⟨-, hproduct⟩, -, hv⟩ := h
  rw [hv, hproduct, hdecimals, Nat.div_div_eq_div_mul]
  exact div_mul_le_self _ _

theorem collateralValue_zero (h : r.collateralValue 0 = .ok v) : v.scaled = 0 := by
  simp only [collateralValue, CollateralExchangeRate.decimalCollateralToLiquidity,
    bind_eq_ok, tryDivRate_eq_ok, tryMul_eq_ok, tryDivU64_eq_ok, scaled_ofU64] at h
  obtain ⟨_, -, _, -, _, ⟨-, -, hliquidity⟩, _, ⟨-, hproduct⟩, -, hv⟩ := h
  rw [hv, hproduct, hliquidity]
  simp

end Values

/-! ## The branches -/

section Branches

variable {amount n : UInt64} {liquidity : ObligationLiquidity} {collateral : ObligationCollateral}
  {claim value : Decimal} {res : CalculateLiquidationResult} {K q : ℕ}

theorem maxSettled_le (amount : UInt64) (b : Decimal) : maxSettled amount b ≤ b := by
  unfold maxSettled
  split
  · exact le_refl b
  · exact min_le_right _ _

/-- The offer is at least the debt. -/
def Covers (amount : UInt64) (liquidity : ObligationLiquidity) : Prop :=
  amount = u64Max ∨ liquidity.borrowedAmountWads ≤ .ofU64 amount

instance (amount : UInt64) (liquidity : ObligationLiquidity) :
    Decidable (Covers amount liquidity) :=
  inferInstanceAs (Decidable (_ ∨ _))

theorem maxSettled_of_covers (h : Covers amount liquidity) :
    maxSettled amount liquidity.borrowedAmountWads = liquidity.borrowedAmountWads := by
  unfold maxSettled
  split
  · rfl
  next hne => exact min_eq_right (h.resolve_left hne)

/-- What a liquidation does about a claim: `q / K` is the value of a unit of the debt, with the
bonus. While collateral remains, the payment is the settled amount rounded down and the withdrawn
part is worth at most what is settled. If none remains, the payment is worth all the collateral, up
to the last digits. -/
structure Settles (claim : Decimal) (collateral : ObligationCollateral) (K q : ℕ)
    (res : CalculateLiquidationResult) : Prop where
  partly : res.withdrawAmount ≠ collateral.depositedAmount →
    res.repayAmount.toNat = res.settleAmount.scaled / wad ∧
      res.withdrawAmount.toNat * collateral.marketValue.scaled * K ≤
        collateral.depositedAmount.toNat * (res.settleAmount.scaled * q)
  whole : res.withdrawAmount = collateral.depositedAmount →
    collateral.marketValue.scaled * wad * K ≤
      q * (res.repayAmount.toNat * wad * wad + wad + claim.scaled)

theorem le_ceil {d : Decimal} (h : d.tryCeilU64 = .ok n) : d.scaled ≤ n.toNat * wad := by
  have hceil := lt_mul_div_succ (wad - 1 + d.scaled) wad_pos
  rw [← tryCeilU64_ok h, mul_add, mul_comm wad] at hceil
  omega

theorem whole_of_gt {pct paid : Decimal} (hgt : collateral.marketValue.scaled < value.scaled)
    (hclaim : value.scaled * K ≤ claim.scaled * q)
    (hpct : collateral.marketValue.tryDiv value = .ok pct) (hpaid : claim.tryMul pct = .ok paid)
    (hn : paid.tryCeilU64 = .ok n) :
    collateral.marketValue.scaled * wad * K ≤
      q * (n.toNat * wad * wad + wad + claim.scaled) ∧ paid ≤ claim := by
  obtain ⟨-, -, hpct⟩ := tryDiv_eq_ok.mp hpct
  obtain ⟨-, hpaid⟩ := tryMul_eq_ok.mp hpaid
  rw [hpct] at hpaid
  refine ⟨ratio_paid (by omega) wad_pos hclaim hpaid (le_ceil hn), ?_⟩
  rw [Fixed.le_iff, hpaid]
  refine Fixed.mul_div_le_of_le (Nat.div_le_of_le_mul ?_)
  exact Nat.mul_le_mul_right _ hgt.le

theorem whole_of_eq (hclaim : collateral.marketValue.scaled * K ≤ claim.scaled * q)
    (hn : claim.tryCeilU64 = .ok n) :
    collateral.marketValue.scaled * wad * K ≤
      q * (n.toNat * wad * wad + wad + claim.scaled) := by
  calc collateral.marketValue.scaled * wad * K = collateral.marketValue.scaled * K * wad := by ring
    _ ≤ claim.scaled * q * wad := mul_le_mul_right _ hclaim
    _ = q * (claim.scaled * wad) := by ring
    _ ≤ q * (n.toNat * wad * wad + wad + claim.scaled) := by
      refine mul_le_mul_left _ ?_
      have := mul_le_mul_right wad (le_ceil hn)
      omega

theorem partly_of_lt {part pct : Decimal} {w : UInt64}
    (hdeposit : collateral.depositedAmount = 0 → collateral.marketValue.scaled = 0)
    (hlt : value.scaled < collateral.marketValue.scaled)
    (hpct : value.tryDiv collateral.marketValue = .ok pct)
    (hpart : (Decimal.ofU64 collateral.depositedAmount).tryMul pct = .ok part)
    (hw : part.tryFloorU64 = .ok w) :
    w < collateral.depositedAmount ∧
      w.toNat * collateral.marketValue.scaled ≤
        collateral.depositedAmount.toNat * value.scaled := by
  obtain ⟨-, -, hpct⟩ := tryDiv_eq_ok.mp hpct
  obtain ⟨-, hpart⟩ := tryMul_eq_ok.mp hpart
  have hw : w.toNat = collateral.depositedAmount.toNat *
      (value.scaled * wad / collateral.marketValue.scaled) / wad := by
    rw [tryFloorU64_eq_ok.mp hw, hpart, scaled_ofU64, hpct, mul_assoc,
      Nat.mul_div_cancel_left _ wad_pos]
  have hle := part_mul_le wad collateral.depositedAmount.toNat value.scaled
    collateral.marketValue.scaled
  rw [← hw] at hle
  have hpositive : 0 < collateral.depositedAmount := by
    rw [UInt64.pos_iff_ne_zero]
    intro hzero
    have := hdeposit hzero
    omega
  refine ⟨?_, hle⟩
  by_contra hge
  have hmul : collateral.depositedAmount.toNat * collateral.marketValue.scaled ≤
      collateral.depositedAmount.toNat * value.scaled :=
    Nat.le_trans (Nat.mul_le_mul_right _ (Nat.le_of_not_lt hge)) hle
  have := le_of_mul_le_mul_left hmul hpositive
  omega

theorem part_worth {w deposited : ℕ} (hclaim : value.scaled * K ≤ claim.scaled * q)
    (hle : w * collateral.marketValue.scaled ≤ deposited * value.scaled) :
    w * collateral.marketValue.scaled * K ≤ deposited * (claim.scaled * q) := by
  calc w * collateral.marketValue.scaled * K ≤ deposited * value.scaled * K :=
        mul_le_mul_right _ hle
    _ = deposited * (value.scaled * K) := mul_assoc _ _ _
    _ ≤ deposited * (claim.scaled * q) := mul_le_mul_left _ hclaim

theorem Settles.of_whole (hall : res.withdrawAmount = collateral.depositedAmount)
    (h : collateral.marketValue.scaled * wad * K ≤
      q * (res.repayAmount.toNat * wad * wad + wad + claim.scaled)) :
    Settles claim collateral K q res :=
  ⟨fun hne => absurd hall hne, fun _ => h⟩

theorem Settles.of_partly (hproper : res.withdrawAmount < collateral.depositedAmount)
    (hrepay : res.repayAmount.toNat = res.settleAmount.scaled / wad)
    (hworth : res.withdrawAmount.toNat * collateral.marketValue.scaled * K ≤
      collateral.depositedAmount.toNat * (res.settleAmount.scaled * q)) :
    Settles claim collateral K q res :=
  ⟨fun _ => ⟨hrepay, hworth⟩, fun heq => absurd (heq ▸ hproper) (UInt64.lt_irrefl _)⟩

theorem liquidatePart_settles
    (hdeposit : collateral.depositedAmount = 0 → collateral.marketValue.scaled = 0)
    (hclaim : value.scaled * K ≤ claim.scaled * q)
    (h : liquidatePart claim value collateral = .ok res) :
    Settles claim collateral K q res ∧ res.settleAmount ≤ claim ∧
      res.withdrawAmount ≤ collateral.depositedAmount := by
  unfold liquidatePart at h
  split at h
  next hcmp =>
    have hgt : collateral.marketValue < value := compare_gt_iff_gt.mp hcmp
    simp only [checks] at h
    obtain ⟨_, hpct, _, hsettle, _, hrepay, rfl⟩ := h
    obtain ⟨hwhole, hle⟩ := whole_of_gt (Fixed.lt_iff.mp hgt) hclaim hpct hsettle hrepay
    exact ⟨.of_whole rfl hwhole, hle, UInt64.le_refl _⟩
  next hcmp =>
    obtain rfl : value = collateral.marketValue := compare_eq_iff_eq.mp hcmp
    simp only [checks] at h
    obtain ⟨_, hrepay, rfl⟩ := h
    exact ⟨.of_whole rfl (whole_of_eq hclaim hrepay), le_refl _, UInt64.le_refl _⟩
  next hcmp =>
    have hlt : value < collateral.marketValue := compare_lt_iff_lt.mp hcmp
    simp only [checks] at h
    obtain ⟨_, hpct, _, hrepay, _, hpart, _, hw, rfl⟩ := h
    obtain ⟨hproper, hle⟩ := partly_of_lt hdeposit (Fixed.lt_iff.mp hlt) hpct hpart hw
    exact ⟨.of_partly hproper (tryFloorU64_eq_ok.mp hrepay) (part_worth hclaim hle), le_refl _,
      UInt64.le_of_lt hproper⟩

theorem closeOut_settles {maxAmount : Decimal}
    (hdeposit : collateral.depositedAmount = 0 → collateral.marketValue.scaled = 0)
    (hclaim : value.scaled * K ≤ liquidity.borrowedAmountWads.scaled * q)
    (h : closeOut maxAmount value liquidity collateral = .ok res) :
    (maxAmount = liquidity.borrowedAmountWads →
      Settles liquidity.borrowedAmountWads collateral K q res) ∧
      res.settleAmount ≤ liquidity.borrowedAmountWads ∧
      res.withdrawAmount ≤ collateral.depositedAmount := by
  unfold closeOut at h
  split at h
  next hcmp =>
    have hgt : collateral.marketValue < value := compare_gt_iff_gt.mp hcmp
    simp only [checks] at h
    obtain ⟨_, hpct, _, hpaid, _, hrepay, rfl⟩ := h
    refine ⟨?_, le_refl _, UInt64.le_refl _⟩
    rintro rfl
    obtain ⟨hwhole, -⟩ := whole_of_gt (Fixed.lt_iff.mp hgt) hclaim hpct hpaid hrepay
    exact .of_whole rfl hwhole
  next hcmp =>
    obtain rfl : value = collateral.marketValue := compare_eq_iff_eq.mp hcmp
    simp only [checks] at h
    obtain ⟨_, hrepay, rfl⟩ := h
    refine ⟨?_, le_refl _, UInt64.le_refl _⟩
    rintro rfl
    exact .of_whole rfl (whole_of_eq hclaim hrepay)
  next hcmp =>
    have hlt : value < collateral.marketValue := compare_lt_iff_lt.mp hcmp
    simp only [checks] at h
    obtain ⟨_, hpct, _, hrepay, _, hpart, _, hw, rfl⟩ := h
    obtain ⟨hproper, hle⟩ := partly_of_lt hdeposit (Fixed.lt_iff.mp hlt) hpct hpart hw
    refine ⟨?_, le_refl _, UInt64.le_of_lt hproper⟩
    rintro rfl
    exact .of_partly hproper (tryFloorU64_eq_ok.mp hrepay) (part_worth hclaim hle)

end Branches

/-! ## Liquidations -/

section Liquidations

variable {repayReserve withdrawReserve : Reserve} {amount : UInt64} {obligation : Obligation}
  {liquidity : ObligationLiquidity} {collateral : ObligationCollateral}
  {res : CalculateLiquidationResult} {δ p : ℕ}

def Reserve.bonus (r : Reserve) : ℕ := r.config.liquidationBonus.toNat * percentScaler + wad

/-- Liquidations are paid for: what is settled and withdrawn is there, and the payment is worth both
of them. The value of `n` tokens of debt is `n * price / 10 ^ decimals` wads, and the inequality of
values is cleared of its denominators. -/
structure PaidFor (repayReserve withdrawReserve : Reserve) (liquidity : ObligationLiquidity)
    (collateral : ObligationCollateral) (res : CalculateLiquidationResult) : Prop where
  settled : res.settleAmount ≤ liquidity.borrowedAmountWads
  withdrawn : res.withdrawAmount ≤ collateral.depositedAmount
  repaid : res.withdrawAmount ≠ collateral.depositedAmount →
    res.settleAmount ≤ .ofU64 res.repayAmount
  value : res.withdrawAmount.toNat * collateral.marketValue.scaled *
      (wad * 10 ^ repayReserve.liquidity.mintDecimals.toNat) ≤
    collateral.depositedAmount.toNat * (withdrawReserve.bonus *
      (res.repayAmount.toNat * repayReserve.liquidity.marketPrice.scaled))

theorem claim_value_le {b v lv : Decimal} {bonusRate : Rate}
    (hdebt : v.scaled * (wad * δ) ≤ b.scaled * p) (hlv : v.tryMulRate bonusRate = .ok lv) :
    lv.scaled * (wad * wad * δ) ≤ b.scaled * (p * bonusRate.scaled) := by
  obtain ⟨-, hlv⟩ := tryMulRate_eq_ok.mp hlv
  have h : lv.scaled * wad ≤ v.scaled * bonusRate.scaled := hlv ▸ div_mul_le_self _ _
  calc lv.scaled * (wad * wad * δ) = lv.scaled * wad * (wad * δ) := by ring
    _ ≤ v.scaled * bonusRate.scaled * (wad * δ) := mul_le_mul_right _ h
    _ = v.scaled * (wad * δ) * bonusRate.scaled := by ring
    _ ≤ b.scaled * p * bonusRate.scaled := mul_le_mul_right _ hdebt
    _ = b.scaled * (p * bonusRate.scaled) := mul_assoc _ _ _

theorem part_value_le {b la v pct value : Decimal}
    (hdebt : v.scaled * (wad * δ) ≤ b.scaled * p) (hpct : la.tryDiv b = .ok pct)
    (hvalue : v.tryMul pct = .ok value) : value.scaled * (wad * δ) ≤ la.scaled * p := by
  obtain ⟨-, hb, hpct⟩ := tryDiv_eq_ok.mp hpct
  obtain ⟨-, hvalue⟩ := tryMul_eq_ok.mp hvalue
  have h₁ : pct.scaled * b.scaled ≤ la.scaled * wad := hpct ▸ div_mul_le_self _ _
  have h₂ : value.scaled * wad ≤ v.scaled * pct.scaled := hvalue ▸ div_mul_le_self _ _
  refine le_of_mul_le_mul_right ?_ (pos_of_ne_zero hb)
  calc value.scaled * (wad * δ) * b.scaled = value.scaled * wad * (δ * b.scaled) := by ring
    _ ≤ v.scaled * pct.scaled * (δ * b.scaled) := mul_le_mul_right _ h₂
    _ = v.scaled * δ * (pct.scaled * b.scaled) := by ring
    _ ≤ v.scaled * δ * (la.scaled * wad) := mul_le_mul_left _ h₁
    _ = v.scaled * (wad * δ) * la.scaled := by ring
    _ ≤ b.scaled * p * la.scaled := mul_le_mul_right _ hdebt
    _ = la.scaled * p * b.scaled := by ring

/-- While collateral remains, a liquidation is paid for exactly if it settles whole tokens. -/
theorem Settles.paidFor_iff {claim : Decimal}
    (h : Settles claim collateral (wad * wad * 10 ^ repayReserve.liquidity.mintDecimals.toNat)
      (repayReserve.liquidity.marketPrice.scaled * withdrawReserve.bonus) res)
    (hsettled : res.settleAmount ≤ liquidity.borrowedAmountWads)
    (hwithdrawn : res.withdrawAmount ≤ collateral.depositedAmount)
    (hpartly : res.withdrawAmount ≠ collateral.depositedAmount) :
    PaidFor repayReserve withdrawReserve liquidity collateral res ↔
      wad ∣ res.settleAmount.scaled := by
  obtain ⟨hrepay, hworth⟩ := h.partly hpartly
  have hfloor : wad * res.repayAmount.toNat ≤ res.settleAmount.scaled :=
    hrepay ▸ mul_div_le _ _
  constructor
  · intro hpaid
    have hle := Fixed.le_iff.mp (hpaid.repaid hpartly)
    exact ⟨res.repayAmount.toNat, le_antisymm hle hfloor⟩
  · intro hwhole
    have heq : res.settleAmount.scaled = wad * res.repayAmount.toNat := by
      rw [hrepay, Nat.mul_div_cancel' hwhole]
    refine ⟨hsettled, hwithdrawn, fun _ => Nat.le_of_eq heq, ?_⟩
    refine le_of_mul_le_mul_right ?_ wad_pos
    rw [heq] at hworth
    generalize 10 ^ repayReserve.liquidity.mintDecimals.toNat = δ at hworth
    calc res.withdrawAmount.toNat * collateral.marketValue.scaled * (wad * δ) * wad
        = res.withdrawAmount.toNat * collateral.marketValue.scaled * (wad * wad * δ) := by ring
      _ ≤ _ := hworth
      _ = collateral.depositedAmount.toNat * (withdrawReserve.bonus *
          (res.repayAmount.toNat * repayReserve.liquidity.marketPrice.scaled)) * wad := by ring

/-- A reserve with equally many tokens and collateral tokens, the given price of a token and no
bonus. Half of the value of its collateral is safe to borrow. -/
def Reserve.priced (marketPrice : Decimal) (mintDecimals : UInt8) : Reserve where
  version := 1
  lastUpdate := ⟨0, false⟩
  lendingMarket := .key 0
  liquidity :=
    { ReserveLiquidity.new (.key 1) mintDecimals (.key 2) (.key 3) (.key 4) marketPrice with
      availableAmount := 1000000 }
  collateral := ⟨.key 5, 1000000, .key 6⟩
  config := ⟨80, 25, 0, 50, 0, 4, 30, ⟨0, 0, 0⟩⟩

/-- A debt of so many tokens that cost one each. -/
def ObligationLiquidity.tokens (n : UInt64) : ObligationLiquidity :=
  ⟨.key 8, .one, .ofU64 n, .ofU64 n⟩

def Obligation.between (liquidity : ObligationLiquidity) (collateral : ObligationCollateral) :
    Obligation where
  version := 1
  lastUpdate := ⟨0, false⟩
  lendingMarket := .key 0
  owner := .key 7
  deposits := [collateral]
  borrows := [liquidity]
  depositedValue := collateral.marketValue
  borrowedValue := liquidity.marketValue
  allowedBorrowValue := collateral.marketValue.divBy 4
  unhealthyBorrowValue := collateral.marketValue.divBy 2

/-- A deposit of 6000 collateral tokens worth a thousandth each. -/
def ObligationCollateral.six : ObligationCollateral := ⟨.key 9, 6000, .ofU64 6⟩

/-- A collateral token worth ten tokens and the last digit of another. -/
def ObligationCollateral.overTen : ObligationCollateral := ⟨.key 9, 1, ⟨10 * wad + 1, by decide⟩⟩

/-- A debt of one and a half tokens. -/
def ObligationLiquidity.small : ObligationLiquidity :=
  ⟨.key 8, .one, ⟨3 * wad / 2, by decide⟩, ⟨3 * wad / 2, by decide⟩⟩

/-- A deposit of 1200 collateral tokens worth a thousandth each. -/
def ObligationCollateral.small : ObligationCollateral := ⟨.key 9, 1200, ⟨6 * wad / 5, by decide⟩⟩

end Liquidations

end SolanaPrograms.Lending
