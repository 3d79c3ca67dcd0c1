import SolanaPrograms.Lending.State

/-!
# The price of a share

A deposit multiplies by the exchange rate and a redemption divides by it. The rate itself is rounded
down to 18 digits, so a deposit never mints too much, but a redemption can pay too much. Whether it
does depends on the remainder the rounding leaves (`share_price`); if that is too large, even the
whole supply of a reserve without borrows cannot be redeemed.
-/

namespace SolanaPrograms.Lending

open Outcome Decimal CollateralExchangeRate Reserve ReserveLiquidity Nat ReserveCollateral

/-- A quotient grows with a smaller divisor exactly if the remainder has no room for what every part
and the next one lose. -/
theorem div_eq_div_add_iff {d : ℕ} (m n : ℕ) (hd : 0 < d) :
    n / d = n / (d + m) ↔ n % (d + m) + (n / (d + m) + 1) * m < d + m := by
  have hn := div_add_mod n (d + m)
  generalize n / (d + m) = q at hn ⊢
  rw [Nat.div_eq_iff hd]
  have hle : q * d ≤ (d + m) * q := by
    rw [mul_comm q]
    exact mul_le_mul_right q (le_add_right d m)
  have hstep : (q + 1) * m + q * d + d = (d + m) * q + (d + m) := by ring
  omega

namespace Reserve

variable (r : Reserve)

def total : ℕ :=
  wad * r.liquidity.availableAmount.toNat + r.liquidity.borrowedAmountWads.scaled

def supply : ℕ := r.collateral.mintTotalSupply.toNat

/-- The exact number of tokens some collateral is worth, rounded down. -/
def worth (collateralAmount : ℕ) : ℕ :=
  collateralAmount * r.total / (wad * r.supply)

/-- What is left over when the exchange rate is rounded down to 18 digits. -/
def rateRemainder : ℕ := wad * r.supply * wad % r.total

def worthAtRate (collateralAmount : ℕ) : ℕ :=
  wad * collateralAmount / (wad * r.supply * wad / r.total)

variable {r r' : Reserve} {x c : UInt64}

/-! ## The exchange rate -/

theorem collateralExchangeRate_eq_ok {e : CollateralExchangeRate} (hsupply : 0 < r.supply)
    (htotal : 0 < r.total) :
    r.collateralExchangeRate = .ok e ↔
      r.total < 2 ^ 192 ∧ e.rate.scaled = wad * r.supply * wad / r.total := by
  have hmint : r.collateral.mintTotalSupply ≠ 0 := by
    rintro heq
    rw [supply, heq] at hsupply
    exact absurd hsupply (by decide)
  have hfits : wad * r.collateral.mintTotalSupply.toNat * wad < 2 ^ 192 := by
    have := r.collateral.mintTotalSupply.toNat_lt
    rw [wad]
    omega
  simp only [collateralExchangeRate, totalSupply, bind_eq_ok, tryAdd_eq_ok,
    exchangeRate, scaled_ofU64]
  constructor
  · rintro ⟨t, ht, h⟩
    have hne : t ≠ .zero := by
      rintro rfl
      exact absurd ht.symm (ne_of_gt htotal)
    rw [if_neg (by simp [hmint, hne])] at h
    simp only [checks, tryDiv_eq_ok, toRate_eq_ok, scaled_ofU64] at h
    obtain ⟨_, ⟨-, -, hratio⟩, _, hrate, rfl⟩ := h
    have ht : t.scaled = r.total := ht
    exact ⟨ht ▸ t.isLt, by rw [hrate, hratio, ht]; rfl⟩
  · rintro ⟨hlt, hrate⟩
    refine ⟨⟨_, hlt⟩, rfl, ?_⟩
    have hne : (⟨r.total, hlt⟩ : Decimal) ≠ Decimal.zero := by
      intro heq
      exact absurd (congrArg Fixed.scaled heq) (ne_of_gt htotal)
    rw [if_neg (by simp [hmint, hne])]
    simp only [checks, tryDiv_eq_ok, toRate_eq_ok, scaled_ofU64]
    exact ⟨ofRate e.rate, ⟨hfits, ne_of_gt htotal, hrate⟩, e.rate, rfl, rfl⟩

/-! ## Deposits -/

variable (hsupply : 0 < r.supply)
include hsupply

variable (htotal : 0 < r.total) (h : r.depositLiquidity x = .ok (r', c))
include htotal h

theorem depositLiquidity_ok :
    c.toNat = x.toNat * (wad * r.supply * wad / r.total) / wad ∧
      r'.total = r.total + wad * x.toNat ∧ r'.supply = r.supply + c.toNat := by
  simp only [depositLiquidity, checks, collateralExchangeRate_eq_ok hsupply htotal,
    liquidityToCollateral,
    decimalLiquidityToCollateral, tryMulRate_eq_ok, tryFloorU64_eq_ok,
    deposit, mint, checkedAdd_eq_ok, scaled_ofU64] at h
  obtain ⟨_, ⟨-, he⟩, _, ⟨_, ⟨-, hd⟩, hc⟩, _, ⟨_, havailable, rfl⟩, _,
    ⟨_, hminted, rfl⟩, rfl, rfl⟩ := h
  refine ⟨?_, ?_, hminted⟩
  · rw [hc, hd, he, Nat.mul_assoc, Nat.mul_div_cancel_left _ wad_pos]
  · simp only [total, havailable]
    rw [mul_add, add_right_comm]

theorem depositLiquidity_mul_le : c.toNat * r.total ≤ wad * x.toNat * r.supply := by
  obtain ⟨hc, -, -⟩ := depositLiquidity_ok hsupply htotal h
  have hrate := div_mul_le_self (wad * r.supply * wad) r.total
  generalize wad * r.supply * wad / r.total = rate at hc hrate
  have hminted : c.toNat * wad ≤ x.toNat * rate := hc ▸ div_mul_le_self _ _
  refine le_of_mul_le_mul_right ?_ wad_pos
  calc c.toNat * r.total * wad = c.toNat * wad * r.total := mul_right_comm _ _ _
    _ ≤ x.toNat * rate * r.total := mul_le_mul_right _ hminted
    _ = x.toNat * (rate * r.total) := mul_assoc _ _ _
    _ ≤ x.toNat * (wad * r.supply * wad) := mul_le_mul_left _ hrate
    _ = wad * x.toNat * r.supply * wad := by ring

omit htotal h

/-! ## Redemptions -/

/-- What a redemption pays, and when there is one. -/
theorem redeemCollateral_ok_iff (htotal : 0 < r.total) :
    (∃ r', r.redeemCollateral c = .ok (r', x)) ↔
      r.total < 2 ^ 192 ∧ wad * r.supply * wad / r.total < 2 ^ 128 ∧
        wad * r.supply * wad / r.total ≠ 0 ∧ x.toNat = r.worthAtRate c.toNat ∧
        c.toNat ≤ r.supply ∧ x.toNat ≤ r.liquidity.availableAmount.toNat := by
  have hpaid : ∀ rate, wad * c.toNat * wad / rate / wad = wad * c.toNat / rate := fun rate => by
    rw [Nat.div_div_eq_div_mul, Nat.mul_div_mul_right _ _ wad_pos]
  have hfits : wad * c.toNat * wad < 2 ^ 192 := by
    have := c.toNat_lt
    rw [wad]
    omega
  simp only [redeemCollateral, checks, collateralExchangeRate_eq_ok hsupply htotal,
    collateralToLiquidity,
    decimalCollateralToLiquidity, tryDivRate_eq_ok, tryFloorU64_eq_ok,
    withdraw, burn, checkedSub_eq_ok, scaled_ofU64,
    UInt64.lt_iff_toNat_lt]
  constructor
  · rintro ⟨r', e, ⟨hlt, he⟩, x, ⟨d, ⟨-, hne, hd⟩, hx⟩, k, ⟨left, hleft, rfl⟩, l,
      ⟨henough, available, havailable, rfl⟩, rfl, rfl⟩
    refine ⟨hlt, he ▸ e.rate.isLt, he ▸ hne, ?_, ?_, by omega⟩
    · rw [hx, hd, hpaid, he]
      rfl
    · show c.toNat ≤ r.collateral.mintTotalSupply.toNat
      omega
  · rintro ⟨hlt, hrate, hne, hx, hc, henough⟩
    have hquotient : wad * c.toNat * wad / (wad * r.supply * wad / r.total) < 2 ^ 192 :=
      lt_of_le_of_lt (div_le_self _ _) hfits
    refine ⟨_, ⟨⟨_, hrate⟩⟩, ⟨hlt, rfl⟩, x, ⟨⟨_, hquotient⟩, ⟨hfits, hne, rfl⟩, ?_⟩, _,
      ⟨r.collateral.mintTotalSupply - c, ?_, rfl⟩, _,
      ⟨not_lt.mpr henough, r.liquidity.availableAmount - x, ?_, rfl⟩, rfl, rfl⟩
    · rw [hx, hpaid]
      rfl
    · rw [UInt64.toNat_sub_of_le _ _ (UInt64.le_iff_toNat_le.mpr hc)]
      exact Nat.sub_add_cancel hc
    · rw [UInt64.toNat_sub_of_le _ _ (UInt64.le_iff_toNat_le.mpr henough)]
      exact Nat.sub_add_cancel henough

/-- The rounded rate never pays too little. -/
theorem worth_le_worthAtRate {n : ℕ} (hne : wad * r.supply * wad / r.total ≠ 0) :
    r.worth n ≤ r.worthAtRate n := by
  have hrate := div_mul_le_self (wad * r.supply * wad) r.total
  have hworth : r.worth n * (wad * r.supply) ≤ n * r.total := div_mul_le_self _ _
  rw [worthAtRate, le_div_iff_mul_le (pos_of_ne_zero hne)]
  generalize wad * r.supply * wad / r.total = rate at hrate
  refine le_of_mul_le_mul_right ?_ (mul_pos wad_pos hsupply)
  calc r.worth n * rate * (wad * r.supply) = r.worth n * (wad * r.supply) * rate := by ring
    _ ≤ n * r.total * rate := mul_le_mul_right _ hworth
    _ = n * (rate * r.total) := by ring
    _ ≤ n * (wad * r.supply * wad) := mul_le_mul_left _ hrate
    _ = wad * n * (wad * r.supply) := by ring

/-- The remainder of the rate leaves the worth of `n` collateral tokens as it is. -/
def RateSuffices (r : Reserve) (n : ℕ) : Prop :=
  n * r.total * wad % (wad * r.supply * wad) +
      (n * r.total / (wad * r.supply) + 1) * r.rateRemainder < wad * r.supply * wad

omit hsupply in
theorem worthAtRate_eq_worth_iff {n : ℕ} (hne : wad * r.supply * wad / r.total ≠ 0) :
    r.worthAtRate n = r.worth n ↔ r.RateSuffices n := by
  have htotal : 0 < r.total := pos_of_ne_zero fun h => hne (by rw [h, Nat.div_zero])
  have hsum := div_add_mod' (wad * r.supply * wad) r.total
  have hrate : r.worthAtRate n = n * r.total * wad / (wad * r.supply * wad / r.total * r.total) := by
    rw [worthAtRate, ← Nat.mul_div_mul_right _ _ htotal]
    congr 1
    ring
  have hworth : r.worth n = n * r.total * wad / (wad * r.supply * wad) :=
    (Nat.mul_div_mul_right _ _ wad_pos).symm
  have hiff := div_eq_div_add_iff (wad * r.supply * wad % r.total) (n * r.total * wad)
    (mul_pos (pos_of_ne_zero hne) htotal)
  rw [hsum, ← hrate, ← hworth] at hiff
  exact hiff

/-- A redemption keeps the price exactly if the remainder of the rate allows it. -/
theorem redeemCollateral_price_iff (htotal : 0 < r.total) (h : r.redeemCollateral c = .ok (r', x)) :
    r.total * (r.supply - c.toNat) ≤ (r.total - wad * x.toNat) * r.supply ↔
      r.RateSuffices c.toNat := by
  obtain ⟨-, -, hne, _, hc, henough⟩ := (redeemCollateral_ok_iff hsupply htotal).mp ⟨r', h⟩
  have hpaid : wad * x.toNat ≤ r.total :=
    le_trans (mul_le_mul_left _ henough) (le_add_right _ _)
  have hle := worth_le_worthAtRate hsupply hne (n := c.toNat)
  have hleft : r.total * (r.supply - c.toNat) + c.toNat * r.total = r.total * r.supply := by
    rw [Nat.mul_comm c.toNat, ← Nat.mul_add, Nat.sub_add_cancel hc]
  have hright : (r.total - wad * x.toNat) * r.supply + x.toNat * (wad * r.supply) =
      r.total * r.supply := by
    rw [← Nat.mul_assoc, Nat.mul_comm x.toNat, ← Nat.add_mul, Nat.sub_add_cancel hpaid]
  calc r.total * (r.supply - c.toNat) ≤ (r.total - wad * x.toNat) * r.supply
      ↔ x.toNat * (wad * r.supply) ≤ c.toNat * r.total := by omega
    _ ↔ x.toNat ≤ r.worth c.toNat := (le_div_iff_mul_le (mul_pos wad_pos hsupply)).symm
    _ ↔ r.worthAtRate c.toNat = r.worth c.toNat := by omega
    _ ↔ r.RateSuffices c.toNat := worthAtRate_eq_worth_iff hne

/-- Both sides of the division are multiples of this, so the remainder keeps this distance. -/
theorem rateSuffices_of_lt {n : ℕ}
    (h : (r.worth n + 1) * r.rateRemainder < wad * r.total.gcd (wad * r.supply)) :
    r.RateSuffices n := by
  have hpos : 0 < wad * r.supply * wad := mul_pos (mul_pos wad_pos hsupply) wad_pos
  have hdvd : wad * r.total.gcd (wad * r.supply) ∣ wad * r.supply * wad := by
    rw [mul_comm (wad * r.supply)]
    exact Nat.mul_dvd_mul_left wad (Nat.gcd_dvd_right _ _)
  have hmod : wad * r.total.gcd (wad * r.supply) ∣ n * r.total * wad % (wad * r.supply * wad) := by
    refine (dvd_mod_iff hdvd).mpr ?_
    rw [mul_comm (n * r.total)]
    exact Nat.mul_dvd_mul_left wad (dvd_mul_of_dvd_right (Nat.gcd_dvd_left _ _) n)
  have hlt := mod_lt (n * r.total * wad) hpos
  have hroom := le_of_dvd (Nat.sub_pos_of_lt hlt) (Nat.dvd_sub hdvd hmod)
  unfold RateSuffices
  unfold worth at h
  omega

theorem worth_supply (hborrowed : r.liquidity.borrowedAmountWads = .zero) :
    r.worth r.supply = r.liquidity.availableAmount.toNat := by
  rw [worth, total, hborrowed, scaled_zero, add_zero, mul_left_comm, ← mul_assoc wad]
  exact Nat.mul_div_cancel_left _ (Nat.mul_pos wad_pos hsupply)

/-- Without borrows, all the collateral can be redeemed exactly if the remainder of the rate, taken
once for every token and once more, is less than one token. -/
theorem redeem_supply_iff (htotal : 0 < r.total)
    (hborrowed : r.liquidity.borrowedAmountWads = .zero) :
    (∃ r' x, r.redeemCollateral r.collateral.mintTotalSupply = .ok (r', x)) ↔
      (r.liquidity.availableAmount.toNat + 1) * r.rateRemainder < wad * r.supply * wad := by
  have hworth := worth_supply hsupply hborrowed
  have hvalue : r.total = wad * r.liquidity.availableAmount.toNat := by
    rw [total, hborrowed, scaled_zero, add_zero]
  have hsuffices : r.RateSuffices r.supply ↔
      (r.liquidity.availableAmount.toNat + 1) * r.rateRemainder < wad * r.supply * wad := by
    have hzero : r.supply * r.total * wad % (wad * r.supply * wad) = 0 := by
      rw [hvalue]
      exact mod_eq_zero_of_dvd ⟨r.liquidity.availableAmount.toNat, by ring⟩
    have hworth : r.supply * r.total / (wad * r.supply) = _ := hworth
    rw [RateSuffices, hzero, hworth, zero_add]
  rw [← hsuffices]
  constructor
  · rintro ⟨r', x, h⟩
    obtain ⟨-, -, hne, hx, -, _⟩ := (redeemCollateral_ok_iff hsupply htotal).mp ⟨r', h⟩
    have hx : x.toNat = r.worthAtRate r.supply := hx
    have hle := worth_le_worthAtRate hsupply hne (n := r.supply)
    refine (worthAtRate_eq_worth_iff hne).mp ?_
    omega
  · intro h
    have havailable := r.liquidity.availableAmount.toNat_lt
    have hrate : wad * r.supply * wad / r.total ≤ wad * r.supply := by
      rw [hvalue]
      refine Nat.div_le_of_le_mul ?_
      have : 0 < r.liquidity.availableAmount.toNat := Nat.pos_of_mul_pos_left (hvalue ▸ htotal)
      nlinarith [mul_le_mul_left (wad * (wad * r.supply)) this]
    have hsmall : wad * r.supply < 2 ^ 128 := by
      have : r.supply < 2 ^ 64 := r.collateral.mintTotalSupply.toNat_lt
      rw [wad]
      omega
    have hne : wad * r.supply * wad / r.total ≠ 0 := by
      intro hzero
      have hlt := hsuffices.mp h
      have hself : r.rateRemainder = wad * r.supply * wad :=
        mod_eq_of_lt ((Nat.div_eq_zero_iff.mp hzero).resolve_left htotal.ne')
      rw [hself] at hlt
      exact absurd hlt (not_lt.mpr (Nat.le_mul_of_pos_left _ (succ_pos _)))
    have heq := (worthAtRate_eq_worth_iff hne).mpr h
    obtain ⟨r', h⟩ := (redeemCollateral_ok_iff (c := r.collateral.mintTotalSupply)
      (x := r.liquidity.availableAmount) hsupply htotal).mpr
        ⟨by rw [hvalue, wad]; omega, lt_of_le_of_lt hrate hsmall, hne,
          hworth.symm.trans heq.symm, le_refl _, le_refl _⟩
    exact ⟨r', _, h⟩

omit hsupply

/-! ## Both directions -/

/-- The price of a share does not fall, and without borrows everybody can leave. -/
structure SharePriceKept (r : Reserve) : Prop where
  deposit : ∀ x r' c, r.depositLiquidity x = .ok (r', c) →
    r.total * (r.supply + c.toNat) ≤ (r.total + wad * x.toNat) * r.supply
  redeem : ∀ c r' x, r.redeemCollateral c = .ok (r', x) →
    r.total * (r.supply - c.toNat) ≤ (r.total - wad * x.toNat) * r.supply
  leave : r.liquidity.borrowedAmountWads = .zero →
    ∃ r' x, r.redeemCollateral r.collateral.mintTotalSupply = .ok (r', x)

end Reserve

def Reserve.idle (availableAmount mintTotalSupply : UInt64) : Reserve where
  version := 1
  lastUpdate := ⟨0, false⟩
  lendingMarket := .key 0
  liquidity := { new (.key 1) 6 (.key 2) (.key 3) (.key 4) .one with
    availableAmount }
  collateral := ⟨.key 5, mintTotalSupply, .key 6⟩
  config := ⟨80, 50, 5, 55, 0, 4, 30, ⟨0, 0, 0⟩⟩

end SolanaPrograms.Lending
