import SolanaPrograms.Lending.Debt

/-!
# Withdrawals of collateral

An obligation is healthy as long as its borrowed value is at most the allowed one, to which each
deposit adds its value times the ratio of its own reserve. A withdrawal is limited by the average
ratio of all deposits. The obligation is healthy afterwards, up to the rounding, if the ratio of
the reserve is not above that average, or if the value withdrawn, at the ratio of the reserve, was
not in use (`healthy_after_withdrawal`).
-/

namespace SolanaPrograms.Lending

open Function Outcome List World Decimal Except Reserve Nat Obligation

variable {env : Environment} {w w' : World} {k reserve : Address}

/-! ## Sums over a list with one entry changed -/

section Sums

variable {α : Type} {f : α → ℕ} {l : List α} {i : ℕ} {x : α}

theorem sum_map_eraseIdx (h : l[i]? = some x) :
    ((l.eraseIdx i).map f).sum + f x = (l.map f).sum := by
  induction l generalizing i with
  | nil => simp at h
  | cons a _ ih =>
    cases i with
    | zero =>
      obtain rfl : a = x := by simpa using h
      simp only [eraseIdx_cons_zero, map_cons, sum_cons]
      omega
    | succ i =>
      have := ih (i := i) (by simpa using h)
      simp only [eraseIdx_cons_succ, map_cons, sum_cons]
      omega

theorem sum_map_set (h : l[i]? = some x) (y : α) :
    ((l.set i y).map f).sum + f x = (l.map f).sum + f y := by
  have hi := (List.getElem?_eq_some_iff.mp h).1
  have hnew := sum_map_eraseIdx (f := f) (List.getElem?_set_self (a := y) hi)
  rw [eraseIdx_set_eq] at hnew
  have hold := sum_map_eraseIdx (f := f) h
  omega

end Sums

/-! ## What a refresh adds up -/

def Reserve.borrowingPower (r : Reserve) (amount : UInt64) : Except Fault Decimal := do
  let marketValue ← r.collateralValue amount
  marketValue.tryMulRate (.fromPercent r.config.loanToValueRatio)

/-- The last digits of a result, zero if there is none. -/
def digits (x : Except Fault Decimal) : ℕ :=
  match x with
  | .ok d => d.scaled
  | .error _ => 0

def World.power (w : World) (c : ObligationCollateral) : ℕ := digits do
  let r ← w.readReserve c.depositReserve
  r.borrowingPower c.depositedAmount

def World.owedValue (w : World) (l : ObligationLiquidity) : ℕ := digits do
  let r ← w.readReserve l.borrowReserve
  let l ← l.accrueInterest r.rate
  r.liquidityValue l.borrowedAmountWads

variable {info : AccountMeta} {r : Reserve} {c : ObligationCollateral} {t t' : DepositTotals}
  {ds ds' : List ObligationCollateral} {it it' : List AccountMeta} {o o' o₁ : Obligation}
  {p p' v : Decimal} {index : ℕ} {x : UInt64} {entry : Address}

theorem entryReserve_ok (h : entryReserve w entry info = .ok r) : w.readReserve entry = .ok r := by
  simp only [entryReserve, checks, checkInput_eq_ok, not_not] at h
  obtain ⟨_, -, hkey, _, hr, _, -, rfl⟩ := h
  rw [hkey]
  exact hr

theorem power_eq (hr : w.readReserve c.depositReserve = .ok r)
    (hp : r.borrowingPower c.depositedAmount = .ok p) : w.power c = p.scaled := by
  rw [power, hr, ok_bind, hp]
  rfl

structure Valued (w : World) (r : Reserve) (c : ObligationCollateral) (p : Decimal) : Prop where
  reserve : w.readReserve c.depositReserve = .ok r
  value : r.collateralValue c.depositedAmount = .ok c.marketValue
  power : r.borrowingPower c.depositedAmount = .ok p

theorem refreshDeposit_ok {c' : ObligationCollateral}
    (h : refreshDeposit w c info t = .ok (c', t')) :
    t'.allowedBorrowValue.scaled = t.allowedBorrowValue.scaled + w.power c ∧
      w.power c' = w.power c ∧ c'.depositReserve = c.depositReserve ∧
      c'.depositedAmount = c.depositedAmount ∧ ∃ r p, Valued w r c' p := by
  simp only [refreshDeposit, checks, tryAdd_eq_ok] at h
  obtain ⟨r, hr, _, hvalue, _, -, p, hallowed, _, hsum, _, -, _, -, rfl, rfl⟩ := h
  have hr := entryReserve_ok hr
  have hp : r.borrowingPower c.depositedAmount = .ok p := by
    rw [borrowingPower, hvalue, ok_bind, hallowed]
  exact ⟨power_eq hr hp ▸ hsum, rfl, rfl, rfl, r, p, hr, hvalue, hp⟩

variable {ls ls' : List ObligationLiquidity} {value value' : Decimal} {amount : UInt64}

/-- **Run.** The same for all deposits. -/
theorem refreshDeposits_ok (h : refreshDeposits w ds it t = .ok (ds', it', t')) :
    t'.allowedBorrowValue.scaled = t.allowedBorrowValue.scaled + (ds.map w.power).sum ∧
      ds'.map w.power = ds.map w.power ∧ (∀ c ∈ ds', ∃ r p, Valued w r c p) ∧
      ∀ c ∈ ds, ∃ r p, w.readReserve c.depositReserve = .ok r ∧
        r.borrowingPower c.depositedAmount = .ok p := by
  induction ds generalizing ds' it it' t with
  | nil =>
    cases h
    exact ⟨rfl, rfl, nofun, nofun⟩
  | cons _ _ ih =>
    cases it with
    | nil => cases h
    | cons =>
      simp only [refreshDeposits, checks, ok.injEq] at h
      obtain ⟨_, _, h₁, _, _, _, h₂, rfl, -, rfl⟩ := h
      obtain ⟨hsum, hsame, hrest, hpowers⟩ := ih h₂
      obtain ⟨hfirst, hpower, hreserve, hamount, r, p, hvalued⟩ := refreshDeposit_ok h₁
      refine ⟨?_, ?_, forall_mem_cons.mpr ⟨⟨r, p, hvalued⟩, hrest⟩,
        forall_mem_cons.mpr ⟨⟨r, p, hreserve ▸ hvalued.reserve, hamount ▸ hvalued.power⟩, hpowers⟩⟩
      · rw [hsum, hfirst, map_cons, sum_cons, add_assoc]
      · rw [map_cons, map_cons, hpower, hsame]

theorem accrueInterest_again {l l₁ : ObligationLiquidity} {rate : Decimal}
    (h : l.accrueInterest rate = .ok l₁) :
    { l₁ with marketValue := v }.accrueInterest rate = .ok { l₁ with marketValue := v } := by
  have hrate : l₁.cumulativeBorrowRateWads = rate := by
    unfold ObligationLiquidity.accrueInterest at h
    split at h
    next => cases h
    next heq =>
      cases h
      exact (compare_eq_iff_eq.mp heq).symm
    next =>
      simp only [checks] at h
      obtain ⟨_, -, _, -, _, -, rfl⟩ := h
      rfl
  have heq : compare rate rate = .eq := compare_eq_iff_eq.mpr rfl
  simp only [ObligationLiquidity.accrueInterest, hrate, heq]

theorem refreshBorrow_value {l l' : ObligationLiquidity}
    (h : refreshBorrow w l info value = .ok (l', value')) :
    value'.scaled = value.scaled + w.owedValue l ∧ w.owedValue l' = w.owedValue l := by
  have hkey := (refreshBorrow_accrued h).2
  simp only [refreshBorrow, checks, tryAdd_eq_ok] at h
  obtain ⟨r, hr, l₁, hl₁, marketValue, hvalue, _, hsum, rfl, rfl⟩ := h
  have hr := entryReserve_ok hr
  have howed : w.owedValue l = marketValue.scaled := by
    rw [owedValue, hr, ok_bind, hl₁, ok_bind, hvalue]
    rfl
  have hread : w.readReserve l₁.borrowReserve = .ok r := by
    rw [show l₁.borrowReserve = l.borrowReserve from hkey, hr]
  refine ⟨howed ▸ hsum, ?_⟩
  rw [howed, owedValue, hread, ok_bind, accrueInterest_again hl₁, ok_bind, hvalue]
  rfl

theorem refreshBorrows_value (h : refreshBorrows w ls it value = .ok (ls', it', value')) :
    value'.scaled = value.scaled + (ls.map w.owedValue).sum ∧
      ls'.map w.owedValue = ls.map w.owedValue := by
  induction ls generalizing ls' it it' value with
  | nil =>
    cases h
    exact ⟨rfl, rfl⟩
  | cons _ _ ih =>
    cases it with
    | nil => cases h
    | cons =>
      simp only [refreshBorrows, checks, ok.injEq] at h
      obtain ⟨_, _, h₁, _, _, _, h₂, rfl, -, rfl⟩ := h
      obtain ⟨hsum, hsame⟩ := ih h₂
      obtain ⟨hfirst, howed⟩ := refreshBorrow_value h₁
      refine ⟨?_, ?_⟩
      · rw [hsum, hfirst, map_cons, sum_cons, add_assoc]
      · rw [map_cons, map_cons, howed, hsame]

/-- **Run of the loops.** The allowed and the borrowed value are sums over the entries, the old ones
and the new ones. -/
theorem refreshedObligation_values (h : refreshedObligation w o it = .ok o') :
    o'.allowedBorrowValue.scaled = (o.deposits.map w.power).sum ∧
      o'.borrowedValue.scaled = (o.borrows.map w.owedValue).sum ∧
      o'.deposits.map w.power = o.deposits.map w.power ∧
      o'.borrows.map w.owedValue = o.borrows.map w.owedValue ∧
      (∀ c ∈ o'.deposits, ∃ r p, Valued w r c p) ∧
      ∀ c ∈ o.deposits, ∃ r p, w.readReserve c.depositReserve = .ok r ∧
        r.borrowingPower c.depositedAmount = .ok p := by
  simp only [refreshedObligation, checks] at h
  obtain ⟨_, _, _, hdeposits, _, _, _, hborrows, _, -, rfl⟩ := h
  obtain ⟨hallowed, hpowers, hvalued, hcomputed⟩ := refreshDeposits_ok hdeposits
  obtain ⟨hborrowed, howed⟩ := refreshBorrows_value hborrows
  exact ⟨hallowed.trans (zero_add _), hborrowed.trans (zero_add _), hpowers, howed, hvalued,
    hcomputed⟩

theorem power_congr (h : w'.readReserve = w.readReserve) : w'.power = w.power := by
  funext c
  rw [power, power, h]

theorem owedValue_congr (h : w'.readReserve = w.readReserve) : w'.owedValue = w.owedValue := by
  funext l
  rw [owedValue, owedValue, h]

/-- Tokens whose value can be computed can be taken away. -/
theorem borrowingPower_zero (h : r.borrowingPower amount = .ok p) :
    r.borrowingPower 0 = .ok .zero := by
  simp only [borrowingPower, collateralValue,
    CollateralExchangeRate.decimalCollateralToLiquidity, bind_eq_ok, tryDivRate_eq_ok,
    tryMul_eq_ok, tryDivU64_eq_ok, tryMulRate_eq_ok] at h ⊢
  obtain ⟨_, ⟨decimals, hdecimals, rate, hrate, _, ⟨-, hne, -⟩, _, -, hpos, -⟩, -⟩ := h
  exact ⟨.zero, ⟨decimals, hdecimals, rate, hrate, .zero, ⟨by decide, hne, by simp⟩, .zero,
    ⟨by simp, by simp⟩, hpos, by simp⟩, by simp, by simp⟩

/-! ## Withdrawals -/

structure Withdrawal (env : Environment) (w : World) (amount : UInt64)
    (accounts : List AccountMeta) (k reserve : Address) : Prop where
  succeeds : w.Succeeds env (.lending (.withdrawObligationCollateral amount) accounts)
  obligationKey : accounts[3]?.map AccountMeta.key = some k
  reserveKey : accounts[2]?.map AccountMeta.key = some reserve

theorem Withdrawal.effect {accounts : List AccountMeta}
    (h : Withdrawal env w amount accounts k reserve)
    (ho : w.accounts k = ⟨.program, .obligation o⟩) :
    ∃ r c index x o₁, w.readReserve reserve = .ok r ∧
      o.findCollateralInDeposits reserve = .ok (c, index) ∧ withdrawAmount o c amount = .ok x ∧
      o.withdraw x index = .ok o₁ ∧ o.version = 1 ∧
      (w.step env (.lending (.withdrawObligationCollateral amount) accounts)).accounts =
        update w.accounts k ⟨.program, .obligation
          { o₁ with lastUpdate := o₁.lastUpdate.markStale }⟩ := by
  have hexec := h.succeeds.exec
  obtain ⟨-, hkeyO, hkeyR⟩ := h
  generalize w.step env (.lending (.withdrawObligationCollateral amount) accounts) = w' at hexec ⊢
  simp only [exec, failIf_bind_eq_ok, process, processWithdrawObligationCollateral] at hexec
  replace hexec := hexec.2.2
  split at hexec
  next _ _ withdrawReserve obligation _ _ _ _ _ _ =>
    obtain rfl : obligation.key = k := by simpa using hkeyO
    obtain rfl : withdrawReserve.key = reserve := by simpa using hkeyR
    simp only [bind_eq_ok, reserveOf_eq_ok, obligationOf_eq_ok, Prod.exists] at hexec
    obtain ⟨_, -, _, -, r, ⟨hr, hversionR, -⟩, _, -, _, -, _, -, o', ⟨ho', hversionO, -⟩,
      _, -, _, -, c, index, hc, _, -, _, -, x, hx, o₁, ho₁, _, h₁, h₂⟩ := hexec
    obtain rfl : o = o' := by
      rw [ho] at ho'
      cases ho'
      rfl
    refine ⟨r, c, index, x, o₁, readReserve_eq_ok.mpr ⟨by rw [hr], hversionR⟩, hc, hx, ho₁,
      hversionO, ?_⟩
    rw [callToken_accounts h₂, writeObligation_ok (by rw [World.IsOwn, ho]) h₁]
  next => cases hexec

theorem findCollateralInDeposits_ok (h : o.findCollateralInDeposits reserve = .ok (c, index)) :
    o.deposits[index]? = some c ∧ c.depositReserve = reserve := by
  simp only [findCollateralInDeposits, bind_eq_ok, okOr_eq_ok, pure_eq_ok,
    Prod.mk.injEq] at h
  obtain ⟨_, -, _, hi, _, hc, rfl, rfl⟩ := h
  refine ⟨hc, ?_⟩
  rw [findIdx?_eq_some_iff_getElem] at hi
  obtain ⟨hlt, hmatch, -⟩ := hi
  rw [getElem?_eq_getElem hlt, Option.some.injEq] at hc
  rw [← hc]
  simpa using hmatch

theorem withdraw_cases (h : o.withdraw x index = .ok o₁) (hc : o.deposits[index]? = some c) :
    x = c.depositedAmount ∧ o₁ = { o with deposits := o.deposits.eraseIdx index } ∨
      o₁ = { o with
        deposits := o.deposits.set index
          { c with depositedAmount := c.depositedAmount - x } } := by
  simp only [withdraw, hc] at h
  split at h
  next hall =>
    cases h
    exact .inl ⟨hall, rfl⟩
  next =>
    simp only [checks, ObligationCollateral.withdraw, checkedSub_eq_ok] at h
    obtain ⟨_, ⟨rest, _, rfl⟩, rfl⟩ := h
    have hle : x ≤ c.depositedAmount := UInt64.le_iff_toNat_le.mpr (by omega)
    have hsub : rest = c.depositedAmount - x := by
      apply UInt64.toNat_inj.mp
      rw [UInt64.toNat_sub_of_le _ _ hle]
      omega
    rw [hsub]
    exact .inr rfl

/-- What a withdrawal does to a sum over the deposits in which an empty one counts nothing. -/
theorem withdraw_sum {f : ObligationCollateral → ℕ} (h : o.withdraw x index = .ok o₁)
    (hc : o.deposits[index]? = some c) (hzero : f { c with depositedAmount := 0 } = 0) :
    o₁.borrows = o.borrows ∧ (o₁.deposits.map f).sum + f c =
      (o.deposits.map f).sum + f { c with depositedAmount := c.depositedAmount - x } := by
  rcases withdraw_cases h hc with ⟨hall, rfl⟩ | rfl
  · refine ⟨rfl, ?_⟩
    rw [hall, UInt64.sub_self, hzero, add_zero]
    exact sum_map_eraseIdx hc
  · exact ⟨rfl, sum_map_set hc _⟩

/-! ## The rounding of a withdrawal -/

theorem cast_div_bounds (a b : ℕ) :
    ((a / b : ℕ) : ℚ) ≤ a / b ∧ (a : ℚ) / b < (a / b : ℕ) + 1 := by
  refine ⟨cast_div_le, ?_⟩
  rw [← floor_div_eq_div (K := ℚ)]
  exact lt_floor_add_one _

/-- The last digits that the value of collateral can lose by its three roundings. -/
def Reserve.valueError (r : Reserve) : ℚ :=
  (r.liquidity.marketPrice.scaled / wad + 1) / 10 ^ r.liquidity.mintDecimals.toNat + 1

theorem valueError_nonneg (r : Reserve) : 0 ≤ r.valueError := by
  unfold valueError
  positivity

/-- The value of collateral is proportional to the number of tokens, up to the rounding. -/
theorem collateralValue_linear (h : r.collateralValue amount = .ok v) :
    ∃ unit : ℚ, ∀ n u, r.collateralValue n = .ok u →
      (u.scaled : ℚ) ≤ unit * n.toNat ∧ unit * n.toNat ≤ u.scaled + r.valueError := by
  simp only [collateralValue, CollateralExchangeRate.decimalCollateralToLiquidity, bind_eq_ok,
    tenPow, toU64_eq_ok, tryDivRate_eq_ok, tryMul_eq_ok, tryDivU64_eq_ok, scaled_ofU64] at h ⊢
  obtain ⟨_, -, e, he, -⟩ := h
  refine ⟨wad * wad / e.rate.scaled * (r.liquidity.marketPrice.scaled / wad) /
    10 ^ r.liquidity.mintDecimals.toNat, fun n u hu => ?_⟩
  obtain ⟨_, hdecimals, e', he', l, ⟨-, -, hl⟩, q, ⟨-, hq⟩, -, hu⟩ := hu
  obtain rfl : e = e' := ok.inj (he.symm.trans he')
  rw [hdecimals] at hu
  obtain ⟨hl, hl'⟩ := hl ▸ cast_div_bounds (wad * n.toNat * wad) e.rate.scaled
  obtain ⟨hq, hq'⟩ := hq ▸ cast_div_bounds (l.scaled * r.liquidity.marketPrice.scaled) wad
  obtain ⟨hu, hu'⟩ := hu ▸ cast_div_bounds q.scaled (10 ^ r.liquidity.mintDecimals.toNat)
  have hprice : (0 : ℚ) ≤ r.liquidity.marketPrice.scaled / wad := by positivity
  have hten : (0 : ℚ) < 10 ^ r.liquidity.mintDecimals.toNat := by positivity
  rw [valueError]
  push_cast [mul_div_assoc] at hl hl' hq hq' hu hu'
  generalize (r.liquidity.marketPrice.scaled : ℚ) / wad = price at *
  generalize (10 : ℚ) ^ r.liquidity.mintDecimals.toNat = ten at *
  generalize (e.rate.scaled : ℚ) = rate at *
  constructor
  · calc (u.scaled : ℚ) ≤ q.scaled / ten := hu
      _ ≤ l.scaled * price / ten := by gcongr
      _ ≤ wad * n.toNat * (wad / rate) * price / ten := by gcongr
      _ = wad * wad / rate * price / ten * n.toNat := by ring
  · calc wad * wad / rate * price / ten * n.toNat
      _ = wad * n.toNat * (wad / rate) * price / ten := by ring
      _ ≤ (l.scaled + 1) * price / ten := by gcongr
      _ = (l.scaled * price + price) / ten := by ring
      _ ≤ (q.scaled + 1 + price) / ten := by gcongr
      _ = q.scaled / ten + (price + 1) / ten := by ring
      _ ≤ u.scaled + ((price + 1) / ten + 1) := by linarith

def Reserve.ratio (r : Reserve) : ℚ := r.config.loanToValueRatio.toNat / 100

theorem ratio_nonneg (r : Reserve) : 0 ≤ r.ratio := by
  unfold ratio
  positivity

theorem tryMulRate_ratio (h : v.tryMulRate (.fromPercent r.config.loanToValueRatio) = .ok p) :
    (p.scaled : ℚ) ≤ r.ratio * v.scaled ∧ r.ratio * v.scaled ≤ (p.scaled + 1 : ℚ) := by
  have hwad : (wad : ℚ) = percentScaler * 100 := by norm_num [wad, percentScaler]
  have hpos : (0 : ℚ) < percentScaler := by norm_num [percentScaler]
  obtain ⟨hle, hlt⟩ := (tryMulRate_eq_ok.mp h).2 ▸
    cast_div_bounds (v.scaled * (r.config.loanToValueRatio.toNat * percentScaler)) wad
  have hratio : ((v.scaled * (r.config.loanToValueRatio.toNat * percentScaler) : ℕ) : ℚ) / wad =
      r.ratio * v.scaled := by
    rw [hwad, ratio]
    push_cast
    field_simp
  rw [hratio] at hle hlt
  exact ⟨hle, hlt.le⟩

theorem borrowingPower_withdraw (hv : r.collateralValue amount = .ok v)
    (hp : r.borrowingPower amount = .ok p) (hp' : r.borrowingPower (amount - x) = .ok p')
    (hx : x ≤ amount) (hpos : 0 < amount.toNat) :
    (p.scaled : ℚ) ≤
      p'.scaled + 1 + r.ratio * (v.scaled * x.toNat / amount.toNat + 2 * r.valueError) := by
  simp only [borrowingPower, bind_eq_ok] at hp hp'
  obtain ⟨v₁, hv₁, hp⟩ := hp
  obtain ⟨v', hv', hp'⟩ := hp'
  obtain rfl : v = v₁ := ok.inj (hv.symm.trans hv₁)
  obtain ⟨unit, hunit⟩ := collateralValue_linear hv
  obtain ⟨hbefore, hbefore'⟩ := hunit _ _ hv
  obtain ⟨-, hafter⟩ := hunit _ _ hv'
  rw [UInt64.toNat_sub_of_le _ _ hx, cast_sub (UInt64.le_iff_toNat_le.mp hx)] at hafter
  have hd : (0 : ℚ) < amount.toNat := cast_pos.mpr hpos
  have hle : (x.toNat : ℚ) / amount.toNat ≤ 1 :=
    (div_le_one hd).mpr (cast_le.mpr (UInt64.le_iff_toNat_le.mp hx))
  have hratio := ratio_nonneg r
  have hpart : unit * x.toNat ≤ v.scaled * x.toNat / amount.toNat + r.valueError :=
    calc unit * x.toNat = unit * amount.toNat * (x.toNat / amount.toNat) := by field_simp
      _ ≤ (v.scaled + r.valueError) * (x.toNat / amount.toNat) := by gcongr
      _ = v.scaled * x.toNat / amount.toNat + r.valueError * (x.toNat / amount.toNat) := by ring
      _ ≤ v.scaled * x.toNat / amount.toNat + r.valueError := by
        gcongr
        exact mul_le_of_le_one_right (valueError_nonneg r) hle
  calc (p.scaled : ℚ) ≤ r.ratio * v.scaled := (tryMulRate_ratio hp).1
    _ ≤ r.ratio * (v'.scaled + (v.scaled * x.toNat / amount.toNat + 2 * r.valueError)) := by
      gcongr
      linarith
    _ ≤ _ := by
      rw [mul_add]
      linarith [(tryMulRate_ratio hp').2]

theorem maxWithdrawValue_le {M : Decimal} (h : o.maxWithdrawValue = .ok M) (hne : M ≠ .zero) :
    0 < o.allowedBorrowValue.scaled ∧ (M.scaled : ℚ) ≤ o.depositedValue.scaled -
      o.borrowedValue.scaled * o.depositedValue.scaled / o.allowedBorrowValue.scaled +
        wad / o.allowedBorrowValue.scaled + 1 := by
  simp only [maxWithdrawValue, bind_eq_ok, tryMul_eq_ok, tryDiv_eq_ok] at h
  obtain ⟨weighted, ⟨-, hweighted⟩, required, ⟨-, hpos, hrequired⟩, h⟩ := h
  split at h
  next => exact absurd (ok.inj h).symm hne
  next =>
    rw [trySub, orOverflow_eq_ok, Fixed.sub?_eq_some] at h
    have hM : (M.scaled + required.scaled : ℚ) = o.depositedValue.scaled := by exact_mod_cast h
    refine ⟨pos_of_ne_zero hpos, ?_⟩
    generalize o.borrowedValue.scaled = B, o.depositedValue.scaled = D,
      o.allowedBorrowValue.scaled = A at *
    obtain ⟨-, hw⟩ := hweighted ▸ cast_div_bounds (B * D) wad
    obtain ⟨-, hr⟩ := hrequired ▸ cast_div_bounds (weighted.scaled * wad) A
    have hA : (0 : ℚ) < A := cast_pos.mpr (pos_of_ne_zero hpos)
    have hwad : (0 : ℚ) < wad := cast_pos.mpr wad_pos
    push_cast at hw hr
    have hrequired : (B * D / A - wad / A : ℚ) ≤ required.scaled + 1 :=
      calc (B * D / A - wad / A : ℚ) = (B * D / wad - 1) * wad / A := by field_simp
        _ ≤ weighted.scaled * wad / A := by
          gcongr
          linarith
        _ ≤ required.scaled + 1 := hr.le
    linarith

/-- The handler withdraws no more than the limit, up to the rounding of the percentage. -/
theorem limitedWithdrawAmount_ok {M : Decimal} (h : limitedWithdrawAmount M c amount = .ok x)
    (hx : x ≠ 0) :
    x.toNat ≤ min amount.toNat c.depositedAmount.toNat ∧
      (c.marketValue.scaled : ℚ) * x.toNat / c.depositedAmount.toNat ≤
        M.scaled + c.marketValue.scaled / wad + 1 := by
  have hwad : (0 : ℚ) < wad := cast_pos.mpr wad_pos
  rw [limitedWithdrawAmount] at h
  split at h
  next hmax =>
    simp only [checks, tryDiv_eq_ok, tryMulU64, orOverflow_eq_ok, Fixed.mulNat?_eq_some,
      tryFloorU64_eq_ok] at h
    obtain ⟨pct, ⟨-, hpos, hpct⟩, part, hpart, whole, hwhole, rfl⟩ := h
    have hmin : ((min M c.marketValue).scaled : ℚ) ≤ M.scaled :=
      cast_le.mpr (min_le_left M c.marketValue)
    have hle := UInt64.toNat_min whole c.depositedAmount
    have hd : (0 : ℚ) < c.depositedAmount.toNat := by
      refine cast_pos.mpr (pos_of_ne_zero fun hzero => hx (UInt64.toNat_inj.mp ?_))
      rw [hle, hzero]
      exact Nat.min_zero _
    have hxw : ((min whole c.depositedAmount).toNat : ℚ) ≤ whole.toNat := by
      rw [hle]
      exact cast_le.mpr (min_le_left ..)
    refine ⟨?_, ?_⟩
    · have hlt := whole.toNat_lt
      rw [hle, hmax, u64Max]
      simp only [UInt64.reduceToNat]
      omega
    · generalize (min M c.marketValue).scaled = m, c.marketValue.scaled = V,
        (min whole c.depositedAmount).toNat = n, c.depositedAmount.toNat = d at *
      obtain ⟨hpct, -⟩ := hpct ▸ cast_div_bounds (m * wad) V
      obtain ⟨hwhole, -⟩ := hwhole ▸ cast_div_bounds part.scaled wad
      have hV : (0 : ℚ) < V := cast_pos.mpr (pos_of_ne_zero hpos)
      have hrest : (0 : ℚ) ≤ V / wad := by positivity
      push_cast [hpart] at hpct hwhole
      calc (V * n / d : ℚ) ≤ V * (pct.scaled * d / wad) / d := by
            gcongr
            exact hxw.trans hwhole
        _ = V * pct.scaled / wad := by field_simp
        _ ≤ V * (m * wad / V) / wad := by gcongr
        _ = m := by field_simp
        _ ≤ M.scaled + V / wad + 1 := by linarith
  next =>
    simp only [checks, tryDivU64_eq_ok, tryMul_eq_ok, scaled_ofU64] at h
    obtain ⟨pct, ⟨hd, hpct⟩, value, ⟨-, hvalue⟩, hle, rfl⟩ := h
    have hle : (value.scaled : ℚ) ≤ M.scaled := cast_le.mpr (not_lt.mp hle)
    refine ⟨(UInt64.toNat_min ..).le, ?_⟩
    generalize c.marketValue.scaled = V, (min amount c.depositedAmount).toNat = n,
      c.depositedAmount.toNat = d at *
    obtain ⟨-, hpct⟩ := hpct ▸ cast_div_bounds (wad * n) d
    obtain ⟨-, hvalue⟩ := hvalue ▸ cast_div_bounds (V * pct.scaled) wad
    push_cast at hpct hvalue
    calc (V * n / d : ℚ) = V / wad * (wad * n / d) := by field_simp
      _ ≤ V / wad * (pct.scaled + 1) := by gcongr
      _ = V * pct.scaled / wad + V / wad := by ring
      _ ≤ M.scaled + V / wad + 1 := by linarith

/-- A withdrawal takes no more value than the average ratio of the deposits leaves, up to the
rounding. -/
theorem withdrawAmount_limit (h : withdrawAmount o c amount = .ok x) (hborrows : o.borrows ≠ []) :
    x ≠ 0 ∧ x.toNat ≤ min amount.toNat c.depositedAmount.toNat ∧ 0 < o.allowedBorrowValue.scaled ∧
      (c.marketValue.scaled : ℚ) * x.toNat / c.depositedAmount.toNat ≤ o.depositedValue.scaled -
      o.borrowedValue.scaled * o.depositedValue.scaled / o.allowedBorrowValue.scaled +
        wad / o.allowedBorrowValue.scaled + c.marketValue.scaled / wad + 2 := by
  rw [withdrawAmount, if_neg hborrows] at h
  split at h
  next => cases h
  next =>
    simp only [checks] at h
    obtain ⟨M, hM, hne, x', hx, hpos, rfl⟩ := h
    obtain ⟨hallowed, hM⟩ := maxWithdrawValue_le hM hne
    obtain ⟨hle, hlimit⟩ := limitedWithdrawAmount_ok hx hpos
    exact ⟨hpos, hle, hallowed, by linarith⟩

/-! ## The health of an obligation -/

/-- The values of an obligation are those of its entries at the prices and rates of the reserves. -/
structure Refreshed (w : World) (k : Address) (o : Obligation) : Prop where
  record : w.accounts k = ⟨.program, .obligation o⟩
  allowed : o.allowedBorrowValue.scaled = (o.deposits.map w.power).sum
  borrowed : o.borrowedValue.scaled = (o.borrows.map w.owedValue).sum
  valued : ∀ c ∈ o.deposits, ∃ r p, Valued w r c p

theorem readReserve_update (hw' : w'.accounts = update w.accounts k ⟨.program, .obligation o'⟩)
    (ho : w.accounts k = ⟨.program, .obligation o⟩) : w'.readReserve = w.readReserve := by
  funext reserve
  rcases eq_or_ne reserve k with rfl | hne
  · simp only [readReserve, hw', update_self, ho]
  · simp only [readReserve, hw', update_of_ne hne]

theorem Refresh.refreshed {accounts : List AccountMeta} (h : Refresh env w k accounts) :
    ∃ o, Refreshed (w.step env (.lending .refreshObligation accounts)) k o := by
  obtain ⟨o, it, o', ho, ho', hw'⟩ := h.effect
  have hread := readReserve_update (congrArg World.accounts hw') ho
  obtain ⟨hallowed, hborrowed, hpowers, howed, hvalued, -⟩ := refreshedObligation_values ho'
  refine ⟨o', ?_, ?_, ?_, fun c hc => ?_⟩
  · rw [hw']
    exact update_self ..
  · rw [power_congr hread, hpowers, hallowed]
  · rw [owedValue_congr hread, howed, hborrowed]
  · obtain ⟨r, p, hreserve, hvalue, hpower⟩ := hvalued c hc
    exact ⟨r, p, by rw [hread, hreserve], hvalue, hpower⟩

/-- The entry that is left was valued by the next refresh, and one that is not left is worth
nothing. -/
theorem withdraw_power (h : o.withdraw x index = .ok o₁) (hc : o.deposits[index]? = some c)
    (hr : w.readReserve c.depositReserve = .ok r) (hp : r.borrowingPower c.depositedAmount = .ok p)
    (ho' : refreshedObligation w { o₁ with lastUpdate := o₁.lastUpdate.markStale } it = .ok o') :
    ∃ p', r.borrowingPower (c.depositedAmount - x) = .ok p' := by
  rcases withdraw_cases h hc with ⟨hall, rfl⟩ | rfl
  · rw [hall, UInt64.sub_self]
    exact ⟨_, borrowingPower_zero hp⟩
  · have hlt : index < o.deposits.length := (List.getElem?_eq_some_iff.mp hc).1
    obtain ⟨-, -, -, -, -, hcomputed⟩ := refreshedObligation_values ho'
    obtain ⟨r', p', hr', hp'⟩ := hcomputed _ (mem_set hlt _)
    obtain rfl : r = r' := ok.inj (hr.symm.trans hr')
    exact ⟨p', hp'⟩

/-- What a withdrawal and the next refresh do to the two values: the first falls by the borrowing
power of what is withdrawn, the second is the same. -/
theorem Refreshed.withdrawn {accounts refresh : List AccountMeta} (h : Refreshed w k o)
    (hwithdrawal : Withdrawal env w amount accounts k reserve)
    (hrefresh : Refresh env (w.step env (.lending (.withdrawObligationCollateral amount) accounts))
      k refresh) :
    ∃ r c index x p p' o', w.readReserve reserve = .ok r ∧
      o.findCollateralInDeposits reserve = .ok (c, index) ∧ withdrawAmount o c amount = .ok x ∧
      Valued w r c p ∧ r.borrowingPower (c.depositedAmount - x) = .ok p' ∧
      ((w.step env (.lending (.withdrawObligationCollateral amount) accounts)).step env
        (.lending .refreshObligation refresh)).accounts k = ⟨.program, .obligation o'⟩ ∧
      o'.borrowedValue.scaled = o.borrowedValue.scaled ∧
      o'.allowedBorrowValue.scaled + p.scaled = o.allowedBorrowValue.scaled + p'.scaled ∧
      (o.borrows = [] → o'.borrowedValue.scaled = 0) := by
  obtain ⟨r, c, index, x, o₁, hr, hfind, hx, ho₁, -, hw₁⟩ := hwithdrawal.effect h.record
  generalize w.step env (.lending (.withdrawObligationCollateral amount) accounts) = w₁ at *
  obtain ⟨o₂, _, o', ho₂, ho', hnew⟩ := hrefresh.effect
  rw [hw₁, update_self] at ho₂
  cases ho₂
  have hread : w₁.readReserve = w.readReserve := readReserve_update hw₁ h.record
  obtain ⟨hc, rfl⟩ := findCollateralInDeposits_ok hfind
  obtain ⟨r', p, hvalued⟩ := h.valued c (mem_of_getElem? hc)
  obtain rfl : r = r' := ok.inj (hr.symm.trans hvalued.reserve)
  obtain ⟨p', hp'⟩ := withdraw_power ho₁ hc (by rw [hread]; exact hr) hvalued.power ho'
  have hzero : w.power { c with depositedAmount := 0 } = zero.scaled :=
    power_eq hr (borrowingPower_zero hvalued.power)
  obtain ⟨hborrows, hsum⟩ := withdraw_sum ho₁ hc (hzero.trans scaled_zero)
  have hbefore := power_eq hr hvalued.power
  have hafter : w.power { c with depositedAmount := c.depositedAmount - x } = p'.scaled :=
    power_eq hr hp'
  obtain ⟨hallowed', hborrowed', -⟩ := refreshedObligation_values ho'
  rw [power_congr hread] at hallowed'
  rw [owedValue_congr hread] at hborrowed'
  have hborrowed' : _ = (o₁.borrows.map w.owedValue).sum := hborrowed'
  rw [hborrows] at hborrowed'
  refine ⟨r, c, index, x, p, p', o', hr, hfind, hx, hvalued, hp', ?_, ?_, ?_, fun hnil => ?_⟩
  · rw [hnew]
    exact update_self ..
  · rw [hborrowed', h.borrowed]
  · have hallowed := h.allowed
    rw [← hafter, ← hbefore, hallowed', hallowed]
    exact hsum
  · rw [hborrowed', hnil]
    rfl

/-- The last digits by which the allowed value can miss: one for every deposit and one for the new
value, and what the quotient by the allowed value, the percentage and the two values of the deposit
are rounded by. -/
def tolerance (r : Reserve) (o : Obligation) (c : ObligationCollateral) : ℚ :=
  o.deposits.length + 1 + r.ratio * (wad / o.allowedBorrowValue.scaled +
    c.marketValue.scaled / wad + 2 + 2 * r.valueError)

theorem tolerance_nonneg (r : Reserve) (o : Obligation) (c : ObligationCollateral) :
    0 ≤ tolerance r o c := by
  have := valueError_nonneg r
  have := ratio_nonneg r
  unfold tolerance
  positivity

/-- The ratio of the reserve is at most the average ratio of all deposits. Each of them was rounded
down when the allowed value was added up. -/
def RatioBelowAverage (r : Reserve) (o : Obligation) : Prop :=
  r.ratio * o.depositedValue.scaled ≤ o.allowedBorrowValue.scaled + o.deposits.length

def NotInUse (r : Reserve) (o : Obligation) (c : ObligationCollateral) (amount : UInt64) : Prop :=
  r.ratio * (c.marketValue.scaled * min amount.toNat c.depositedAmount.toNat /
    c.depositedAmount.toNat) ≤ o.allowedBorrowValue.scaled - o.borrowedValue.scaled

/-- The borrowing power a withdrawal takes was left to borrow, up to the rounding. -/
theorem withdrawnPower_le (hx : withdrawAmount o c amount = .ok x) (hborrows : o.borrows ≠ [])
    (hvalued : Valued w r c p) (hp' : r.borrowingPower (c.depositedAmount - x) = .ok p')
    (hhealthy : o.borrowedValue ≤ o.allowedBorrowValue)
    (h : RatioBelowAverage r o ∨ NotInUse r o c amount) :
    (p.scaled : ℚ) ≤ p'.scaled + (o.allowedBorrowValue.scaled - o.borrowedValue.scaled) +
      tolerance r o c := by
  obtain ⟨hne, hle, hpos, hlimit⟩ := withdrawAmount_limit hx hborrows
  have hx : x.toNat ≤ c.depositedAmount.toNat := hle.trans (min_le_right ..)
  have hxpos : x.toNat ≠ 0 := fun hzero => hne (UInt64.toNat_inj.mp hzero)
  have hpower := borrowingPower_withdraw hvalued.value hvalued.power hp'
    (UInt64.le_iff_toNat_le.mpr hx) (by omega)
  have hB : (o.borrowedValue.scaled : ℚ) ≤ o.allowedBorrowValue.scaled := cast_le.mpr hhealthy
  have hB₀ : (0 : ℚ) ≤ o.borrowedValue.scaled := cast_nonneg _
  have hA : (0 : ℚ) < o.allowedBorrowValue.scaled := cast_pos.mpr hpos
  have hV : (0 : ℚ) ≤ c.marketValue.scaled := cast_nonneg _
  have hd : (0 : ℚ) ≤ c.depositedAmount.toNat := cast_nonneg _
  have hlength : (0 : ℚ) ≤ o.deposits.length := cast_nonneg _
  have hratio := ratio_nonneg r
  have herror := valueError_nonneg r
  have hle : (x.toNat : ℚ) ≤ (min amount.toNat c.depositedAmount.toNat : ℕ) := cast_le.mpr hle
  rw [tolerance]
  unfold RatioBelowAverage NotInUse at h
  generalize r.valueError = error, r.ratio = ratio, (x.toNat : ℚ) = n,
    (c.marketValue.scaled : ℚ) = V, (c.depositedAmount.toNat : ℚ) = d,
    (o.borrowedValue.scaled : ℚ) = B, (o.allowedBorrowValue.scaled : ℚ) = A,
    (o.depositedValue.scaled : ℚ) = D, (o.deposits.length : ℚ) = length,
    ((min amount.toNat c.depositedAmount.toNat : ℕ) : ℚ) = requested at *
  rcases h with haverage | hunused
  · have hone : B / A ≤ 1 := (div_le_one hA).mpr hB
    have hpart : 0 ≤ B / A := by positivity
    have haverage : ratio * (V * n / d) ≤
        A - B + length + ratio * (wad / A + V / wad + 2) :=
      calc ratio * (V * n / d)
        _ ≤ ratio * (D - B * D / A + wad / A + V / wad + 2) := by gcongr
        _ = ratio * D * (1 - B / A) + ratio * (wad / A + V / wad + 2) := by ring
        _ ≤ (A + length) * (1 - B / A) + ratio * (wad / A + V / wad + 2) := by gcongr
        _ = A - B + length * (1 - B / A) + ratio * (wad / A + V / wad + 2) := by field_simp
        _ ≤ A - B + length * 1 + ratio * (wad / A + V / wad + 2) := by
          gcongr
          linarith
        _ = A - B + length + ratio * (wad / A + V / wad + 2) := by ring
    linarith
  · have hunused : ratio * (V * n / d) ≤ A - B :=
      calc ratio * (V * n / d) ≤ ratio * (V * requested / d) := by gcongr
        _ ≤ A - B := hunused
    have hrounding : 0 ≤ ratio * (wad / A + V / wad + 2) := by positivity
    linarith

namespace TwoReserves

open OneReserve (listed owner authority clock rent tokenProgram environment borrowAccounts)

def accounts : Address → Account
  | .key 10 => ⟨.program, .zeroed .market⟩
  | .key 20 | .key 60 => ⟨.program, .zeroed .reserve⟩
  | .key 40 => ⟨.program, .zeroed .obligation⟩
  | _ => ⟨.default, .none⟩

def start : World := ⟨accounts, OneReserve.tokens, fun _ => 0, 1⟩

theorem start_blank : start.Blank := by
  intro k hk
  change (accounts k).owner = .program at hk
  show ∃ kind, (accounts k).content = .zeroed kind
  unfold accounts at hk ⊢
  split at hk <;> simp_all

def config (loanToValueRatio liquidationThreshold : UInt8) : ReserveConfig :=
  ⟨80, loanToValueRatio, 5, liquidationThreshold, 0, 4, 30, ⟨0, 0, 0⟩⟩

def refreshReserve (r : ℕ) : Event :=
  .lending .refreshReserve [listed r, listed 2, listed 10, clock]

/-- A reserve, whose token accounts have the next numbers, with liquidity. -/
def openReserve (r : ℕ) (c : ReserveConfig) : List Event :=
  [.lending (.initNftReserve c) [listed (r + 1), listed r, listed 1, listed (r + 2), listed (r + 3),
      listed (r + 4), listed (r + 5), listed 2, listed 10, authority, owner, owner, clock, rent,
      tokenProgram],
    refreshReserve r,
    .lending (.depositReserveLiquidity 200000) [listed 30, listed (r + 1), listed r, listed (r + 2),
      listed (r + 4), listed 10, authority, owner, clock, tokenProgram],
    refreshReserve r]

def deposit (r : ℕ) : Event :=
  .lending (.depositObligationCollateral 100000) [listed (r + 1), listed (r + 5), listed r,
    listed 40, listed 10, owner, owner, clock, tokenProgram]

/-- Everything up to the last refresh before the withdrawal. -/
def borrowHalf : List Event :=
  [.lending (.initLendingMarket (.key 5) []) [listed 10, rent, tokenProgram, listed 99]] ++
    openReserve 20 (config 90 95) ++ openReserve 60 (config 10 15) ++
    [.lending .initObligation [listed 40, listed 10, owner, clock, rent, tokenProgram],
      deposit 20, deposit 60,
      .lending .refreshObligation [listed 40, clock, listed 20, listed 60],
      .lending (.borrowObligationLiquidity 50000) (borrowAccounts 40), refreshReserve 20]

def refreshAll : List AccountMeta := [listed 40, clock, listed 20, listed 60, listed 20]

def half : World :=
  (start.run environment borrowHalf).step environment (.lending .refreshObligation refreshAll)

theorem half_refresh : Refresh environment (start.run environment borrowHalf) (.key 40)
    refreshAll := by
  constructor <;> decide +kernel

def withdrawAccounts (r : ℕ) : List AccountMeta :=
  [listed (r + 5), listed (r + 1), listed r, listed 40, listed 10, authority, owner, clock,
    tokenProgram]

def withdrawn (r : ℕ) : World :=
  half.step environment (.lending (.withdrawObligationCollateral 100000) (withdrawAccounts r))

theorem half_withdrawal : Withdrawal environment half 100000 (withdrawAccounts 20) (.key 40)
      (.key 20) ∧
    Withdrawal environment half 100000 (withdrawAccounts 60) (.key 40) (.key 60) := by
  refine ⟨?_, ?_⟩ <;> constructor <;> decide +kernel

def refreshRest (r : ℕ) : List AccountMeta := [listed 40, clock, listed r, listed 20]

theorem rest_refresh : Refresh environment (withdrawn 20) (.key 40) (refreshRest 60) ∧
    Refresh environment (withdrawn 60) (.key 40) (refreshRest 20) := by
  refine ⟨?_, ?_⟩ <;> constructor <;> decide +kernel

def obligation : Obligation where
  version := 1
  lastUpdate := ⟨1, false⟩
  lendingMarket := .key 10
  owner := .key 5
  deposits := [⟨.key 20, 100000, .ofU64 100000⟩, ⟨.key 60, 100000, .ofU64 100000⟩]
  borrows := [⟨.key 20, .one, .ofU64 50000, .ofU64 50000⟩]
  depositedValue := .ofU64 200000
  borrowedValue := .ofU64 50000
  allowedBorrowValue := .ofU64 100000
  unhealthyBorrowValue := .ofU64 110000

theorem half_record : half.accounts (.key 40) = ⟨.program, .obligation obligation⟩ := by
  decide +kernel

/-- What is left of the obligation without its collateral of the other reserve, refreshed. -/
def rest : Obligation :=
  { obligation with
    deposits := [⟨.key 60, 100000, .ofU64 100000⟩]
    depositedValue := .ofU64 100000
    allowedBorrowValue := .ofU64 10000
    unhealthyBorrowValue := .ofU64 15000 }

end TwoReserves

end SolanaPrograms.Lending
