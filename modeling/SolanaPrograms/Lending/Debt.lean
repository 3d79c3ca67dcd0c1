import SolanaPrograms.Lending.Effects

/-!
# What a borrower owes

A reserve and each borrow from it keep a cumulative rate. The rate of the reserve never falls, and a
refresh of an obligation multiplies the debt by the growth of the rate since the one that the entry
recorded. A new entry records the rate one, whatever the rate of the reserve is: the debt is what
was borrowed if and only if the reserve had not accrued interest yet.
-/

namespace SolanaPrograms.Lending

open Function Outcome ObligationLiquidity Decimal List Nat World Except Option

/-! ## Rounding -/

/-- The debt `d` at the rate `R` is `b` times the growth of the rate since `R₀`, up to what `n`
refreshes lose: at each one a part in `wad` of the debt and one unit of its last digit. -/
structure UpToRounding (n b R₀ R d : ℕ) : Prop where
  upper : d * R₀ ≤ b * R
  lower : b * wad * R ≤ wad * R₀ * d + n * (R * (b + wad))

theorem upToRounding_self (b R : ℕ) : UpToRounding 0 b R R b :=
  ⟨le_rfl, by rw [zero_mul, add_zero]; exact le_of_eq (by ring)⟩

variable {n R : ℕ} {b value R₀ : Decimal} {l l' : ObligationLiquidity} {r r' : Reserve}
  {amount : UInt64} {o : Obligation}

theorem UpToRounding.mono {n' b R₀ d : ℕ} (h : UpToRounding n b R₀ R d) (hn : n ≤ n') :
    UpToRounding n' b R₀ R d :=
  ⟨h.upper, h.lower.trans (Nat.add_le_add_left (Nat.mul_le_mul_right _ hn) _)⟩

/-- One refresh, from the rate `R` to the rate `R'`. -/
theorem UpToRounding.accrue {b R₀ R' d : ℕ} (h : UpToRounding n b R₀ R d) (hpos : 0 < R)
    (h₀ : R₀ ≤ R) (hle : R ≤ R') : UpToRounding (n + 1) b R₀ R' (d * (R' * wad / R) / wad) := by
  generalize hg : R' * wad / R = g
  generalize hd : d * g / wad = d'
  have hg₁ : g * R ≤ R' * wad := hg ▸ div_mul_le_self _ _
  have hg₂ : R' * wad ≤ g * R + R := hg ▸ (lt_div_mul_add hpos).le
  have hd₁ : d' * wad ≤ d * g := hd ▸ div_mul_le_self _ _
  have hd₂ : d * g ≤ d' * wad + wad := hd ▸ (lt_div_mul_add wad_pos).le
  have habove : d' * R ≤ d * R' := by
    refine le_of_mul_le_mul_right ?_ wad_pos
    calc d' * R * wad = d' * wad * R := by ring
      _ ≤ d * g * R := mul_le_mul_right R hd₁
      _ = d * (g * R) := by ring
      _ ≤ d * (R' * wad) := mul_le_mul_left d hg₁
      _ = d * R' * wad := by ring
  have hbelow : d * R' * wad ≤ (d' * wad + wad + d) * R := by
    calc d * R' * wad = d * (R' * wad) := by ring
      _ ≤ d * (g * R + R) := mul_le_mul_left d hg₂
      _ = d * g * R + d * R := by ring
      _ ≤ (d' * wad + wad) * R + d * R := Nat.add_le_add_right (Nat.mul_le_mul_right R hd₂) _
      _ = (d' * wad + wad + d) * R := by ring
  -- What this refresh loses is at most a part in `wad` of what is owed at the new rate.
  have hloss : R₀ * (wad + d) ≤ R' * (b + wad) := by
    have hold : d * R₀ ≤ b * R' := h.upper.trans (mul_le_mul_left b hle)
    have hunit : R₀ * wad ≤ R' * wad := mul_le_mul_right wad (h₀.trans hle)
    calc R₀ * (wad + d) = R₀ * wad + d * R₀ := by ring
      _ ≤ R' * wad + b * R' := Nat.add_le_add hunit hold
      _ = R' * (b + wad) := by ring
  constructor
  · refine le_of_mul_le_mul_right ?_ hpos
    calc d' * R₀ * R = d' * R * R₀ := by ring
      _ ≤ d * R' * R₀ := mul_le_mul_right R₀ habove
      _ = d * R₀ * R' := by ring
      _ ≤ b * R * R' := mul_le_mul_right R' h.upper
      _ = b * R' * R := by ring
  · refine le_of_mul_le_mul_right ?_ hpos
    calc b * wad * R' * R = b * wad * R * R' := by ring
      _ ≤ (wad * R₀ * d + n * (R * (b + wad))) * R' := mul_le_mul_right R' h.lower
      _ = R₀ * (d * R' * wad) + n * (R' * (b + wad)) * R := by ring
      _ ≤ R₀ * ((d' * wad + wad + d) * R) + n * (R' * (b + wad)) * R :=
        Nat.add_le_add_right (Nat.mul_le_mul_left R₀ hbelow) _
      _ = (wad * R₀ * d' + R₀ * (wad + d) + n * (R' * (b + wad))) * R := by ring
      _ ≤ (wad * R₀ * d' + R' * (b + wad) + n * (R' * (b + wad))) * R :=
        Nat.mul_le_mul_right R (Nat.add_le_add_right (Nat.add_le_add_left hloss _) _)
      _ = (wad * R₀ * d' + (n + 1) * (R' * (b + wad))) * R := by ring

/-! ## Rates never fall -/

theorem Rate.tryPowLoop_one_le {exp : ℕ} {base ret x : Rate} (hbase : wad ≤ base.scaled)
    (hret : wad ≤ ret.scaled) (h : Rate.tryPowLoop exp base ret = .ok x) : wad ≤ x.scaled := by
  have hmul : ∀ {a b c : Rate}, wad ≤ a.scaled → wad ≤ b.scaled → a.tryMul b = .ok c →
      wad ≤ c.scaled := by
    intro a b c ha hb hc
    rw [Rate.tryMul, orOverflow_eq_ok, Fixed.mul?_eq_some] at hc
    rw [hc.2.2, le_div_iff_mul_le wad_pos]
    exact Nat.mul_le_mul ha hb
  induction exp using Nat.strongRecOn generalizing base ret with
  | ind exp ih =>
    rw [Rate.tryPowLoop] at h
    split at h
    next hpos =>
      rw [bind_eq_ok] at h
      obtain ⟨_, hbase', h⟩ := h
      have hb := hmul hbase hbase hbase'
      have hlt : exp / 2 < exp := div_lt_self hpos (by decide)
      split at h
      · rw [bind_eq_ok] at h
        obtain ⟨_, hret', h⟩ := h
        exact ih (exp / 2) hlt hb (hmul hret hb hret') h
      · exact ih (exp / 2) hlt hb hret h
    next =>
      cases h
      exact hret

abbrev Reserve.rate (r : Reserve) : Decimal := r.liquidity.cumulativeBorrowRateWads

theorem compoundInterest_rate_le {l l' : ReserveLiquidity} {rate : Rate} {n : UInt64}
    (h : l.compoundInterest rate n = .ok l') :
    l.cumulativeBorrowRateWads ≤ l'.cumulativeBorrowRateWads := by
  simp only [ReserveLiquidity.compoundInterest, checks, tryMulRate_eq_ok] at h
  obtain ⟨_, -, base, hbase, compounded, hpow, cumulative, ⟨-, hcumulative⟩, _, -, rfl⟩ := h
  have hone : wad ≤ base.scaled := by
    rw [Rate.tryAdd, orOverflow_eq_ok, Fixed.add?_eq_some] at hbase
    rw [hbase]
    exact le_add_right _ _
  have hcompounded : wad ≤ compounded.scaled := by
    refine Rate.tryPowLoop_one_le hone ?_ hpow
    split
    · exact hone
    · exact le_rfl
  show l.cumulativeBorrowRateWads.scaled ≤ cumulative.scaled
  rw [hcumulative, le_div_iff_mul_le wad_pos]
  exact mul_le_mul_left _ hcompounded

theorem accrueInterest_rate_le {slot : UInt64} (h : r.accrueInterest slot = .ok r') :
    r.rate ≤ r'.rate ∧ r'.version = r.version := by
  simp only [Reserve.accrueInterest, bind_eq_ok] at h
  obtain ⟨_, -, h⟩ := h
  split at h
  · simp only [checks] at h
    obtain ⟨_, -, _, hl, rfl⟩ := h
    exact ⟨compoundInterest_rate_le hl, rfl⟩
  · cases h
    exact ⟨le_rfl, rfl⟩

theorem borrow_rate {l l' : ReserveLiquidity} {amount : Decimal} (h : l.borrow amount = .ok l') :
    l'.cumulativeBorrowRateWads = l.cumulativeBorrowRateWads := by
  simp only [ReserveLiquidity.borrow, checks] at h
  obtain ⟨_, -, _, -, _, -, _, -, rfl⟩ := h
  rfl

theorem repay_rate {l l' : ReserveLiquidity} {settled : Decimal}
    (h : l.repay amount settled = .ok l') :
    l'.cumulativeBorrowRateWads = l.cumulativeBorrowRateWads := by
  simp only [ReserveLiquidity.repay, checks] at h
  obtain ⟨_, -, _, -, rfl⟩ := h
  rfl

variable {env : Environment} {w w' : World} {e : Event} {k reserve : Address}

theorem ReserveEdit.rate_le (h : ReserveEdit w r r') :
    r.rate ≤ r'.rate ∧ r'.version = r.version := by
  cases h with
  | refreshed h => exact ⟨(accrueInterest_rate_le h).1, (accrueInterest_rate_le h).2⟩
  | deposited h =>
    simp only [Reserve.depositLiquidity, ReserveLiquidity.deposit, checks] at h
    obtain ⟨_, -, _, -, _, ⟨_, -, rfl⟩, _, -, rfl, -⟩ := h
    exact ⟨le_rfl, rfl⟩
  | redeemed h =>
    simp only [Reserve.redeemCollateral, ReserveLiquidity.withdraw, checks] at h
    obtain ⟨_, -, _, -, _, -, _, ⟨_, -, _, -, rfl⟩, rfl, -⟩ := h
    exact ⟨le_rfl, rfl⟩
  | borrowed h => exact ⟨(borrow_rate h).ge, rfl⟩
  | repaid h => exact ⟨(repay_rate h).ge, rfl⟩
  | lent hlent hrepaid => exact ⟨((repay_rate hrepaid).trans (borrow_rate hlent)).ge, rfl⟩

def World.rate (w : World) (reserve : Address) : Except Fault Decimal := do
  w.checkOwner reserve
  let r ← w.readReserve reserve
  return r.rate

abbrev World.HasRate (w : World) (reserve : Address) (rate : Decimal) : Prop :=
  w.rate reserve = .ok rate

variable {rate rate' value' : Decimal} {o' : Obligation}
  {es : List Event}

theorem hasRate_iff : w.HasRate reserve rate ↔
    ∃ r, w.accounts reserve = ⟨.program, .reserve r⟩ ∧ r.version = 1 ∧ r.rate = rate := by
  simp only [World.HasRate, World.rate, checks, checkOwner_eq_ok, readReserve_eq_ok]
  constructor
  · rintro ⟨hown, r, ⟨hr, hversion⟩, hrate⟩
    exact ⟨r, IsOwn.account hown hr, hversion, hrate⟩
  · rintro ⟨r, hr, hversion, hrate⟩
    exact ⟨by rw [World.IsOwn, hr], r, ⟨by rw [hr], hversion⟩, hrate⟩

/-- **Step.** The rate of a reserve does not fall. -/
theorem step_rate (env : Environment) (e : Event) (h : w.HasRate reserve rate) :
    ∃ rate', rate ≤ rate' ∧ (w.step env e).HasRate reserve rate' := by
  obtain ⟨r, hr, hversion, rfl⟩ := hasRate_iff.mp h
  have hedit := step_edits env w e reserve
  rw [hr] at hedit
  generalize hnew : (w.step env e).accounts reserve = new at hedit
  cases hedit with
  | same => exact ⟨r.rate, le_rfl, hasRate_iff.mpr ⟨r, hnew, hversion, rfl⟩⟩
  | foreign hforeign => exact absurd rfl hforeign
  | created hcreated => exact absurd (hversion.symm.trans hcreated) (by decide)
  | reserve hedit =>
    obtain ⟨hle, hversion'⟩ := hedit.rate_le
    exact ⟨_, hle, hasRate_iff.mpr ⟨_, hnew, hversion'.trans hversion, rfl⟩⟩

/-! ## Debts change by interest -/

def World.debt (w : World) (k reserve : Address) : Except Fault (Option ObligationLiquidity) := do
  w.checkOwner k
  let o ← w.readObligation k
  return o.borrows.find? fun l => l.borrowReserve = reserve

abbrev World.Owes (w : World) (k reserve : Address) (l : ObligationLiquidity) : Prop :=
  w.debt k reserve = .ok (some l)

theorem debt_eq_ok {d : Option ObligationLiquidity} : w.debt k reserve = .ok d ↔
    ∃ o, w.accounts k = ⟨.program, .obligation o⟩ ∧ o.version = 1 ∧
      o.borrows.find? (fun l => l.borrowReserve = reserve) = d := by
  simp only [debt, checks, checkOwner_eq_ok, readObligation_eq_ok]
  constructor
  · rintro ⟨hown, o, ⟨ho, hversion⟩, hd⟩
    exact ⟨o, IsOwn.account hown ho, hversion, hd⟩
  · rintro ⟨o, ho, hversion, hd⟩
    exact ⟨by rw [World.IsOwn, ho], o, ⟨by rw [ho], hversion⟩, hd⟩

theorem World.Owes.unique (h : w.Owes k reserve l) (h' : w.Owes k reserve l') : l = l' :=
  some.inj (ok.inj (h.symm.trans h'))

theorem World.HasRate.unique (h : w.HasRate reserve rate)
    (h' : w.HasRate reserve rate') : rate = rate' :=
  ok.inj (h.symm.trans h')

/-- The debt of an entry at a rate of its reserve. -/
def ObligationLiquidity.owedAt (l : ObligationLiquidity) (rate : Decimal) : ℕ :=
  l.borrowedAmountWads.scaled * (rate.scaled * wad / l.cumulativeBorrowRateWads.scaled) / wad

theorem owedAt_self (h : 0 < l.cumulativeBorrowRateWads.scaled) :
    l.owedAt l.cumulativeBorrowRateWads = l.borrowedAmountWads.scaled := by
  rw [owedAt, Nat.mul_div_cancel_left _ h, Nat.mul_div_cancel _ wad_pos]

/-- What an entry owes after it accrued interest, also where the rate is the one it recorded. -/
theorem accrueInterest_ok (h : l.accrueInterest rate = .ok l') :
    l'.borrowReserve = l.borrowReserve ∧ l.cumulativeBorrowRateWads ≤ rate ∧
      l'.cumulativeBorrowRateWads = rate ∧ (0 < l.cumulativeBorrowRateWads.scaled →
        l'.borrowedAmountWads.scaled = l.owedAt rate) := by
  unfold accrueInterest at h
  split at h
  next => cases h
  next heq =>
    cases h
    obtain rfl := compare_eq_iff_eq.mp heq
    exact ⟨rfl, le_rfl, rfl, fun hpos => (owedAt_self hpos).symm⟩
  next hgt =>
    simp only [checks, tryDiv_eq_ok, toRate_eq_ok, tryMulRate_eq_ok] at h
    obtain ⟨_, ⟨-, -, hgrowth⟩, _, hcompounded, _, ⟨-, hdebt⟩, rfl⟩ := h
    refine ⟨rfl, (compare_gt_iff_gt.mp hgt).le, rfl, fun _ => ?_⟩
    rw [hdebt, hcompounded, hgrowth, owedAt]

def Accrued (w : World) (l l' : ObligationLiquidity) : Prop :=
  ∃ rate l₁ marketValue, w.HasRate l.borrowReserve rate ∧ l.accrueInterest rate = .ok l₁ ∧
    l' = { l₁ with marketValue }

theorem refreshBorrow_accrued {info : AccountMeta}
    (h : refreshBorrow w l info value = .ok (l', value')) :
    Accrued w l l' ∧ l'.borrowReserve = l.borrowReserve := by
  simp only [refreshBorrow, entryReserve, checks, checkOwner_eq_ok, checkInput_eq_ok, not_not,
    readReserve_eq_ok] at h
  obtain ⟨_, ⟨hown, hkey, r', ⟨hr, hversion⟩, _, -, rfl⟩, l₁, hl₁, marketValue, -, _, -, rfl, -⟩ :=
    h
  have hsame : l₁.borrowReserve = l.borrowReserve := (accrueInterest_ok hl₁).1
  have hrate : w.HasRate l.borrowReserve r'.rate :=
    hasRate_iff.mpr ⟨r', hkey ▸ IsOwn.account hown hr, hversion, rfl⟩
  exact ⟨⟨_, l₁, marketValue, hrate, hl₁, rfl⟩, hsame⟩

theorem refreshBorrows_find {ls ls' : List ObligationLiquidity} {it it' : List AccountMeta}
    (h : refreshBorrows w ls it value = .ok (ls', it', value'))
    (hl : ls.find? (fun l => l.borrowReserve = reserve) = some l) :
    ∃ l', Accrued w l l' ∧ ls'.find? (fun l => l.borrowReserve = reserve) = some l' := by
  induction ls generalizing ls' it value with
  | nil => cases hl
  | cons l₀ _ ih =>
    cases it with
    | nil => cases h
    | cons =>
      simp only [refreshBorrows, checks, ok.injEq] at h
      obtain ⟨l₀', _, hl₀, _, _, _, hrest, rfl, rfl, rfl⟩ := h
      obtain ⟨haccrued, hsame⟩ := refreshBorrow_accrued hl₀
      by_cases heq : l₀.borrowReserve = reserve
      · rw [find?_cons_of_pos (by simpa using heq), some.injEq] at hl
        subst hl
        exact ⟨l₀', haccrued, find?_cons_of_pos (by simpa [hsame] using heq)⟩
      · rw [find?_cons_of_neg (by simpa using heq)] at hl
        obtain ⟨l', hl', hfind⟩ := ih hrest hl
        refine ⟨l', hl', ?_⟩
        rw [find?_cons_of_neg (by simpa [hsame] using heq)]
        exact hfind

theorem refreshedObligation_find {it : List AccountMeta} (h : refreshedObligation w o it = .ok o')
    (hl : o.borrows.find? (fun l => l.borrowReserve = reserve) = some l) :
    o'.version = o.version ∧ ∃ l', Accrued w l l' ∧
      o'.borrows.find? (fun l => l.borrowReserve = reserve) = some l' := by
  simp only [refreshedObligation, checks] at h
  obtain ⟨_, _, _, -, _, _, _, hborrows, _, -, rfl⟩ := h
  exact ⟨rfl, refreshBorrows_find hborrows hl⟩

/-- **Step.** What an obligation owes is kept, or accrues interest when it is refreshed, unless the
event borrows, repays or liquidates it. -/
theorem step_owes (env : Environment) (h : w.Owes k reserve l) (hkeep : ¬ e.MovesDebt k) :
    (w.step env e).Owes k reserve l ∨
      e.Refreshes k ∧ ∃ l', Accrued w l l' ∧ (w.step env e).Owes k reserve l' := by
  obtain ⟨o, ho, hversion, hl⟩ := debt_eq_ok.mp h
  have hedit := step_edits env w e k
  rw [ho] at hedit
  generalize hnew : (w.step env e).accounts k = new at hedit
  cases hedit with
  | same => exact .inl (debt_eq_ok.mpr ⟨o, hnew, hversion, hl⟩)
  | foreign hforeign => exact absurd rfl hforeign
  | created hcreated => exact absurd (hversion.symm.trans hcreated) (by decide)
  | obligation hedit =>
    cases hedit with
    | refreshed he h =>
      obtain ⟨hversion', l', hl', hfind⟩ := refreshedObligation_find h hl
      exact .inr ⟨he, l', hl', debt_eq_ok.mpr ⟨_, hnew, hversion'.trans hversion, hfind⟩⟩
    | secured => exact .inl (debt_eq_ok.mpr ⟨_, hnew, hversion, hl⟩)
    | moved he => exact absurd he hkeep

/-! ## Successful instructions -/

def World.Succeeds (env : Environment) (w : World) (e : Event) : Prop := (w.exec env e).isOk = true

instance : Decidable (w.Succeeds env e) := inferInstanceAs (Decidable (_ = true))

theorem World.Succeeds.exec (h : w.Succeeds env e) : w.exec env e = .ok (w.step env e) := by
  unfold World.Succeeds at h
  unfold step
  cases hexec : w.exec env e with
  | error => simp [hexec, Except.isOk, Except.toBool] at h
  | ok => rfl

structure Refresh (env : Environment) (w : World) (k : Address) (accounts : List AccountMeta) :
    Prop where
  succeeds : w.Succeeds env (.lending .refreshObligation accounts)
  obligation : accounts.head?.map AccountMeta.key = some k

theorem Refresh.effect {accounts : List AccountMeta} (h : Refresh env w k accounts) :
    ∃ o it o', w.accounts k = ⟨.program, .obligation o⟩ ∧ refreshedObligation w o it = .ok o' ∧
      w.step env (.lending .refreshObligation accounts) =
        { w with accounts := update w.accounts k ⟨.program, .obligation o'⟩ } := by
  have hexec := h.succeeds.exec
  have hkey := h.obligation
  generalize w.step env (.lending .refreshObligation accounts) = w' at hexec ⊢
  simp only [exec, failIf_bind_eq_ok, process] at hexec
  replace hexec := hexec.2
  unfold processRefreshObligation at hexec
  split at hexec
  next obligation clock it =>
    simp only [head?_cons, map_some, some.injEq] at hkey
    subst hkey
    simp only [bind_eq_ok, checkOwner_eq_ok, readObligation_eq_ok] at hexec
    obtain ⟨_, -, o, ⟨ho, -⟩, _, hown, o', ho', hwrite⟩ := hexec
    exact ⟨o, it, o', IsOwn.account hown ho, ho', writeObligation_ok hown hwrite⟩
  next => cases hexec

theorem Refresh.accrued {accounts : List AccountMeta} (h : Refresh env w k accounts)
    (hl : w.Owes k reserve l) :
    ∃ l', Accrued w l l' ∧
      (w.step env (.lending .refreshObligation accounts)).Owes k reserve l' := by
  obtain ⟨o, ho, hversion, hfind⟩ := debt_eq_ok.mp hl
  obtain ⟨o₁, _, o', ho₁, ho', hnew⟩ := h.effect
  obtain rfl : o = o₁ := by
    rw [ho] at ho₁
    cases ho₁
    rfl
  obtain ⟨hversion', l', hl', hfind'⟩ := refreshedObligation_find ho' hfind
  refine ⟨l', hl', debt_eq_ok.mpr ⟨o', ?_, hversion'.trans hversion, hfind'⟩⟩
  rw [hnew]
  exact update_self ..

/-- The debt of a borrow, as `process_borrow_obligation_liquidity` computes it. -/
def World.borrowAmount (w : World) (k reserve : Address) (amount : UInt64) :
    Except Fault Decimal := do
  let r ← w.readReserve reserve
  let o ← w.readObligation k
  let remaining ← o.remainingBorrowValue
  let res ← r.calculateBorrow amount remaining
  return res.borrowAmount

/-- A successful borrow of `b` from the reserve at the rate `R₀`, by an obligation that owes it
nothing. -/
structure Borrow (env : Environment) (w : World) (amount : UInt64) (accounts : List AccountMeta)
    (k reserve : Address) (b R₀ : Decimal) : Prop where
  succeeds : w.Succeeds env (.lending (.borrowObligationLiquidity amount) accounts)
  obligationKey : accounts[4]?.map AccountMeta.key = some k
  reserveKey : accounts[2]?.map AccountMeta.key = some reserve
  owesNothing : w.debt k reserve = .ok none
  hasRate : w.HasRate reserve R₀
  borrows : w.borrowAmount k reserve amount = .ok b

theorem wad_le_borrowAmount {res : CalculateBorrowResult}
    (h : r.calculateBorrow amount value = .ok res) (hres : res.receiveAmount ≠ 0) :
    wad ≤ res.borrowAmount.scaled := by
  have hpos : 0 < res.receiveAmount.toNat :=
    pos_of_ne_zero fun h0 => hres (UInt64.toNat_inj.mp h0)
  simp only [Reserve.calculateBorrow, bind_eq_ok] at h
  obtain ⟨_, -, h⟩ := h
  split at h
  · simp only [checks, tryFloorU64_eq_ok, checkedSub_eq_ok] at h
    obtain ⟨_, -, affordable, -, _, _, -, _, _, _, _, rfl⟩ := h
    have hone : 1 ≤ (min affordable (.ofU64 r.liquidity.availableAmount)).scaled / wad := by
      simp only at hpos
      omega
    simpa using (le_div_iff_mul_le wad_pos).mp hone
  · simp only [checks, tryAdd_eq_ok] at h
    obtain ⟨_, _, -, _, hborrow, _, -, _, -, _, -, rfl⟩ := h
    rw [hborrow]
    exact (Nat.le_mul_of_pos_right wad hpos).trans (Nat.le_add_right _ _)

/-- The new entry, at the end of the list, records the rate one. -/
theorem borrowed_find {amount : Decimal} (h : borrowed o reserve amount = .ok o')
    (hnone : o.borrows.find? (fun l => l.borrowReserve = reserve) = none) :
    o'.version = o.version ∧ o'.borrows.find? (fun l => l.borrowReserve = reserve) =
      some ⟨reserve, .one, amount, .zero⟩ := by
  have hidx : o.borrows.findIdx? (fun l => l.borrowReserve = reserve) = none := by
    rw [findIdx?_eq_none_iff]
    rw [find?_eq_none] at hnone
    intro l hl
    simpa using hnone l hl
  simp only [borrowed, Obligation.findOrAddLiquidityToBorrows, hidx, bind_eq_ok, pure_eq_ok,
    Prod.exists, Prod.mk.injEq, okOr_eq_ok, borrow,
    tryAdd_eq_ok] at h
  obtain ⟨_, _, ⟨_, -, rfl, rfl⟩, l, hl, _, ⟨total, htotal, rfl⟩, rfl⟩ := h
  refine ⟨rfl, ?_⟩
  obtain rfl : .new reserve = l := by simpa using hl
  obtain rfl : total = amount := by
    rw [Fixed.eq_iff, htotal]
    exact zero_add _
  rw [set_append_right _ _ le_rfl, Nat.sub_self, find?_append, hnone]
  simp [new]

theorem Borrow.opens {accounts : List AccountMeta}
    (h : Borrow env w amount accounts k reserve b R₀) :
    wad ≤ b.scaled ∧
    (w.step env (.lending (.borrowObligationLiquidity amount) accounts)).Owes k reserve
      ⟨reserve, .one, b, .zero⟩ ∧
    (w.step env (.lending (.borrowObligationLiquidity amount) accounts)).HasRate reserve R₀ := by
  have hexec := h.succeeds.exec
  obtain ⟨-, hkeyO, hkeyR, hnone, hrate, hb⟩ := h
  generalize w.step env (.lending (.borrowObligationLiquidity amount) accounts) = w' at hexec ⊢
  obtain ⟨r, hr, -, rfl⟩ := hasRate_iff.mp hrate
  obtain ⟨o, ho, -, hfind⟩ := debt_eq_ok.mp hnone
  simp only [exec, failIf_bind_eq_ok, process, processBorrowObligationLiquidity] at hexec
  replace hexec := hexec.2.2
  split at hexec
  next sourceLiquidity destinationLiquidity borrowReserve feeReceiver obligation _ _ _ _ _ _ =>
    obtain rfl : obligation.key = k := by simpa using hkeyO
    obtain rfl : borrowReserve.key = reserve := by simpa using hkeyR
    simp only [bind_eq_ok, reserveOf_eq_ok, obligationOf_eq_ok, Prod.exists, failIf_eq_ok] at hexec
    obtain ⟨_, -, _, -, r₁, ⟨hr₁, hversionR, -⟩, _, -, _, -, _, -, _, -, o₁,
      ⟨ho₁, hversionO, -⟩, _, -, _, -, _, -, _, -, _, -, _, hremaining, _, -, res, hres,
      _, hreceive, liquidity, hl, w₁, h₁, o', ho', _, h₂, _, _, h₃, _, h₄, h₅⟩ := hexec
    obtain rfl : r = r₁ := by
      rw [hr] at hr₁
      cases hr₁
      rfl
    obtain rfl : o = o₁ := by
      rw [ho] at ho₁
      cases ho₁
      rfl
    obtain rfl : res.borrowAmount = b := by
      have hread : w.readReserve borrowReserve.key = .ok r :=
        readReserve_eq_ok.mpr ⟨by rw [hr], hversionR⟩
      have hread' : w.readObligation obligation.key = .ok o :=
        readObligation_eq_ok.mpr ⟨by rw [ho], hversionO⟩
      rw [borrowAmount, hread, ok_bind, hread', ok_bind, hremaining, ok_bind, hres,
        ok_bind] at hb
      exact pure_eq_ok.mp hb
    have hne : obligation.key ≠ borrowReserve.key := by
      intro heq
      rw [heq, hr] at ho
      cases ho
    have hw₁ := writeReserve_ok (by rw [World.IsOwn, hr]) h₁
    have hown : w₁.IsOwn obligation.key := by
      rw [hw₁, World.IsOwn]
      simp only [update_of_ne hne, ho]
    have hw' : w'.accounts = update w₁.accounts obligation.key
        ⟨.program, .obligation o'⟩ := by
      rw [callToken_accounts h₅, payOwnerFee_accounts h₄, payHostFee_accounts h₃,
        writeObligation_ok hown h₂]
    obtain ⟨hversion', hfind'⟩ := borrowed_find ho' hfind
    refine ⟨wad_le_borrowAmount hres hreceive,
      debt_eq_ok.mpr ⟨o', ?_, hversion'.trans hversionO, hfind'⟩,
      hasRate_iff.mpr ⟨{ r with liquidity, lastUpdate := r.lastUpdate.markStale }, ?_, hversionR,
        borrow_rate hl⟩⟩
    · rw [hw', update_self]
    · rw [hw', update_of_ne hne.symm, hw₁]
      exact update_self ..
  next => cases hexec

/-! ## Runs -/

def World.run (env : Environment) (w : World) (es : List Event) : World :=
  es.foldl (.step env) w

/-- The obligation owes the reserve `b` times the growth since the rate `R₀`, up to what `n`
refreshes lose, at the rate that its entry recorded last. -/
structure Tracks (w : World) (k reserve : Address) (b R₀ : Decimal) (n : ℕ)
    (l : ObligationLiquidity) (rate : Decimal) : Prop where
  owes : w.Owes k reserve l
  hasRate : w.HasRate reserve rate
  pos : 0 < R₀.scaled
  since : R₀ ≤ l.cumulativeBorrowRateWads
  rounding : UpToRounding n b.scaled R₀.scaled l.cumulativeBorrowRateWads.scaled
    l.borrowedAmountWads.scaled

theorem World.Owes.borrowReserve (h : w.Owes k reserve l) : l.borrowReserve = reserve := by
  obtain ⟨_, -, -, hl⟩ := debt_eq_ok.mp h
  simpa using find?_some hl

theorem Tracks.accrue (h : Tracks w k reserve b R₀ n l rate)
    (hl : Accrued w l l') (howes : w'.Owes k reserve l') (hrate : w'.HasRate reserve rate') :
    Tracks w' k reserve b R₀ (n + 1) l' rate' ∧ l'.cumulativeBorrowRateWads = rate ∧
      l'.borrowedAmountWads.scaled = l.owedAt rate := by
  obtain ⟨rate₁, l₁, _, hrate₁, haccrue, rfl⟩ := hl
  obtain rfl : rate = rate₁ := h.hasRate.unique (h.owes.borrowReserve ▸ hrate₁)
  have hpos : 0 < l.cumulativeBorrowRateWads.scaled := lt_of_lt_of_le h.pos h.since
  obtain ⟨-, hup, hnew, howed⟩ := accrueInterest_ok haccrue
  replace howed := howed hpos
  refine ⟨⟨howes, hrate, h.pos, ?_, ?_⟩, hnew, howed⟩
  · exact h.since.trans (hup.trans_eq hnew.symm)
  · show UpToRounding _ _ _ l₁.cumulativeBorrowRateWads.scaled l₁.borrowedAmountWads.scaled
    rw [howed, hnew]
    exact h.rounding.accrue hpos h.since hup

/-- **Step.** The debt follows the rate of the reserve. -/
theorem Tracks.step (env : Environment) (h : Tracks w k reserve b R₀ n l rate)
    (hkeep : ¬ e.MovesDebt k) :
    ∃ l' rate', rate ≤ rate' ∧
      Tracks (w.step env e) k reserve b R₀ (n + if e.Refreshes k then 1 else 0) l' rate' ∧
      (l' = l ∨ l'.cumulativeBorrowRateWads = rate ∧
        l'.borrowedAmountWads.scaled = l.owedAt rate) := by
  obtain ⟨rate', hle, hrate'⟩ := step_rate env e h.hasRate
  rcases step_owes env h.owes hkeep with howes | ⟨he, l', hl', howes⟩
  · refine ⟨l, rate', hle, ⟨howes, hrate', h.pos, h.since, ?_⟩, .inl rfl⟩
    exact h.rounding.mono (le_add_right _ _)
  · obtain ⟨htracks, hnew⟩ := h.accrue hl' howes hrate'
    rw [if_pos he]
    exact ⟨l', rate', hle, htracks, .inr hnew⟩

/-- **Run.** While nothing is borrowed, repaid or liquidated, the debt follows the rate; and as long
as the rate does not change, what is owed at it does not either. -/
theorem Tracks.run (env : Environment)
    (h : Tracks w k reserve b R₀ n l rate) (hkeep : ∀ e ∈ es, ¬ e.MovesDebt k) :
    ∃ l' rate', rate ≤ rate' ∧
      Tracks (w.run env es) k reserve b R₀ (n + es.countP fun e => e.Refreshes k) l' rate' ∧
      (rate' = rate → l'.owedAt rate = l.owedAt rate) := by
  induction es generalizing w n l rate with
  | nil => exact ⟨l, rate, le_rfl, h, fun _ => rfl⟩
  | cons _ es ih =>
    rw [forall_mem_cons] at hkeep
    obtain ⟨l₁, rate₁, hle₁, h₁, hl₁⟩ := h.step env hkeep.1
    obtain ⟨l₂, rate₂, hle₂, h₂, hl₂⟩ := ih h₁ hkeep.2
    refine ⟨l₂, rate₂, hle₁.trans hle₂, ?_, ?_⟩
    · rw [countP_cons, add_comm (countP _ es), ← add_assoc]
      simp only [decide_eq_true_eq]
      exact h₂
    · rintro rfl
      obtain rfl : rate₁ = rate₂ := le_antisymm hle₂ hle₁
      rw [hl₂ rfl]
      rcases hl₁ with rfl | ⟨hnew, howed⟩
      · rfl
      · have hpos : 0 < l₁.cumulativeBorrowRateWads.scaled := lt_of_lt_of_le h₁.pos h₁.since
        rw [← howed, ← owedAt_self hpos, hnew]

/-- **Run.** A run that ends with a refresh: the debt is recorded at the rate of the reserve. -/
theorem Tracks.run_refresh {refresh : List AccountMeta}
    (h : Tracks w k reserve b R₀ n l rate) (hkeep : ∀ e ∈ es, ¬ e.MovesDebt k)
    (hrefresh : Refresh env (w.run env es) k refresh) :
    ∃ l' rate', (w.run env es).HasRate reserve rate' ∧ R₀ ≤ rate' ∧
      ((w.run env es).step env (.lending .refreshObligation refresh)).Owes k reserve l' ∧
      UpToRounding (n + (es.countP fun e => e.Refreshes k) + 1) b.scaled R₀.scaled rate'.scaled
        l'.borrowedAmountWads.scaled ∧
      (rate' = rate → l'.borrowedAmountWads.scaled = l.owedAt rate) := by
  obtain ⟨_, rate₁, -, h₁, hl₁⟩ := h.run env hkeep
  obtain ⟨l', hl', howes⟩ := hrefresh.accrued h₁.owes
  obtain ⟨_, -, hrate⟩ := step_rate env (.lending .refreshObligation refresh) h₁.hasRate
  obtain ⟨htracks, hnew, howed⟩ := h₁.accrue hl' howes hrate
  refine ⟨l', rate₁, h₁.hasRate, hnew ▸ htracks.since, howes, hnew ▸ htracks.rounding, ?_⟩
  rintro rfl
  rw [howed, hl₁ rfl]

/-! ## The debt of a new borrow -/

/-- After every refresh the debt is `b` times the growth of the rate of the reserve since `R₀`, up
to rounding, while nothing is borrowed, repaid or liquidated. -/
def FollowsRate (env : Environment) (w : World) (k reserve : Address) (b R₀ : Decimal) : Prop :=
  ∀ es refresh, (∀ e ∈ es, ¬ Event.MovesDebt k e) → Refresh env (w.run env es) k refresh →
    ∃ l rate, (w.run env es).HasRate reserve rate ∧
      ((w.run env es).step env (.lending .refreshObligation refresh)).Owes k reserve l ∧
      UpToRounding ((es.countP fun e => e.Refreshes k) + 1) b.scaled R₀.scaled rate.scaled
        l.borrowedAmountWads.scaled

theorem mul_div_wad_eq_iff {b : ℕ} (hb : wad ≤ b) (hR : wad ≤ R) : b * R / wad = b ↔ R = wad := by
  constructor
  · intro h
    refine le_antisymm ?_ hR
    by_contra hlt
    have hmore : (b + 1) * wad ≤ b * R := by
      calc (b + 1) * wad = b * wad + wad := by ring
        _ ≤ b * wad + b := Nat.add_le_add_left hb _
        _ = b * (wad + 1) := by ring
        _ ≤ b * R := mul_le_mul_left b (by omega)
    have hge := (le_div_iff_mul_le wad_pos).mpr hmore
    omega
  · rintro rfl
    exact Nat.mul_div_cancel _ wad_pos

/-- **The debt of a borrower.** An obligation that owed a reserve nothing borrows from it, and is
refreshed when the reserve still has the rate it had at the borrow. The debt is then what was
borrowed, and follows the rate of the reserve afterwards, if and only if that rate is one. -/
theorem owes_borrowed_iff {amount : UInt64} {accounts refresh : List AccountMeta}
    {b R₀ : Decimal} {es : List Event} (hborrow : Borrow env w amount accounts k reserve b R₀)
    (hkeep : ∀ e ∈ es, ¬ e.MovesDebt k)
    (hrefresh : Refresh env ((w.step env (.lending (.borrowObligationLiquidity amount)
      accounts)).run env es) k refresh)
    (hrate : ((w.step env (.lending (.borrowObligationLiquidity amount) accounts)).run env
      es).HasRate reserve R₀) :
    ((∃ l, (((w.step env (.lending (.borrowObligationLiquidity amount) accounts)).run env
        es).step env (.lending .refreshObligation refresh)).Owes k reserve l ∧
        l.borrowedAmountWads = b) ∧
      FollowsRate env (w.step env (.lending (.borrowObligationLiquidity amount) accounts)) k
        reserve b R₀) ↔ R₀ = .one := by
  obtain ⟨hwad, howes, hrate₁⟩ := hborrow.opens
  generalize w.step env (.lending (.borrowObligationLiquidity amount) accounts) = w₁ at *
  have htracks : Tracks w₁ k reserve b .one 0 ⟨reserve, .one, b, .zero⟩ R₀ :=
    ⟨howes, hrate₁, wad_pos, le_rfl, upToRounding_self _ _⟩
  obtain ⟨l, rate, hrate', hone, howes', -, howed⟩ := htracks.run_refresh hkeep hrefresh
  obtain rfl := hrate'.unique hrate
  have hdebt : l.borrowedAmountWads.scaled = b.scaled * rate.scaled / wad := by
    rw [howed rfl, owedAt]
    exact congrArg (b.scaled * · / wad) (Nat.mul_div_cancel _ wad_pos)
  have hiff := mul_div_wad_eq_iff hwad (Fixed.le_iff.mp hone)
  rw [Fixed.eq_iff, scaled_one]
  constructor
  · rintro ⟨⟨l', hl', heq⟩, -⟩
    obtain rfl := hl'.unique howes'
    rw [← hiff, ← hdebt, heq]
  · intro hR
    refine ⟨⟨l, howes', Fixed.ext (hdebt.trans (hiff.mpr hR))⟩, ?_⟩
    intro es' refresh' hkeep' hrefresh'
    obtain ⟨l', rate', hr', -, hl', hround, -⟩ := htracks.run_refresh hkeep' hrefresh'
    rw [zero_add] at hround
    refine ⟨l', rate', hr', hl', ?_⟩
    rw [hR]
    exact hround

/-! ## A market with one reserve

The reserve lends its token against its own collateral tokens. Two obligations of one owner borrow
from it, the second one when the reserve has accrued interest on the first loan. -/

namespace OneReserve

def listed (n : ℕ) : AccountMeta := ⟨.key n, false⟩

def owner : AccountMeta := ⟨.key 5, true⟩

def authority : AccountMeta := ⟨.authority (.key 10) 255, false⟩

def clock : AccountMeta := ⟨.clock, false⟩

def rent : AccountMeta := ⟨.rent, false⟩

def tokenProgram : AccountMeta := ⟨.splToken, false⟩

def environment : Environment where
  validBump _ bump := bump = 255
  findBump _ := 255
  rentExempt _ := true

def tokens : Tokens.Book Address
  | .key 1 => .mint ⟨some (.key 5), 1000001, none⟩
  | .key 2 => .account ⟨.key 1, .key 5, 1, none, 0, none, false, false⟩
  | .key 30 => .account ⟨.key 1, .key 5, 1000000, none, 0, none, false, false⟩
  | _ => .free

def accounts : Address → Account
  | .key 10 => ⟨.program, .zeroed .market⟩
  | .key 20 => ⟨.program, .zeroed .reserve⟩
  | .key 40 | .key 41 => ⟨.program, .zeroed .obligation⟩
  | _ => ⟨.default, .none⟩

def start : World := ⟨accounts, tokens, fun _ => 0, 1⟩

theorem start_blank : start.Blank := by
  intro k hk
  change (accounts k).owner = .program at hk
  show ∃ kind, (accounts k).content = .zeroed kind
  unfold accounts at hk ⊢
  split at hk <;> simp_all

def config : ReserveConfig := ⟨80, 50, 5, 55, 0, 4, 30, ⟨0, 0, 0⟩⟩

def refreshReserve : Event := .lending .refreshReserve [listed 20, listed 2, listed 10, clock]

def openObligation (k : ℕ) : List Event :=
  [.lending .initObligation [listed k, listed 10, owner, clock, rent, tokenProgram],
    .lending (.depositObligationCollateral 100000) [listed 21, listed 25, listed 20, listed k,
      listed 10, owner, owner, clock, tokenProgram],
    .lending .refreshObligation [listed k, clock, listed 20]]

def borrowAccounts (k : ℕ) : List AccountMeta :=
  [listed 22, listed 30, listed 20, listed 23, listed k, listed 10, authority, owner, clock,
    tokenProgram]

/-- Everything up to the first loan. -/
def openMarket : List Event :=
  [.lending (.initLendingMarket (.key 5) []) [listed 10, rent, tokenProgram, listed 99],
    .lending (.initNftReserve config) [listed 21, listed 20, listed 1, listed 22, listed 23,
      listed 24, listed 25, listed 2, listed 10, authority, owner, owner, clock, rent,
      tokenProgram],
    refreshReserve,
    .lending (.depositReserveLiquidity 900000) [listed 30, listed 21, listed 20, listed 22,
      listed 24, listed 10, authority, owner, clock, tokenProgram],
    refreshReserve] ++ openObligation 40

/-- Interest accrues on the first loan, and the second obligation is opened. -/
def accrue : List Event :=
  [.lending (.borrowObligationLiquidity 40000) (borrowAccounts 40), .newSlot 1000000,
    refreshReserve] ++ openObligation 41

/-- The obligation, its collateral and its loan. -/
def refreshAccounts (k : ℕ) : List AccountMeta := [listed k, clock, listed 20, listed 20]

theorem first_loan : Borrow environment (start.run environment openMarket) 40000
    (borrowAccounts 40) (.key 40) (.key 20) (.ofU64 40000) .one := by
  constructor <;> decide +kernel

/-- The rate of the reserve when the second obligation borrows. -/
def accruedRate : Decimal := ⟨1000035233687430894, by decide⟩

theorem second_loan : Borrow environment (start.run environment (openMarket ++ accrue)) 1000
    (borrowAccounts 41) (.key 41) (.key 20) (.ofU64 1000) accruedRate := by
  constructor <;> decide +kernel

end OneReserve

open OneReserve in
theorem owes_borrowed_first_loan :
    ((∃ l, ((((start.run environment openMarket).step environment
        (.lending (.borrowObligationLiquidity 40000) (borrowAccounts 40))).run environment
        [refreshReserve]).step environment (.lending .refreshObligation (refreshAccounts 40))).Owes
        (.key 40) (.key 20) l ∧ l.borrowedAmountWads = .ofU64 40000) ∧
      FollowsRate environment ((start.run environment openMarket).step environment
        (.lending (.borrowObligationLiquidity 40000) (borrowAccounts 40))) (.key 40) (.key 20)
        (.ofU64 40000) .one) ↔ one = .one :=
  owes_borrowed_iff first_loan (by decide) ⟨by decide +kernel, rfl⟩ (by decide +kernel)

open OneReserve in
/-- A loan taken when the reserve has accrued interest: the refresh in the same slot already finds
more than was borrowed. -/
theorem second_loan_owes_more : ¬ ∀ (env : Environment) (w : World) (es₀ es : List Event)
    (k reserve : Address) (amount : UInt64) (accounts refresh : List AccountMeta) (b R₀ : Decimal),
    w.Blank → Borrow env (w.run env es₀) amount accounts k reserve b R₀ →
    (∀ e ∈ es, ¬ Event.MovesDebt k e) →
    Refresh env (((w.run env es₀).step env (.lending (.borrowObligationLiquidity amount)
      accounts)).run env es) k refresh →
    (((w.run env es₀).step env (.lending (.borrowObligationLiquidity amount) accounts)).run env
      es).slot = (w.run env es₀).slot →
    (((w.run env es₀).step env (.lending (.borrowObligationLiquidity amount) accounts)).run env
      es).HasRate reserve R₀ →
    ∃ l, ((((w.run env es₀).step env (.lending (.borrowObligationLiquidity amount) accounts)).run
      env es).step env (.lending .refreshObligation refresh)).Owes k reserve l ∧
      l.borrowedAmountWads = b := by
  intro h
  obtain ⟨_, hl, hb⟩ := h environment start (openMarket ++ accrue) [refreshReserve] (.key 41)
    (.key 20) 1000 (borrowAccounts 41) (refreshAccounts 41) _ _ start_blank second_loan (by decide)
    ⟨by decide +kernel, rfl⟩ (by decide +kernel) (by decide +kernel)
  have hdebt : (((((start.run environment (openMarket ++ accrue)).step environment
      (.lending (.borrowObligationLiquidity 1000) (borrowAccounts 41))).run environment
      [refreshReserve]).step environment (.lending .refreshObligation (refreshAccounts 41))).debt
      (.key 41) (.key 20)).map (.map borrowedAmountWads) ≠
      .ok (some (.ofU64 1000)) := by
    decide +kernel
  rw [hl] at hdebt
  exact hdebt (by rw [← hb]; rfl)

/-- **Interest is never taken back.** Whatever instructions are run, a reserve stays a reserve and
its cumulative borrow rate does not fall. -/
theorem borrow_rate_never_falls {w : World} {reserve : Address} {rate : Decimal} (env : Environment)
    (es : List Event) (h : w.HasRate reserve rate) :
    ∃ rate', rate ≤ rate' ∧ (w.run env es).HasRate reserve rate' := by
  induction es generalizing w rate with
  | nil => exact ⟨rate, le_rfl, h⟩
  | cons e es ih =>
    obtain ⟨rate₁, hle, h₁⟩ := step_rate env e h
    obtain ⟨rate₂, hle', h₂⟩ := ih h₁
    exact ⟨rate₂, hle.trans hle', h₂⟩

theorem borrow_rate_never_falls_accrued : ∃ rate, Decimal.one ≤ rate ∧
    ((OneReserve.start.run OneReserve.environment OneReserve.openMarket).run OneReserve.environment
      OneReserve.accrue).HasRate (.key 20) rate :=
  borrow_rate_never_falls _ _ (by decide +kernel)

end SolanaPrograms.Lending
