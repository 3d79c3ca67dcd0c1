import SolanaPrograms.Lib.FixedPoint
import SolanaPrograms.Lib.Outcome

/-!
# Decimals and rates

Amounts, values and prices are `Decimal`s, multiples of `10 ^ -18` in 192 bits. Ratios are `Rate`s,
the same in 128 bits. Whole token amounts are `u64`s.
-/

namespace SolanaPrograms.Lending

open Outcome

/-! ## Errors -/

inductive LendingError
  | alreadyInitialized
  | notRentExempt
  | invalidMarketAuthority
  | invalidMarketOwner
  | invalidAccountOwner
  | invalidTokenOwner
  | invalidTokenMint
  | invalidTokenProgram
  | invalidAmount
  | invalidConfig
  | invalidSigner
  | invalidAccountInput
  | mathOverflow
  | tokenInitializeMintFailed
  | tokenInitializeAccountFailed
  | tokenTransferFailed
  | tokenMintToFailed
  | tokenBurnFailed
  | insufficientLiquidity
  | reserveCollateralDisabled
  | reserveStale
  | withdrawTooSmall
  | withdrawTooLarge
  | borrowTooSmall
  | borrowTooLarge
  | repayTooSmall
  | liquidationTooSmall
  | obligationHealthy
  | obligationStale
  | obligationReserveLimit
  | invalidObligationOwner
  | obligationDepositsEmpty
  | obligationBorrowsEmpty
  | obligationDepositsZero
  | obligationBorrowsZero
  | invalidObligationCollateral
  | invalidObligationLiquidity
  | obligationCollateralEmpty
  | obligationLiquidityEmpty
  | negativeInterestRate
  | invalidOracleConfig
  | invalidFlashLoanReceiverProgram
  | notEnoughLiquidityAfterFlashLoan
deriving DecidableEq, Repr

/-- How an instruction stops without success. -/
inductive Fault
  | lending (e : LendingError)
  | notEnoughAccountKeys
  /-- The data of an account cannot be read. -/
  | invalidAccountData
  /-- The data of an account that is not initialized cannot be used. -/
  | uninitializedAccount
  /-- A system variable was expected. -/
  | invalidArgument
  /-- There is no program address for the seeds. -/
  | invalidSeeds
  /-- An account that is not the one of the token program was named as it. -/
  | incorrectProgramId
  /-- The program that received a flash loan failed. -/
  | receiver
  /-- The runtime refused a write or a signature. -/
  | rejected
  | panic
deriving DecidableEq, Repr

instance : Coe LendingError Fault := ⟨.lending⟩

open LendingError

def orOverflow {α : Type} (o : Option α) : Except Fault α := okOr o mathOverflow

@[simp] theorem orOverflow_eq_ok {α : Type} {o : Option α} {a : α} :
    orOverflow o = .ok a ↔ o = some a := okOr_eq_ok

/-! ## Whole numbers -/

def toU64 (n : ℕ) : Except Fault UInt64 :=
  orOverflow (if n < 2 ^ 64 then some (UInt64.ofNat n) else none)

@[simp] theorem toU64_eq_ok {n : ℕ} {x : UInt64} : toU64 n = .ok x ↔ x.toNat = n := by
  unfold toU64
  rw [orOverflow_eq_ok]
  split
  next h =>
    rw [Option.some.injEq]
    constructor
    · rintro rfl
      exact UInt64.toNat_ofNat_of_lt' h
    · rintro rfl
      exact UInt64.ofNat_toNat
  next h => exact ⟨nofun, fun heq => absurd (heq ▸ x.toNat_lt) h⟩

def checkedAdd (a b : UInt64) : Except Fault UInt64 := toU64 (a.toNat + b.toNat)

def checkedSub (a b : UInt64) : Except Fault UInt64 :=
  if b ≤ a then .ok (a - b) else .error mathOverflow

@[simp] theorem checkedAdd_eq_ok {a b c : UInt64} :
    checkedAdd a b = .ok c ↔ c.toNat = a.toNat + b.toNat := toU64_eq_ok

@[simp] theorem checkedSub_eq_ok {a b c : UInt64} :
    checkedSub a b = .ok c ↔ c.toNat + b.toNat = a.toNat := by
  unfold checkedSub
  split
  next h =>
    have hsub : (a - b).toNat = a.toNat - b.toNat := UInt64.toNat_sub_of_le _ _ h
    have hle := UInt64.le_iff_toNat_le.mp h
    simp only [Except.ok.injEq]
    constructor
    · rintro rfl
      omega
    · intro heq
      exact UInt64.toNat_inj.mp (by omega)
  next h =>
    have hlt := mt UInt64.le_iff_toNat_le.mpr h
    exact ⟨nofun, fun heq => absurd (by omega) hlt⟩

def tenPow (n : ℕ) : Except Fault UInt64 := toU64 (10 ^ n)

/-! ## Numbers with 18 digits -/

def wad : ℕ := 10 ^ 18

def halfWad : ℕ := 5 * 10 ^ 17

def percentScaler : ℕ := 10 ^ 16

theorem wad_pos : 0 < wad := by decide

abbrev Decimal := Fixed wad 192

abbrev Rate := Fixed wad 128

/-- A percentage, which `from_percent` of both types turns into a number. -/
theorem percent_lt (percent : UInt8) {bits : ℕ} (h : 64 ≤ bits) :
    percent.toNat * percentScaler < 2 ^ bits := by
  have hpercent := percent.toNat_lt
  have hscaled : percent.toNat * percentScaler < 2 ^ 64 := by
    rw [percentScaler]
    omega
  exact Nat.lt_of_lt_of_le hscaled (Nat.pow_le_pow_right (by decide) h)

theorem lt_of_u64 (x : UInt64) {bits : ℕ} (h : 64 ≤ bits) : x.toNat < 2 ^ bits :=
  Nat.lt_of_lt_of_le x.toNat_lt (Nat.pow_le_pow_right (by decide) h)

namespace Rate

def zero : Rate := ⟨0, by decide⟩

def one : Rate := ⟨wad, by decide⟩

def fromPercent (percent : UInt8) : Rate :=
  ⟨percent.toNat * percentScaler, percent_lt percent (by decide)⟩

def fromScaledVal (scaledVal : UInt64) : Rate := ⟨scaledVal.toNat, lt_of_u64 scaledVal (by decide)⟩

def tryAdd (a b : Rate) : Except Fault Rate := orOverflow (a.add? b)

def trySub (a b : Rate) : Except Fault Rate := orOverflow (a.sub? b)

def tryDivU64 (a : Rate) (n : UInt64) : Except Fault Rate := orOverflow (a.divNat? n.toNat)

def tryDiv (a b : Rate) : Except Fault Rate := orOverflow (a.div? b)

def tryMul (a b : Rate) : Except Fault Rate := orOverflow (a.mul? b)

/-- The loop of `try_pow`: what is left of the exponent, the power of the base that belongs to it
and the product so far. -/
def tryPowLoop (exp : ℕ) (base ret : Rate) : Except Fault Rate :=
  if 0 < exp then do
    let base ← base.tryMul base
    let ret ← if exp / 2 % 2 ≠ 0 then ret.tryMul base else .ok ret
    tryPowLoop (exp / 2) base ret
  else .ok ret

def tryPow (self : Rate) (exp : UInt64) : Except Fault Rate :=
  tryPowLoop exp.toNat self (if exp.toNat % 2 ≠ 0 then self else one)

end Rate

namespace Decimal

def zero : Decimal := ⟨0, by decide⟩

def one : Decimal := ⟨wad, by decide⟩

def ofU64 (x : UInt64) : Decimal :=
  ⟨wad * x.toNat, by
    have := x.toNat_lt
    rw [wad]
    omega⟩

def ofRate (r : Rate) : Decimal :=
  ⟨r.scaled, Nat.lt_of_lt_of_le r.isLt (Nat.pow_le_pow_right (by decide) (by decide))⟩

variable (d : Decimal)

def toRate : Except Fault Rate := orOverflow (Fixed.ofScaled? d.scaled)

def tryRoundU64 : Except Fault UInt64 := do
  let sum : Decimal ← orOverflow (Fixed.ofScaled? (halfWad + d.scaled))
  toU64 (sum.scaled / wad)

def tryCeilU64 : Except Fault UInt64 := do
  let sum : Decimal ← orOverflow (Fixed.ofScaled? (wad - 1 + d.scaled))
  toU64 (sum.scaled / wad)

def tryFloorU64 : Except Fault UInt64 := toU64 (d.scaled / wad)

def tryAdd (a b : Decimal) : Except Fault Decimal := orOverflow (a.add? b)

def trySub (a b : Decimal) : Except Fault Decimal := orOverflow (a.sub? b)

def tryDivU64 (a : Decimal) (n : UInt64) : Except Fault Decimal := orOverflow (a.divNat? n.toNat)

def tryDiv (a b : Decimal) : Except Fault Decimal := orOverflow (a.div? b)

def tryDivRate (a : Decimal) (r : Rate) : Except Fault Decimal := a.tryDiv (ofRate r)

def tryMulU64 (a : Decimal) (n : UInt64) : Except Fault Decimal := orOverflow (a.mulNat? n.toNat)

def tryMul (a b : Decimal) : Except Fault Decimal := orOverflow (a.mul? b)

def tryMulRate (a : Decimal) (r : Rate) : Except Fault Decimal := a.tryMul (ofRate r)

@[simp] theorem scaled_zero : zero.scaled = 0 := rfl

@[simp] theorem scaled_one : one.scaled = wad := rfl

@[simp] theorem scaled_ofU64 (x : UInt64) : (ofU64 x).scaled = wad * x.toNat := rfl

@[simp] theorem scaled_ofRate (r : Rate) : (ofRate r).scaled = r.scaled := rfl

/-! ### What the operations return -/

variable {a b c : Decimal} {n : UInt64} {r : Rate}

theorem toRate_eq_ok : a.toRate = .ok r ↔ r.scaled = a.scaled := by
  rw [toRate, orOverflow_eq_ok, Fixed.ofScaled?_eq_some]

theorem tryAdd_eq_ok : a.tryAdd b = .ok c ↔ c.scaled = a.scaled + b.scaled := by
  rw [tryAdd, orOverflow_eq_ok, Fixed.add?_eq_some]

theorem tryDivU64_eq_ok : a.tryDivU64 n = .ok c ↔ n.toNat ≠ 0 ∧ c.scaled = a.scaled / n.toNat := by
  rw [tryDivU64, orOverflow_eq_ok, Fixed.divNat?_eq_some]

theorem tryDiv_eq_ok : a.tryDiv b = .ok c ↔
    a.scaled * wad < 2 ^ 192 ∧ b.scaled ≠ 0 ∧ c.scaled = a.scaled * wad / b.scaled := by
  rw [tryDiv, orOverflow_eq_ok, Fixed.div?_eq_some]

theorem tryDivRate_eq_ok : a.tryDivRate r = .ok c ↔
    a.scaled * wad < 2 ^ 192 ∧ r.scaled ≠ 0 ∧ c.scaled = a.scaled * wad / r.scaled := tryDiv_eq_ok

theorem tryMul_eq_ok : a.tryMul b = .ok c ↔
    a.scaled * b.scaled < 2 ^ 192 ∧ c.scaled = a.scaled * b.scaled / wad := by
  rw [tryMul, orOverflow_eq_ok, Fixed.mul?_eq_some]
  simp [Nat.ne_of_gt wad_pos]

theorem tryMulRate_eq_ok : a.tryMulRate r = .ok c ↔
    a.scaled * r.scaled < 2 ^ 192 ∧ c.scaled = a.scaled * r.scaled / wad := tryMul_eq_ok

theorem tryFloorU64_eq_ok : a.tryFloorU64 = .ok n ↔ n.toNat = a.scaled / wad := toU64_eq_ok

theorem tryCeilU64_ok (h : a.tryCeilU64 = .ok n) : n.toNat = (wad - 1 + a.scaled) / wad := by
  simp only [tryCeilU64, bind_eq_ok, orOverflow_eq_ok, Fixed.ofScaled?_eq_some, toU64_eq_ok] at h
  obtain ⟨_, hsum, hn⟩ := h
  rw [hn, hsum]

end Decimal

end SolanaPrograms.Lending
