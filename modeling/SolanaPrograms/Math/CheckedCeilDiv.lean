import SolanaPrograms.Lib.Checked

/-!
# Checked division rounded up

`checked_ceil_div` of the math library returns the quotient rounded up together with the least
divisor that gives it. It fails where the quotient would be rounded up from zero. The source has it
for 128 and for 256 bits; the width only bounds the result.
-/

namespace SolanaPrograms.Math

open Checked Option Nat

def leastDivisor (bits dividend quotient : ℕ) : Option ℕ := do
  let rhs ← div dividend quotient
  let remainder ← rem dividend quotient
  if 0 < remainder then add bits rhs 1 else some rhs

def checkedCeilDiv (bits dividend rhs : ℕ) : Option (ℕ × ℕ) := do
  let quotient ← div dividend rhs
  if quotient = 0 then none
  else do
    let remainder ← rem dividend rhs
    if 0 < remainder then do
      let quotient ← add bits quotient 1
      let rhs ← leastDivisor bits dividend quotient
      some (quotient, rhs)
    else some (quotient, rhs)

variable {bits dividend rhs quotient divisor : ℕ}

theorem ceilDiv_of_mod_pos (hrhs : 0 < rhs) (h : 0 < dividend % rhs) :
    dividend ⌈/⌉ rhs = dividend / rhs + 1 := by
  have hdiv := div_add_mod dividend rhs
  have hmod := mod_lt dividend hrhs
  have hsum : dividend + rhs - 1 = dividend % rhs - 1 + rhs * (dividend / rhs + 1) := by
    rw [mul_add]
    omega
  rw [ceilDiv_eq_add_pred_div, hsum, add_mul_div_left _ _ hrhs,
    div_eq_of_lt (by omega), zero_add]

theorem ceilDiv_of_mod_eq_zero (hrhs : 0 < rhs) (h : dividend % rhs = 0) :
    dividend ⌈/⌉ rhs = dividend / rhs := by
  have hdiv := div_add_mod dividend rhs
  have hsum : dividend + rhs - 1 = rhs - 1 + rhs * (dividend / rhs) := by omega
  rw [ceilDiv_eq_add_pred_div, hsum, add_mul_div_left _ _ hrhs,
    div_eq_of_lt (by omega), zero_add]

theorem leastDivisor_eq_some (h : leastDivisor bits dividend quotient = some divisor) :
    0 < quotient ∧ divisor = dividend ⌈/⌉ quotient := by
  simp only [leastDivisor, bind_eq_bind, bind_eq_some_iff, div_eq_some,
    rem_eq_some] at h
  obtain ⟨_, ⟨hquotient, rfl⟩, _, ⟨-, rfl⟩, h⟩ := h
  have hpos : 0 < quotient := pos_of_ne_zero hquotient
  refine ⟨hpos, ?_⟩
  split_ifs at h with hrem
  · rw [ceilDiv_of_mod_pos hpos hrem]
    exact (add_eq_some.mp h).2.symm
  · rw [ceilDiv_of_mod_eq_zero hpos (by omega)]
    exact (some.inj h).symm

/-- The quotient is the exact one rounded up, it is not rounded up from zero, and the divisor is the
least one for it. -/
theorem checkedCeilDiv_eq_some (h : checkedCeilDiv bits dividend rhs = some (quotient, divisor)) :
    0 < rhs ∧ rhs ≤ dividend ∧ quotient = dividend ⌈/⌉ rhs ∧
      divisor = dividend ⌈/⌉ quotient := by
  simp only [checkedCeilDiv, bind_eq_bind, bind_eq_some_iff, div_eq_some] at h
  obtain ⟨_, ⟨hrhs, rfl⟩, h⟩ := h
  have hpos : 0 < rhs := pos_of_ne_zero hrhs
  split_ifs at h with hzero
  have hle : rhs ≤ dividend := by
    by_contra hlt
    exact hzero (Nat.div_eq_of_lt (Nat.lt_of_not_le hlt))
  refine ⟨hpos, hle, ?_⟩
  simp only [bind_eq_some_iff, rem_eq_some] at h
  obtain ⟨_, ⟨-, rfl⟩, h⟩ := h
  split_ifs at h with hrem
  · simp only [bind_eq_some_iff, add_eq_some, some.injEq, Prod.mk.injEq] at h
    obtain ⟨_, ⟨-, rfl⟩, _, hleast, rfl, rfl⟩ := h
    exact ⟨(ceilDiv_of_mod_pos hpos hrem).symm, (leastDivisor_eq_some hleast).2⟩
  · simp only [some.injEq, Prod.mk.injEq] at h
    obtain ⟨rfl, rfl⟩ := h
    -- nothing was rounded, so the divisor is the given one
    have hexact : dividend = dividend / rhs * rhs :=
      (Nat.div_mul_cancel (Nat.dvd_of_mod_eq_zero (by omega))).symm
    refine ⟨(ceilDiv_of_mod_eq_zero hpos (by omega)).symm, ?_⟩
    have hcancel := smul_ceilDiv (pos_of_ne_zero hzero) rhs
    rw [smul_eq_mul, ← hexact] at hcancel
    exact hcancel.symm

end SolanaPrograms.Math
