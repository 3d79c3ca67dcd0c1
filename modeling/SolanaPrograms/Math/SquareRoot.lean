import SolanaPrograms.Lib.Checked

/-!
# The integer square root

`approximations::sqrt` of the math library finds the root bit by bit, for unsigned numbers of any
width. While it looks for the last `K` bits, `result` is the part `t` of the root that was found,
shifted by `2 * K` bits, and `n` is what the square of this part leaves of the radicand.
-/

namespace SolanaPrograms.Math

open Checked Option Nat

def leadingZeros (bits n : ℕ) : ℕ := bits - n.size

def checkedShr (bits n shift : ℕ) : Option ℕ :=
  if shift < bits then some (n / 2 ^ shift) else none

def checkedShl (bits n shift : ℕ) : Option ℕ :=
  if shift < bits then some (n * 2 ^ shift % 2 ^ bits) else none

/-- One round of the loop: what is left of the radicand, and the root so far. -/
def sqrtRound (bits bit n result : ℕ) : Option (ℕ × ℕ) := do
  let resultWithBit ← add bits result bit
  if resultWithBit ≤ n then do
    let n ← sub n resultWithBit
    let half ← checkedShr bits result 1
    let result ← add bits half bit
    some (n, result)
  else do
    let result ← checkedShr bits result 1
    some (n, result)

def sqrtLoop (bits : ℕ) : ℕ → ℕ → ℕ → ℕ → Option ℕ
  | 0, _, _, _ => none
  | fuel + 1, bit, n, result =>
    if bit = 0 then some result
    else do
      let (n, result) ← sqrtRound bits bit n result
      let bit ← checkedShr bits bit 2
      sqrtLoop bits fuel bit n result

/-- `bit`, the largest power of 4 that is at most the radicand. -/
def firstBit (bits radicand : ℕ) : Option ℕ := do
  let maxShift ← sub (leadingZeros bits 0) 1
  let shift ← sub maxShift (leadingZeros bits radicand)
  -- `& !1`
  checkedShl bits 1 (shift / 2 * 2)

def sqrt (bits radicand : ℕ) : Option ℕ :=
  if radicand = 0 then some 0
  else do
    let bit ← firstBit bits radicand
    sqrtLoop bits bits bit radicand 0

variable {bits n t K : ℕ}

theorem result_with_bit_lt (hbit : 4 ^ K < 2 ^ bits) (hfound : t ^ 2 * 4 ^ (K + 1) < 2 ^ bits) :
    t * 4 ^ (K + 1) + 4 ^ K < 2 ^ bits := by
  have hpow : 4 ^ (K + 1) = 4 ^ K * 4 := pow_succ 4 K
  have hpos : 0 < 4 ^ K := pow_pos four_pos K
  rcases t with _ | _ | t
  · omega
  · -- five times a power of 2, four times which is below another power of 2
    have hfour : 2 ^ (2 * K) = 4 ^ K := pow_mul 2 2 K
    have hlt : 2 ^ (2 * K + 2) < 2 ^ bits := by
      rw [pow_add, hfour]
      omega
    have hle : 2 ^ (2 * K + 3) ≤ 2 ^ bits :=
      Nat.pow_le_pow_right two_pos ((Nat.pow_lt_pow_iff_right one_lt_two).mp hlt)
    rw [pow_add, hfour] at hle
    omega
  · rw [hpow] at hfound ⊢
    nlinarith

theorem checkedShr_of_lt {shift : ℕ} (h : shift < bits) :
    checkedShr bits n shift = some (n / 2 ^ shift) := if_pos h

/-- **Step.** The root gets another bit, and the remainder is the one for it. -/
theorem sqrtRound_ok (hbits : 1 < bits) (hbit : 4 ^ K < 2 ^ bits)
    (hradicand : t ^ 2 * 4 ^ (K + 1) + n < 2 ^ bits) (hn : n < (2 * t + 1) * 4 ^ (K + 1)) :
    ∃ n' t', sqrtRound bits (4 ^ K) n (t * 4 ^ (K + 1)) = some (n', t' * 4 ^ K) ∧
      t' ^ 2 * 4 ^ K + n' = t ^ 2 * 4 ^ (K + 1) + n ∧ n' < (2 * t' + 1) * 4 ^ K := by
  have hfits := result_with_bit_lt hbit (Nat.lt_of_le_of_lt (Nat.le_add_right ..) hradicand)
  rw [sqrtRound, add_of_lt hfits, checkedShr_of_lt hbits]
  rw [pow_succ 4 K] at hn hfits ⊢
  have hhalf : t * (4 ^ K * 4) / 2 ^ 1 = 2 * t * 4 ^ K :=
    Nat.div_eq_of_eq_mul_left two_pos (by ring)
  simp only [bind_eq_bind, bind_some, hhalf]
  split_ifs with hle
  · have hroot : 2 * t * 4 ^ K + 4 ^ K = (2 * t + 1) * 4 ^ K := by ring
    rw [sub_of_le hle, add_of_lt (by nlinarith), hroot]
    refine ⟨_, 2 * t + 1, rfl, ?_, ?_⟩
    · zify [hle]
      ring
    · rw [Nat.sub_lt_iff_lt_add hle]
      linarith
  · exact ⟨n, 2 * t, rfl, by ring, by linarith⟩

/-- **Run**, by induction on the number of bits that are left. -/
theorem sqrtLoop_ok (hbits : 2 < bits) (hradicand : t ^ 2 * 4 ^ K + n < 2 ^ bits)
    (hbit : 4 ^ K / 4 < 2 ^ bits) (hn : n < (2 * t + 1) * 4 ^ K) (m : ℕ) :
    ∃ r, sqrtLoop bits (m + K + 1) (4 ^ K / 4) n (t * 4 ^ K) = some r ∧
      r ^ 2 ≤ t ^ 2 * 4 ^ K + n ∧ t ^ 2 * 4 ^ K + n < (r + 1) ^ 2 := by
  induction K generalizing t n with
  | zero =>
    refine ⟨t, by simp [sqrtLoop], by simp, ?_⟩
    linarith [add_sq t 1]
  | succ K ih =>
    have hquarter : 4 ^ (K + 1) / 4 = 4 ^ K := Nat.mul_div_cancel _ four_pos
    rw [hquarter] at hbit ⊢
    obtain ⟨_, _, hround, hsum, hn'⟩ := sqrtRound_ok (by omega) hbit hradicand hn
    rw [sqrtLoop, if_neg (pow_pos four_pos K).ne', hround, checkedShr_of_lt hbits, ← hsum]
    exact ih (hsum ▸ hradicand) (Nat.lt_of_le_of_lt (Nat.div_le_self ..) hbit) hn'

theorem firstBit_ok (hzero : 0 < n) (hn : n < 2 ^ bits) :
    ∃ K, firstBit bits n = some (4 ^ K) ∧ 2 * K < bits ∧ 4 ^ K ≤ n ∧ n < 4 ^ (K + 1) := by
  have hsize : n.size ≤ bits := size_le.mpr hn
  obtain ⟨L, hL⟩ : ∃ L, n.size = L + 1 := exists_eq_succ_of_ne_zero (size_pos.mpr hzero).ne'
  have hpow (k : ℕ) : 2 ^ (k * 2) = 4 ^ k := by rw [mul_comm, pow_mul]; rfl
  have hlow : 4 ^ (L / 2) ≤ n := hpow (L / 2) ▸ lt_size.mp (by omega)
  have hhigh : n < 4 ^ (L / 2 + 1) := hpow (L / 2 + 1) ▸ size_le.mp (by omega)
  refine ⟨L / 2, ?_, by omega, hlow, hhigh⟩
  have hshift : bits - 0 - 1 - (bits - (L + 1)) = L := by omega
  simp only [firstBit, leadingZeros, size_zero, hL, checkedShl, bind_eq_bind]
  rw [sub_of_le (by omega), bind_some, sub_of_le (by omega), bind_some, hshift,
    if_pos (by omega), hpow, one_mul, Nat.mod_eq_of_lt (by omega)]

/-- The result is the integer square root, and no step of the computation fails. -/
theorem sqrt_exact (hbits : 2 < bits) (hn : n < 2 ^ bits) :
    ∃ r, sqrt bits n = some r ∧ r ^ 2 ≤ n ∧ n < (r + 1) ^ 2 := by
  unfold sqrt
  split_ifs with hzero
  · exact ⟨0, rfl, by simp [hzero]⟩
  obtain ⟨K, hfirst, hK, hlow, hhigh⟩ := firstBit_ok (pos_of_ne_zero hzero) hn
  have hquarter : 4 ^ (K + 1) / 4 = 4 ^ K := Nat.mul_div_cancel _ four_pos
  have hloop := sqrtLoop_ok (t := 0) (K := K + 1) hbits (by simpa using hn)
    (by omega) (by simpa using hhigh) (bits - (K + 2))
  rw [show bits - (K + 2) + (K + 1) + 1 = bits by omega, hquarter] at hloop
  rw [hfirst]
  simpa using hloop

theorem sqrt_exact_ten : ∃ r, sqrt 64 10 = some r ∧ r ^ 2 ≤ 10 ∧ 10 < (r + 1) ^ 2 :=
  sqrt_exact (by decide) (by decide)

end SolanaPrograms.Math
