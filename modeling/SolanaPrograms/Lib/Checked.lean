import Mathlib

/-!
# Checked arithmetic on machine integers

The unsigned integers of a program are natural numbers here, and each operation that can leave the
range of its width says so: it returns `none` where the program's operation does.
-/

namespace SolanaPrograms.Checked

open Nat

variable {bits a b c : ℕ}

/-- `checked_add` on unsigned integers of the given width. -/
def add (bits a b : ℕ) : Option ℕ := if a + b < 2 ^ bits then some (a + b) else none

/-- `checked_sub` on unsigned integers. -/
def sub (a b : ℕ) : Option ℕ := if b ≤ a then some (a - b) else none

/-- `checked_mul` on unsigned integers of the given width. -/
def mul (bits a b : ℕ) : Option ℕ := if a * b < 2 ^ bits then some (a * b) else none

/-- `checked_div` on unsigned integers. -/
def div (a b : ℕ) : Option ℕ := if b = 0 then none else some (a / b)

/-- `checked_rem` on unsigned integers. -/
def rem (a b : ℕ) : Option ℕ := if b = 0 then none else some (a % b)

/-- `try_from` to unsigned integers of the given width. -/
def tryFrom (bits a : ℕ) : Option ℕ := if a < 2 ^ bits then some a else none

/-- `saturating_add` on unsigned integers of the given width. -/
def saturatingAdd (bits a b : ℕ) : ℕ := min (a + b) (2 ^ bits - 1)

@[simp] theorem add_eq_some : add bits a b = some c ↔ a + b < 2 ^ bits ∧ a + b = c := by
  unfold add
  split_ifs with h <;> simp [h]

@[simp] theorem sub_eq_some : sub a b = some c ↔ b ≤ a ∧ a - b = c := by
  unfold sub
  split_ifs with h <;> simp [h]

@[simp] theorem mul_eq_some : mul bits a b = some c ↔ a * b < 2 ^ bits ∧ a * b = c := by
  unfold mul
  split_ifs with h <;> simp [h]

@[simp] theorem div_eq_some : div a b = some c ↔ b ≠ 0 ∧ a / b = c := by
  unfold div
  split_ifs with h <;> simp [h]

@[simp] theorem rem_eq_some : rem a b = some c ↔ b ≠ 0 ∧ a % b = c := by
  unfold rem
  split_ifs with h <;> simp [h]

@[simp] theorem tryFrom_eq_some : tryFrom bits a = some c ↔ a < 2 ^ bits ∧ a = c := by
  unfold tryFrom
  split_ifs with h <;> simp [h]

theorem mul_of_lt (h : a * b < 2 ^ bits) : mul bits a b = some (a * b) := if_pos h

theorem add_of_lt (h : a + b < 2 ^ bits) : add bits a b = some (a + b) := if_pos h

theorem sub_of_le (h : b ≤ a) : sub a b = some (a - b) := if_pos h

theorem div_of_pos (h : 0 < b) : div a b = some (a / b) := if_neg (ne_of_gt h)

theorem mul_lt_two_pow {m n : ℕ} (ha : a < 2 ^ m) (hb : b < 2 ^ n) (hmn : m + n ≤ bits) :
    a * b < 2 ^ bits := by
  calc a * b < 2 ^ m * 2 ^ n := mul_lt_mul'' ha hb
    _ = 2 ^ (m + n) := (pow_add 2 m n).symm
    _ ≤ 2 ^ bits := Nat.pow_le_pow_right (by decide) hmn

end SolanaPrograms.Checked
