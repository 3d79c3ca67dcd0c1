import Mathlib

/-!
# Fixed-point numbers of a given width

A number is a whole multiple of `1 / one` and is kept in an unsigned integer of `bits` bits.
Operations whose result, or whose product before the division by the scale, leaves the width return
`none`; quotients are rounded down.
-/

namespace SolanaPrograms

open Option Nat

structure Fixed (one bits : ℕ) where
  scaled : ℕ
  isLt : scaled < 2 ^ bits
deriving DecidableEq

namespace Fixed

variable {one bits n : ℕ} {a b c : Fixed one bits}

@[ext] theorem ext (h : a.scaled = b.scaled) : a = b := by
  cases a
  cases b
  cases h
  rfl

theorem scaled_injective : Function.Injective (scaled : Fixed one bits → ℕ) := fun _ _ => ext

instance : LinearOrder (Fixed one bits) := LinearOrder.lift' scaled scaled_injective

theorem le_iff : a ≤ b ↔ a.scaled ≤ b.scaled := .rfl

theorem lt_iff : a < b ↔ a.scaled < b.scaled := .rfl

theorem eq_iff : a = b ↔ a.scaled = b.scaled := scaled_injective.eq_iff.symm

/-! ## Operations -/

/-- The number with the given multiple, if it has the width. -/
def ofScaled? (n : ℕ) : Option (Fixed one bits) := if h : n < 2 ^ bits then some ⟨n, h⟩ else none

/-- A fraction of a number, rounded down. -/
def divBy (a : Fixed one bits) (n : ℕ) : Fixed one bits :=
  ⟨a.scaled / n, lt_of_le_of_lt (div_le_self _ _) a.isLt⟩

def add? (a b : Fixed one bits) : Option (Fixed one bits) := ofScaled? (a.scaled + b.scaled)

def sub? (a b : Fixed one bits) : Option (Fixed one bits) :=
  if b.scaled ≤ a.scaled then ofScaled? (a.scaled - b.scaled) else none

def mulNat? (a : Fixed one bits) (n : ℕ) : Option (Fixed one bits) := ofScaled? (a.scaled * n)

def divNat? (a : Fixed one bits) (n : ℕ) : Option (Fixed one bits) :=
  if n = 0 then none else some (a.divBy n)

/-- The product is taken at the full scale first. -/
def mul? (a b : Fixed one bits) : Option (Fixed one bits) := do
  let product ← a.mulNat? b.scaled
  product.divNat? one

def div? (a b : Fixed one bits) : Option (Fixed one bits) := do
  let dividend ← a.mulNat? one
  dividend.divNat? b.scaled

@[simp] theorem scaled_divBy : (a.divBy n).scaled = a.scaled / n := rfl

theorem ofScaled?_eq_some : ofScaled? n = some a ↔ a.scaled = n := by
  unfold ofScaled?
  split_ifs with h
  · rw [some.injEq, eq_iff]
    exact eq_comm
  · refine ⟨nofun, fun heq => absurd (heq ▸ a.isLt) h⟩

theorem add?_eq_some : a.add? b = some c ↔ c.scaled = a.scaled + b.scaled := ofScaled?_eq_some

theorem sub?_eq_some : a.sub? b = some c ↔ c.scaled + b.scaled = a.scaled := by
  unfold sub?
  split_ifs with h
  · rw [ofScaled?_eq_some]
    omega
  · simp only [false_iff]
    omega

theorem mulNat?_eq_some : a.mulNat? n = some c ↔ c.scaled = a.scaled * n := ofScaled?_eq_some

theorem divNat?_eq_some : a.divNat? n = some c ↔ n ≠ 0 ∧ c.scaled = a.scaled / n := by
  unfold divNat?
  split_ifs with h
  · simp [h]
  · rw [some.injEq, eq_iff, scaled_divBy]
    exact ⟨fun heq => ⟨h, heq.symm⟩, fun heq => heq.2.symm⟩

theorem mul?_eq_some : a.mul? b = some c ↔
    a.scaled * b.scaled < 2 ^ bits ∧ one ≠ 0 ∧ c.scaled = a.scaled * b.scaled / one := by
  simp only [mul?, bind_eq_bind, bind_eq_some_iff, mulNat?_eq_some, divNat?_eq_some]
  constructor
  · rintro ⟨product, hproduct, hone, hc⟩
    exact ⟨hproduct ▸ product.isLt, hone, hproduct ▸ hc⟩
  · rintro ⟨hlt, hone, hc⟩
    exact ⟨⟨_, hlt⟩, rfl, hone, hc⟩

theorem div?_eq_some : a.div? b = some c ↔
    a.scaled * one < 2 ^ bits ∧ b.scaled ≠ 0 ∧ c.scaled = a.scaled * one / b.scaled := by
  simp only [div?, bind_eq_bind, bind_eq_some_iff, mulNat?_eq_some, divNat?_eq_some]
  constructor
  · rintro ⟨dividend, hdividend, hb, hc⟩
    exact ⟨hdividend ▸ dividend.isLt, hb, hdividend ▸ hc⟩
  · rintro ⟨hlt, hb, hc⟩
    exact ⟨⟨_, hlt⟩, rfl, hb, hc⟩

/-! ## How the roundings compose -/

theorem mul_div_le_of_le {x y d : ℕ} (h : y ≤ d) : x * y / d ≤ x := by
  rcases Nat.eq_zero_or_pos d with rfl | hd
  · simp
  · exact Nat.div_le_of_le_mul (by rw [Nat.mul_comm d x]; exact Nat.mul_le_mul_left x h)

end Fixed

end SolanaPrograms
