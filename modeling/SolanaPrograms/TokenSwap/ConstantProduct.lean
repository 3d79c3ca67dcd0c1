import SolanaPrograms.Math.CheckedCeilDiv

/-!
# Swaps on the constant product and the offset curve

A swap keeps the product of the two reserves from falling. The destination reserve is the product
divided by the new source reserve, rounded up, and the source amount is then the least one that
gives this destination reserve. The offset curve adds its offset to the side of token B.
-/

namespace SolanaPrograms.TokenSwap

open Checked Option

inductive TradeDirection
  | aToB
  | bToA
deriving DecidableEq, Repr

structure SwapWithoutFeesResult where
  sourceAmountSwapped : ℕ
  destinationAmountSwapped : ℕ
deriving DecidableEq, Repr

def mapZeroToNone (x : ℕ) : Option ℕ := if x = 0 then none else some x

/-- `constant_product::swap`, on 128-bit integers. -/
def swap (sourceAmount swapSourceAmount swapDestinationAmount : ℕ) :
    Option SwapWithoutFeesResult := do
  let invariant ← mul 128 swapSourceAmount swapDestinationAmount
  let newSwapSourceAmount ← add 128 swapSourceAmount sourceAmount
  let (newSwapDestinationAmount, newSwapSourceAmount) ←
    Math.checkedCeilDiv 128 invariant newSwapSourceAmount
  let sourceAmountSwapped ← sub newSwapSourceAmount swapSourceAmount
  let destinationAmountSwapped ←
    mapZeroToNone (← sub swapDestinationAmount newSwapDestinationAmount)
  some { sourceAmountSwapped, destinationAmountSwapped }

structure OffsetCurve where
  tokenBOffset : ℕ

def OffsetCurve.swapWithoutFees (curve : OffsetCurve)
    (sourceAmount swapSourceAmount swapDestinationAmount : ℕ) (tradeDirection : TradeDirection) :
    Option SwapWithoutFeesResult := do
  let swapSourceAmount ← match tradeDirection with
    | .aToB => some swapSourceAmount
    | .bToA => add 128 swapSourceAmount curve.tokenBOffset
  let swapDestinationAmount ← match tradeDirection with
    | .aToB => add 128 swapDestinationAmount curve.tokenBOffset
    | .bToA => some swapDestinationAmount
  swap sourceAmount swapSourceAmount swapDestinationAmount

/-! ## What a swap is worth -/

/-- The result of a swap of at most `x` on the reserves `s` and `d`: the trader gets as much as the
product of the reserves allows, and pays no more than that takes. -/
structure Fair (x s d : ℕ) (r : SwapWithoutFeesResult) : Prop where
  pos : 0 < r.destinationAmountSwapped
  lt : r.destinationAmountSwapped < d
  charged : r.sourceAmountSwapped ≤ x
  kept : s * d ≤ (s + r.sourceAmountSwapped) * (d - r.destinationAmountSwapped)
  largest : IsGreatest {y | y ≤ d ∧ s * d ≤ (s + x) * (d - y)} r.destinationAmountSwapped
  least : IsLeast {x' | s * d ≤ (s + x') * (d - r.destinationAmountSwapped)} r.sourceAmountSwapped

variable {x s d : ℕ} {r : SwapWithoutFeesResult}

/-- What a swap computes: the quotient rounded up, and the least divisor for it. -/
theorem swap_eq_some (h : swap x s d = some r) :
    0 < s + x ∧ 0 < s * d ∧ ∃ q, q = (s * d) ⌈/⌉ (s + x) ∧ q < d ∧
      s ≤ (s * d) ⌈/⌉ q ∧ r = ⟨(s * d) ⌈/⌉ q - s, d - q⟩ := by
  simp only [swap, mapZeroToNone, bind_eq_bind, bind_eq_some_iff, mul_eq_some,
    add_eq_some, sub_eq_some, Prod.exists] at h
  obtain ⟨_, ⟨-, rfl⟩, _, ⟨-, rfl⟩, q, divisor, hdiv, _, ⟨hs, rfl⟩, _, ⟨hq, rfl⟩, _, hy, h⟩ := h
  obtain ⟨hpos, hle, hquotient, hdivisor⟩ := Math.checkedCeilDiv_eq_some hdiv
  rw [ite_none_left_eq_some] at hy
  obtain ⟨hne, hy⟩ := hy
  cases hy
  subst hdivisor
  exact ⟨hpos, by omega, q, hquotient, by omega, hs, (some.inj h).symm⟩

/-- A swap on the constant product curve. -/
theorem swap_fair (h : swap x s d = some r) : Fair x s d r := by
  obtain ⟨hpos, hproduct, q, hquotient, hq, hs, rfl⟩ := swap_eq_some h
  -- both divisions are rounded up, so that each is a least solution
  have hleast : ∀ c, q ≤ c ↔ s * d ≤ (s + x) * c := by
    intro c
    rw [hquotient]
    exact ceilDiv_le_iff_le_mul hpos
  have hzero : 0 < q := by
    by_contra hzero
    have := (hleast 0).mp (by omega)
    omega
  have hleast' : ∀ c, (s * d) ⌈/⌉ q ≤ c ↔ s * d ≤ c * q := by
    intro c
    rw [Nat.mul_comm c]
    exact ceilDiv_le_iff_le_mul hzero
  have hrest : d - (d - q) = q := by omega
  have hnew : s + ((s * d) ⌈/⌉ q - s) = (s * d) ⌈/⌉ q := by omega
  have hcharged : (s * d) ⌈/⌉ q ≤ s + x := by
    rw [hleast']
    exact (hleast q).mp le_rfl
  refine ⟨by dsimp only; omega, by dsimp only; omega, by dsimp only; omega, ?_, ⟨⟨?_, ?_⟩, ?_⟩,
    ?_, ?_⟩
  · rw [hrest, hnew]
    exact (hleast' _).mp le_rfl
  · exact Nat.sub_le _ _
  · rw [hrest]
    exact (hleast q).mp le_rfl
  · rintro y ⟨hy, hinvariant⟩
    have := (hleast _).mpr hinvariant
    dsimp only
    omega
  · change s * d ≤ _
    rw [hrest, hnew]
    exact (hleast' _).mp le_rfl
  · intro x' hx'
    change s * d ≤ _ at hx'
    rw [hrest] at hx'
    have := (hleast' _).mpr hx'
    dsimp only
    omega

/-- **Swaps are exact and fair**, on the constant product curve and on the offset curve. -/
theorem swaps_fair (x s d : ℕ) :
    (∀ r, swap x s d = some r → Fair x s d r) ∧
    ∀ (curve : OffsetCurve) r,
      (curve.swapWithoutFees x s d .aToB = some r → Fair x s (d + curve.tokenBOffset) r) ∧
      (curve.swapWithoutFees x s d .bToA = some r → Fair x (s + curve.tokenBOffset) d r) := by
  refine ⟨fun r h => swap_fair h, fun curve r => ⟨fun h => ?_, fun h => ?_⟩⟩
  · simp only [OffsetCurve.swapWithoutFees, bind_eq_bind, bind_some,
      bind_eq_some_iff, add_eq_some] at h
    obtain ⟨_, ⟨-, rfl⟩, h⟩ := h
    exact swap_fair h
  · simp only [OffsetCurve.swapWithoutFees, bind_eq_bind, bind_some,
      bind_eq_some_iff, add_eq_some] at h
    obtain ⟨_, ⟨-, rfl⟩, h⟩ := h
    exact swap_fair h

/-- A hundred tokens into reserves of a thousand and five thousand, with and without an offset. -/
theorem swaps_fair_hundred :
    Fair 100 1000 5000 ⟨100, 454⟩ ∧ Fair 100 1000 (5000 + 500) ⟨100, 500⟩ ∧
      Fair 100 (1000 + 500) 5000 ⟨100, 312⟩ :=
  ⟨(swaps_fair 100 1000 5000).1 _ (by decide +kernel),
    ((swaps_fair 100 1000 5000).2 ⟨500⟩ _).1 (by decide +kernel),
    ((swaps_fair 100 1000 5000).2 ⟨500⟩ _).2 (by decide +kernel)⟩

end SolanaPrograms.TokenSwap
