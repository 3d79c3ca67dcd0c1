import SolanaPrograms.StakePools.Effects
import SolanaPrograms.StakePools.Pricing

/-!
# The value of a pool token

The value of a pool token is the quotient of the lamports and the supply on the books of the pool.
A deposit never lowers it. A withdrawal pays the exact value rounded up, so that it can lower the
value; all other tokens together lose less than one lamport by it.
-/

namespace SolanaPrograms.StakePools

open Function Outcome Checked StakePool

/-! ## The books before and after -/

section Books

variable {p p' : StakePool}

theorem StakePool.deposited_value {tokens lamports : ℕ} (hT : 0 < p.totalLamports)
    (hS : 0 < p.poolTokenSupply) (htokens : p.calcPoolTokensForDeposit lamports = some tokens)
    (h : p.deposited tokens lamports = .ok p') :
    p.totalLamports * p'.poolTokenSupply ≤ p'.totalLamports * p.poolTokenSupply := by
  have hle := calcPoolTokensForDeposit_mul_le hT hS htokens
  rw [deposited_ok h]
  calc p.totalLamports * (p.poolTokenSupply + tokens)
      = p.totalLamports * p.poolTokenSupply + tokens * p.totalLamports := by ring
    _ ≤ p.totalLamports * p.poolTokenSupply + lamports * p.poolTokenSupply :=
        Nat.add_le_add_left hle _
    _ = (p.totalLamports + lamports) * p.poolTokenSupply := by ring

theorem StakePool.payout_eq {poolTokens fee burnt lamports : ℕ} (hS : 0 < p.poolTokenSupply)
    (h : p.payout poolTokens fee = .ok (burnt, lamports)) :
    lamports = burnt * p.totalLamports ⌈/⌉ p.poolTokenSupply := by
  obtain ⟨-, hamount, hpos⟩ := payout_ok h
  rcases calcLamportsWithdrawAmount_eq hS hamount with ⟨-, hzero⟩ | ⟨-, heq⟩
  · exact absurd hzero hpos
  · exact heq

/-- The tokens that stay lose less than one lamport. -/
theorem StakePool.withdrawn_value {poolTokens fee burnt lamports : ℕ} (hS : 0 < p.poolTokenSupply)
    (hpayout : p.payout poolTokens fee = .ok (burnt, lamports))
    (h : p.withdrawn burnt lamports = .ok p') :
    p.totalLamports * p'.poolTokenSupply <
      p'.totalLamports * p.poolTokenSupply + p.poolTokenSupply := by
  have hlt := calcLamportsWithdrawAmount_mul_lt hS (payout_ok hpayout).2.1
  obtain ⟨hburnt, hlamports, rfl⟩ := withdrawn_ok h
  obtain ⟨_, hsupply⟩ := Nat.exists_eq_add_of_le hburnt
  obtain ⟨_, htotal⟩ := Nat.exists_eq_add_of_le hlamports
  dsimp only
  rw [hsupply, htotal] at hlt ⊢
  rw [Nat.add_sub_cancel_left, Nat.add_sub_cancel_left]
  nlinarith

end Books

section Value

variable {env : Environment} {w w' : World} {A : Address} {i : StakePoolInstruction}
  {accounts : List AccountMeta} {p : StakePool}

/-- A deposit does not lower the value of a pool token. A withdrawal pays the value of the tokens it
burns, rounded up to a whole lamport, and lowers the value of the other tokens by less than a
lamport in total. -/
theorem value_per_token (h : process env i accounts w = .ok w') (hA : namedPool accounts = some A)
    (hp : w.data A = .stakePool p) (hT : 0 < p.totalLamports) (hS : 0 < p.poolTokenSupply) :
    (i.isDeposit = true → ∃ p', w'.data A = .stakePool p' ∧
      p.totalLamports * p'.poolTokenSupply ≤ p'.totalLamports * p.poolTokenSupply) ∧
    (i.isWithdrawal = true → ∃ p' burnt lamports, w'.data A = .stakePool p' ∧
      p'.poolTokenSupply + burnt = p.poolTokenSupply ∧
      p'.totalLamports + lamports = p.totalLamports ∧
      lamports = burnt * p.totalLamports ⌈/⌉ p.poolTokenSupply ∧
      p.totalLamports * p'.poolTokenSupply <
        p'.totalLamports * p.poolTokenSupply + p.poolTokenSupply) := by
  obtain ⟨B, hB, heffect⟩ := process_effect h
  obtain rfl : A = B := Option.some.inj (hA.symm.trans hB)
  constructor
  · intro hi
    cases heffect with
    | books hkeeps => cases i <;> cases hi <;> cases hkeeps
    | withdraw hother => cases i <;> cases hi <;> cases hother
    | deposit _ hp' htokens hdeposited hwrote =>
      obtain rfl : p = _ := by simpa [hp] using hp'
      exact ⟨_, hwrote.pool, deposited_value hT hS htokens hdeposited⟩
    | _ => cases hi
  · intro hi
    cases heffect with
    | books hkeeps => cases i <;> cases hi <;> cases hkeeps
    | deposit hother => cases i <;> cases hi <;> cases hother
    | @withdraw _ _ p' _ _ burnt lamports _ hp' hpayout hwithdrawn hwrote =>
      obtain rfl : p = _ := by simpa [hp] using hp'
      obtain ⟨hburnt, hlamports, heq⟩ := withdrawn_ok hwithdrawn
      refine ⟨p', burnt, lamports, hwrote.pool, ?_, ?_, payout_eq hS hpayout,
        withdrawn_value hS hpayout hwithdrawn⟩
      · rw [heq]
        exact Nat.sub_add_cancel hburnt
      · rw [heq]
        exact Nat.sub_add_cancel hlamports
    | _ => cases hi

end Value

def Run.threeToTwo : Machine :=
  Run.after (Run.found 0 ⟨0, 0⟩ ++ [Run.depositSol 2, Run.give 1, Run.updatePool])

theorem Run.threeToTwo_books : Run.books (Run.threeToTwo.world.data Run.pool) = some (3, 2) ∧
    Run.booksAfter (process Run.environment (.withdrawSol 1) Run.withdrawSolAccounts
      Run.threeToTwo.world) Run.pool = some (1, 1) := by decide +kernel

/-- Three lamports on two tokens: the holder of one token is paid two lamports, and the other token
is worth one. -/
theorem withdrawal_lowers_value :
    ¬ ∀ (env : Environment) (w w' : World) (A : Address) (i : StakePoolInstruction)
      (accounts : List AccountMeta) (p p' : StakePool),
      process env i accounts w = .ok w' → namedPool accounts = some A →
      w.data A = .stakePool p → w'.data A = .stakePool p' →
      0 < p.totalLamports → 0 < p.poolTokenSupply →
      i.isDeposit = true ∨ i.isWithdrawal = true →
      p.totalLamports * p'.poolTokenSupply ≤ p'.totalLamports * p.poolTokenSupply := by
  intro hvalue
  obtain ⟨hbefore, hafter⟩ := Run.threeToTwo_books
  generalize Run.threeToTwo.world = w at hbefore hafter
  obtain ⟨_, hp, hT, hS⟩ := Run.books_eq_some hbefore
  obtain ⟨_, _, hw', hp', hT', hS'⟩ := Run.booksAfter_eq_some hafter
  have hle := hvalue _ _ _ _ _ _ _ _ hw' rfl hp hp' (by omega) (by omega) (.inr rfl)
  rw [hT, hS, hT', hS'] at hle
  exact absurd hle (by decide)

/-- The same withdrawal: two lamports are paid for one token, which costs the other token half a
lamport. -/
theorem value_per_token_three_to_two :
    ∃ (w w' : World) (p : StakePool), w.data Run.pool = .stakePool p ∧ p.totalLamports = 3 ∧
      p.poolTokenSupply = 2 ∧
      process Run.environment (.withdrawSol 1) Run.withdrawSolAccounts w = .ok w' ∧
      ∃ p' burnt lamports, w'.data Run.pool = .stakePool p' ∧ p'.poolTokenSupply + burnt = 2 ∧
        p'.totalLamports + lamports = 3 ∧ lamports = burnt * 3 ⌈/⌉ 2 ∧
        3 * p'.poolTokenSupply < p'.totalLamports * 2 + 2 := by
  obtain ⟨hbefore, hafter⟩ := Run.threeToTwo_books
  generalize Run.threeToTwo.world = w at hbefore hafter
  obtain ⟨p, hp, hT, hS⟩ := Run.books_eq_some hbefore
  obtain ⟨w', _, hw', -⟩ := Run.booksAfter_eq_some hafter
  have hvalue := (value_per_token hw' rfl hp (by omega) (by omega)).2 rfl
  rw [hT, hS] at hvalue
  exact ⟨w, w', p, hp, hT, hS, hw', hvalue⟩

end SolanaPrograms.StakePools
