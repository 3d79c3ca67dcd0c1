import SolanaPrograms.StakePools.Effects

/-!
# Withdrawal fees

A pool has one withdrawal fee for stake and one for lamports. A new fee waits until the first update
of a later epoch, and it is compared with the fee in force when it is announced.

The comparison multiplies three numbers. If the product that belongs to the new fee does not fit
into 128 bits, it is taken for less than everything, and any increase passes. The bound on the
increase holds for runs in which this product fits.
-/

namespace SolanaPrograms.StakePools

open Outcome Checked World Option StakePool Function Nat

/-! ## Rates -/

/-- A fee as a number; a fee with denominator zero is zero. -/
def Fee.rate (fee : Fee) : ℚ := fee.numerator / fee.denominator

namespace Fee

variable {new old : Fee}

def Comparable (new old : Fee) : Prop := new.numerator * old.baseline.denominator * 2 < 2 ^ 128

instance : Decidable (Comparable new old) := inferInstanceAs (Decidable (_ < _))

theorem optionLt_eq_false {a : Option ℕ} {b : ℕ} (h : ¬ optionLt a (some b) = true) :
    ∃ c, a = some c ∧ b ≤ c := by
  cases a with
  | none => exact absurd rfl h
  | some c => exact ⟨c, rfl, by simpa [optionLt] using h⟩

/-- What the check establishes if nothing overflows. -/
theorem checkWithdrawal_ok (h : new.checkWithdrawal old = .ok ()) (hfits : new.Comparable old) :
    new.numerator * old.baseline.denominator * 2 ≤
      old.baseline.numerator * new.denominator * 3 := by
  simp only [checkWithdrawal, checks, map_eq_some_iff, maxWithdrawalFeeIncrease] at h
  obtain ⟨_, ⟨_, hx, rfl⟩, _, ⟨_, hy, rfl⟩, hle⟩ := h
  obtain ⟨-, rfl⟩ := mul_eq_some.mp hx
  obtain ⟨-, rfl⟩ := mul_eq_some.mp hy
  rw [mul_of_lt hfits] at hle
  obtain ⟨_, hc, hle⟩ := optionLt_eq_false hle
  obtain ⟨-, rfl⟩ := mul_eq_some.mp hc
  exact hle

theorem baseline_denominator_pos (old : Fee) : 0 < old.baseline.denominator := by
  unfold baseline
  split_ifs with h
  · exact succ_pos _
  · exact pos_of_ne_zero fun h0 => h (.inl h0)

/-- A fee that counts as zero is measured as one in a thousand. -/
theorem baseline_rate (old : Fee) :
    old.baseline.rate = if old.rate = 0 then 1 / 1000 else old.rate := by
  have hzero : old.rate = 0 ↔ old.denominator = 0 ∨ old.numerator = 0 := by
    simp [rate, div_eq_zero_iff, or_comm]
  unfold baseline
  simp only [hzero]
  split_ifs
  · simp [rate, withdrawalBaselineFee]
  · rfl

theorem rate_le_one (h : new.numerator ≤ new.denominator) : new.rate ≤ 1 :=
  div_le_one_of_le₀ (by exact_mod_cast h) (cast_nonneg _)

theorem rate_le_of_checkWithdrawal (h : new.checkWithdrawal old = .ok ())
    (hfits : new.Comparable old) :
    new.rate ≤ 3 / 2 * if old.rate = 0 then 1 / 1000 else old.rate := by
  have hmul : (new.numerator : ℚ) * old.baseline.denominator * 2 ≤
      old.baseline.numerator * new.denominator * 3 := by
    exact_mod_cast checkWithdrawal_ok h hfits
  have hold : (0 : ℚ) < old.baseline.denominator := by exact_mod_cast baseline_denominator_pos old
  rw [← baseline_rate]
  rcases Nat.eq_zero_or_pos new.denominator with h0 | hnew
  · have : 0 ≤ old.baseline.rate := div_nonneg (cast_nonneg _) (cast_nonneg _)
    simp only [rate, h0, cast_zero, div_zero]
    exact mul_nonneg (by norm_num) this
  · have hnew : (0 : ℚ) < new.denominator := by exact_mod_cast hnew
    unfold rate
    rw [← mul_div_assoc, div_le_div_iff₀ hnew hold]
    linarith

end Fee

/-! ## What an event does to the fees -/

inductive WithdrawalKind
  | stake
  | sol
deriving DecidableEq

def StakePool.withdrawalFee (p : StakePool) : WithdrawalKind → Fee
  | .stake => p.stakeWithdrawalFee
  | .sol => p.solWithdrawalFee

def StakePool.nextWithdrawalFee (p : StakePool) : WithdrawalKind → Option Fee
  | .stake => p.nextStakeWithdrawalFee
  | .sol => p.nextSolWithdrawalFee

def WithdrawalKind.feeType : WithdrawalKind → Fee → FeeType
  | stake => .stakeWithdrawal
  | sol => .solWithdrawal

structure StakePool.SameFees (p p' : StakePool) : Prop where
  fee : p'.withdrawalFee = p.withdrawalFee
  next : p'.nextWithdrawalFee = p.nextWithdrawalFee
  lastUpdateEpoch : p'.lastUpdateEpoch = p.lastUpdateEpoch

def Event.Updates (A : Address) (e : Event) : Prop :=
  ∃ accounts, e = .pool .updateStakePoolBalance accounts ∧ namedPool accounts = some A

structure Announces (w : World) (A : Address) (p : StakePool) (k : WithdrawalKind) (g : Fee)
    (e : Event) : Prop where
  event : ∃ accounts manager, e = .pool (.setFee (k.feeType g)) accounts ∧
    namedPool accounts = some A ∧ accounts[1]? = some manager ∧ manager.key = p.manager ∧
    manager.isSigner = true
  pool : w.data A = .stakePool p

inductive FeeStep (w : World) (A : Address) (p p' : StakePool) (e : Event) : Prop
  | kept (h : p.SameFees p')
  | announced {k : WithdrawalKind} {g : Fee} (h : Announces w A p k g e)
      (hupdated : w.epoch ≤ p.lastUpdateEpoch) (hle : g.numerator ≤ g.denominator)
      (hcheck : g.checkWithdrawal (p.withdrawalFee k) = .ok ())
      (hfee : p'.withdrawalFee = p.withdrawalFee)
      (hnext : p'.nextWithdrawalFee = update p.nextWithdrawalFee k (some g))
      (hepoch : p'.lastUpdateEpoch = p.lastUpdateEpoch)
  | started (h : e.Updates A) (hlt : p.lastUpdateEpoch < w.epoch)
      (hfee : ∀ k, p'.withdrawalFee k = (p.nextWithdrawalFee k).getD (p.withdrawalFee k))
      (hnext : ∀ k, p'.nextWithdrawalFee k = none) (hepoch : p'.lastUpdateEpoch = w.epoch)

section Steps

variable {env : Environment} {w w' : World} {A B : Address} {p p' : StakePool}
  {i : StakePoolInstruction} {accounts : List AccountMeta} {e : Event}

theorem StakePool.SameFees.refl (p : StakePool) : p.SameFees p := ⟨rfl, rfl, rfl⟩

theorem StakePool.SameFees.of_fields (hstake : p'.stakeWithdrawalFee = p.stakeWithdrawalFee)
    (hsol : p'.solWithdrawalFee = p.solWithdrawalFee)
    (hnextStake : p'.nextStakeWithdrawalFee = p.nextStakeWithdrawalFee)
    (hnextSol : p'.nextSolWithdrawalFee = p.nextSolWithdrawalFee)
    (hepoch : p'.lastUpdateEpoch = p.lastUpdateEpoch) : p.SameFees p' := by
  refine ⟨?_, ?_, hepoch⟩ <;> funext k <;> cases k
  exacts [hstake, hsol, hnextStake, hnextSol]

/-- A fee of another kind is replaced, or a withdrawal fee is announced. -/
theorem StakePool.updateFee_cases {fee : FeeType} (h : p.updateFee fee = .ok p') :
    p.SameFees p' ∨ ∃ k g, fee = k.feeType g ∧ g.checkWithdrawal (p.withdrawalFee k) = .ok () ∧
      p'.withdrawalFee = p.withdrawalFee ∧
      p'.nextWithdrawalFee = update p.nextWithdrawalFee k (some g) ∧
      p'.lastUpdateEpoch = p.lastUpdateEpoch := by
  cases fee with
  | stakeWithdrawal g =>
    obtain ⟨⟨⟩, hcheck, hp'⟩ := bind_eq_ok.mp h
    cases hp'
    refine .inr ⟨.stake, g, rfl, hcheck, ?_, ?_, rfl⟩ <;> funext k <;> cases k <;> rfl
  | solWithdrawal g =>
    obtain ⟨⟨⟩, hcheck, hp'⟩ := bind_eq_ok.mp h
    cases hp'
    refine .inr ⟨.sol, g, rfl, hcheck, ?_, ?_, rfl⟩ <;> funext k <;> cases k <;> rfl
  | _ =>
    cases h
    exact .inl (.of_fields rfl rfl rfl rfl rfl)

/-- **Step.** What an instruction for `A` does to the fees of `A`. -/
theorem Effect.feeStep (h : Effect w A accounts w' i) (hA : namedPool accounts = some A)
    (hp : w.data A = .stakePool p) :
    ∃ p', w'.data A = .stakePool p' ∧ FeeStep w A p p' (.pool i accounts) := by
  cases h with
  | initializePool hno => exact absurd hp (hno p)
  | books _ hp' hbooks hwrote =>
    obtain rfl : p = _ := by simpa [hp] using hp'
    exact ⟨_, hwrote.pool, .kept (.of_fields hbooks.stakeWithdrawalFee hbooks.solWithdrawalFee
      hbooks.nextStakeWithdrawalFee hbooks.nextSolWithdrawalFee hbooks.lastUpdateEpoch)⟩
  | setFee hp' hmanager hkey hsigned hupdated hhigh hupdate hwrote =>
    obtain rfl : p = _ := by simpa [hp] using hp'
    refine ⟨_, hwrote.pool, ?_⟩
    rcases updateFee_cases hupdate with hsame | ⟨k, g, rfl, hcheck, hfee, hnext, hepoch⟩
    · exact .kept hsame
    · have hle : g.numerator ≤ g.denominator := by
        cases k <;> simpa [WithdrawalKind.feeType, FeeType.tooHigh] using hhigh
      have hnow : w.epoch ≤ p.lastUpdateEpoch := hupdated (by cases k <;> rfl)
      exact .announced ⟨⟨_, _, rfl, hA, hmanager, hkey, hsigned⟩, hp⟩ hnow hle hcheck hfee hnext
        hepoch
  | updateStakePoolBalance hp' _ hwrote =>
    obtain rfl : p = _ := by simpa [hp] using hp'
    refine ⟨_, hwrote.pool, ?_⟩
    unfold startEpoch
    split_ifs with hlt
    · refine .started ⟨_, rfl, hA⟩ hlt (fun k => ?_) (fun k => ?_) rfl <;> cases k <;> rfl
    · exact .kept (.of_fields rfl rfl rfl rfl rfl)
  | deposit _ hp' _ hdeposited hwrote =>
    obtain rfl : p = _ := by simpa [hp] using hp'
    refine ⟨_, hwrote.pool, .kept ?_⟩
    rw [deposited_ok hdeposited]
    exact .of_fields rfl rfl rfl rfl rfl
  | withdraw _ hp' _ hwithdrawn hwrote =>
    obtain rfl : p = _ := by simpa [hp] using hp'
    refine ⟨_, hwrote.pool, .kept ?_⟩
    rw [(withdrawn_ok hwithdrawn).2.2]
    exact .of_fields rfl rfl rfl rfl rfl

theorem Effect.newPool (h : Effect w A accounts w' i) (hno : ∀ p, w.data A ≠ .stakePool p)
    (hp' : w'.data A = .stakePool p') :
    p'.lastUpdateEpoch = w.epoch ∧ ∀ k, p'.nextWithdrawalFee k = none := by
  cases h with
  | initializePool _ _ _ _ hepoch hstake hsol hwrote =>
    obtain rfl : _ = p' := Data.stakePool.inj (hwrote.pool.symm.trans hp')
    exact ⟨hepoch, fun k => by cases k <;> assumption⟩
  | _ => exact absurd ‹w.data A = _› (hno _)

/-- **Step.** What an event does to the fees of a pool. -/
theorem World.exec_feeStep (h : w.exec env e = .ok w') (hp : w.data A = .stakePool p) :
    ∃ p', w'.data A = .stakePool p' ∧ FeeStep w A p p' e := by
  rcases exec_cases h with ⟨i, accounts, B, rfl, hB, heffect⟩ | ⟨-, hout⟩
  · by_cases hAB : A = B
    · subst hAB
      exact heffect.feeStep hB hp
    · rcases heffect.elsewhere.data A hAB with hsame | ⟨-, hno⟩
      · exact ⟨p, hsame.trans hp, .kept (.refl p)⟩
      · exact absurd hp (hno p)
  · rcases hout.data A with hsame | ⟨hnone, -⟩
    · exact ⟨p, hsame.trans hp, .kept (.refl p)⟩
    · simp [hp] at hnone

theorem World.exec_newPool (h : w.exec env e = .ok w') (hno : ∀ p, w.data A ≠ .stakePool p)
    (hp' : w'.data A = .stakePool p') :
    p'.lastUpdateEpoch = w.epoch ∧ ∀ k, p'.nextWithdrawalFee k = none := by
  rcases exec_cases h with ⟨i, accounts, B, rfl, hB, heffect⟩ | ⟨-, hout⟩
  · by_cases hAB : A = B
    · subst hAB
      exact heffect.newPool hno hp'
    · rcases heffect.elsewhere.data A hAB with hsame | ⟨⟨l, hl⟩, -⟩
      · exact absurd (hsame.symm.trans hp') (hno p')
      · simp [hp'] at hl
  · rcases hout.data A with hsame | ⟨-, len, hlen⟩
    · exact absurd (hsame.symm.trans hp') (hno p')
    · simp [hp'] at hlen

theorem StakePool.le_startEpoch (p : StakePool) (epoch : ℕ) :
    epoch ≤ (p.startEpoch epoch).lastUpdateEpoch := by
  unfold startEpoch
  split_ifs with h
  · exact le_rfl
  · exact not_lt.mp h

theorem World.exec_updated (h : w.exec env e = .ok w') (he : e.Updates A)
    (hp' : w'.data A = .stakePool p') : w'.epoch ≤ p'.lastUpdateEpoch := by
  obtain ⟨accounts, rfl, hA⟩ := he
  rcases exec_cases h with ⟨i, accounts, B, hi, hB, heffect⟩ | ⟨hno, -⟩
  · cases hi
    obtain rfl : A = B := some.inj (hA.symm.trans hB)
    cases heffect with
    | updateStakePoolBalance _ _ hwrote =>
      obtain rfl : _ = p' := Data.stakePool.inj (hwrote.pool.symm.trans hp')
      rw [hwrote.elsewhere.epoch]
      exact le_startEpoch _ _
    | books hi | deposit hi | withdraw hi => cases hi
  · exact absurd rfl (hno _ _)

end Steps

/-! ## Runs -/

/-- A fee that waits was announced by the manager after the last update, with the fee in force that
still is in force. -/
def Waits (m : Machine) (A : Address) (p : StakePool) (k : WithdrawalKind) (g : Fee) : Prop :=
  g.numerator ≤ g.denominator ∧ ∃ w e p₀, (w, e) ∈ m.history ∧ Announces w A p₀ k g e ∧
    w.epoch = p.lastUpdateEpoch ∧ p₀.withdrawalFee k = p.withdrawalFee k ∧
    g.checkWithdrawal (p₀.withdrawalFee k) = .ok ()

/-- Every fee that waits was announced, and no pool is ahead of its time. -/
def FeesInOrder (m : Machine) : Prop :=
  ∀ A p, m.world.data A = .stakePool p →
    p.lastUpdateEpoch ≤ m.world.epoch ∧ ∀ k, ∀ g ∈ p.nextWithdrawalFee k, Waits m A p k g

def Data.feeFits (k : WithdrawalKind) (g : Fee) : Data → Bool
  | .stakePool p => g.Comparable (p.withdrawalFee k)
  | _ => true

def Event.feeFits (w : World) : Event → Bool
  | .pool (.setFee (.stakeWithdrawal g)) accounts =>
    (namedPool accounts).all fun A => (w.data A).feeFits .stake g
  | .pool (.setFee (.solWithdrawal g)) accounts =>
    (namedPool accounts).all fun A => (w.data A).feeFits .sol g
  | _ => true

section Runs

variable {env : Environment} {m m' : Machine} {w' : World} {A : Address} {p p' : StakePool}
  {e : Event}

theorem FeesInOrder.step (hm : FeesInOrder m) (h : m.world.exec env e = .ok w') :
    FeesInOrder ⟨w', (m.world, e) :: m.history⟩ := by
  intro A p' hp'
  have hle := exec_epoch h
  by_cases hold : ∃ p, m.world.data A = .stakePool p
  · obtain ⟨p, hp⟩ := hold
    obtain ⟨q, hq, hstep⟩ := exec_feeStep h hp
    obtain rfl : q = p' := Data.stakePool.inj (hq.symm.trans hp')
    obtain ⟨hepoch, hwaits⟩ := hm A p hp
    -- What waited before still waits if neither the fee in force nor the last update changed.
    have hkeep : ∀ k g, g ∈ p.nextWithdrawalFee k → q.withdrawalFee = p.withdrawalFee →
        q.lastUpdateEpoch = p.lastUpdateEpoch → Waits ⟨w', (m.world, e) :: m.history⟩ A q k g := by
      intro k g hg hfee hlast
      obtain ⟨hone, w, e₀, p₀, hmem, hannounced, hw, hp₀, hcheck⟩ := hwaits k g hg
      exact ⟨hone, w, e₀, p₀, List.mem_cons_of_mem _ hmem, hannounced, hw.trans hlast.symm,
        by rw [hp₀, hfee], hcheck⟩
    cases hstep with
    | kept hsame =>
      refine ⟨by rw [hsame.lastUpdateEpoch]; exact hepoch.trans hle, fun k g hg => ?_⟩
      rw [hsame.next] at hg
      exact hkeep k g hg hsame.fee hsame.lastUpdateEpoch
    | @announced k g hannounced hupdated hone hcheck hfee hnext hlast =>
      refine ⟨by rw [hlast]; exact hepoch.trans hle, fun k' g' hg' => ?_⟩
      rw [hnext] at hg'
      by_cases hk : k' = k
      · subst hk
        obtain rfl : g = g' := by simpa using hg'
        exact ⟨hone, m.world, e, p, List.mem_cons_self, hannounced,
          by rw [hlast]; exact le_antisymm hupdated hepoch, by rw [hfee], hcheck⟩
      · rw [update_of_ne hk] at hg'
        exact hkeep k' g' hg' hfee hlast
    | started _ _ _ hnext hlast =>
      exact ⟨hlast.le.trans hle, fun k g hg => by simp [hnext k] at hg⟩
  · obtain ⟨hlast, hnone⟩ := exec_newPool h (fun p hp => hold ⟨p, hp⟩) hp'
    exact ⟨hlast.le.trans hle, fun k g hg => by simp [hnone k] at hg⟩

/-- **Run.** -/
theorem Reachable.feesInOrder (h : Reachable env m) : FeesInOrder m :=
  h.invariant (fun w hw A p hp => by simp [hw.data A] at hp) fun _ _ _ hm he => hm.step he

theorem Steps.epoch_le (h : Steps env m m') : m.world.epoch ≤ m'.world.epoch := by
  induction h with
  | refl => exact le_rfl
  | @step _ _ _ ih =>
    unfold Machine.step
    split
    next w hw => exact ih.trans (exec_epoch hw)
    next => exact ih

/-- Within an epoch in which the pool is up to date, the fees in force stay. -/
theorem Steps.fees_kept (h : Steps env m m') (hp : m.world.data A = .stakePool p)
    (hnow : m.world.epoch ≤ p.lastUpdateEpoch) (hepoch : m'.world.epoch = m.world.epoch) :
    ∃ q, m'.world.data A = .stakePool q ∧ q.withdrawalFee = p.withdrawalFee ∧
      q.lastUpdateEpoch = p.lastUpdateEpoch := by
  induction h with
  | refl => exact ⟨p, hp, rfl, rfl⟩
  | @step m' hm' _ ih =>
    unfold Machine.step at hepoch ⊢
    split at hepoch
    next w hw =>
      have hle := hm'.epoch_le
      have hsame : m'.world.epoch = m.world.epoch :=
        le_antisymm ((exec_epoch hw).trans hepoch.le) hle
      obtain ⟨_, hq, hfee, hlast⟩ := ih hsame
      obtain ⟨q', hq', hstep⟩ := exec_feeStep hw hq
      refine ⟨q', hq', ?_⟩
      cases hstep with
      | kept hkept => exact ⟨hkept.fee.trans hfee, hkept.lastUpdateEpoch.trans hlast⟩
      | announced _ _ _ _ hfee' _ hlast' => exact ⟨hfee'.trans hfee, hlast'.trans hlast⟩
      | started => omega
    next => simpa using ih hepoch

def SetEarlier (m : Machine) (A : Address) (k : WithdrawalKind) (g : Fee) : Prop :=
  ∃ w e p, (w, e) ∈ m.history ∧ Announces w A p k g e ∧ w.epoch < m.world.epoch

theorem Announces.comparable {w : World} {k : WithdrawalKind} {g : Fee} (h : Announces w A p k g e)
    (hfits : e.feeFits w = true) : g.Comparable (p.withdrawalFee k) := by
  obtain ⟨⟨_, _, rfl, hA, -⟩, hp⟩ := h
  cases k <;> simpa [WithdrawalKind.feeType, Event.feeFits, Data.feeFits, hA, hp] using hfits

/-- In every run in which the compared products fit, the withdrawal fees in force do not change
between the update of an epoch and the end of the epoch. If they change, then at an update, to a fee
that the manager announced in an earlier epoch, that is at most one, and at most half as much again
as the fee before. -/
theorem withdrawal_fees_rise_slowly (hm : Reachable env m)
    (hfits : ∀ x ∈ m.history, x.2.feeFits x.1 = true) (h : m.world.exec env e = .ok w')
    (hp' : w'.data A = .stakePool p') :
    (e.Updates A → ∀ m', Steps env ⟨w', (m.world, e) :: m.history⟩ m' →
      m'.world.epoch = w'.epoch →
      ∃ q, m'.world.data A = .stakePool q ∧ q.withdrawalFee = p'.withdrawalFee) ∧
    ∀ p k, m.world.data A = .stakePool p → p'.withdrawalFee k ≠ p.withdrawalFee k →
      e.Updates A ∧ SetEarlier m A k (p'.withdrawalFee k) ∧ (p'.withdrawalFee k).rate ≤ 1 ∧
      (p'.withdrawalFee k).rate ≤
        3 / 2 * if (p.withdrawalFee k).rate = 0 then 1 / 1000 else (p.withdrawalFee k).rate := by
  have horder := hm.feesInOrder
  refine ⟨fun he m' hsteps hepoch => ?_, fun p k hp hchange => ?_⟩
  · have hnow := exec_updated h he hp'
    obtain ⟨q, hq, hfee, -⟩ := hsteps.fees_kept hp' hnow hepoch
    exact ⟨q, hq, hfee⟩
  · obtain ⟨q, hq, hstep⟩ := exec_feeStep h hp
    obtain rfl : q = p' := Data.stakePool.inj (hq.symm.trans hp')
    cases hstep with
    | kept hsame => exact absurd (congrFun hsame.fee k) hchange
    | announced _ _ _ _ hfee => exact absurd (congrFun hfee k) hchange
    | started hupdates hlt hfee =>
      cases hnext : p.nextWithdrawalFee k with
      | none => exact absurd (by rw [hfee k, hnext, getD_none]) hchange
      | some g =>
        have hg : q.withdrawalFee k = g := by rw [hfee k, hnext, getD_some]
        obtain ⟨hone, w, e₀, p₀, hmem, hannounced, hw, hp₀, hcheck⟩ := (horder A p hp).2 k g hnext
        rw [hg, ← hp₀]
        exact ⟨hupdates, ⟨w, e₀, p₀, hmem, hannounced, hw ▸ hlt⟩, Fee.rate_le_one hone,
          Fee.rate_le_of_checkWithdrawal hcheck (hannounced.comparable (hfits _ hmem))⟩

end Runs

namespace Run

def announced (old new : Fee) : Machine :=
  after (found 0 old ++ [.pool (.setFee (.stakeWithdrawal new)) [named pool, signed manager],
    .newEpoch fun _ => 0])

def stakeFee : Data → Option Fee
  | .stakePool p => some p.stakeWithdrawalFee
  | _ => none

def feesAround (m : Machine) : Option (Fee × Fee) := do
  let before ← stakeFee (m.world.data pool)
  let w ← (m.world.exec environment updatePool).toOption
  let after ← stakeFee (w.data pool)
  return (before, after)

theorem feesAround_eq_some {m : Machine} {old new : Fee} (h : feesAround m = some (old, new)) :
    ∃ p w' p', m.world.data pool = .stakePool p ∧ m.world.exec environment updatePool = .ok w' ∧
      w'.data pool = .stakePool p' ∧ p.withdrawalFee .stake = old ∧
      p'.withdrawalFee .stake = new := by
  have hread : ∀ {d : Data} {fee : Fee}, stakeFee d = some fee →
      ∃ p, d = .stakePool p ∧ p.withdrawalFee .stake = fee := by
    intro d fee hd
    cases d with
    | stakePool p => exact ⟨p, rfl, some.inj hd⟩
    | _ => cases hd
  simp only [feesAround, bind_eq_bind, bind_eq_some_iff, pure_def,
    some.injEq, Prod.mk.injEq] at h
  obtain ⟨_, hbefore, w', hw', _, hnew, rfl, rfl⟩ := h
  obtain ⟨p, hp, hold⟩ := hread hbefore
  obtain ⟨p', hp', hfee⟩ := hread hnew
  cases hexec : m.world.exec environment updatePool with
  | error => simp [hexec, Except.toOption] at hw'
  | ok w =>
    obtain rfl : w = w' := by simpa [hexec, Except.toOption] using hw'
    exact ⟨p, w, p', hp, rfl, hp', hold, hfee⟩

theorem announced_reachable (old new : Fee) : Reachable environment (announced old new) :=
  reachable _

end Run

/-- One part in 2^64 - 1 becomes everything, because the product of the new fee overflows. -/
theorem withdrawal_fee_jumps :
    ¬ ∀ (env : Environment) (m : Machine) (e : Event) (w' : World) (A : Address)
      (p p' : StakePool) (k : WithdrawalKind), Reachable env m → m.world.exec env e = .ok w' →
      m.world.data A = .stakePool p → w'.data A = .stakePool p' →
      p'.withdrawalFee k ≠ p.withdrawalFee k →
      (p'.withdrawalFee k).rate ≤
        3 / 2 * if (p.withdrawalFee k).rate = 0 then 1 / 1000 else (p.withdrawalFee k).rate := by
  intro hslow
  have hfees : Run.feesAround (Run.announced ⟨2 ^ 64 - 1, 1⟩ ⟨2 ^ 64 - 1, 2 ^ 64 - 1⟩) =
      some (⟨2 ^ 64 - 1, 1⟩, ⟨2 ^ 64 - 1, 2 ^ 64 - 1⟩) := by decide +kernel
  have hreachable := Run.announced_reachable ⟨2 ^ 64 - 1, 1⟩ ⟨2 ^ 64 - 1, 2 ^ 64 - 1⟩
  generalize Run.announced ⟨2 ^ 64 - 1, 1⟩ ⟨2 ^ 64 - 1, 2 ^ 64 - 1⟩ = m at hfees hreachable
  obtain ⟨p, w', p', hp, hw', hp', hold, hnew⟩ := Run.feesAround_eq_some hfees
  have hle := hslow _ m _ w' _ p p' .stake hreachable hw' hp hp' (by simp [hold, hnew])
  rw [hold, hnew] at hle
  norm_num [Fee.rate] at hle

/-- Two parts in two thousand become three. -/
theorem withdrawal_fees_rise_to_three_parts :
    ∃ (m : Machine) (w' : World) (p p' : StakePool), Reachable Run.environment m ∧
      m.world.exec Run.environment Run.updatePool = .ok w' ∧
      m.world.data Run.pool = .stakePool p ∧ w'.data Run.pool = .stakePool p' ∧
      p.stakeWithdrawalFee = ⟨2000, 2⟩ ∧ p'.stakeWithdrawalFee = ⟨2000, 3⟩ ∧
      SetEarlier m Run.pool .stake ⟨2000, 3⟩ := by
  have hfees : Run.feesAround (Run.announced ⟨2000, 2⟩ ⟨2000, 3⟩) =
      some (⟨2000, 2⟩, ⟨2000, 3⟩) := by decide +kernel
  have hfits : ∀ x ∈ (Run.announced ⟨2000, 2⟩ ⟨2000, 3⟩).history, x.2.feeFits x.1 = true := by
    decide +kernel
  have hreachable := Run.announced_reachable ⟨2000, 2⟩ ⟨2000, 3⟩
  generalize Run.announced ⟨2000, 2⟩ ⟨2000, 3⟩ = m at hfees hfits hreachable
  obtain ⟨p, w', p', hp, hw', hp', hold, hnew⟩ := Run.feesAround_eq_some hfees
  have hslow := (withdrawal_fees_rise_slowly hreachable hfits hw' hp').2 p .stake hp
    (by simp [hold, hnew])
  exact ⟨m, w', p, p', hreachable, hw', hp, hp', hold, hnew, hnew ▸ hslow.2.1⟩

end SolanaPrograms.StakePools
