import SolanaPrograms.StakePools.Frames

/-!
# What an instruction of the stake pool does

`Effect` lists the ways an instruction can succeed. Handlers that touch the books of the pool alike
share one: those that leave them as they are, those for deposits and those for withdrawals. A
constructor says what the calls minted and burned and what was written; the results about runs only
look at effects.
-/

namespace SolanaPrograms.StakePools

open Function Outcome Checked World StakePool

/-- Only the people, the fee account and the preferred validators differ. -/
structure StakePool.SameBooks (p p' : StakePool) : Prop where
  validatorList : p'.validatorList = p.validatorList
  reserveStake : p'.reserveStake = p.reserveStake
  poolMint : p'.poolMint = p.poolMint
  totalLamports : p'.totalLamports = p.totalLamports
  poolTokenSupply : p'.poolTokenSupply = p.poolTokenSupply
  lastUpdateEpoch : p'.lastUpdateEpoch = p.lastUpdateEpoch
  stakeWithdrawalFee : p'.stakeWithdrawalFee = p.stakeWithdrawalFee
  nextStakeWithdrawalFee : p'.nextStakeWithdrawalFee = p.nextStakeWithdrawalFee
  solWithdrawalFee : p'.solWithdrawalFee = p.solWithdrawalFee
  nextSolWithdrawalFee : p'.nextSolWithdrawalFee = p.nextSolWithdrawalFee

theorem StakePool.SameBooks.refl (p : StakePool) : p.SameBooks p :=
  ⟨rfl, rfl, rfl, rfl, rfl, rfl, rfl, rfl, rfl, rfl⟩

def StakePoolInstruction.keepsBooks : StakePoolInstruction → Bool
  | initializePool .. | setFee _ | updateStakePoolBalance | depositStake | depositSol _
  | withdrawStake _ | withdrawSol _ => false
  | _ => true

/-- The instructions that exchange lamports for pool tokens. -/
def StakePoolInstruction.isDeposit : StakePoolInstruction → Bool
  | depositStake | depositSol _ => true
  | _ => false

/-- The instructions that exchange pool tokens for lamports. -/
def StakePoolInstruction.isWithdrawal : StakePoolInstruction → Bool
  | withdrawStake _ | withdrawSol _ => true
  | _ => false

inductive Effect (w : World) (A : Address) (accounts : List AccountMeta) (w' : World) :
    StakePoolInstruction → Prop
  | initializePool {epochFee withdrawalFee depositFee : Fee}
      {referralFee maxValidators totalLamports : ℕ} {p' : StakePool}
      (hA : ∀ p, w.data A ≠ .stakePool p)
      (hmint : w.tokens.HasMint p'.poolMint (.withdrawAuthority A) 0)
      (hreserve : w.reserveAtInitialize p'.reserveStake (.withdrawAuthority A) = .ok totalLamports)
      (hcopy : p'.poolTokenSupply = 0) (hepoch : p'.lastUpdateEpoch = w.epoch)
      (hstake : p'.nextStakeWithdrawalFee = none) (hsol : p'.nextSolWithdrawalFee = none)
      (hwrote : Wrote A w w' p' p'.poolMint totalLamports 0) :
      Effect w A accounts w'
        (.initializePool epochFee withdrawalFee depositFee referralFee maxValidators)
  | books {i : StakePoolInstruction} {p p' : StakePool} (hi : i.keepsBooks = true)
      (hp : w.data A = .stakePool p) (hbooks : p.SameBooks p')
      (hwrote : Wrote A w w' p' p.poolMint 0 0) : Effect w A accounts w' i
  | setFee {fee : FeeType} {p p' : StakePool} {manager : AccountMeta}
      (hp : w.data A = .stakePool p) (hmanager : accounts[1]? = some manager)
      (hkey : manager.key = p.manager) (hsigned : manager.isSigner = true)
      (hupdated : fee.canOnlyChangeNextEpoch = true → w.epoch ≤ p.lastUpdateEpoch)
      (hhigh : fee.tooHigh = false) (hupdate : p.updateFee fee = .ok p')
      (hwrote : Wrote A w w' p' p.poolMint 0 0) : Effect w A accounts w' (.setFee fee)
  | updateStakePoolBalance {p : StakePool} {totalLamports fee : ℕ} {m : Tokens.Mint Address}
      (hp : w.data A = .stakePool p) (hM : w'.tokens p.poolMint = .mint m)
      (hwrote : Wrote A w w' { p.startEpoch w.epoch with
        totalLamports, poolTokenSupply := m.supply } p.poolMint fee 0) :
      Effect w A accounts w' .updateStakePoolBalance
  | deposit {i : StakePoolInstruction} {p p' : StakePool} {tokens lamports : ℕ}
      (hi : i.isDeposit = true) (hp : w.data A = .stakePool p)
      (htokens : p.calcPoolTokensForDeposit lamports = some tokens)
      (hdeposited : p.deposited tokens lamports = .ok p')
      (hwrote : Wrote A w w' p' p.poolMint tokens 0) : Effect w A accounts w' i
  | withdraw {i : StakePoolInstruction} {p p' : StakePool} {poolTokens fee burnt lamports : ℕ}
      (hi : i.isWithdrawal = true) (hp : w.data A = .stakePool p)
      (hpayout : p.payout poolTokens fee = .ok (burnt, lamports))
      (hwithdrawn : p.withdrawn burnt lamports = .ok p')
      (hwrote : Wrote A w w' p' p.poolMint 0 burnt) : Effect w A accounts w' i

/-! ## Parts of deposits and withdrawals -/

section Parts

variable {p p' : StakePool}

variable {shares : DepositShares} {tokens lamports : ℕ}

theorem depositShares_ok {fee referralFee : ℕ}
    (h : depositShares tokens fee referralFee = .ok shares) :
    shares.user + shares.manager + shares.referrer = tokens := by
  simp only [depositShares, checks, sub_eq_some] at h
  obtain ⟨_, ⟨_, rfl⟩, _, ⟨_, rfl⟩, -, -, rfl⟩ := h
  dsimp only
  omega

theorem StakePool.stakeDepositTokens_ok {totalDeposit stakeDeposit : ℕ}
    (h : p.stakeDepositTokens totalDeposit stakeDeposit = .ok (tokens, shares)) :
    p.calcPoolTokensForDeposit totalDeposit = some tokens ∧
      shares.user + shares.manager + shares.referrer = tokens := by
  simp only [stakeDepositTokens, checks] at h
  obtain ⟨_, htokens, _, -, _, -, _, -, _, -, _, -, _, -, _, hshares, rfl, rfl⟩ := h
  exact ⟨htokens, depositShares_ok hshares⟩

theorem StakePool.solDepositTokens_ok (h : p.solDepositTokens lamports = .ok (tokens, shares)) :
    p.calcPoolTokensForDeposit lamports = some tokens ∧
      shares.user + shares.manager + shares.referrer = tokens := by
  simp only [solDepositTokens, checks] at h
  obtain ⟨_, htokens, _, -, _, -, _, hshares, rfl, rfl⟩ := h
  exact ⟨htokens, depositShares_ok hshares⟩

theorem StakePool.deposited_ok (h : p.deposited tokens lamports = .ok p') :
    p' = { p with
      poolTokenSupply := p.poolTokenSupply + tokens
      totalLamports := p.totalLamports + lamports } := by
  simp only [deposited, checks, add_eq_some] at h
  obtain ⟨_, ⟨-, rfl⟩, _, ⟨-, rfl⟩, rfl⟩ := h
  rfl

theorem StakePool.payout_ok {poolTokens fee burnt : ℕ}
    (h : p.payout poolTokens fee = .ok (burnt, lamports)) :
    burnt + fee = poolTokens ∧ p.calcLamportsWithdrawAmount burnt = some lamports ∧
      lamports ≠ 0 := by
  simp only [payout, checks, sub_eq_some] at h
  obtain ⟨_, ⟨_, rfl⟩, _, hlamports, hzero, rfl, rfl⟩ := h
  exact ⟨by omega, hlamports, hzero⟩

theorem StakePool.withdrawn_ok {burnt : ℕ} (h : p.withdrawn burnt lamports = .ok p') :
    burnt ≤ p.poolTokenSupply ∧ lamports ≤ p.totalLamports ∧
      p' = { p with
        poolTokenSupply := p.poolTokenSupply - burnt
        totalLamports := p.totalLamports - lamports } := by
  simp only [withdrawn, checks, sub_eq_some] at h
  obtain ⟨_, ⟨hburnt, rfl⟩, _, ⟨hlamports, rfl⟩, rfl⟩ := h
  exact ⟨hburnt, hlamports, rfl⟩

end Parts

/-! ## The handlers -/

section Handlers

variable {env : Environment} {w w' : World} {accounts : List AccountMeta}

def namedPool (accounts : List AccountMeta) : Option Address := accounts.head?.map AccountMeta.key

def Acts (w : World) (i : StakePoolInstruction) (accounts : List AccountMeta) (w' : World) : Prop :=
  ∃ A, namedPool accounts = some A ∧ Effect w A accounts w' i

variable {seed lamports poolTokens : ℕ}

/-- What the checks of accounts and the readings established, as one set of rewrite rules. -/
theorem poolChecks :
    (∀ {k s u}, checkSysvar k s = .ok u ↔ k = .sysvar s) ∧
    (∀ {k p u}, checkProgram k p = .ok u ↔ k = .program p) ∧
    (∀ {A k vote u}, checkValidatorStakeAddress A k vote = .ok u ↔ k = .validatorStake vote A) ∧
    (∀ {A k vote seed u}, checkTransientStakeAddress A k vote seed = .ok u ↔
      k = .transientStake vote A seed) ∧
    (∀ {k A u}, checkAuthorityWithdraw k A = .ok u ↔ k = .withdrawAuthority A) ∧
    (∀ {p : StakePool} {k u}, p.checkValidatorList k = .ok u ↔ k = p.validatorList) ∧
    (∀ {p : StakePool} {k u}, p.checkReserveStake k = .ok u ↔ k = p.reserveStake) ∧
    (∀ {p : StakePool} {k u}, p.checkMint k = .ok u ↔ k = p.poolMint) ∧
    (∀ {p : StakePool} {k u}, p.checkStakeDepositAuthority k = .ok u ↔
      p.stakeDepositAuthority = k) ∧
    (∀ {p : StakePool} {a u}, p.checkManager a = .ok u ↔ a.key = p.manager ∧ a.isSigner = true) ∧
    (∀ {p : StakePool} {a u}, p.checkStaker a = .ok u ↔ a.key = p.staker ∧ a.isSigner = true) ∧
    (∀ {w : World} {p u}, w.outOfDate p = .ok u ↔ w.epoch ≤ p.lastUpdateEpoch) ∧
    (∀ {w : World} {k p}, w.readStakePool k = .ok p ↔ w.data k = .stakePool p) ∧
    (∀ {w : World} {k l}, w.readValidatorList k = .ok l ↔ w.data k = .validatorList l) ∧
    (∀ {w : World} {k m d}, w.getStakeState k = .ok (m, d) ↔
      w.stakes.state k = some (.stake m d)) ∧
    (∀ {w : World} {k len}, w.readUninitialized k = .ok len ↔ w.data k = .allocated len) := by
  simp only [readStakePool_eq_ok, readValidatorList_eq_ok, getStakeState_eq_ok,
    checkSysvar, checkProgram, checkValidatorStakeAddress, checkTransientStakeAddress,
    checkAuthorityWithdraw, checkValidatorList, checkReserveStake,
    checkMint, checkStakeDepositAuthority, checkManager,
    checkStaker, outOfDate, failIf_bind_eq_ok, failIf_eq_ok, ne_eq, not_not,
    Bool.not_eq_false, not_lt, implies_true, true_and]
  intro w k len
  unfold readUninitialized
  split <;> simp_all

theorem acts_settings {i : StakePoolInstruction} {pool : AccountMeta} {p p' : StakePool}
    (hi : i.keepsBooks = true) (hp : w.data pool.key = .stakePool p) (hbooks : p.SameBooks p') :
    Acts w i (pool :: accounts) (w.writeData pool.key (.stakePool p')) :=
  ⟨pool.key, rfl, .books hi hp hbooks (((StakesOnly.refl w).wrote hp).writePool p')⟩

theorem processInitialize_effect {epochFee withdrawalFee depositFee : Fee}
    {referralFee maxValidators : ℕ}
    (h : processInitialize env accounts epochFee withdrawalFee depositFee referralFee maxValidators
      w = .ok w') :
    Acts w (.initializePool epochFee withdrawalFee depositFee referralFee maxValidators)
      accounts w' := by
  unfold processInitialize at h
  split at h
  next pool manager staker authority list reserve mint fee program rest =>
    simp only [checks, poolChecks, Tokens.Book.account?_eq_some, Tokens.Book.mint?_eq_some,
      ne_eq, not_not] at h
    obtain ⟨-, hne, _, hA, _, hL, -, -, -, -, -, _, -, _, hM, -, hauthority, hsupply, hmint, -, _,
      hreserve, _, hw₁, rfl⟩ := h
    rw [hauthority] at hmint hreserve hw₁
    have hcalled := called_mintIfPositive hw₁
    refine ⟨pool.key, rfl, .initializePool (by simp [hA]) ⟨_, hM, hmint, hsupply⟩ hreserve rfl
      hcalled.epoch rfl rfl ⟨?_, update_self .., hcalled.moves⟩⟩
    exact ((hcalled.elsewhere _).writeList (by simp [hL]) _).writePool _
  next => cases h

theorem processAddValidatorToPool_effect (h : processAddValidatorToPool env accounts w = .ok w') :
    Acts w .addValidatorToPool accounts w' := by
  unfold processAddValidatorToPool at h
  split at h
  next pool staker funder authority list stake vote rent clock history config system program rest =>
    simp only [checks, poolChecks] at h
    obtain ⟨-, -, -, -, _, hp, -, -, -, -, _, hl, -, -, -, _, hw₁, _, hw₂, _, hw₃, rfl⟩ := h
    exact ⟨pool.key, rfl, .books rfl hp (.refl _) ((((stakesOnly_createPdaAccount hw₁).trans
      (stakesOnly_callStake hw₂)).trans (stakesOnly_callStake hw₃)).wroteList hp hl _)⟩
  next => cases h

theorem processRemoveValidatorFromPool_effect
    (h : processRemoveValidatorFromPool env accounts w = .ok w') :
    Acts w .removeValidatorFromPool accounts w' := by
  unfold processRemoveValidatorFromPool at h
  split at h
  next pool staker authority new list stake transient destination clock program rest =>
    simp only [checks, poolChecks] at h
    obtain ⟨-, -, _, hp, -, -, -, -, _, hl, _, _, -, -, _, -, -, -, _, -, _, hw₁, _, hw₂, rfl⟩ := h
    refine ⟨pool.key, rfl, .books rfl hp ?_ ((((stakesOnly_callStake hw₁).trans
      (stakesOnly_stakeAuthorize hw₂)).wroteList hp hl _).writePool _)⟩
    exact ⟨rfl, rfl, rfl, rfl, rfl, rfl, rfl, rfl, rfl, rfl⟩
  next => cases h

theorem processDecreaseValidatorStake_effect
    (h : processDecreaseValidatorStake env accounts lamports seed w = .ok w') :
    Acts w (.decreaseValidatorStake lamports seed) accounts w' := by
  unfold processDecreaseValidatorStake at h
  split at h
  next pool staker authority list stake transient clock rent system program rest =>
    simp only [checks, poolChecks] at h
    obtain ⟨-, -, -, -, _, hp, -, -, -, -, _, hl, _, _, -, -, _, -, -, -, -, _, -, -, _, hw₁, _,
      hw₂, _, hw₃, _, -, rfl⟩ := h
    exact ⟨pool.key, rfl, .books rfl hp (.refl _) ((((stakesOnly_allocateStake hw₁).trans
      (stakesOnly_callStake hw₂)).trans (stakesOnly_callStake hw₃)).wroteList hp hl _)⟩
  next => cases h

theorem processIncreaseValidatorStake_effect
    (h : processIncreaseValidatorStake env accounts lamports seed w = .ok w') :
    Acts w (.increaseValidatorStake lamports seed) accounts w' := by
  unfold processIncreaseValidatorStake at h
  split at h
  next pool staker authority list reserve transient vote clock rent history config system program
      rest =>
    simp only [checks, poolChecks] at h
    obtain ⟨-, -, -, -, _, hp, -, -, -, -, -, _, hl, _, -, -, -, -, -, -, _, hw₁, _, hw₂, _, hw₃,
      rfl⟩ := h
    exact ⟨pool.key, rfl, .books rfl hp (.refl _) ((((stakesOnly_allocateStake hw₁).trans
      (stakesOnly_callStake hw₂)).trans (stakesOnly_callStake hw₃)).wroteList hp hl _)⟩
  next => cases h

theorem processSetPreferredValidator_effect {type : PreferredValidatorType} {vote : Option Address}
    (h : processSetPreferredValidator accounts type vote w = .ok w') :
    Acts w (.setPreferredValidator type vote) accounts w' := by
  unfold processSetPreferredValidator at h
  split at h
  next pool staker list rest =>
    simp only [checks, poolChecks] at h
    obtain ⟨_, hp, -, -, _, -, _, -, rfl⟩ := h
    refine acts_settings rfl hp ?_
    cases type <;> exact ⟨rfl, rfl, rfl, rfl, rfl, rfl, rfl, rfl, rfl, rfl⟩
  next => cases h

theorem processUpdateValidatorListBalance_effect {startIndex : ℕ} {noMerge : Bool}
    (h : processUpdateValidatorListBalance env accounts startIndex noMerge w = .ok w') :
    Acts w (.updateValidatorListBalance startIndex noMerge) accounts w' := by
  unfold processUpdateValidatorListBalance at h
  split at h
  next pool authority list reserve clock history program stakes =>
    simp only [checks, poolChecks] at h
    obtain ⟨-, _, hp, -, -, -, -, -, _, hl, -, _, _, hw₁, rfl⟩ := h
    exact ⟨pool.key, rfl,
      .books rfl hp (.refl _) ((stakesOnly_updateEntries hw₁).wroteList hp hl _)⟩
  next => cases h

theorem processUpdateStakePoolBalance_effect
    (h : processUpdateStakePoolBalance accounts w = .ok w') :
    Acts w .updateStakePoolBalance accounts w' := by
  unfold processUpdateStakePoolBalance at h
  split at h
  next pool authority list reserve fee mint program rest =>
    simp only [checks, poolChecks, Tokens.Book.mint?_eq_some] at h
    obtain ⟨_, hp, hmint, -, -, -, -, -, _, -, _, -, _, -, _, -, _, hw₁, _, hm, rfl⟩ := h
    rw [hmint] at hw₁ hm
    have hcalled := called_mintIfPositive hw₁
    rw [hcalled.epoch]
    exact ⟨pool.key, rfl, .updateStakePoolBalance hp hm ((hcalled.wrote hp).writePool _)⟩
  next => cases h

theorem processCleanupRemovedValidatorEntries_effect
    (h : processCleanupRemovedValidatorEntries accounts w = .ok w') :
    Acts w .cleanupRemovedValidatorEntries accounts w' := by
  unfold processCleanupRemovedValidatorEntries at h
  split at h
  next pool list rest =>
    simp only [checks, poolChecks] at h
    obtain ⟨_, hp, -, _, hl, rfl⟩ := h
    exact ⟨pool.key, rfl, .books rfl hp (.refl _) ((StakesOnly.refl w).wroteList hp hl _)⟩
  next => cases h

theorem processDepositStake_effect (h : processDepositStake env accounts w = .ok w') :
    Acts w .depositStake accounts w' := by
  unfold processDepositStake at h
  split at h
  next pool list deposit authority stake validator reserve user fee referrer mint clock history
      token program rest =>
    simp only [checks, poolChecks] at h
    obtain ⟨-, -, _, hp, -, -, hmint, -, -, -, -, -, _, hl, _, _, -, -, _, -, _, -, -, _, hw₁, _,
      hw₂, _, _, -, _, -, _, -, _, -, _, _, htokens, _, hw₃, _, hw₄, _, hp', _, -, rfl⟩ := h
    rw [hmint] at hw₃
    obtain ⟨htokens, hminted⟩ := stakeDepositTokens_ok htokens
    have hcalled := ((((stakesOnly_takeOver hw₁).trans (stakesOnly_callStake hw₂)).called
      _).trans (called_mintShares hw₃)).stakes (stakesOnly_withdrawToReserve hw₄)
    rw [Nat.zero_add, hminted] at hcalled
    exact ⟨pool.key, rfl, .deposit rfl hp htokens hp'
      (((hcalled.wrote hp).writePool _).writeList hp hl _)⟩
  next => cases h

theorem processDepositSol_effect (h : processDepositSol accounts lamports w = .ok w') :
    Acts w (.depositSol lamports) accounts w' := by
  unfold processDepositSol at h
  split at h
  next pool authority reserve source user fee referrer mint system token rest =>
    simp only [checks, poolChecks] at h
    obtain ⟨_, hp, -, _, -, hmint, -, -, -, -, -, _, _, htokens, _, hw₁, _, hw₂, _, hp', rfl⟩ := h
    rw [hmint] at hw₂
    obtain ⟨htokens, hminted⟩ := solDepositTokens_ok htokens
    have hcalled := ((stakesOnly_systemTransfer hw₁).called _).trans (called_mintShares hw₂)
    rw [Nat.zero_add, hminted] at hcalled
    exact ⟨pool.key, rfl, .deposit rfl hp htokens hp' ((hcalled.wrote hp).writePool _)⟩
  next => cases h

theorem processWithdrawStake_effect (h : processWithdrawStake env accounts poolTokens w = .ok w') :
    Acts w (.withdrawStake poolTokens) accounts w' := by
  unfold processWithdrawStake at h
  split at h
  next pool list authority source destination new user burn fee mint clock token program rest =>
    simp only [checks, poolChecks] at h
    obtain ⟨-, -, _, hp, hmint, -, -, -, -, -, _, hl, _, -, _, _, hpayout, _, -, _, hw₁, _, hw₂, _,
      hw₃, _, hw₄, _, hp', _, -, rfl⟩ := h
    rw [hmint] at hw₁
    have hcalled := (((called_tokenBurn hw₁).stakes (stakesOnly_callStake hw₂)).stakes
      (stakesOnly_stakeAuthorize hw₃)).trans (called_transferFee hw₄ _)
    exact ⟨pool.key, rfl, .withdraw rfl hp hpayout hp'
      (((hcalled.wrote hp).writePool _).writeList hp hl _)⟩
  next => cases h

theorem processWithdrawSol_effect (h : processWithdrawSol env accounts poolTokens w = .ok w') :
    Acts w (.withdrawSol poolTokens) accounts w' := by
  unfold processWithdrawSol at h
  split at h
  next pool authority user burn reserve destination fee mint clock history program token rest =>
    simp only [checks, poolChecks] at h
    obtain ⟨_, hp, -, _, -, hmint, -, -, -, -, -, _, -, _, _, hpayout, _, -, _, hw₁, _, hw₂, _, hw₃,
      _, hp', rfl⟩ := h
    rw [hmint] at hw₁
    have hcalled := ((called_tokenBurn hw₁).trans (called_transferFee hw₂ _)).stakes
      (stakesOnly_callStake hw₃)
    exact ⟨pool.key, rfl, .withdraw rfl hp hpayout hp' ((hcalled.wrote hp).writePool _)⟩
  next => cases h

theorem processSetManager_effect (h : processSetManager accounts w = .ok w') :
    Acts w .setManager accounts w' := by
  unfold processSetManager at h
  split at h
  next pool manager new fee rest =>
    simp only [checks, poolChecks, Tokens.Book.account?_eq_some] at h
    obtain ⟨_, hp, _, -, -, -, -, rfl⟩ := h
    exact acts_settings rfl hp ⟨rfl, rfl, rfl, rfl, rfl, rfl, rfl, rfl, rfl, rfl⟩
  next => cases h

theorem processSetFee_effect {fee : FeeType} (h : processSetFee accounts fee w = .ok w') :
    Acts w (.setFee fee) accounts w' := by
  unfold processSetFee at h
  split at h
  next pool manager rest =>
    simp only [checks, poolChecks, FeeType.checkTooHigh, Bool.not_eq_true, not_and, not_lt] at h
    obtain ⟨_, hp, ⟨hkey, hsigned⟩, hupdated, hhigh, _, hp', rfl⟩ := h
    exact ⟨pool.key, rfl, .setFee hp rfl hkey hsigned hupdated hhigh hp'
      (((StakesOnly.refl w).wrote hp).writePool _)⟩
  next => cases h

theorem processSetStaker_effect (h : processSetStaker accounts w = .ok w') :
    Acts w .setStaker accounts w' := by
  unfold processSetStaker at h
  split at h
  next pool authority new rest =>
    simp only [checks, poolChecks] at h
    obtain ⟨_, hp, -, rfl⟩ := h
    exact acts_settings rfl hp ⟨rfl, rfl, rfl, rfl, rfl, rfl, rfl, rfl, rfl, rfl⟩
  next => cases h

theorem processSetFundingAuthority_effect {type : FundingType}
    (h : processSetFundingAuthority accounts type w = .ok w') :
    Acts w (.setFundingAuthority type) accounts w' := by
  unfold processSetFundingAuthority at h
  split at h
  next pool manager rest =>
    simp only [checks, poolChecks] at h
    obtain ⟨_, hp, -, rfl⟩ := h
    refine acts_settings rfl hp ?_
    cases type <;> exact ⟨rfl, rfl, rfl, rfl, rfl, rfl, rfl, rfl, rfl, rfl⟩
  next => cases h

/-- **Step.** Every instruction that succeeds has one of the effects, on the pool it names. -/
theorem process_effect {instruction : StakePoolInstruction}
    (h : process env instruction accounts w = .ok w') : Acts w instruction accounts w' := by
  cases instruction with
  | initializePool => exact processInitialize_effect h
  | addValidatorToPool => exact processAddValidatorToPool_effect h
  | removeValidatorFromPool => exact processRemoveValidatorFromPool_effect h
  | decreaseValidatorStake => exact processDecreaseValidatorStake_effect h
  | increaseValidatorStake => exact processIncreaseValidatorStake_effect h
  | setPreferredValidator => exact processSetPreferredValidator_effect h
  | updateValidatorListBalance => exact processUpdateValidatorListBalance_effect h
  | updateStakePoolBalance => exact processUpdateStakePoolBalance_effect h
  | cleanupRemovedValidatorEntries => exact processCleanupRemovedValidatorEntries_effect h
  | depositStake => exact processDepositStake_effect h
  | withdrawStake => exact processWithdrawStake_effect h
  | setManager => exact processSetManager_effect h
  | setFee => exact processSetFee_effect h
  | setStaker => exact processSetStaker_effect h
  | depositSol => exact processDepositSol_effect h
  | setFundingAuthority => exact processSetFundingAuthority_effect h
  | withdrawSol => exact processWithdrawSol_effect h

/-- **Step.** An instruction writes its own pool, and besides that only a list of validators. -/
theorem Effect.elsewhere {A : Address} {i : StakePoolInstruction} (h : Effect w A accounts w' i) :
    Elsewhere A w w' := by
  cases h with
  | initializePool _ _ _ _ _ _ _ hwrote | books _ _ _ hwrote | setFee _ _ _ _ _ _ _ hwrote
  | updateStakePoolBalance _ _ hwrote | deposit _ _ _ _ hwrote | withdraw _ _ _ _ hwrote =>
    exact hwrote.elsewhere

variable {e : Event}

/-- An event that is no instruction of the pool program can at most make a new account for it. -/
structure Outside (w w' : World) : Prop where
  epoch : w.epoch ≤ w'.epoch
  data : ∀ B, w'.data B = w.data B ∨ w.data B = .none ∧ ∃ len, w'.data B = .allocated len

theorem Outside.of_eq (hdata : w'.data = w.data) (hepoch : w.epoch ≤ w'.epoch) : Outside w w' :=
  ⟨hepoch, fun B => .inl (by rw [hdata])⟩

/-- **Step.** An event is an instruction of the pool program, or it leaves the pools alone. -/
theorem World.exec_cases (h : w.exec env e = .ok w') :
    (∃ i accounts A, e = .pool i accounts ∧ namedPool accounts = some A ∧
      Effect w A accounts w' i) ∨
    (∀ i accounts, e ≠ .pool i accounts) ∧ Outside w w' := by
  cases e with
  | pool i accounts =>
    simp only [exec, failIf_bind_eq_ok] at h
    obtain ⟨A, hA, heffect⟩ := process_effect h.2
    exact .inl ⟨i, accounts, A, rfl, hA, heffect⟩
  | token =>
    simp only [exec] at h
    obtain ⟨_, -, rfl⟩ := callToken_eq_ok.mp h
    exact .inr ⟨by simp, .of_eq rfl le_rfl⟩
  | stake =>
    simp only [exec] at h
    have hw := stakesOnly_callStake h
    exact .inr ⟨by simp, .of_eq hw.data hw.epoch.ge⟩
  | allocate account len =>
    simp only [exec, failIf_bind_eq_ok, not_or, not_not, pure_eq_ok] at h
    obtain ⟨⟨-, hsystem⟩, rfl⟩ := h
    refine .inr ⟨by simp, le_rfl, fun B => ?_⟩
    by_cases hB : B = account
    · subst hB
      exact .inr ⟨hsystem.1, len, update_self ..⟩
    · exact .inl (update_of_ne hB _ _)
  | allocateStake =>
    simp only [exec, failIf_bind_eq_ok] at h
    have hw := stakesOnly_allocateStake h.2
    exact .inr ⟨by simp, .of_eq hw.data hw.epoch.ge⟩
  | transfer =>
    simp only [exec] at h
    have hw := stakesOnly_systemTransfer h
    exact .inr ⟨by simp, .of_eq hw.data hw.epoch.ge⟩
  | newEpoch =>
    cases h
    exact .inr ⟨by simp, .of_eq rfl (Nat.le_succ _)⟩
  | reclaim =>
    simp only [exec, failIf_bind_eq_ok, pure_eq_ok] at h
    rw [← h.2]
    exact .inr ⟨by simp, .of_eq rfl le_rfl⟩

theorem World.exec_epoch (h : w.exec env e = .ok w') : w.epoch ≤ w'.epoch := by
  rcases exec_cases h with ⟨i, accounts, A, rfl, hA, heffect⟩ | ⟨-, hout⟩
  · exact heffect.elsewhere.epoch.ge
  · exact hout.epoch

end Handlers

end SolanaPrograms.StakePools
