import SolanaPrograms.Token.Invariants

/-!
# Spending authority

Who can take tokens out of an account. A single instruction lowers the amount of an account only
with the signatures of its owner, of its delegate within the allowance, or, when a native account
is closed, of its close authority. Over a whole run a delegate never gets more than the last
`Approve` granted, whatever else happens, and nobody loses anything without having authorised an
instruction.
-/

namespace SolanaPrograms.Token

open Outcome SolanaPrograms.Runtime UInt64 Program

variable {id : Pubkey} {s s' : Bank} {accounts : List AccountMeta} {ix : TokenInstruction}

/-! ## One instruction -/

def balanceAt (id : Pubkey) (s : Bank) (k : Pubkey) : ℕ :=
  match accountAt id s k with
  | some a => a.amount.toNat
  | none => 0

variable {k : Pubkey} {a a' : Account} {d : Debit}

theorem balanceAt_some (h : accountAt id s k = some a) : balanceAt id s k = a.amount.toNat := by
  rw [balanceAt, h]

/-- The three ways in which `x` tokens may leave the account `a`. -/
inductive DebitAllowed (id : Pubkey) (s : Bank) (accounts : List AccountMeta)
    (ix : TokenInstruction) (a : Account) (x : ℕ) : Prop
  | owner (hauth : Authorized id s accounts a.owner)
  | delegate (delegate : Pubkey) (hdelegate : a.delegate = some delegate)
      (hauth : Authorized id s accounts delegate) (hle : x ≤ a.delegatedAmount.toNat)
  | closeAuthority (authority : Pubkey) (hix : ix = .closeAccount)
      (hnative : a.isNative.isSome = true) (hclose : a.closeAuthority = some authority)
      (hauth : Authorized id s accounts authority)

theorem DebitAuthority.allowed {authority : Pubkey} {x : UInt64}
    (h : DebitAuthority id s accounts a authority x a') :
    DebitAllowed id s accounts ix a x.toNat := by
  cases h with
  | delegate _ _ hdelegate hauth => exact .delegate authority hdelegate hauth (by omega)
  | owner _ hauth => exact .owner hauth

theorem no_debit {x : ℕ} (ha' : accountAt id s' k = some a')
    (hle : a.amount.toNat ≤ a'.amount.toNat) (hx : 0 < x)
    (hdebit : balanceAt id s' k + x = a.amount.toNat) : False := by
  rw [balanceAt_some ha'] at hdebit
  omega

/-- **Every debit is authorised.** -/
theorem Effect.debit_allowed (he : Effect id s s' accounts ix) {x : ℕ}
    (ha : accountAt id s k = some a) (hsystem : a.isOwnedBySystemProgramOrIncinerator = false)
    (hx : 0 < x) (hdebit : balanceAt id s' k + x = a.amount.toNat) :
    DebitAllowed id s accounts ix a x := by
  cases he.touched k with
  | kept howner hdata =>
    exact (no_debit ((stateAt_congr howner hdata).trans ha) le_rfl hx hdebit).elim
  | opened _ hnone => exact absurd (ha.symm.trans hnone) (by simp)
  | mint _ _ _ _ hbefore => exact absurd (ha.symm.trans (accountAt_of_mintAt hbefore)) (by simp)
  | account _ _ _ _ hbefore hafter _ hle =>
    cases ha.symm.trans hbefore
    exact (no_debit hafter (le_iff_toNat_le.mp hle) hx hdebit).elim
  | approved _ _ _ _ hbefore hafter =>
    cases ha.symm.trans hbefore
    exact (no_debit hafter le_rfl hx hdebit).elim
  | debited d _ _ _ _ _ _ _ hbefore hauth _ hafter =>
    cases ha.symm.trans hbefore
    rw [if_neg (by simp [hsystem])] at hauth
    rw [balanceAt_some hafter] at hdebit
    dsimp only at hdebit
    rw [show x = d.amount.toNat by omega]
    exact hauth.allowed
  | closed _ hix hbefore hbalance hauth =>
    cases ha.symm.trans hbefore
    have hauth := hauth hsystem
    cases hclose : a.closeAuthority with
    | none =>
      rw [hclose] at hauth
      exact .owner hauth
    | some authority =>
      rw [hclose] at hauth
      refine .closeAuthority authority hix ?_ hclose hauth
      by_contra hnone
      rw [hbalance (by simpa using hnone)] at hdebit
      have hzero : (0 : UInt64).toNat = 0 := rfl
      omega

/-! ## What a delegate spends -/

/-- The delegate branch: the authority of the debit is the delegate of the source account, and
the account is not one that anybody may burn from. -/
def delegateBranch (s : Bank) (d : Debit) : Bool :=
  match Pack.unpack Account (s d.source).data with
  | .ok a => a.delegate = some d.authority ∧
      (d.destination.isSome = true ∨ a.isOwnedBySystemProgramOrIncinerator = false)
  | .error _ => false

/-- What an instruction moves out of `k` through the delegate branch of `Transfer`,
`TransferChecked`, `Burn` or `BurnChecked`; a transfer to itself moves nothing out. -/
def delegateSpend (s : Bank) (ix : TokenInstruction) (accounts : List AccountMeta) (k : Pubkey) :
    ℕ :=
  match debitOf ix accounts with
  | some d =>
    if d.source = k ∧ d.destination ≠ some k ∧ delegateBranch s d then d.amount.toNat else 0
  | none => 0

/-- What was last approved for an account, and what its delegate spent since. -/
structure Allowance where
  approved : ℕ
  spent : ℕ
deriving DecidableEq

/-- A successful instruction restarts the count with an approval or adds what it spends. -/
def Allowance.after (g : Allowance) (s : Bank) (ix : TokenInstruction)
    (accounts : List AccountMeta) (k : Pubkey) : Allowance :=
  match approvalOf ix accounts with
  | some (source, amount) => if source = k then ⟨amount.toNat, 0⟩ else g
  | none => { g with spent := g.spent + delegateSpend s ix accounts k }

/-- Failed instructions and other events do not count. -/
def Allowance.afterEvent (g : Allowance) (s : Bank) (e : Event Rent TokenInstruction)
    (k : Pubkey) : Allowance :=
  match e with
  | .instruction rent ix accounts =>
    match program.execute rent ix accounts s with
    | .ok _ => g.after s ix accounts k
    | .error _ => g
  | _ => g

/-- The count along a run. -/
def Allowance.track (k : Pubkey) : Bank → Allowance → List (Event Rent TokenInstruction) → Allowance
  | _, g, [] => g
  | s, g, e :: es => .track k (program.step s e) (g.afterEvent s e k) es

/-- What is spent and what can still be spent stay within the approval. -/
structure Allowance.Covers (id : Pubkey) (g : Allowance) (s : Bank) (k : Pubkey) : Prop where
  spent_le : g.spent ≤ g.approved
  left_le : ∀ a, accountAt id s k = some a → g.spent + a.delegatedAmount.toNat ≤ g.approved

theorem delegateSpend_none (h : debitOf ix accounts = none) (k : Pubkey) :
    delegateSpend s ix accounts k = 0 := by
  rw [delegateSpend, h]

theorem delegateSpend_of_ne (h : ∀ d, debitOf ix accounts = some d → d.source ≠ k) :
    delegateSpend s ix accounts k = 0 := by
  rw [delegateSpend]
  split
  next d hd => exact if_neg fun hcond => h d hd hcond.1
  next => rfl

theorem delegateSpend_le (h : debitOf ix accounts = some d) (k : Pubkey) :
    delegateSpend s ix accounts k ≤ d.amount.toNat := by
  rw [delegateSpend, h]
  dsimp only
  split <;> omega

theorem delegateBranch_eq (ha : accountAt id s d.source = some a) :
    delegateBranch s d = true ↔ a.delegate = some d.authority ∧
      (d.destination.isSome = true ∨ a.isOwnedBySystemProgramOrIncinerator = false) := by
  rw [delegateBranch, (stateAt_eq_some.mp ha).2]
  simp

variable {g : Allowance}

theorem Allowance.Covers.of_no_spend (h : g.Covers id s k)
    (happroval : approvalOf ix accounts = none) (hspend : delegateSpend s ix accounts k = 0)
    (hleft : ∀ a', accountAt id s' k = some a' → a'.delegatedAmount = 0 ∨
      ∃ a, accountAt id s k = some a ∧ a'.delegatedAmount ≤ a.delegatedAmount) :
    (g.after s ix accounts k).Covers id s' k := by
  rw [Allowance.after, happroval]
  refine ⟨by simpa [hspend] using h.spent_le, fun a' ha' => ?_⟩
  simp only [hspend, Nat.add_zero]
  rcases hleft a' ha' with hzero | ⟨a, ha, hle⟩
  · rw [hzero]
    exact h.spent_le
  · have h₁ := h.left_le a ha
    have h₂ := le_iff_toNat_le.mp hle
    omega

theorem Allowance.Covers.of_debit {b : Account} (h : g.Covers id s k)
    (ha : accountAt id s k = some a) (hb : accountAt id s' k = some b)
    (happroval : approvalOf ix accounts = none) (hdebit : debitOf ix accounts = some d)
    (hsource : d.source = k) (hauth : DebitAuthority id s accounts a d.authority d.amount a')
    (hsame : b.delegatedAmount = a'.delegatedAmount) :
    (g.after s ix accounts k).Covers id s' k := by
  have hinv := h.left_le a ha
  cases hauth with
  | delegate =>
    have hspend := delegateSpend_le (s := s) hdebit k
    have hleft' : (g.after s ix accounts k).spent + b.delegatedAmount.toNat ≤
        (g.after s ix accounts k).approved := by
      rw [Allowance.after, happroval, hsame]
      dsimp only
      omega
    refine ⟨by omega, fun c hc => ?_⟩
    rw [hb] at hc
    cases hc
    exact hleft'
  | owner hdelegate =>
    -- the owner branch: the authority is not the delegate, so nothing counts
    refine h.of_no_spend happroval ?_ fun c hc => ?_
    · subst hsource
      have hbranch : delegateBranch s d ≠ true := fun hb =>
        hdelegate ((delegateBranch_eq ha).mp hb).1
      rw [delegateSpend, hdebit]
      simp [hbranch]
    · rw [hb] at hc
      cases hc
      exact .inr ⟨a, ha, by rw [hsame]; exact UInt64.le_refl _⟩

/-- Every effect keeps what is spent and left within the approval. -/
theorem Effect.covers (he : Effect id s s' accounts ix) (h : g.Covers id s k) :
    (g.after s ix accounts k).Covers id s' k := by
  cases he.touched k with
  | kept howner hdata hdebit happroval =>
    have hview : accountAt id s' k = accountAt id s k := stateAt_congr howner hdata
    cases hap : approvalOf ix accounts with
    | none =>
      refine h.of_no_spend hap ?_ fun a' ha' => .inr ⟨a', hview ▸ ha', UInt64.le_refl _⟩
      cases hd : debitOf ix accounts with
      | none => exact delegateSpend_none hd k
      | some d =>
        rw [delegateSpend, hd]
        exact if_neg fun hcond => hcond.2.1 (hdebit d hd hcond.1)
    | some p =>
      obtain ⟨source, amount⟩ := p
      rw [Allowance.after, hap]
      by_cases hk : source = k
      · subst hk
        refine ⟨by simp, fun a ha => ?_⟩
        rw [hview, happroval amount hap] at ha
        cases ha
      · simp only [hk, if_false]
        exact ⟨h.spent_le, fun a ha => h.left_le a (hview ▸ ha)⟩
  | opened hix _ _ _ _ _ _ hdelegated =>
    exact h.of_no_spend hix.2 (delegateSpend_none hix.1 k) fun a' ha' => .inl (hdelegated a' ha')
  | account a _ hdebit happroval hbefore hafter _ _ hle =>
    refine h.of_no_spend happroval (delegateSpend_of_ne hdebit) fun a' ha' => ?_
    cases hafter.symm.trans ha'
    exact .inr ⟨a, hbefore, hle⟩
  | approved _ _ _ happroval _ hafter =>
    rw [Allowance.after, happroval]
    simp only [if_true]
    refine ⟨Nat.zero_le _, fun a' ha' => ?_⟩
    cases hafter.symm.trans ha'
    simp
  | debited d _ _ _ hdebit hsource _ happroval hbefore hauth _ hafter =>
    split at hauth
    next hsystem =>
      -- anybody may burn here, which is not the delegate branch
      subst hauth hsource
      refine h.of_no_spend happroval ?_ fun a' ha' => ?_
      · have hbranch : delegateBranch s d ≠ true := fun hb => by
          have := ((delegateBranch_eq hbefore).mp hb).2
          simp [hsystem] at this
        rw [delegateSpend, hdebit]
        simp [hbranch]
      · cases hafter.symm.trans ha'
        exact .inr ⟨_, hbefore, UInt64.le_refl _⟩
    next => exact h.of_debit hbefore hafter happroval hdebit hsource hauth rfl
  | mint _ _ hdebit happroval _ hafter =>
    refine h.of_no_spend happroval (delegateSpend_of_ne hdebit) fun a' ha' => ?_
    exact absurd (ha'.symm.trans (accountAt_of_mintAt hafter)) (by simp)
  | closed _ hix _ _ _ _ hdata =>
    subst hix
    refine h.of_no_spend rfl (delegateSpend_none rfl k) fun a' ha' => ?_
    exact absurd (ha'.symm.trans (accountAt_zero hdata)) (by simp)

/-! ## Runs -/

theorem Allowance.Covers.of_drift (h : g.Covers id s k) (hd : Program.Drift id (s k) (s' k)) :
    g.Covers id s' k :=
  ⟨h.spent_le, fun a ha => h.left_le a (accountAt_of_drift hd ▸ ha)⟩

theorem Allowance.Covers.step (h : g.Covers tokenProgramId s k) (e : Event Rent TokenInstruction) :
    (g.afterEvent s e k).Covers tokenProgramId (program.step s e) k := by
  cases e with
  | instruction rent ix accounts =>
    simp only [Program.step, Allowance.afterEvent]
    cases hexec : program.execute rent ix accounts s with
    | ok => exact (execute_effect hexec).covers h
    | error => exact h
  | enter | external | deposit | reclaim =>
    exact h.of_drift (Program.step_drift (P := program) s (by simp) k)

/-- Along every run the delegate's spending stays covered. -/
theorem Allowance.Covers.track (h : g.Covers tokenProgramId s k)
    (events : List (Event Rent TokenInstruction)) :
    (Allowance.track k s g events).Covers tokenProgramId (program.run s events) k := by
  induction events generalizing s g with
  | nil => exact h
  | cons e _ ih => exact ih (h.step e)

/-- **Spending authority.** From any reached state, a successful instruction that lowers the
amount of an account of an ordinary owner is authorised; and in any run, what left an account
through the delegate branch since its last approval is at most the amount approved (zero
before the first approval). -/
theorem spending_authority {s₀ : Bank} (hfresh : program.Fresh s₀)
    (events : List (Event Rent TokenInstruction)) (k : Pubkey) :
    (∀ rent ix accounts s' a x,
      program.execute rent ix accounts (program.run s₀ events) = .ok s' →
      accountAt tokenProgramId (program.run s₀ events) k = some a →
      a.isOwnedBySystemProgramOrIncinerator = false → 0 < x →
      balanceAt tokenProgramId s' k + x = a.amount.toNat →
      DebitAllowed tokenProgramId (program.run s₀ events) accounts ix a x) ∧
    (Allowance.track k s₀ ⟨0, 0⟩ events).spent ≤ (Allowance.track k s₀ ⟨0, 0⟩ events).approved := by
  refine ⟨fun rent ix accounts s' a x hexec ha hsystem hx hdebit =>
    (execute_effect hexec).debit_allowed ha hsystem hx hdebit, ?_⟩
  have hstart : (⟨0, 0⟩ : Allowance).Covers tokenProgramId s₀ k :=
    ⟨le_rfl, fun a ha => absurd (stateAt_eq_some.mp ha).2
      (Account.unpack_zero (hfresh k (stateAt_eq_some.mp ha).1))⟩
  exact (hstart.track events).spent_le

/-- Five tokens are minted, three of them approved for a delegate, who burns two. -/
def delegationRun : List (Event Rent TokenInstruction) :=
  let mint : Pubkey := .replicate 1
  let account : Pubkey := .replicate 2
  let owner : Pubkey := .replicate 3
  let delegate : Pubkey := .replicate 4
  [.enter mint 82, .enter account 165,
    .instruction (flatRent 0) (.initializeMint2 0 owner none) [⟨mint, false⟩],
    .instruction (flatRent 0) (.initializeAccount3 owner) [⟨account, false⟩, ⟨mint, false⟩],
    .instruction (flatRent 0) (.mintTo 5) [⟨mint, false⟩, ⟨account, false⟩, ⟨owner, true⟩],
    .instruction (flatRent 0) (.approve 3)
      [⟨account, false⟩, ⟨delegate, false⟩, ⟨owner, true⟩],
    .instruction (flatRent 0) (.burn 2) [⟨account, false⟩, ⟨mint, false⟩, ⟨delegate, true⟩]]

theorem spending_authority_delegation :
    Allowance.track (.replicate 2) emptyBank ⟨0, 0⟩ delegationRun = ⟨3, 2⟩ ∧ 2 ≤ 3 := by
  have htrack : Allowance.track (.replicate 2) emptyBank ⟨0, 0⟩ delegationRun =
      ⟨3, 2⟩ := by decide +kernel
  have hle := (spending_authority program.fresh_emptyBank delegationRun (.replicate 2)).2
  rw [htrack] at hle
  exact ⟨htrack, hle⟩

/-! ## What a run leaves alone -/

/-- The accounts that only `x` has a say over lose nothing, and the mints of `x` do not grow. -/
structure Spared (x : Pubkey) (s s' : Bank) : Prop where
  account : ∀ k a, accountAt tokenProgramId s k = some a → a.Guarded → a.owner = x →
    ∃ a', accountAt tokenProgramId s' k = some a' ∧ a.Keeps a'
  mint : ∀ k m, mintAt tokenProgramId s k = some m → m.mintAuthority = some x →
    ∃ m', mintAt tokenProgramId s' k = some m' ∧ m.Keeps m'

variable {x : Pubkey} {s₁ s₂ : Bank}

/-- **Step.** An instruction that `x` does not authorise. -/
theorem Spared.guard (h : Spared x s s₁) (hguard : Guard tokenProgramId s₁ s₂ accounts)
    (hno : ¬ Authorized tokenProgramId s₁ accounts x) : Spared x s s₂ := by
  refine ⟨fun k a ha hg howner => ?_, fun k m hm hx => ?_⟩
  · obtain ⟨a₁, ha₁, hk⟩ := h.account k a ha hg howner
    obtain ⟨a₂, ha₂, hk'⟩ := hguard.account k a₁ ha₁ (hg.of_keeps hk) (by rwa [hk.owner, howner])
    exact ⟨a₂, ha₂, hk'.owner.trans hk.owner, hk'.mint.trans hk.mint,
      hk'.delegate.trans hk.delegate, hk'.closeAuthority.trans hk.closeAuthority,
      UInt64.le_trans hk.amount hk'.amount⟩
  · obtain ⟨m₁, hm₁, hk⟩ := h.mint k m hm hx
    obtain ⟨m₂, hm₂, hk'⟩ := hguard.mint k m₁ x hm₁ (hk.mintAuthority.trans hx) hno
    exact ⟨m₂, hm₂, hk'.mintAuthority.trans hk.mintAuthority, UInt64.le_trans hk'.supply hk.supply⟩

/-- **Run.** Whatever happens, what only `x` has a say over is spared until `x` authorises an
instruction and it is accepted. -/
theorem spared_unless_authorized (x : Pubkey) (s : Bank)
    (events : List (Event Rent TokenInstruction)) : Spared x s (program.run s events) ∨
      ∃ before rent ix accounts after s',
        events = before ++ .instruction rent ix accounts :: after ∧
        Authorized tokenProgramId (program.run s before) accounts x ∧
        program.execute rent ix accounts (program.run s before) = .ok s' := by
  induction events using List.reverseRecOn with
  | nil => exact .inl ⟨fun _ a ha _ _ => ⟨a, ha, .refl a⟩, fun _ m hm _ => ⟨m, hm, .refl m⟩⟩
  | append_singleton events e ih =>
    rcases ih with h | ⟨before, rent, ix, accounts, after, s', rfl, hauth⟩
    · rw [Program.run, List.foldl_concat, ← Program.run]
      rcases step_cases (program.run s events) e with heq | ⟨rent, ix, accounts, rfl, hexec⟩ | hd
      · exact .inl (by rwa [heq])
      · by_cases hauth : Authorized tokenProgramId (program.run s events) accounts x
        · exact .inr ⟨events, rent, ix, accounts, [], _, rfl, hauth, hexec⟩
        · exact .inl (h.guard (execute_guard hexec) hauth)
      · refine .inl ⟨fun k => ?_, fun k => ?_⟩
        · rw [accountAt_of_drift (hd k)]
          exact h.account k
        · rw [mintAt_of_drift (hd k)]
          exact h.mint k
    · exact .inr ⟨before, rent, ix, accounts, after ++ [e], s', by simp, hauth⟩

end SolanaPrograms.Token
