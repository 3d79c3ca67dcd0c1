import SolanaPrograms.Lib.Run
import SolanaPrograms.OraclePair.Processor

/-!
# What backs the PASS and FAIL tokens

Every token that can still win is backed by a deposit, as long as the instructions for the pool name
its own deposit account and mints, and a withdrawal without a decision asks for no more than the
PASS tokens at hand. The source checks neither: a deposit can go to any account, and of the PASS
tokens only what is there is burned.
-/

namespace SolanaPrograms.OraclePair

open Outcome World Option
open Function (update_of_ne update_self)

/-! ## The invariant -/

/-- The accounts of the pool at `P`: nobody else can move its deposits or mint its tokens, and the
deposits are of a third mint. The numbers are the balance and the two supplies. -/
structure Owned (b : Tokens.Book Address) (P : Address) (p : Pool) (depositMint : Address)
    (balance passSupply failSupply : ℕ) : Prop where
  version : p.version ≠ 0
  mints : p.tokenPassMint ≠ p.tokenFailMint
  deposit : b.HasLocked p.depositAccount depositMint (.authority P p.bumpSeed) balance
  pass : b.HasMint p.tokenPassMint (.authority P p.bumpSeed) passSupply
  fail : b.HasMint p.tokenFailMint (.authority P p.bumpSeed) failSupply
  pass_ne : p.tokenPassMint ≠ depositMint
  fail_ne : p.tokenFailMint ≠ depositMint

/-- The pool at `P` has its accounts, and if `c` holds, then the deposits cover the tokens that can
win. -/
def Backed (c : Prop) (b : Tokens.Book Address) (P : Address) (p : Pool) : Prop :=
  ∃ depositMint balance passSupply failSupply,
    Owned b P p depositMint balance passSupply failSupply ∧
    (c → (p.decision ≠ .fail → passSupply ≤ balance) ∧ (p.decision ≠ .pass → failSupply ≤ balance))

section Calls

variable {b b' : Tokens.Book Address} {P d : Address} {p : Pool} {signed : Address → Bool}
  {w w' : World} {n s t : ℕ} {c : Prop}

variable {k : Address} {f : Tokens.Book Address → Option (Tokens.Book Address)}

@[simp] theorem World.callToken_eq_ok :
    w.callToken k f = .ok w' ↔
      k = .splToken ∧ ∃ tokens, f w.tokens = some tokens ∧ { w with tokens } = w' := by
  rw [callToken, failIf_bind_eq_ok, not_not]
  simp only [checks]

theorem World.callToken_data (h : w.callToken k f = .ok w') : w'.data = w.data := by
  obtain ⟨-, _, -, rfl⟩ := callToken_eq_ok.mp h
  rfl

theorem World.burnForWithdraw_data {tokenProgram x y mint mint' : Address}
    {authority user : AccountMeta} {m n amount : ℕ}
    (h : w.burnForWithdraw p tokenProgram x y mint mint' authority user m n amount = .ok w') :
    w'.data = w.data := by
  unfold burnForWithdraw at h
  split at h
  · exact callToken_data h
  · exact callToken_data h
  · simp only [checks] at h
    obtain ⟨-, _, hw₁, hw'⟩ := h
    exact (callToken_data hw').trans (callToken_data hw₁)

variable {i : Tokens.Instruction Address} {fresh : Address → Bool}

/-- Without the signature of the pool, the deposits stay and no tokens are minted. -/
theorem Owned.exec (h : Owned b P p d n s t) (hsigned : signed (.authority P p.bumpSeed) = false)
    (hi : Tokens.exec signed fresh b i = some b') :
    ∃ n' s' t', Owned b' P p d n' s' t' ∧ n ≤ n' ∧ s' ≤ s ∧ t' ≤ t := by
  obtain ⟨n', hdeposit, hn⟩ := h.deposit.exec hsigned hi
  obtain ⟨s', hpass, hs⟩ := h.pass.exec hsigned hi
  obtain ⟨t', hfail, ht⟩ := h.fail.exec hsigned hi
  exact ⟨n', s', t', ⟨h.version, h.mints, hdeposit, hpass, hfail, h.pass_ne, h.fail_ne⟩, hn,
    by omega, by omega⟩

theorem Backed.exec (h : Backed c b P p) (hsigned : signed (.authority P p.bumpSeed) = false)
    (hi : Tokens.exec signed fresh b i = some b') : Backed c b' P p := by
  obtain ⟨d, _, _, _, howned, hcover⟩ := h
  obtain ⟨n', s', t', howned', hn, hs, ht⟩ := howned.exec hsigned hi
  refine ⟨d, n', s', t', howned', fun hc => ⟨fun hd => ?_, fun hd => ?_⟩⟩
  · have := (hcover hc).1 hd
    omega
  · have := (hcover hc).2 hd
    omega

variable {authority user : AccountMeta}

theorem signers_other {Q : Address} {bump bump' : ℕ} (hQ : authority.key = .authority Q bump)
    (hne : P ≠ Q) (huser : user.isSigner = true → user.key.canSign = true) :
    signers authority user (.authority P bump') = false := by
  unfold signers
  split_ifs with heq
  · rw [hQ]
    simp [hne]
  · by_cases hs : user.isSigner = true
    · have hcan := huser hs
      have : Address.authority P bump' ≠ user.key := by
        intro hkey
        rw [← hkey] at hcan
        cases hcan
      simp [this]
    · simp [hs]

theorem signers_user (hne : user.key ≠ authority.key) :
    signers authority user authority.key = false := by
  simp [signers, hne.symm]

end Calls

/-! ## Deposits and withdrawals of the pool -/

section Pool

variable {w w₁ w₂ w' : World} {P tokenProgram source destination destination' : Address} {p : Pool}
  {authority user : AccountMeta} {amount : ℕ} {c : Prop}

/-- A deposit for the pool. The deposits cover the new tokens if they go into the account of the pool
and the tokens are those of the pool. -/
theorem Backed.deposit {deposit passMint failMint : Address} (h : Backed c w.tokens P p)
    (hauthority : authority.key = .authority P p.bumpSeed)
    (hc : c → deposit = p.depositAccount ∧ passMint = p.tokenPassMint ∧
      failMint = p.tokenFailMint ∧ user.key ≠ authority.key)
    (htransfer : w.transfer tokenProgram source deposit authority user amount = .ok w₁)
    (hpass : w₁.mint tokenProgram passMint destination authority amount = .ok w₂)
    (hfail : w₂.mint tokenProgram failMint destination' authority amount = .ok w') :
    Backed c w'.tokens P p := by
  obtain ⟨d, _, _, _, howned, hcover⟩ := h
  simp only [transfer, mint, callToken_eq_ok] at htransfer hpass hfail
  obtain ⟨-, _, hb₁, rfl⟩ := htransfer
  obtain ⟨-, _, hb₂, rfl⟩ := hpass
  obtain ⟨-, _, hb₃, rfl⟩ := hfail
  obtain ⟨_, hd₁, -, hmore⟩ := howned.deposit.transfer hb₁
  obtain ⟨_, hd₂, _⟩ := hd₁.mintTo hb₂
  obtain ⟨n₃, hd₃, _⟩ := hd₂.mintTo hb₃
  have hp₃ := ((howned.pass.transfer hb₁).mintTo hb₂).mintTo hb₃
  have hf₃ := ((howned.fail.transfer hb₁).mintTo hb₂).mintTo hb₃
  refine ⟨d, n₃, _, _, ⟨howned.version, howned.mints, hd₃, hp₃, hf₃, howned.pass_ne,
    howned.fail_ne⟩, fun h => ?_⟩
  obtain ⟨hdeposit, rfl, rfl, huser⟩ := hc h
  have hsigned : signers authority user (.authority P p.bumpSeed) = false :=
    hauthority ▸ signers_user huser
  have hn := (hmore hsigned).2 hdeposit
  simp only [if_true, howned.mints, howned.mints.symm, if_false, Nat.add_zero]
  refine ⟨fun hd => ?_, fun hd => ?_⟩
  · have := (hcover h).1 hd
    omega
  · have := (hcover h).2 hd
    omega

theorem readTokenAccount_of_account {k : Address} {a a' : Tokens.TokenAccount Address}
    (ha : w.tokens k = .account a) (h : w.readTokenAccount k = .ok a') : a' = a := by
  simp only [readTokenAccount, ha] at h
  exact (Except.ok.inj h).symm

variable {signed : Address → Bool}

/-- If the FAIL tokens are burned after the PASS tokens, there were as many of them before. -/
theorem amount_le_failAccount {b b₁ b₂ : Tokens.Book Address}
    {passAccount failAccount passMint failMint who : Address} {n : ℕ} (hne : passMint ≠ failMint)
    (hpass : Tokens.burn signed passAccount passMint who n b = some b₁)
    (hfail : Tokens.burn signed failAccount failMint who amount b₁ = some b₂) :
    ∃ a, b failAccount = .account a ∧ amount ≤ a.amount := by
  obtain ⟨_, _, _, _, _, hmint, hspent, -, rfl⟩ := Tokens.burn_some hpass
  obtain ⟨_, fa, _, -, hfa, hmint', hspent', -, -⟩ := Tokens.burn_some hfail
  have hle := (Tokens.TokenAccount.spend_some hspent').2.1
  have hnotMint : failAccount ≠ passMint := by
    rintro rfl
    rw [update_self] at hfa
    cases hfa
  have hnotPass : failAccount ≠ passAccount := by
    rintro rfl
    rw [update_of_ne hnotMint, update_self] at hfa
    have hspentMint := (Tokens.TokenAccount.spend_some hspent).2.2.1
    rw [Tokens.Entry.account.inj hfa, hmint', hmint] at hspentMint
    exact hne hspentMint.symm
  rw [update_of_ne hnotMint, update_of_ne hnotPass] at hfa
  exact ⟨fa, hfa, by omega⟩

/-- Without a decision, the FAIL tokens at hand are enough, and the PASS tokens are burned as far as
they go. -/
theorem burn_undecided {passAccount failAccount passMint failMint : Address}
    {pa fa : Tokens.TokenAccount Address} {b₁ b₂ : Tokens.Book Address} (hne : passMint ≠ failMint)
    (hpa : w.readTokenAccount passAccount = .ok pa) (hfa : w.readTokenAccount failAccount = .ok fa)
    (hpass : Tokens.burn signed passAccount passMint user.key (min (min amount pa.amount) fa.amount)
      w.tokens = some b₁)
    (hfail : Tokens.burn signed failAccount failMint user.key amount b₁ = some b₂) :
    min (min amount pa.amount) fa.amount = min amount (w.tokens.balance passAccount) := by
  obtain ⟨_, hfa', hle⟩ := amount_le_failAccount hne hpass hfail
  obtain ⟨_, _, _, -, hpa', -⟩ := Tokens.burn_some hpass
  rw [readTokenAccount_of_account hfa' hfa, readTokenAccount_of_account hpa' hpa,
    Tokens.Book.balance_of_account hpa']
  omega

/-- What is left of the supplies after the burns of a withdrawal. -/
theorem Owned.burnForWithdraw {passAccount failAccount d : Address} {n s t : ℕ}
    {pa fa : Tokens.TokenAccount Address} (h : Owned w.tokens P p d n s t)
    (hpa : w.readTokenAccount passAccount = .ok pa) (hfa : w.readTokenAccount failAccount = .ok fa)
    (hburn : w.burnForWithdraw p tokenProgram passAccount failAccount p.tokenPassMint
      p.tokenFailMint authority user pa.amount fa.amount amount = .ok w₁) :
    ∃ s' t', Owned w₁.tokens P p d n s' t' ∧
      ((p.decision = .undecided → amount ≤ w.tokens.balance passAccount) →
        (p.decision ≠ .fail → s' + amount = s) ∧ (p.decision ≠ .pass → t' + amount = t)) := by
  obtain ⟨hversion, hmints, hd, hp, hf, hne, hne'⟩ := h
  unfold World.burnForWithdraw at hburn
  split at hburn
  next hdecision =>
    obtain ⟨-, _, hb₁, rfl⟩ := callToken_eq_ok.mp hburn
    obtain ⟨s', hs', hsum⟩ := hp.burn hb₁
    obtain ⟨t', ht', -⟩ := hf.burn hb₁
    exact ⟨s', t', ⟨hversion, hmints, hd.burn hne hb₁, hs', ht', hne, hne'⟩,
      fun _ => ⟨fun _ => by simpa using hsum, by simp [hdecision]⟩⟩
  next hdecision =>
    obtain ⟨-, _, hb₁, rfl⟩ := callToken_eq_ok.mp hburn
    obtain ⟨s', hs', -⟩ := hp.burn hb₁
    obtain ⟨t', ht', hsum⟩ := hf.burn hb₁
    exact ⟨s', t', ⟨hversion, hmints, hd.burn hne' hb₁, hs', ht', hne, hne'⟩,
      fun _ => ⟨by simp [hdecision], fun _ => by simpa using hsum⟩⟩
  next hdecision =>
    simp only [checks] at hburn
    obtain ⟨-, _, hw₂, hw₁⟩ := hburn
    obtain ⟨-, _, hb₁, rfl⟩ := callToken_eq_ok.mp hw₂
    obtain ⟨-, _, hb₂, rfl⟩ := callToken_eq_ok.mp hw₁
    obtain ⟨_, hs, hsum⟩ := hp.burn hb₁
    obtain ⟨s', hs', hsum'⟩ := hs.burn hb₂
    obtain ⟨_, ht, htsum⟩ := hf.burn hb₁
    obtain ⟨t', ht', htsum'⟩ := ht.burn hb₂
    refine ⟨s', t', ⟨hversion, hmints, (hd.burn hne hb₁).burn hne' hb₂, hs', ht', hne, hne'⟩,
      fun henough => ?_⟩
    rw [burn_undecided hmints hpa hfa hb₁ hb₂, min_eq_left (henough hdecision)] at hsum htsum
    simp only [if_true, hmints, hmints.symm, if_false, Nat.add_zero] at hsum hsum' htsum htsum'
    exact ⟨fun _ => by omega, fun _ => by omega⟩

/-- A withdrawal from the pool. The tokens that are burned are as many as the deposits that are paid
out, if there are enough PASS tokens. -/
theorem Backed.withdraw {passAccount failAccount : Address} {pa fa : Tokens.TokenAccount Address}
    (h : Backed c w.tokens P p)
    (hpa : w.readTokenAccount passAccount = .ok pa) (hfa : w.readTokenAccount failAccount = .ok fa)
    (henough : c → p.decision = .undecided → amount ≤ w.tokens.balance passAccount)
    (hburn : w.burnForWithdraw p tokenProgram passAccount failAccount p.tokenPassMint
      p.tokenFailMint authority user pa.amount fa.amount amount = .ok w₁)
    (htransfer : w₁.transfer tokenProgram source destination authority authority amount = .ok w') :
    Backed c w'.tokens P p := by
  obtain ⟨d, _, _, _, howned, hcover⟩ := h
  obtain ⟨s', t', h₁, hburnt⟩ := howned.burnForWithdraw hpa hfa hburn
  simp only [transfer, callToken_eq_ok] at htransfer
  obtain ⟨-, _, hb₂, rfl⟩ := htransfer
  obtain ⟨n, hd₂, _, -⟩ := h₁.deposit.transfer hb₂
  refine ⟨d, n, s', t', ⟨h₁.version, h₁.mints, hd₂, h₁.pass.transfer hb₂, h₁.fail.transfer hb₂,
    h₁.pass_ne, h₁.fail_ne⟩, fun hc => ?_⟩
  obtain ⟨hsum, hsum'⟩ := hburnt (henough hc)
  refine ⟨fun hdecision => ?_, fun hdecision => ?_⟩
  · have := (hcover hc).1 hdecision
    have := hsum hdecision
    omega
  · have := (hcover hc).2 hdecision
    have := hsum' hdecision
    omega

end Pool

/-! ## Other pools -/

/-- The accounts of this program are as before, and the pool at `P` is backed if it was. -/
structure Spares (P : Address) (w w' : World) : Prop where
  data : w'.data = w.data
  backed : ∀ c p, Backed c w.tokens P p → Backed c w'.tokens P p

section Spares

variable {w w₁ w' : World} {P Q tokenProgram source destination : Address}
  {authority user : AccountMeta} {amount bump : ℕ}

theorem Spares.trans (h : Spares P w w₁) (h' : Spares P w₁ w') : Spares P w w' :=
  ⟨h'.data.trans h.data, fun c p hp => h'.backed c p (h.backed c p hp)⟩

theorem spares_callToken (fresh : Address → Bool)
    (hsigned : ∀ bump, signed (.authority P bump) = false)
    (h : w.callToken tokenProgram (fun b => Tokens.exec signed fresh b i) = .ok w') :
    Spares P w w' := by
  obtain ⟨-, _, hb, rfl⟩ := callToken_eq_ok.mp h
  exact ⟨rfl, fun _ _ hp => hp.exec (hsigned _) hb⟩

section OtherPool

variable (hQ : authority.key = .authority Q bump) (hne : P ≠ Q)
  (huser : user.isSigner = true → user.key.canSign = true)

include hQ hne huser

theorem spares_transfer
    (h : w.transfer tokenProgram source destination authority user amount = .ok w') :
    Spares P w w' :=
  spares_callToken Address.canSign (i := .transfer source destination user.key amount)
    (fun _ => signers_other hQ hne huser) h

theorem spares_burn (h : w.burn tokenProgram source destination authority user amount = .ok w') :
    Spares P w w' :=
  spares_callToken Address.canSign (i := .burn source destination user.key amount)
    (fun _ => signers_other hQ hne huser) h

theorem spares_burnForWithdraw {p : Pool} {x y mint mint' : Address} {m n : ℕ}
    (h : w.burnForWithdraw p tokenProgram x y mint mint' authority user m n amount = .ok w') :
    Spares P w w' := by
  unfold burnForWithdraw at h
  split at h
  · exact spares_burn hQ hne huser h
  · exact spares_burn hQ hne huser h
  · simp only [checks] at h
    obtain ⟨-, _, hw₁, hw'⟩ := h
    exact (spares_burn hQ hne huser hw₁).trans (spares_burn hQ hne huser hw')

end OtherPool

theorem spares_mint (hQ : authority.key = .authority Q bump) (hne : P ≠ Q)
    (h : w.mint tokenProgram source destination authority amount = .ok w') : Spares P w w' :=
  spares_callToken Address.canSign (i := .mintTo source destination authority.key amount)
    (fun _ => by simp [signers, hQ, hne]) h

theorem spares_initialise (h : w.initialise tokenProgram i = .ok w') : Spares P w w' :=
  spares_callToken _ (fun _ => rfl) h

end Spares

/-! ## Runs -/

/-- A deposit names the deposit account and the mints of the pool, and its tokens come from a user.
A withdrawal without a decision asks for no more PASS tokens than the account holds. -/
def Pool.careful (p : Pool) (P : Address) (w : World) :
    PoolInstruction → List AccountMeta → Bool
  | .deposit _, _ :: _ :: user :: _ :: deposit :: passMint :: failMint :: _ =>
    deposit.key = p.depositAccount ∧ passMint.key = p.tokenPassMint ∧
      failMint.key = p.tokenFailMint ∧ user.key ≠ .authority P p.bumpSeed
  | .withdraw amount, _ :: _ :: _ :: _ :: passAccount :: _ =>
    p.decision = .undecided → amount ≤ w.tokens.balance passAccount.key
  | _, _ => true

def careful (P : Address) (w : World) : Event → Bool
  | .pool instruction accounts =>
    match accounts.head?, w.data P with
    | some poolAccount, .pool p =>
      poolAccount.key ≠ P ∨ p.careful P w instruction accounts = true
    | _, _ => true
  | _ => true

def Covered (c : Prop) (P : Address) (w : World) : Prop :=
  ∀ p, w.data P = .pool p → Backed c w.tokens P p

section Runs

variable {env : Environment} {w w' : World} {P : Address} {e : Event}
  {accounts : List AccountMeta} {amount : ℕ} {c : Prop}

theorem Spares.covered (h : Spares P w w') (hw : Covered c P w) : Covered c P w' :=
  fun p hp => h.backed c p (hw p (h.data ▸ hp))

@[simp] theorem checkAuthority_eq_ok {k authority : Address} {bump : ℕ} {u : Unit} :
    checkAuthority env k authority bump = .ok u ↔
      env.validBump k bump = true ∧ authority = .authority k bump := by
  simp [checkAuthority, failIf_bind_eq_ok]

theorem readPool_of_pool {p q : Pool} (hp : w.data P = .pool p) (h : w.readPool P = .ok q) :
    q = p := by
  simp only [readPool, hp] at h
  exact (Except.ok.inj h).symm

/-- A write of a pool: a changed pool belongs to the program. -/
theorem writePool_ok {k : Address} {q : Pool} (h : w.writePool k q = .ok w') :
    w'.tokens = w.tokens ∧ (∀ P, P ≠ k → w'.data P = w.data P) ∧
      (w'.data k = .pool q ∧ (w.data k = .allocated ∨ ∃ p, w.data k = .pool p) ∨
        w' = w ∧ w.data k = .foreignPool q) := by
  unfold writePool at h
  split at h
  · next hk =>
    cases h
    exact ⟨rfl, fun P hP => update_of_ne hP _ _,
      .inl ⟨update_self .., .inl hk⟩⟩
  · next p hk =>
    cases h
    exact ⟨rfl, fun P hP => update_of_ne hP _ _,
      .inl ⟨update_self .., .inr ⟨p, hk⟩⟩⟩
  · next p hp =>
    split_ifs at h with heq
    cases h
    exact ⟨rfl, fun _ _ => rfl, .inr ⟨rfl, heq ▸ hp⟩⟩
  · cases h

theorem processDeposit_covered (hw : Covered c P w)
    (hc : c → careful P w (.pool (.deposit amount) accounts) = true)
    (hguard : ∀ a ∈ accounts, a.isSigner = true → a.key.canSign = true)
    (h : processDeposit env accounts amount w = .ok w') : Covered c P w' := by
  unfold processDeposit at h
  split at h
  next poolAccount authority user source deposit passMint failMint passDestination failDestination
      clock tokenProgram rest =>
    simp only [checks, checkAuthority_eq_ok] at h
    obtain ⟨-, -, _, hpool, -, ⟨-, hauthority⟩, _, hw₁, _, hw₂, hw'⟩ := h
    by_cases hP : P = poolAccount.key
    · subst hP
      have hdata : w'.data = w.data :=
        (callToken_data hw').trans ((callToken_data hw₂).trans
          (callToken_data hw₁))
      intro p hp
      rw [hdata] at hp
      obtain rfl := readPool_of_pool hp hpool
      simp only [careful, List.head?_cons, hp, Pool.careful, ne_eq, not_true_eq_false, false_or,
        decide_eq_true_eq, ← hauthority] at hc
      exact (hw _ hp).deposit hauthority hc hw₁ hw₂ hw'
    · exact (((spares_transfer hauthority hP (hguard user (by simp)) hw₁).trans
        (spares_mint hauthority hP hw₂)).trans (spares_mint hauthority hP hw')).covered hw
  next => cases h

theorem processWithdraw_covered (hw : Covered c P w)
    (hc : c → careful P w (.pool (.withdraw amount) accounts) = true)
    (hguard : ∀ a ∈ accounts, a.isSigner = true → a.key.canSign = true)
    (h : processWithdraw env accounts amount w = .ok w') : Covered c P w' := by
  unfold processWithdraw at h
  split at h
  next poolAccount authority user deposit passAccount failAccount passMint failMint destination
      clock tokenProgram rest =>
    simp only [checks, checkAuthority_eq_ok, ne_eq, not_not] at h
    obtain ⟨-, -, _, hpa, _, hfa, _, hpool, hpass, hfail, ⟨-, hauthority⟩, _, hw₁, hw'⟩ := h
    by_cases hP : P = poolAccount.key
    · subst hP
      intro p hp
      have hdata : w'.data = w.data :=
        (callToken_data hw').trans (burnForWithdraw_data hw₁)
      rw [hdata] at hp
      obtain rfl := readPool_of_pool hp hpool
      simp only [careful, List.head?_cons, hp, Pool.careful, ne_eq, not_true_eq_false, false_or,
        decide_eq_true_eq] at hc
      rw [← hpass, ← hfail] at hw₁
      exact (hw _ hp).withdraw hpa hfa hc hw₁ hw'
    · have hauthority' : authority.isSigner = true → authority.key.canSign = true :=
        hguard authority (by simp)
      exact ((spares_burnForWithdraw hauthority hP (hguard user (by simp)) hw₁).trans
        (spares_transfer hauthority hP hauthority' hw')).covered hw
  next => cases h

theorem processDecide_covered {decision : Bool} (hw : Covered c P w)
    (hguard : ∀ a ∈ accounts, a.isSigner = true → a.key.canSign = true)
    (h : processDecide accounts decision w = .ok w') : Covered c P w' := by
  unfold processDecide at h
  split at h
  next poolAccount decider clock rest =>
    simp only [checks, ne_eq, not_not] at h
    obtain ⟨-, pool, hpool, hdecider, hsigned, hundecided, -, hwrite⟩ := h
    obtain ⟨htokens, hother, hself⟩ := writePool_ok hwrite
    intro p hp
    rw [htokens]
    by_cases hP : P = poolAccount.key
    · subst hP
      rcases hself with ⟨hself, hallocated | ⟨q, hq⟩⟩ | ⟨rfl, hforeign⟩
      · -- The decider of an account that was never written cannot sign.
        simp only [readPool, hallocated] at hpool
        cases hpool
        have hcan := hguard decider (by simp) (by simpa using hsigned)
        rw [hdecider] at hcan
        cases hcan
      · obtain rfl := readPool_of_pool hq hpool
        obtain ⟨d, n, s, t, ⟨hversion, hmints, hd, hpass, hfail, hne, hne'⟩, hcover⟩ := hw _ hq
        obtain rfl := Data.pool.inj (hself.symm.trans hp)
        exact ⟨d, n, s, t, ⟨hversion, hmints, hd, hpass, hfail, hne, hne'⟩, fun hc =>
          ⟨fun _ => (hcover hc).1 (by simp [hundecided]),
            fun _ => (hcover hc).2 (by simp [hundecided])⟩⟩
      · rw [hforeign] at hp
        cases hp
    · rw [hother P hP] at hp
      exact hw p hp
  next => cases h

theorem initialise_backed {tokenProgram authority deposit depositMint passMint failMint : Address}
    {w₁ w₂ : World} {m : Tokens.Mint Address} (howned : Tokens.Special.ownerless authority = false)
    (hm : w.tokens depositMint = .mint m)
    (hdeposit : w.initialise tokenProgram (.initializeAccount deposit depositMint authority) = .ok w₁)
    (hpass : w₁.initialise tokenProgram (.initializeMint passMint authority none) = .ok w₂)
    (hfail : w₂.initialise tokenProgram (.initializeMint failMint authority none) = .ok w') :
    passMint ≠ failMint ∧ w'.tokens.HasLocked deposit depositMint authority 0 ∧
      w'.tokens.HasMint passMint authority 0 ∧ w'.tokens.HasMint failMint authority 0 ∧
      passMint ≠ depositMint ∧ failMint ≠ depositMint := by
  simp only [initialise, callToken_eq_ok, Tokens.exec, bind_eq_bind,
    bind_eq_some_iff, ite_none_right_eq_some, some.injEq] at hdeposit hpass hfail
  obtain ⟨-, _, ⟨_, -, ⟨hfree, -⟩, rfl⟩, rfl⟩ := hdeposit
  obtain ⟨-, _, ⟨⟨hfreePass, -⟩, rfl⟩, rfl⟩ := hpass
  obtain ⟨-, _, ⟨⟨hfreeFail, -⟩, rfl⟩, rfl⟩ := hfail
  have hdm : depositMint ≠ deposit := by
    rintro rfl
    simp [hm] at hfree
  have hpd : passMint ≠ deposit := by
    rintro rfl
    simp at hfreePass
  have hpm : passMint ≠ depositMint := by
    rintro rfl
    simp [hm, hdm] at hfreePass
  have hfp : failMint ≠ passMint := by
    rintro rfl
    simp at hfreeFail
  have hfd : failMint ≠ deposit := by
    rintro rfl
    simp [hfp] at hfreeFail
  have hfm : failMint ≠ depositMint := by
    rintro rfl
    simp [hm, hdm, hfp] at hfreeFail
  refine ⟨hfp.symm, ⟨⟨depositMint, authority, 0, none, 0, none, false, false⟩, ?_,
      ⟨rfl, howned, rfl, rfl, rfl⟩, rfl⟩, ⟨⟨some authority, 0, none⟩, ?_, rfl, rfl⟩,
    ⟨_, update_self .., rfl, rfl⟩, hpm, hfm⟩
  · dsimp only
    rw [update_of_ne hfd.symm, update_of_ne hpd.symm, update_self]
  · dsimp only
    rw [update_of_ne hfp.symm, update_self]

theorem processInitPool_covered {mintEndSlot decideEndSlot bumpSeed : ℕ} (hw : Covered c P w)
    (h : processInitPool env accounts mintEndSlot decideEndSlot bumpSeed w = .ok w') :
    Covered c P w' := by
  unfold processInitPool at h
  split at h
  next poolAccount authority decider depositMint deposit passMint failMint rent tokenProgram rest =>
    simp only [checks, checkAuthority_eq_ok, ne_eq, not_not] at h
    obtain ⟨-, pool, hpool, hversion, -, -, hmint, ⟨-, hauthority⟩, -, -, -, _, hw₁, _, hw₂, w₃,
      hw₃, hwrite⟩ := h
    obtain ⟨htokens, hother, hself⟩ := writePool_ok hwrite
    have hspares : Spares P w w₃ :=
      ((spares_initialise hw₁).trans (spares_initialise hw₂)).trans (spares_initialise hw₃)
    intro p hp
    rw [htokens]
    by_cases hP : P = poolAccount.key
    · subst hP
      rcases hself with ⟨hself, hallocated | ⟨q, hq⟩⟩ | ⟨rfl, hforeign⟩
      · obtain rfl := Data.pool.inj (hself.symm.trans hp)
        obtain ⟨_, hm⟩ := ne_none_iff_exists'.mp hmint
        obtain ⟨hmints, hd, hpass, hfail, hne, hne'⟩ :=
          initialise_backed (by rw [hauthority]; rfl) (Tokens.Book.mint?_eq_some.mp hm) hw₁ hw₂ hw₃
        rw [hauthority] at hd hpass hfail
        exact ⟨depositMint.key, 0, 0, 0, ⟨by simp, hmints, hd, hpass, hfail, hne, hne'⟩,
          fun _ => ⟨fun _ => le_rfl, fun _ => le_rfl⟩⟩
      · rw [hspares.data] at hq
        obtain rfl := readPool_of_pool hq hpool
        obtain ⟨_, _, _, _, howned, -⟩ := hw _ hq
        exact absurd hversion howned.version
      · rw [hforeign] at hp
        cases hp
    · rw [hother P hP] at hp
      exact hspares.covered hw p hp
  next => cases h

/-- **Step.** -/
theorem exec_covered (hw : Covered c P w) (hc : c → careful P w e = true)
    (h : w.exec env e = .ok w') : Covered c P w' := by
  cases e with
  | pool instruction accounts =>
    simp only [exec, failIf_bind_eq_ok] at h
    obtain ⟨hguard, hprocess⟩ := h
    have hguard : ∀ a ∈ accounts, a.isSigner = true → a.key.canSign = true := by
      intro a ha hs
      by_contra hno
      exact hguard ⟨a, ha, hs, by simpa using hno⟩
    cases instruction with
    | initPool => exact processInitPool_covered hw hprocess
    | deposit => exact processDeposit_covered hw hc hguard hprocess
    | withdraw => exact processWithdraw_covered hw hc hguard hprocess
    | decide => exact processDecide_covered hw hguard hprocess
  | token =>
    exact (spares_initialise h).covered hw
  | allocate account =>
    simp only [exec, failIf_bind_eq_ok, pure_eq_ok] at h
    obtain ⟨-, rfl⟩ := h
    intro p hp
    by_cases hP : P = account
    · subst hP
      simp at hp
    · exact hw p (by simpa [hP] using hp)
  | foreign account data =>
    simp only [exec, failIf_bind_eq_ok, not_or, pure_eq_ok] at h
    obtain ⟨⟨-, hdata⟩, rfl⟩ := h
    intro p hp
    by_cases hP : P = account
    · subst hP
      obtain rfl : data = .pool p := by simpa using hp
      exact absurd rfl hdata
    · exact hw p (by simpa [hP] using hp)
  | newSlot =>
    cases h
    exact hw

/-- **Run.** In every run the pool keeps its accounts, and its tokens stay covered if the
instructions for it are careful. -/
theorem run_covered {events : List Event} (hw : Covered c P w)
    (hc : c → Along (step env) (fun w e => careful P w e = true) w events) :
    Covered c P (events.foldl (step env) w) := by
  induction events generalizing w with
  | nil => exact hw
  | cons e events ih =>
    refine ih ?_ fun h => (hc h).2
    unfold step
    split
    next w' hw' => exact exec_covered hw (fun h => (hc h).1) hw'
    next => exact hw

theorem World.Blank.covered (hblank : w.Blank) : Covered c P w := fun p hp => absurd hp (hblank P p)

/-- In every run in which the instructions for a pool are careful, the balance of its deposit account
is at least the supply of every token that can still be exchanged for deposits. -/
theorem winning_tokens_redeemable {events : List Event} {p : Pool} (hblank : w.Blank)
    (hcareful : Along (step env) (fun w e => careful P w e = true) w events)
    (hp : (events.foldl (step env) w).data P = .pool p) :
    (p.decision ≠ .fail → (events.foldl (step env) w).tokens.supply p.tokenPassMint ≤
      (events.foldl (step env) w).tokens.balance p.depositAccount) ∧
    (p.decision ≠ .pass → (events.foldl (step env) w).tokens.supply p.tokenFailMint ≤
      (events.foldl (step env) w).tokens.balance p.depositAccount) := by
  have hcovered : Covered True P (events.foldl (step env) w) :=
    run_covered hblank.covered fun _ => hcareful
  obtain ⟨_, _, _, _, howned, hcover⟩ := hcovered p hp
  obtain ⟨_, ha, -, rfl⟩ := howned.deposit
  obtain ⟨_, hm, -, rfl⟩ := howned.pass
  obtain ⟨_, hm', -, rfl⟩ := howned.fail
  rw [Tokens.Book.supply_of_mint hm, Tokens.Book.supply_of_mint hm',
    Tokens.Book.balance_of_account ha]
  exact hcover trivial

/-! ## Withdrawals without a decision -/

def FullPairs (p : Pool) (w w' : World) : Prop :=
  ∃ n, w'.tokens.supply p.tokenPassMint + n = w.tokens.supply p.tokenPassMint ∧
    w'.tokens.supply p.tokenFailMint + n = w.tokens.supply p.tokenFailMint ∧
    w'.tokens.balance p.depositAccount + n = w.tokens.balance p.depositAccount

theorem transfer_balance {b b' : Tokens.Book Address} {source destination who : Address}
    {signed : Address → Bool}
    (h : Tokens.transfer signed source destination who amount b = some b') :
    b'.balance source + (if destination = source then 0 else amount) = b.balance source := by
  obtain ⟨_, _, _, hsa, -, -, hspent, ⟨rfl, rfl⟩ | ⟨hne, rfl⟩⟩ := Tokens.transfer_some h
  · simp
  · have hle := (Tokens.TokenAccount.spend_some hspent).2.1
    rw [if_neg hne.symm, Tokens.Book.balance_of_account hsa, ← hle,
      Tokens.Book.balance_of_account (by rw [update_of_ne hne, update_self])]

/-- In every run, a withdrawal without a decision from the deposits of a pool takes full pairs if and
only if there are enough PASS tokens and the deposits do not go where they come from. -/
theorem withdraw_full_pairs_iff {w₀ : World} {events : List Event}
    {poolAccount deposit passAccount failAccount passMint failMint payee clock program : AccountMeta}
    {rest : List AccountMeta} (hblank : w₀.Blank) (hrun : events.foldl (step env) w₀ = w)
    (hpool : w.data poolAccount.key = .pool p) (hundecided : p.decision = .undecided)
    (hdeposit : deposit.key = p.depositAccount)
    (h : processWithdraw env (poolAccount :: authority :: user :: deposit :: passAccount ::
      failAccount :: passMint :: failMint :: payee :: clock :: program :: rest) amount w = .ok w') :
    FullPairs p w w' ↔
      amount ≤ w.tokens.balance passAccount.key ∧ payee.key ≠ p.depositAccount := by
  have hcovered : Covered False poolAccount.key w :=
    hrun ▸ run_covered hblank.covered False.elim
  obtain ⟨d, _, _, _, ⟨-, hmints, ⟨a, ha, ⟨rfl, -, -, -⟩, -⟩, -, -, hne, hne'⟩, -⟩ :=
    hcovered p hpool
  simp only [processWithdraw, checks, ne_eq, not_not] at h
  obtain ⟨-, hzero, _, hpa, _, hfa, q, hq, hpass, hfail, _, -, _, hburn, htransfer⟩ := h
  obtain rfl : p = q := (readPool_of_pool hpool hq).symm
  simp only [burnForWithdraw, hundecided, checks] at hburn
  obtain ⟨-, _, hw₁, hw₂⟩ := hburn
  obtain ⟨-, b₁, hb₁, rfl⟩ := callToken_eq_ok.mp hw₁
  obtain ⟨-, b₂, hb₂, rfl⟩ := callToken_eq_ok.mp hw₂
  obtain ⟨-, b₃, hb₃, rfl⟩ := callToken_eq_ok.mp htransfer
  rw [← hpass] at hb₁
  rw [← hfail] at hb₂
  rw [hdeposit] at hb₃
  have ha₁ := Tokens.burn_other ha hne.symm hb₁
  have ha₂ := Tokens.burn_other (ha₁.trans ha) hne'.symm hb₂
  have hpaid := transfer_balance hb₃
  rw [Tokens.Book.balance_of_account (ha₂.trans (ha₁.trans ha)),
    ← Tokens.Book.balance_of_account ha] at hpaid
  have hp₁ := Tokens.burn_supply hb₁ p.tokenPassMint
  have hp₂ := Tokens.burn_supply hb₂ p.tokenPassMint
  have hf₁ := Tokens.burn_supply hb₁ p.tokenFailMint
  have hf₂ := Tokens.burn_supply hb₂ p.tokenFailMint
  rw [burn_undecided hmints hpa hfa hb₁ hb₂] at hp₁ hf₁
  simp only [if_true, hmints, hmints.symm, if_false, Nat.add_zero] at hp₁ hp₂ hf₁ hf₂
  simp only [FullPairs, Tokens.transfer_supply hb₃]
  constructor
  · rintro ⟨n, hn, hn', hn''⟩
    split_ifs at hpaid with hpayee
    · omega
    · exact ⟨by omega, hpayee⟩
  · rintro ⟨hle, hpayee⟩
    rw [if_neg hpayee] at hpaid
    exact ⟨amount, by omega, by omega, hpaid⟩

end Runs

/-! ## A pool to look at -/

namespace Sample

def environment : Environment := ⟨fun _ _ => true, fun _ => true⟩

def start : World := ⟨fun _ => .none, fun _ => .free, 0⟩

theorem start_blank : start.Blank := fun _ _ => nofun

def user : Address := .key 0

def pool : Address := .key 1

def depositMint : Address := .key 2

def deposit : Address := .key 3

def passMint : Address := .key 4

def failMint : Address := .key 5

/-- The deposit tokens of the user, in two accounts. -/
def purse : Address := .key 6

def secondPurse : Address := .key 7

def passTokens : Address := .key 8

def failTokens : Address := .key 9

def named (k : Address) : AccountMeta := ⟨k, false⟩

def authority : AccountMeta := named (.authority pool 255)

def found : List Event :=
  [.token (.initializeMint depositMint user none), .token (.initializeAccount purse depositMint user),
   .token (.initializeAccount secondPurse depositMint user),
   .token (.mintTo depositMint purse user 5), .allocate pool,
   .pool (.initPool 10 20 255) [named pool, authority, named user, named depositMint, named deposit,
     named passMint, named failMint, named .rent, named .splToken],
   .token (.initializeAccount passTokens passMint user),
   .token (.initializeAccount failTokens failMint user)]

def depositInto (k : Address) : Event :=
  .pool (.deposit 5) [named pool, authority, ⟨user, true⟩, named purse, named k, named passMint,
    named failMint, named passTokens, named failTokens, named .clock, named .splToken]

def founded : Pool := ⟨1, 255, .splToken, deposit, passMint, failMint, user, 10, 20, .undecided⟩

def withdrawAccounts : List AccountMeta :=
  [named pool, authority, ⟨user, true⟩, named deposit, named passTokens, named failTokens,
   named passMint, named failMint, named purse, named .clock, named .splToken]

/-- The state after further events. -/
def run (events : List Event) : World := (found ++ events).foldl (step environment) start

def spoiled : List Event := [depositInto deposit, .token (.burn passTokens passMint user 5)]

/-- A withdrawal after these events, and the two supplies that it leaves. -/
def left (events : List Event) : Option (ℕ × ℕ) :=
  (processWithdraw environment withdrawAccounts 5 (run events)).toOption.map fun w =>
    (w.tokens.supply passMint, w.tokens.supply failMint)

theorem left_eq_some {events : List Event} {m n : ℕ} (h : left events = some (m, n)) :
    ∃ w, processWithdraw environment withdrawAccounts 5 (run events) = .ok w ∧
      w.tokens.supply passMint = m ∧ w.tokens.supply failMint = n := by
  obtain ⟨w, hw, heq⟩ := map_eq_some_iff.mp h
  exact ⟨w, toOption_eq_some.mp hw, congrArg Prod.fst heq, congrArg Prod.snd heq⟩

end Sample

/-- The user deposits into an account of their own, and gets the tokens of the pool for nothing. -/
theorem deposit_elsewhere_is_not_backed :
    ¬ ∀ (env : Environment) (w : World) (P : Address) (events : List Event) (p : Pool), w.Blank →
      (events.foldl (step env) w).data P = .pool p → p.decision ≠ .fail →
      (events.foldl (step env) w).tokens.supply p.tokenPassMint ≤
        (events.foldl (step env) w).tokens.balance p.depositAccount := by
  intro hbacked
  have hle := hbacked Sample.environment Sample.start Sample.pool
    (Sample.found ++ [Sample.depositInto Sample.secondPurse]) Sample.founded Sample.start_blank
    (by decide +kernel) nofun
  exact absurd hle (by decide +kernel)

/-- The same deposit into the account of the pool. -/
theorem winning_tokens_redeemable_five :
    ∃ (w : World) (p : Pool), w.data Sample.pool = .pool p ∧ p.decision = .undecided ∧
      w.tokens.balance p.depositAccount = 5 ∧
      w.tokens.supply p.tokenPassMint ≤ w.tokens.balance p.depositAccount := by
  have hpool : (Sample.run [Sample.depositInto Sample.deposit]).data Sample.pool =
      .pool Sample.founded := by decide +kernel
  have hcareful : Along (step Sample.environment) (fun w e => careful Sample.pool w e = true)
      Sample.start (Sample.found ++ [Sample.depositInto Sample.deposit]) := by decide +kernel
  exact ⟨_, _, hpool, rfl, by decide +kernel,
    (winning_tokens_redeemable Sample.start_blank hcareful hpool).1 nofun⟩

/-- The PASS tokens of a deposit are burned, and its FAIL tokens are exchanged for all of it. -/
theorem undecided_withdraw_without_pass_tokens :
    ¬ ∀ (env : Environment) (w w' : World) (events : List Event) (P D : AccountMeta) (p : Pool)
      (accounts : List AccountMeta) (amount : ℕ), w.Blank → accounts[0]? = some P →
      accounts[3]? = some D → (events.foldl (step env) w).data P.key = .pool p →
      p.decision = .undecided → D.key = p.depositAccount →
      processWithdraw env accounts amount (events.foldl (step env) w) = .ok w' →
      FullPairs p (events.foldl (step env) w) w' := by
  intro hpairs
  obtain ⟨w', hw', hpass', hfail'⟩ := Sample.left_eq_some
    (show Sample.left Sample.spoiled = some (0, 0) by decide +kernel)
  have hpass : (Sample.run Sample.spoiled).tokens.supply Sample.passMint = 0 := by decide +kernel
  have hfail : (Sample.run Sample.spoiled).tokens.supply Sample.failMint = 5 := by decide +kernel
  have hfull : FullPairs Sample.founded (Sample.run Sample.spoiled) w' :=
    hpairs _ _ w' (Sample.found ++ _) _ _ Sample.founded _ 5 Sample.start_blank rfl rfl
      (by decide +kernel) rfl rfl hw'
  simp only [FullPairs, Sample.founded, hpass, hfail, hpass', hfail'] at hfull
  omega

/-- The same withdrawal with the PASS tokens. -/
theorem withdraw_full_pairs_iff_five :
    ∃ w w', processWithdraw Sample.environment Sample.withdrawAccounts 5 w = .ok w' ∧
      FullPairs Sample.founded w w' := by
  obtain ⟨w', hw', -⟩ := Sample.left_eq_some
    (show Sample.left [Sample.depositInto Sample.deposit] = some (0, 0) by decide +kernel)
  have hiff := withdraw_full_pairs_iff (p := Sample.founded) Sample.start_blank rfl
    (by decide +kernel) rfl rfl hw'
  exact ⟨_, w', hw', hiff.mpr ⟨by decide +kernel, by decide⟩⟩

end SolanaPrograms.OraclePair
