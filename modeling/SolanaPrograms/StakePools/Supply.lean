import SolanaPrograms.StakePools.Effects

/-!
# The supply of pool tokens

The pool keeps a copy of the supply of its mint. The mint belongs to the withdraw authority of the
pool, so that only the pool mints, but every holder can burn. The copy is the supply and what was
burned behind the back of the pool since the copy was taken.

The copy starts at zero. If the reserve holds more than its minimum when the pool is initialised,
tokens are minted for the surplus at once, and the copy falls short of the supply until the first
update.
-/

namespace SolanaPrograms.StakePools

open Outcome World StakePool

/-! ## What an instruction does to the copy -/

def StakePoolInstruction.isInitialize : StakePoolInstruction → Bool
  | initializePool .. => true
  | _ => false

def StakePoolInstruction.takesCopy : StakePoolInstruction → Bool
  | initializePool .. | updateStakePoolBalance => true
  | _ => false

structure StakePool.SameAccounts (p p' : StakePool) : Prop where
  poolMint : p'.poolMint = p.poolMint
  reserveStake : p'.reserveStake = p.reserveStake

inductive SupplyStep (w : World) (A : Address) (i : StakePoolInstruction) (w' : World) : Prop
  | founded {p' : StakePool} {minted : ℕ} (hi : i.isInitialize = true)
      (hA : ∀ p, w.data A ≠ .stakePool p) (hp' : w'.data A = .stakePool p')
      (hmint : w.tokens.HasMint p'.poolMint (.withdrawAuthority A) 0)
      (hreserve : w.reserveAtInitialize p'.reserveStake (.withdrawAuthority A) = .ok minted)
      (hcopy : p'.poolTokenSupply = 0) (hmoves : Moves w w' p'.poolMint minted 0)
  | updated {p p' : StakePool} {minted : ℕ} (hi : i = .updateStakePoolBalance)
      (hp : w.data A = .stakePool p) (hp' : w'.data A = .stakePool p') (hsame : p.SameAccounts p')
      (hmoves : Moves w w' p.poolMint minted 0)
      (hcopy : p'.poolTokenSupply = w'.tokens.supply p.poolMint)
  | kept {p p' : StakePool} {minted burnt : ℕ} (hi : i.takesCopy = false)
      (hp : w.data A = .stakePool p)
      (hp' : w'.data A = .stakePool p') (hsame : p.SameAccounts p')
      (hmoves : Moves w w' p.poolMint minted burnt)
      (hcopy : p'.poolTokenSupply + burnt = p.poolTokenSupply + minted)

section Effects

variable {env : Environment} {w w' v : World} {A : Address} {p p' : StakePool}
  {i : StakePoolInstruction} {accounts : List AccountMeta}

theorem StakePool.updateFee_sameBooks {fee : FeeType} (h : p.updateFee fee = .ok p') :
    p.SameAccounts p' ∧ p'.poolTokenSupply = p.poolTokenSupply := by
  cases fee with
  | stakeWithdrawal | solWithdrawal =>
    obtain ⟨⟨⟩, -, hp'⟩ := bind_eq_ok.mp h
    cases hp'
    exact ⟨⟨rfl, rfl⟩, rfl⟩
  | _ =>
    cases h
    exact ⟨⟨rfl, rfl⟩, rfl⟩

theorem StakePool.startEpoch_sameAccounts (p : StakePool) (epoch totalLamports supply : ℕ) :
    p.SameAccounts { p.startEpoch epoch with totalLamports, poolTokenSupply := supply } := by
  unfold startEpoch
  split_ifs <;> exact ⟨rfl, rfl⟩

/-- **Step.** What an instruction for `A` does to the supply of `A`. -/
theorem Effect.supplyStep (h : Effect w A accounts w' i) : SupplyStep w A i w' := by
  cases h with
  | initializePool hA hmint hreserve hcopy _ _ _ hwrote =>
    exact .founded rfl hA hwrote.pool hmint hreserve hcopy hwrote.moves
  | books hi hp hbooks hwrote =>
    exact .kept (by cases i <;> first | rfl | cases hi) hp hwrote.pool
      ⟨hbooks.poolMint, hbooks.reserveStake⟩ hwrote.moves hbooks.poolTokenSupply
  | setFee hp _ _ _ _ _ hupdate hwrote =>
    obtain ⟨hsame, hcopy⟩ := updateFee_sameBooks hupdate
    exact .kept rfl hp hwrote.pool hsame hwrote.moves hcopy
  | updateStakePoolBalance hp hM hwrote =>
    exact .updated rfl hp hwrote.pool (startEpoch_sameAccounts ..) hwrote.moves
      (Tokens.Book.supply_of_mint hM).symm
  | deposit hi hp _ hdeposited hwrote =>
    obtain rfl := deposited_ok hdeposited
    exact .kept (by cases i <;> first | rfl | cases hi) hp hwrote.pool ⟨rfl, rfl⟩ hwrote.moves rfl
  | withdraw hi hp _ hwithdrawn hwrote =>
    obtain ⟨hburnt, -, rfl⟩ := withdrawn_ok hwithdrawn
    exact .kept (by cases i <;> first | rfl | cases hi) hp hwrote.pool ⟨rfl, rfl⟩ hwrote.moves
      (Nat.sub_add_cancel hburnt)

end Effects

/-! ## Runs -/

def Event.takesCopy (A : Address) : Event → Bool
  | .pool i accounts => i.takesCopy && decide (namedPool accounts = some A)
  | _ => false

def Event.founds (A : Address) : Event → Bool
  | .pool i accounts => i.isInitialize && decide (namedPool accounts = some A)
  | _ => false

def Event.burned (mint : Address) : Event → ℕ
  | .token i => i.burned mint
  | _ => 0

/-- What was burned directly since the copy was taken; the last event is the first of the list. -/
def burnedSince (A mint : Address) : List (World × Event) → ℕ
  | [] => 0
  | (_, e) :: history => if e.takesCopy A then 0 else e.burned mint + burnedSince A mint history

def World.exactReserve (w : World) (reserveStake : Address) : Bool :=
  match w.stakes.state reserveStake with
  | some (.initialized m) => w.lamports reserveStake = minimumReserveLamports m.rentExemptReserve
  | _ => true

def FoundedExactly (m : Machine) (A : Address) (p : StakePool) : Prop :=
  ∀ x ∈ m.history, x.2.founds A = true → x.1.exactReserve p.reserveStake = true

/-- The mint of a pool belongs to it, and its supply is the copy without what was burned directly. -/
def SupplyCopied (m : Machine) : Prop :=
  ∀ A p, m.world.data A = .stakePool p →
    ∃ s, m.world.tokens.HasMint p.poolMint (.withdrawAuthority A) s ∧
      (FoundedExactly m A p → p.poolTokenSupply = s + burnedSince A p.poolMint m.history)

section Runs

variable {env : Environment} {m : Machine} {w w' : World} {A : Address} {p p' : StakePool}
  {e : Event} {i : StakePoolInstruction}

theorem reserveAtInitialize_exact {R x : Address} {surplus : ℕ}
    (h : w.reserveAtInitialize R x = .ok surplus) (hexact : w.exactReserve R = true) :
    surplus = 0 := by
  unfold reserveAtInitialize at h
  unfold exactReserve at hexact
  split at h
  · cases h
  · next meta' hstate =>
    simp only [failIf_bind_eq_ok, okOr_eq_ok, Checked.sub_eq_some] at h
    rw [hstate] at hexact
    have := of_decide_eq_true hexact
    omega
  · cases h

theorem FoundedExactly.of_cons (h : FoundedExactly ⟨w', (w, e) :: m.history⟩ A p')
    (hsame : p.SameAccounts p') : FoundedExactly m A p := by
  intro x hx hfounds
  rw [← hsame.reserveStake]
  exact h x (List.mem_cons_of_mem _ hx) hfounds

/-- Outside of the pool program, tokens of a mint of a program address can only be burned. -/
theorem World.exec_hasMint {k x : Address} {s : ℕ} (h : w.exec env e = .ok w')
    (hnot : ∀ i accounts, e ≠ .pool i accounts) (hx : x.isKey = false)
    (hs : w.tokens.HasMint k x s) : ∃ n, w'.tokens.HasMint k x n ∧ n + e.burned k = s := by
  cases e with
  | pool i accounts => exact absurd rfl (hnot i accounts)
  | token =>
    simp only [exec] at h
    obtain ⟨_, ht, rfl⟩ := callToken_eq_ok.mp h
    exact hs.exec hx ht
  | stake =>
    simp only [exec] at h
    exact ⟨s, by rwa [(stakesOnly_callStake h).tokens], rfl⟩
  | allocateStake =>
    simp only [exec, failIf_bind_eq_ok] at h
    exact ⟨s, by rwa [(stakesOnly_allocateStake h.2).tokens], rfl⟩
  | transfer =>
    simp only [exec] at h
    exact ⟨s, by rwa [(stakesOnly_systemTransfer h).tokens], rfl⟩
  | allocate | reclaim =>
    simp only [exec, failIf_bind_eq_ok, pure_eq_ok] at h
    obtain ⟨-, rfl⟩ := h
    exact ⟨s, hs, rfl⟩
  | newEpoch =>
    cases h
    exact ⟨s, hs, rfl⟩

/-- The mints of two pools are different, so an instruction for one leaves the other alone. -/
theorem SupplyStep.otherMint {B : Address} {k : Address} {s : ℕ}
    (hm : SupplyCopied m) (hAB : A ≠ B) (h : SupplyStep m.world B i w')
    (hs : m.world.tokens.HasMint k (.withdrawAuthority A) s) :
    w'.tokens.HasMint k (.withdrawAuthority A) s := by
  have hother : ∀ {Q minted burnt n}, m.world.tokens.HasMint Q (.withdrawAuthority B) n →
      Moves m.world w' Q minted burnt → w'.tokens.HasMint k (.withdrawAuthority A) s := by
    intro Q minted burnt n hQ hmoves
    have hne : ¬ Q = k := by
      rintro rfl
      exact hAB (Address.withdrawAuthority.inj (hs.unique hQ).1)
    obtain ⟨n', hn', heq⟩ := hmoves _ _ _ hs
    obtain rfl : n' = s := by simpa [hne] using heq
    exact hn'
  cases h with
  | founded _ _ _ hmint _ _ hmoves => exact hother hmint hmoves
  | updated _ hp _ _ hmoves | kept _ hp _ _ hmoves =>
    obtain ⟨_, hn, -⟩ := hm B _ hp
    exact hother hn hmoves

theorem SupplyCopied.other (hm : SupplyCopied m) (hp : m.world.data A = .stakePool p)
    (hcopy : e.takesCopy A = false)
    (hmint : ∀ s, m.world.tokens.HasMint p.poolMint (.withdrawAuthority A) s →
      ∃ n, w'.tokens.HasMint p.poolMint (.withdrawAuthority A) n ∧
        n + e.burned p.poolMint = s) :
    ∃ s, w'.tokens.HasMint p.poolMint (.withdrawAuthority A) s ∧
      (FoundedExactly ⟨w', (m.world, e) :: m.history⟩ A p →
        p.poolTokenSupply = s + burnedSince A p.poolMint ((m.world, e) :: m.history)) := by
  obtain ⟨s, hs, heq⟩ := hm A p hp
  obtain ⟨n, hn, _⟩ := hmint s hs
  refine ⟨n, hn, fun hexact => ?_⟩
  have hold := heq (hexact.of_cons ⟨rfl, rfl⟩)
  simp only [burnedSince, hcopy, Bool.false_eq_true, if_false]
  omega

/-- **Step.** An instruction for the pool. -/
theorem SupplyCopied.own {accounts : List AccountMeta}
    (hm : SupplyCopied m) (hA : namedPool accounts = some A) (h : SupplyStep m.world A i w')
    (hp' : w'.data A = .stakePool p') :
    ∃ s, w'.tokens.HasMint p'.poolMint (.withdrawAuthority A) s ∧
      (FoundedExactly ⟨w', (m.world, .pool i accounts) :: m.history⟩ A p' →
        p'.poolTokenSupply =
          s + burnedSince A p'.poolMint ((m.world, .pool i accounts) :: m.history)) := by
  have hnone : i.takesCopy = true →
      burnedSince A p'.poolMint ((m.world, .pool i accounts) :: m.history) = 0 := by
    intro hi
    simp [burnedSince, Event.takesCopy, hi, hA]
  cases h with
  | @founded q _ hi _ hq hmint hreserve hcopy hmoves =>
    obtain rfl : q = p' := Data.stakePool.inj (hq.symm.trans hp')
    obtain ⟨n, hn, heq⟩ := hmoves _ _ _ hmint
    refine ⟨n, hn, fun hexact => ?_⟩
    have hfounds : (Event.pool i accounts).founds A = true := by simp [Event.founds, hi, hA]
    have hsurplus := reserveAtInitialize_exact hreserve (hexact _ List.mem_cons_self hfounds)
    rw [hcopy, hnone (by cases i <;> first | rfl | cases hi)]
    simp only [if_true] at heq
    omega
  | @updated p q _ hi hp hq hsame hmoves hcopy =>
    obtain rfl : q = p' := Data.stakePool.inj (hq.symm.trans hp')
    obtain ⟨_, hs, -⟩ := hm A p hp
    obtain ⟨_, ⟨mint, hmint, hauthority, rfl⟩, -⟩ := hmoves _ _ _ hs
    rw [hsame.poolMint] at hnone ⊢
    refine ⟨_, ⟨mint, hmint, hauthority, rfl⟩, fun _ => ?_⟩
    rw [hcopy, hnone (by rw [hi]; rfl), Tokens.Book.supply_of_mint hmint, Nat.add_zero]
  | @kept p q _ _ hi hp hq hsame hmoves =>
    obtain rfl : q = p' := Data.stakePool.inj (hq.symm.trans hp')
    obtain ⟨_, hs, heq⟩ := hm A p hp
    obtain ⟨n, hn, hns⟩ := hmoves _ _ _ hs
    rw [hsame.poolMint]
    refine ⟨n, hn, fun hexact => ?_⟩
    have hold := heq (hexact.of_cons hsame)
    simp only [if_true] at hns
    simp only [burnedSince, Event.takesCopy, hi, Bool.false_and, Bool.false_eq_true, if_false,
      Event.burned]
    omega

theorem SupplyCopied.step (hm : SupplyCopied m) (h : m.world.exec env e = .ok w') :
    SupplyCopied ⟨w', (m.world, e) :: m.history⟩ := by
  intro A p' hp'
  rcases exec_cases h with ⟨i, accounts, B, rfl, hB, heffect⟩ | ⟨hnot, hout⟩
  · by_cases hAB : A = B
    · subst hAB
      exact hm.own hB heffect.supplyStep hp'
    · rcases heffect.elsewhere.data A hAB with hsame | ⟨⟨l, hl⟩, -⟩
      · have hcopy : (Event.pool i accounts).takesCopy A = false := by
          simp [Event.takesCopy, hB, Ne.symm hAB]
        exact hm.other (hsame.symm.trans hp') hcopy fun s hs =>
          ⟨s, heffect.supplyStep.otherMint hm hAB hs, rfl⟩
      · cases hl.symm.trans hp'
  · rcases hout.data A with hsame | ⟨-, len, hlen⟩
    · have hcopy : e.takesCopy A = false := by
        cases e with
        | pool i accounts => exact absurd rfl (hnot i accounts)
        | _ => rfl
      exact hm.other (hsame.symm.trans hp') hcopy fun s hs => exec_hasMint h hnot rfl hs
    · cases hlen.symm.trans hp'

/-- **Run.** -/
theorem Reachable.supplyCopied (h : Reachable env m) : SupplyCopied m :=
  h.invariant (fun w hw A p hp => by simp [hw.data A] at hp) fun _ _ _ hm he => hm.step he

/-- In every run in which the reserve of a pool held exactly its minimum when the pool was made, the
recorded supply is at least the supply of the mint, and it is the supply if nobody burned tokens
directly since the last update. -/
theorem recorded_supply_covers (hm : Reachable env m) (hp : m.world.data A = .stakePool p)
    (hexact : FoundedExactly m A p) :
    m.world.tokens.supply p.poolMint ≤ p.poolTokenSupply ∧
      (burnedSince A p.poolMint m.history = 0 →
        p.poolTokenSupply = m.world.tokens.supply p.poolMint) := by
  obtain ⟨_, ⟨_, hmint, -, rfl⟩, heq⟩ := hm.supplyCopied A p hp
  rw [Tokens.Book.supply_of_mint hmint, heq hexact]
  exact ⟨Nat.le_add_right _ _, fun hzero => by rw [hzero, Nat.add_zero]⟩

end Runs

namespace Run

def supplies (m : Machine) : Option (ℕ × ℕ) :=
  match m.world.data pool with
  | .stakePool p => some (p.poolTokenSupply, m.world.tokens.supply p.poolMint)
  | _ => none

theorem supplies_eq_some {m : Machine} {recorded supply : ℕ}
    (h : supplies m = some (recorded, supply)) :
    ∃ p, m.world.data pool = .stakePool p ∧ p.poolTokenSupply = recorded ∧
      m.world.tokens.supply p.poolMint = supply := by
  unfold supplies at h
  split at h
  · next p hp =>
    simp only [Option.some.injEq, Prod.mk.injEq] at h
    exact ⟨p, hp, h.1, h.2⟩
  · cases h

/-- Ten lamports are deposited, and three tokens are burned directly. -/
def burnt : Machine :=
  after (found 0 ⟨0, 0⟩ ++ [depositSol 10, .token (.burn tokens mint manager 3)])

theorem burnt_reachable : Reachable environment burnt := reachable _

end Run

/-- Five lamports too many in the reserve: five tokens are minted, and none is recorded. -/
theorem recorded_supply_falls_short :
    ¬ ∀ (env : Environment) (m : Machine) (A : Address) (p : StakePool), Reachable env m →
      m.world.data A = .stakePool p → m.world.tokens.supply p.poolMint ≤ p.poolTokenSupply := by
  intro hcovers
  have hsupplies : Run.supplies (Run.after (Run.found 5 ⟨0, 0⟩)) = some (0, 5) := by decide +kernel
  have hreachable := Run.reachable (Run.found 5 ⟨0, 0⟩)
  generalize Run.after (Run.found 5 ⟨0, 0⟩) = m at hsupplies hreachable
  obtain ⟨p, hp, _, _⟩ := Run.supplies_eq_some hsupplies
  have hle := hcovers _ m _ p hreachable hp
  omega

/-- Ten tokens are recorded and seven are left. -/
theorem recorded_supply_covers_ten :
    ∃ (m : Machine) (p : StakePool), Reachable Run.environment m ∧
      m.world.data Run.pool = .stakePool p ∧ FoundedExactly m Run.pool p ∧
      p.poolTokenSupply = 10 ∧ m.world.tokens.supply p.poolMint = 7 ∧
      m.world.tokens.supply p.poolMint ≤ p.poolTokenSupply := by
  have hsupplies : Run.supplies Run.burnt = some (10, 7) := by decide +kernel
  have hexact : ∀ x ∈ Run.burnt.history, x.2.founds Run.pool = true →
      x.1.exactReserve Run.reserve = true := by decide +kernel
  have hreserve : (match Run.burnt.world.data Run.pool with
      | .stakePool p => some p.reserveStake
      | _ => none) = some Run.reserve := by decide +kernel
  have hreachable := Run.burnt_reachable
  generalize Run.burnt = m at hsupplies hexact hreserve hreachable
  obtain ⟨p, hp, hrecorded, hsupply⟩ := Run.supplies_eq_some hsupplies
  rw [hp] at hreserve
  have hfounded : FoundedExactly m Run.pool p := by
    rw [FoundedExactly, Option.some.inj hreserve]
    exact hexact
  exact ⟨m, p, hreachable, hp, hfounded, hrecorded, hsupply,
    (recorded_supply_covers hreachable hp hfounded).1⟩

/-- **Pools stay apart.** In every reachable state, different pools have different mints. -/
theorem mints_apart {env : Environment} {m : Machine} (h : Reachable env m) {A B : Address}
    {p q : StakePool} (hp : m.world.data A = .stakePool p) (hq : m.world.data B = .stakePool q)
    (hmint : p.poolMint = q.poolMint) : A = B := by
  obtain ⟨_, ⟨_, hM, hauthority, -⟩, -⟩ := h.supplyCopied A p hp
  obtain ⟨_, ⟨_, hM', hauthority', -⟩, -⟩ := h.supplyCopied B q hq
  -- the one authority of the mint is derived from the address of the pool
  rw [hmint, hM'] at hM
  cases hM
  rw [hauthority'] at hauthority
  cases hauthority
  rfl

namespace Run

def otherPool : Address := .key 11

/-- The manager makes another pool, with another mint. -/
def foundOther : List Event :=
  let list := .key 12
  let reserve := .key 13
  let mint := .key 14
  let fees := .key 15
  let authority := .withdrawAuthority otherPool
  [.allocate otherPool 1000, .allocate list 155,
   .token (.initializeMint mint authority none),
   .token (.initializeAccount fees mint manager),
   .allocateStake reserve, .transfer manager reserve 11,
   .stake (.initializeAccount reserve authority authority false),
   .pool (.initializePool ⟨0, 0⟩ ⟨0, 0⟩ ⟨0, 0⟩ 0 2)
     [named otherPool, signed manager, named manager, named authority, named list, named reserve,
      named mint, named fees, tokenProgram]]

theorem stakePool_of_mint {d : Data} {m : Address}
    (h : (match d with | .stakePool p => some p.poolMint | _ => none) = some m) :
    ∃ p, d = .stakePool p := by
  cases d with
  | stakePool p => exact ⟨p, rfl⟩
  | _ => cases h

end Run

/-- Two pools are made, and ten lamports are deposited in the first. -/
theorem mints_apart_of_two :
    let m := Run.after (Run.found 0 ⟨0, 0⟩ ++ Run.foundOther ++ [Run.depositSol 10])
    ∃ p q, m.world.data Run.pool = .stakePool p ∧ m.world.data Run.otherPool = .stakePool q ∧
      p.poolMint ≠ q.poolMint := by
  intro m
  obtain ⟨p, hp⟩ : ∃ p, m.world.data Run.pool = .stakePool p :=
    Run.stakePool_of_mint (m := Run.mint) (by decide +kernel)
  obtain ⟨q, hq⟩ : ∃ q, m.world.data Run.otherPool = .stakePool q :=
    Run.stakePool_of_mint (m := .key 14) (by decide +kernel)
  have hreachable : Reachable Run.environment m := Run.reachable _
  clear_value m
  refine ⟨p, q, hp, hq, fun hmint => ?_⟩
  have heq := mints_apart hreachable hp hq hmint
  exact absurd heq (by decide)

end SolanaPrograms.StakePools
