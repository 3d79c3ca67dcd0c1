import SolanaPrograms.StakePools.Processor

/-!
# Runs of the stake-pool program

The machine is the world with the history of what was done to it. Besides the instructions of the
pool, anybody can use the token program and the stake program with the signatures of ordinary
addresses, create accounts, move lamports, and the cluster starts new epochs with rewards for
delegated stake. An account without lamports can be taken back by the runtime. Nothing exists at the
start but lamports.

A transaction is several events. The runtime takes back an account only after a transaction, so that
a drained stake account can be used again before; `reclaim` is an event of its own for this reason.
-/

namespace SolanaPrograms.StakePools

open Outcome

/-- What can happen. -/
inductive Event
  | pool (instruction : StakePoolInstruction) (accounts : List AccountMeta)
  | token (instruction : Tokens.Instruction Address)
  | stake (instruction : Stakes.Instruction Address)
  /-- A new account of the stake-pool program. -/
  | allocate (account : Address) (len : ℕ)
  /-- A new account of the stake program. -/
  | allocateStake (account : Address)
  | transfer (source destination : Address) (amount : ℕ)
  | newEpoch (rewards : Address → ℕ)
  | reclaim (account : Address)

/-- The instructions of ordinary addresses: all of them sign. -/
def signedByKeys : Address → Bool := Address.isKey

def World.rewarded (w : World) (rewards : Address → ℕ) : World :=
  { w with
    epoch := w.epoch + 1
    stakes :=
      { state := fun k =>
          match w.stakes.state k with
          | some (.stake m d) => some (.stake m { d with stake := d.stake + rewards k })
          | state => state
        lamports := fun k =>
          match w.stakes.state k with
          | some (.stake _ _) => w.stakes.lamports k + rewards k
          | _ => w.stakes.lamports k } }

variable (env : Environment)

def World.exec (w : World) : Event → Except Fault World
  | .pool instruction accounts => do
    failIf (∃ a ∈ accounts, a.isSigner = true ∧ a.key.isKey = false) .invalidArgument
    process env instruction accounts w
  | .token instruction => w.callToken fun b =>
    Tokens.exec signedByKeys (fun k => signedByKeys k && decide (w.isSystem k)) b instruction
  | .stake instruction => w.callStake env signedByKeys instruction
  | .allocate account len => do
    failIf (account.isKey = false ∨ ¬ w.isSystem account) (.called .system)
    return w.writeData account (.allocated len)
  | .allocateStake account => do
    failIf (account.isKey = false) (.called .system)
    w.allocateStake account
  | .transfer source destination amount =>
    w.systemTransfer ⟨source, source.isKey⟩ destination amount
  | .newEpoch rewards => .ok (w.rewarded rewards)
  | .reclaim account => do
    failIf (w.lamports account ≠ 0) (.called .system)
    return { w with stakes := { w.stakes with
      state := Function.update w.stakes.state account none } }

/-- The world and what was done, the last first, each with the world it found. -/
structure Machine where
  world : World
  history : List (World × Event)

/-- A failed event changes nothing. -/
def Machine.step (m : Machine) (e : Event) : Machine :=
  match m.world.exec env e with
  | .ok w => ⟨w, (m.world, e) :: m.history⟩
  | .error _ => m

/-- Nothing exists but lamports. -/
structure World.Blank (w : World) : Prop where
  data : ∀ k, w.data k = .none
  stakes : ∀ k, w.stakes.state k = none
  tokens : ∀ k, w.tokens k = .free

/-- The machines that a run can reach. -/
inductive Reachable : Machine → Prop
  | start {w : World} (h : w.Blank) : Reachable ⟨w, []⟩
  | step {m : Machine} (h : Reachable m) (e : Event) : Reachable (m.step env e)

/-- A run that goes on. -/
inductive Steps (m : Machine) : Machine → Prop
  | refl : Steps m m
  | step {m' : Machine} (h : Steps m m') (e : Event) : Steps m (m'.step env e)

variable {env : Environment} {b : ℕ × ℕ}

/-- **Run.** What holds at the start and is kept by every event that succeeds holds always. -/
theorem Reachable.invariant {I : Machine → Prop} (hstart : ∀ w : World, w.Blank → I ⟨w, []⟩)
    (hstep : ∀ m e w, I m → m.world.exec env e = .ok w → I ⟨w, (m.world, e) :: m.history⟩)
    {m : Machine} (h : Reachable env m) : I m := by
  induction h with
  | start hw => exact hstart _ hw
  | @step m _ e ih =>
    unfold Machine.step
    split
    next w hw => exact hstep m e w ih hw
    next => exact ih

/-! ## A pool to look at -/

namespace Run

/-- The manager, who also is the staker and the only user. -/
def manager : Address := .key 0

def pool : Address := .key 1

def list : Address := .key 2

def reserve : Address := .key 3

def mint : Address := .key 4

def fees : Address := .key 5

def tokens : Address := .key 6

def authority : Address := .withdrawAuthority pool

/-- A stake program that knows of no delegations: accounts are initialised, and what is more than
the rent is withdrawn. -/
def environment : Environment where
  stake :=
    { rent := 10
      exec := fun signed _ instruction s =>
        match instruction with
        | .initializeAccount account staker withdrawer locked =>
          some (s.setState account (.initialized ⟨10, staker, withdrawer, locked⟩))
        | .withdraw source destination amount =>
          match s.state source with
          | some (.initialized m) =>
            if signed m.withdrawer = true ∧ amount + 10 ≤ s.lamports source then
              some (s.move source destination amount)
            else none
          | _ => none
        | _ => none }
  minimumBalance := fun _ => 0

def start : World where
  data := fun _ => .none
  stakes := ⟨fun _ => none, fun k => if k = manager then 1000000000 else 0⟩
  tokens := fun _ => .free
  epoch := 0

def signed (k : Address) : AccountMeta := ⟨k, true⟩

def named (k : Address) : AccountMeta := ⟨k, false⟩

def tokenProgram : AccountMeta := named (.program .token)

def stakeProgram : AccountMeta := named (.program .stake)

def systemProgram : AccountMeta := named (.program .system)

def clock : AccountMeta := named (.sysvar .clock)

/-- The accounts of the pool are made; the reserve holds `surplus` more than its minimum. -/
def found (surplus : ℕ) (withdrawalFee : Fee) : List Event :=
  [.allocate pool 1000, .allocate list 155,
   .token (.initializeMint mint authority none),
   .token (.initializeAccount fees mint manager),
   .token (.initializeAccount tokens mint manager),
   .allocateStake reserve, .transfer manager reserve (11 + surplus),
   .stake (.initializeAccount reserve authority authority false),
   .pool (.initializePool ⟨0, 0⟩ withdrawalFee ⟨0, 0⟩ 0 2)
     [named pool, signed manager, named manager, named authority, named list, named reserve,
      named mint, named fees, tokenProgram]]

def depositSol (lamports : ℕ) : Event :=
  .pool (.depositSol lamports)
    [named pool, named authority, named reserve, signed manager, named tokens, named fees,
     named fees, named mint, systemProgram, tokenProgram]

def give (lamports : ℕ) : Event := .transfer manager reserve lamports

def updatePool : Event :=
  .pool .updateStakePoolBalance
    [named pool, named authority, named list, named reserve, named fees, named mint, tokenProgram]

def withdrawSolAccounts : List AccountMeta :=
  [named pool, named authority, signed manager, named tokens, named reserve, named manager,
   named fees, named mint, clock, named (.sysvar .stakeHistory), stakeProgram, tokenProgram]

def after (events : List Event) : Machine := events.foldl (.step environment) ⟨start, []⟩

theorem reachable (events : List Event) : Reachable environment (after events) := by
  have hstart : Reachable environment ⟨start, []⟩ := .start ⟨fun _ => rfl, fun _ => rfl, fun _ => rfl⟩
  unfold after
  generalize (⟨start, []⟩ : Machine) = m at hstart
  induction events generalizing m with
  | nil => exact hstart
  | cons e _ ih => exact ih _ (hstart.step e)

def books : Data → Option (ℕ × ℕ)
  | .stakePool p => some (p.totalLamports, p.poolTokenSupply)
  | _ => none

def booksAfter (x : Except Fault World) (k : Address) : Option (ℕ × ℕ) :=
  match x with
  | .ok w => books (w.data k)
  | .error _ => none

theorem books_eq_some {d : Data} (h : books d = some b) :
    ∃ p, d = .stakePool p ∧ p.totalLamports = b.1 ∧ p.poolTokenSupply = b.2 := by
  cases d with
  | stakePool p =>
    cases h
    exact ⟨p, rfl, rfl, rfl⟩
  | _ => cases h

theorem booksAfter_eq_some {x : Except Fault World} {k : Address} (h : booksAfter x k = some b) :
    ∃ w p, x = .ok w ∧ w.data k = .stakePool p ∧ p.totalLamports = b.1 ∧ p.poolTokenSupply = b.2 := by
  cases x with
  | ok w =>
    obtain ⟨p, hp, hb⟩ := books_eq_some h
    exact ⟨w, p, rfl, hp, hb⟩
  | error => cases h

end Run

end SolanaPrograms.StakePools
