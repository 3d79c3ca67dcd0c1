import SolanaPrograms.Runtime.Account

/-!
# The runtime around one program

A `Program` is an address with the function its entrypoint computes. The runtime runs it on
the account store and then verifies, for every listed account of another owner, that data and
owner are unchanged and lamports were not taken (`Respects`). A failed, panicking or rejected
instruction changes nothing.

Between instructions the rest of the chain moves. `Event` lists what it can do to the store:

* `instruction`: one call of the program, with the environment the runtime supplies;
* `enter`: an account of another owner is created for the program, zero-filled;
* `external`: other programs change accounts that do not belong to the program;
* `deposit`: anyone adds lamports to any account;
* `reclaim`: a zero-filled account without lamports is taken back by the runtime.

Events whose precondition fails do nothing, so `step` is a function and every list of events
is a run.
-/

namespace SolanaPrograms.Runtime

open Outcome Function

def Respects (id : Pubkey) (pre post : RuntimeAccount) : Prop :=
  pre.owner = id ∨
    (post.owner = pre.owner ∧ post.data = pre.data ∧ pre.lamports ≤ post.lamports)

instance (id : Pubkey) (pre post : RuntimeAccount) : Decidable (Respects id pre post) := by
  unfold Respects; infer_instance

/-- What the runtime asks of the accounts of a call. -/
abbrev AllRespect (id : Pubkey) (accounts : List AccountMeta) (pre post : Bank) : Prop :=
  ∀ a ∈ accounts, Respects id (pre a.key) (post a.key)

/-- A write is accepted in an account of the program, or it wrote what was there. -/
theorem Respects.owned_or_same {id k : Pubkey} {s : Bank} {d : List UInt8}
    (h : Respects id (s k) (s.setData k d k)) :
    (s k).owner = id ∨ d = (s k).data ∧ s.setData k d = s := by
  rcases h with howner | ⟨-, hdata, -⟩
  · exact .inl howner
  · rw [Bank.setData_same] at hdata
    have hsame : d = (s k).data := hdata
    exact .inr ⟨hsame, by rw [hsame, Bank.setData_self]⟩

/-- A program as the runtime sees it. `process` returns the store the runtime verified last
(the one before the call, or the one after the last cross-program call) and the store at
return. -/
structure Program (Env Ix : Type) where
  id : Pubkey
  id_ne_system : id ≠ systemProgramId
  process : Env → Ix → List AccountMeta → Bank → Except Fault (Bank × Bank)

/-- One thing that can happen to the account store. -/
inductive Event (Env Ix : Type)
  | instruction (env : Env) (ix : Ix) (accounts : List AccountMeta)
  | enter (k : Pubkey) (len : Nat)
  | external (k : Pubkey) (account : RuntimeAccount)
  | deposit (k : Pubkey) (lamports : UInt64)
  | reclaim (k : Pubkey)

namespace Program

variable {Env Ix : Type} (P : Program Env Ix)

/-- Run one instruction and verify its effect on accounts of other owners. -/
def execute (env : Env) (ix : Ix) (accounts : List AccountMeta) (s : Bank) :
    Except Fault Bank := do
  let (base, s') ← P.process env ix accounts s
  failIf (∃ a ∈ accounts, ¬ Respects P.id (base a.key) (s' a.key)) .rejected
  return s'

variable (s : Bank)

/-- The store after one event. -/
def step : Event Env Ix → Bank
  | .instruction env ix accounts =>
    match P.execute env ix accounts s with
    | .ok s' => s'
    | .error _ => s
  | .enter k len =>
    if (s k).owner = P.id then s
    else update s k { s k with owner := P.id, data := .replicate len 0 }
  | .external k account =>
    if (s k).owner = P.id ∨ account.owner = P.id then s else update s k account
  | .deposit k lamports =>
    match checkedAdd (s k).lamports lamports with
    | some total => .setLamports s k total
    | none => s
  | .reclaim k =>
    if (s k).lamports = 0 ∧ ∀ b ∈ (s k).data, b = 0 then
      update s k ⟨0, systemProgramId, []⟩
    else s

def run (events : List (Event Env Ix)) : Bank := events.foldl P.step s

/-- Before the program has run, the accounts it owns are zero-filled. -/
def Fresh : Prop := ∀ k, (s k).owner = P.id → ∀ b ∈ (s k).data, b = 0

/-- A store in which no program owns anything yet. -/
def emptyBank : Bank := fun _ => ⟨0, systemProgramId, []⟩

theorem fresh_emptyBank : P.Fresh emptyBank := fun _ h => absurd h.symm P.id_ne_system

variable {P}

/-- A successful instruction: the program returned, and every listed account of another owner
is as the runtime last verified it, up to added lamports. -/
theorem execute_ok {env : Env} {ix : Ix} {accounts : List AccountMeta} {s s' : Bank}
    (h : P.execute env ix accounts s = .ok s') :
    ∃ base, P.process env ix accounts s = .ok (base, s') ∧
      AllRespect P.id accounts base s' := by
  unfold execute at h
  obtain ⟨⟨base, _⟩, hproc, h⟩ := bind_eq_ok.mp h
  obtain ⟨hresp, h⟩ := failIf_bind_eq_ok.mp h
  cases pure_eq_ok.mp h
  exact ⟨base, hproc, fun a ha => Decidable.not_not.mp fun hbad => hresp ⟨a, ha, hbad⟩⟩

theorem step_instruction (env : Env) (ix : Ix) (accounts : List AccountMeta) (s : Bank) :
    P.execute env ix accounts s = .ok (P.step s (.instruction env ix accounts)) ∨
      P.step s (.instruction env ix accounts) = s := by
  simp only [step]
  cases h : P.execute env ix accounts s with
  | ok => exact .inl rfl
  | error => exact .inr rfl

/-- What an event other than an instruction can do to one account. -/
inductive Drift (id : Pubkey) (pre post : RuntimeAccount) : Prop
  | kept (howner : post.owner = pre.owner) (hdata : post.data = pre.data)
      (hlamports : pre.lamports ≤ post.lamports)
  | entered (hpre : pre.owner ≠ id) (len : Nat) (hdata : post.data = .replicate len 0)
  | outside (hpre : pre.owner ≠ id) (hpost : post.owner ≠ id)
  | left (hpost : post.owner ≠ id) (hdata : ∀ b ∈ pre.data, b = 0)

theorem Drift.refl (id : Pubkey) (a : RuntimeAccount) : Drift id a a :=
  .kept rfl rfl (UInt64.le_refl _)

theorem drift_update {s : Bank} {k : Pubkey} {a : RuntimeAccount} (h : Drift P.id (s k) a)
    (k' : Pubkey) : Drift P.id (s k') (update s k a k') := by
  by_cases hk : k' = k
  · subst hk; simpa using h
  · simpa [hk] using .refl P.id (s k')

theorem step_drift (s : Bank) {e : Event Env Ix}
    (he : ∀ env ix accounts, e ≠ .instruction env ix accounts) (k : Pubkey) :
    Drift P.id (s k) (P.step s e k) := by
  cases e with
  | instruction env ix accounts => exact absurd rfl (he env ix accounts)
  | enter _ len =>
    simp only [step]
    split
    next => exact .refl _ _
    next h => exact drift_update (.entered h len rfl) k
  | external =>
    simp only [step]
    split
    next => exact .refl _ _
    next h =>
      push Not at h
      exact drift_update (.outside h.1 h.2) k
  | deposit k' lamports =>
    simp only [step]
    cases htotal : checkedAdd (s k').lamports lamports with
    | some total =>
      have htoNat := checkedAdd_eq_some htotal
      have hle : (s k').lamports ≤ total := UInt64.le_iff_toNat_le.mpr (by omega)
      exact drift_update (a := { s k' with lamports := total }) (.kept rfl rfl hle) k
    | none => exact .refl _ _
  | reclaim =>
    simp only [step]
    split
    next h => exact drift_update (.left (.symm P.id_ne_system) h.2) k
    next => exact .refl _ _

/-- **Invariant rule.** What every event preserves holds in every state of a run. -/
theorem run_invariant {I : Bank → Prop} (hstep : ∀ s e, I s → I (P.step s e)) {s : Bank}
    (hs : I s) (events : List (Event Env Ix)) : I (P.run s events) := by
  induction events generalizing s with
  | nil => exact hs
  | cons e _ ih => exact ih (hstep s e hs)

end Program

end SolanaPrograms.Runtime
