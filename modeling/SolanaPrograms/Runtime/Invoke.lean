import SolanaPrograms.Runtime.Machine

/-!
# Calls of other programs

A program may call another one with accounts of its own list. An account is a signer of the call if
it signed the caller's instruction, or if it is an address the caller derives and signs for
(`invoke_signed`). The callee runs under the same verification as at top level.

The system program's instructions that create accounts are given here as well; each says what it
leaves of the accounts it is not about.
-/

namespace SolanaPrograms.Runtime

open Outcome ProgramError Function

/-! ## Signatures in a call -/

def CanSign (accounts : List AccountMeta) (derived : List Pubkey) (k : Pubkey) : Prop :=
  k ∈ derived ∨ ∃ a ∈ accounts, a.key = k ∧ a.isSigner = true

instance (accounts : List AccountMeta) (derived : List Pubkey) (k : Pubkey) :
    Decidable (CanSign accounts derived k) := by
  unfold CanSign; infer_instance

/-- `invoke_signed` of a program; `derived` are the addresses the caller signs for. -/
def Program.invokeSigned {Env Ix : Type} (P : Program Env Ix) (env : Env)
    (accounts : List AccountMeta) (derived : List Pubkey) (ix : Ix) (metas : List AccountMeta)
    (s : Bank) : Except Fault Bank := do
  failIf (∃ m ∈ metas, m.isSigner = true ∧ ¬ CanSign accounts derived m.key) .rejected
  P.execute env ix metas s

theorem Program.invokeSigned_ok {Env Ix : Type} {P : Program Env Ix} {env : Env}
    {accounts metas : List AccountMeta} {derived : List Pubkey} {ix : Ix} {s s' : Bank}
    (h : P.invokeSigned env accounts derived ix metas s = .ok s') :
    (∀ m ∈ metas, m.isSigner = true → CanSign accounts derived m.key) ∧
      P.execute env ix metas s = .ok s' := by
  rw [Program.invokeSigned, failIf_bind_eq_ok] at h
  refine ⟨fun m hm hsigner => ?_, h.2⟩
  by_contra hno
  exact h.1 ⟨m, hm, hsigner, hno⟩

def Kept (s s' : Bank) (k : Pubkey) : Prop := (s' k).owner = (s k).owner ∧ (s' k).data = (s k).data

variable {k : Pubkey} {space : Nat}

theorem Kept.trans {s s₁ s₂ : Bank} (h : Kept s s₁ k) (h' : Kept s₁ s₂ k) : Kept s s₂ k :=
  ⟨h'.1.trans h.1, h'.2.trans h.2⟩

theorem Kept.of_eq {s s' : Bank} (h : s' k = s k) : Kept s s' k := by
  rw [Kept, h]
  exact ⟨rfl, rfl⟩

/-! ## The system program -/

namespace System

variable {accounts : List AccountMeta} {derived : List Pubkey} {s s' : Bank} {lamports : UInt64}

def transfer (accounts : List AccountMeta) (derived : List Pubkey) (source destination : Pubkey)
    (lamports : UInt64) (s : Bank) : Except Fault Bank := do
  failIf (¬ CanSign accounts derived source) missingRequiredSignature
  failIf ((s source).owner ≠ systemProgramId ∨ (s source).data ≠ []) invalidArgument
  let sourceLamports ← okOr (checkedSub (s source).lamports lamports) (.err (.custom 1))
  let s := s.setLamports source sourceLamports
  let destinationLamports ← okOr (checkedAdd (s destination).lamports lamports) .rejected
  return s.setLamports destination destinationLamports

/-- `system_instruction::allocate`: zero-filled space for an empty account. -/
def allocate (accounts : List AccountMeta) (derived : List Pubkey) (k : Pubkey) (space : Nat)
    (s : Bank) : Except Fault Bank := do
  failIf (¬ CanSign accounts derived k) missingRequiredSignature
  failIf ((s k).data ≠ [] ∨ (s k).owner ≠ systemProgramId) (.err (.custom 0))
  return s.setData k (.replicate space 0)

def assign (accounts : List AccountMeta) (derived : List Pubkey) (k owner : Pubkey) (s : Bank) :
    Except Fault Bank :=
  if (s k).owner = owner then .ok s
  else do
    failIf (¬ CanSign accounts derived k) missingRequiredSignature
    failIf ((s k).owner ≠ systemProgramId) .rejected
    return update s k { s k with owner }

def createAccount (accounts : List AccountMeta) (derived : List Pubkey) (source k : Pubkey)
    (lamports : UInt64) (space : Nat) (owner : Pubkey) (s : Bank) : Except Fault Bank := do
  failIf (0 < (s k).lamports) (.err (.custom 0))
  let s ← allocate accounts derived k space s
  let s ← assign accounts derived k owner s
  transfer accounts derived source k lamports s

theorem transfer_kept {source destination : Pubkey}
    (h : transfer accounts derived source destination lamports s = .ok s') (k : Pubkey) :
    Kept s s' k := by
  simp only [transfer, checks] at h
  obtain ⟨_, -, _, -, _, -, _, -, rfl⟩ := h
  simp [Kept]

theorem allocate_ok (h : allocate accounts derived k space s = .ok s') :
    CanSign accounts derived k ∧ (s k).data = [] ∧ (s k).owner = systemProgramId ∧
      s' = s.setData k (.replicate space 0) := by
  simp only [allocate, checks, not_not, not_or, ne_eq] at h
  exact ⟨h.1, h.2.1.1, h.2.1.2, h.2.2.symm⟩

theorem assign_ok {k owner : Pubkey} (h : assign accounts derived k owner s = .ok s') :
    s' = update s k { s k with owner } := by
  unfold assign at h
  split at h
  next heq =>
    cases h
    rw [← heq, update_eq_self]
  next =>
    simp only [checks] at h
    obtain ⟨_, -, _, -, rfl⟩ := h
    rfl

structure Created (accounts : List AccountMeta) (derived : List Pubkey) (s s' : Bank)
    (k owner : Pubkey) (space : Nat) : Prop where
  signed : CanSign accounts derived k
  vacant : (s k).owner = systemProgramId
  owner : (s' k).owner = owner
  data : (s' k).data = .replicate space 0
  kept : ∀ k', k' ≠ k → Kept s s' k'

theorem createAccount_ok {source k owner : Pubkey}
    (h : createAccount accounts derived source k lamports space owner s = .ok s') :
    Created accounts derived s s' k owner space := by
  simp only [createAccount, bind_eq_ok, failIf_eq_ok] at h
  obtain ⟨_, -, _, hallocate, _, hassign, htransfer⟩ := h
  obtain ⟨hsigned, -, howner, rfl⟩ := allocate_ok hallocate
  cases assign_ok hassign
  have hkept := transfer_kept htransfer
  refine ⟨hsigned, howner, ?_, ?_, fun k' hk' => ?_⟩
  · rw [(hkept k).1]
    simp
  · rw [(hkept k).2]
    simp
  · refine .trans (.of_eq ?_) (hkept k')
    rw [update_of_ne hk', Bank.setData_of_ne s hk']

end System

end SolanaPrograms.Runtime
