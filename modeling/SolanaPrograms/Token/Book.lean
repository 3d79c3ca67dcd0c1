import SolanaPrograms.Lib.Tokens
import SolanaPrograms.Runtime.Writes
import SolanaPrograms.Token.Processor

/-!
# The mints and accounts as a book

`book` reads what the program keeps as a `Tokens.Book`, the token program over any type of
addresses that the other programs call. An accepted instruction leaves the book alone or is an
instruction of that token program (`Posted`), signed by those whose signatures are with it.

What nobody can do without the authority (`Guard`) is then a case of what holds of every instruction
there: a token account without a delegate and a close authority, whose owner does not sign, keeps
its owner and its tokens; a mint whose mint authority does not sign keeps that authority and does
not grow.
-/

namespace SolanaPrograms.Token

open Outcome SolanaPrograms.Runtime List
open Function (update update_of_ne update_self)

section

variable (id : Pubkey) (s : Bank)

abbrev accountAt (k : Pubkey) : Option Account := stateAt Account id s k

abbrev mintAt (k : Pubkey) : Option Mint := stateAt Mint id s k

/-- The signatures an instruction carries are those of `key`: `validate_owner` passes for an
account of the list, with the accounts behind it as signers. -/
def Authorized (accounts : List AccountMeta) (key : Pubkey) : Prop :=
  ∃ info signers, info :: signers <:+ accounts ∧ validateOwner id s key info signers = .ok ()

end

theorem key_ne_of_lengths {s : Bank} {k k' : Pubkey} {a : Account} {m : Mint}
    (ha : Pack.unpack Account (s k).data = .ok a) (hm : Pack.unpack Mint (s k').data = .ok m) :
    k ≠ k' := by
  rintro rfl
  have h₁ : (s k).data.length = 165 := Pack.unpack_length ha
  have h₂ : (s k).data.length = 82 := Pack.unpack_length hm
  omega

variable {id k : Pubkey} {s s' : Bank} {a : Account} {m : Mint}

theorem accountAt_length (h : accountAt id s k = some a) : (s k).data.length = 165 :=
  Pack.unpack_length (stateAt_eq_some.mp h).2

theorem mintAt_length (h : mintAt id s k = some m) : (s k).data.length = 82 :=
  Pack.unpack_length (stateAt_eq_some.mp h).2

theorem accountAt_of_length (h : (s k).data.length ≠ 165) : accountAt id s k = none :=
  Option.eq_none_iff_forall_ne_some.mpr fun _ ha => h (accountAt_length ha)

theorem mintAt_of_length (h : (s k).data.length ≠ 82) : mintAt id s k = none :=
  Option.eq_none_iff_forall_ne_some.mpr fun _ hm => h (mintAt_length hm)

theorem accountAt_of_mintAt (h : mintAt id s k = some m) : accountAt id s k = none :=
  accountAt_of_length (by rw [mintAt_length h]; decide)

theorem mintAt_of_accountAt (h : accountAt id s k = some a) : mintAt id s k = none :=
  mintAt_of_length (by rw [accountAt_length h]; decide)

theorem accountAt_zero {n : Nat} (h : (s k).data = .replicate n 0) : accountAt id s k = none :=
  stateAt_eq_none.mpr fun _ _ => Account.unpack_zero
    (by rw [h]; exact fun b hb => List.eq_of_mem_replicate hb)

theorem view_of_eq {α : Type} [Pack α] (h : s' k = s k) : stateAt α id s' k = stateAt α id s k :=
  stateAt_congr (by rw [h]) (by rw [h])

/-! ## The book -/

variable {accounts : List AccountMeta}

instance : Tokens.Special Pubkey where
  ownerless k := k = systemProgramId ∨ k = incineratorId
  incinerator k := k = incineratorId
  native k := k = nativeMintId

def Account.token (a : Account) : Tokens.TokenAccount Pubkey where
  mint := a.mint
  owner := a.owner
  amount := a.amount.toNat
  delegate := a.delegate
  delegatedAmount := a.delegatedAmount.toNat
  closeAuthority := a.closeAuthority
  frozen := a.isFrozen
  native := a.isNative.isSome

def Mint.token (m : Mint) : Tokens.Mint Pubkey :=
  ⟨m.mintAuthority, m.supply.toNat, m.freezeAuthority⟩

def book (id : Pubkey) (s : Bank) : Tokens.Book Pubkey := fun k =>
  match accountAt id s k, mintAt id s k with
  | some a, _ => .account a.token
  | none, some m => .mint m.token
  | none, none => .free

variable {k' : Pubkey} {a' : Account}

theorem book_account (h : accountAt id s k = some a) : book id s k = .account a.token := by
  simp [book, h]

theorem book_mint (h : mintAt id s k = some m) : book id s k = .mint m.token := by
  simp [book, h, accountAt_of_mintAt h]

theorem book_free (ha : accountAt id s k = none) (hm : mintAt id s k = none) :
    book id s k = .free := by
  simp [book, ha, hm]

theorem book_eq_account {t : Tokens.TokenAccount Pubkey} (h : book id s k = .account t) :
    ∃ a, accountAt id s k = some a ∧ a.token = t := by
  unfold book at h
  split at h <;> cases h
  exact ⟨_, ‹_›, rfl⟩

theorem book_eq_mint {t : Tokens.Mint Pubkey} (h : book id s k = .mint t) :
    ∃ m, mintAt id s k = some m ∧ m.token = t := by
  unfold book at h
  split at h <;> cases h
  exact ⟨_, ‹_›, rfl⟩

theorem book_congr (ha : accountAt id s' k = accountAt id s k)
    (hm : mintAt id s' k = mintAt id s k) : book id s' k = book id s k := by
  rw [book, ha, hm, ← book]

theorem book_of_eq (h : s' k = s k) : book id s' k = book id s k :=
  book_congr (view_of_eq h) (view_of_eq h)

theorem book_update (h : SameExcept s s' [k]) :
    book id s' = update (book id s) k (book id s' k) := by
  funext j
  by_cases hj : j = k
  · rw [hj, update_self]
  · rw [update_of_ne hj, book_of_eq (h j (by simpa using hj))]

theorem book_update_update (h : SameExcept s s' [k, k']) :
    book id s' = update (update (book id s) k (book id s' k)) k' (book id s' k') := by
  funext j
  by_cases hj' : j = k'
  · rw [hj', update_self]
  · by_cases hj : j = k
    · rw [hj] at hj' ⊢
      rw [update_of_ne hj', update_self]
    · rw [update_of_ne hj', update_of_ne hj, book_of_eq (h j (by simp [hj, hj']))]

/-! ## Instructions of the token program -/

open Classical in
/-- Whose signatures an instruction carries. -/
noncomputable def signs (id : Pubkey) (s : Bank) (accounts : List AccountMeta) (k : Pubkey) :
    Bool :=
  decide (Authorized id s accounts k)

theorem Authorized.signs (h : Authorized id s accounts k) : signs id s accounts k = true := by
  simpa [Token.signs] using h

theorem signs_eq_false (h : ¬ Authorized id s accounts k) : signs id s accounts k = false := by
  simpa [signs] using h

/-- The accounts the system program handed over. -/
def handedOver (id : Pubkey) (s : Bank) (k : Pubkey) : Bool := (s k).owner = id

/-- Data that could still become a mint records no supply. -/
def BlankMints (id : Pubkey) (s : Bank) : Prop :=
  ∀ k m, (s k).owner = id → Pack.unpackUnchecked Mint (s k).data = .ok m →
    m.isInitialized = false → m.supply = 0

def AllMinted (id : Pubkey) (s : Bank) : Prop :=
  ∀ k a, accountAt id s k = some a → a.isNative = none → mintAt id s a.mint ≠ none

/-- What an accepted instruction does to the book. The last two cases are not met in a run: a new
mint takes over the supply that its data holds, and `FreezeAccount` does not ask whose account the
mint is. -/
inductive Posted (id : Pubkey) (s s' : Bank) (accounts : List AccountMeta) : Prop
  | same (h : book id s' = book id s)
  | call (i : Tokens.Instruction Pubkey)
      (h : Tokens.exec (signs id s accounts) (handedOver id s) (book id s) i = some (book id s'))
  | leftover (k : Pubkey) (m : Mint) (hnot : ¬ BlankMints id s) (hk : book id s k = .free)
      (h : book id s' = update (book id s) k (.mint m.token))
  | foreign (k : Pubkey) (a : Tokens.TokenAccount Pubkey) (frozen : Bool) (hnot : ¬ AllMinted id s)
      (hk : book id s k = .account a)
      (h : book id s' = update (book id s) k (.account { a with frozen }))

theorem Posted.change (h : Posted id s s' accounts) (k : Pubkey) :
    Tokens.Change (signs id s accounts) (book id s k) (book id s' k) := by
  cases h with
  | same h =>
    rw [h]
    exact .same _
  | call i h => exact (Tokens.exec_step h k).1
  | leftover _ m _ hk h =>
    rw [h]
    exact Tokens.change_of_update (hk ▸ .opened _) k
  | foreign _ a frozen _ hk h =>
    rw [h]
    exact Tokens.change_of_update (hk ▸ .frozen a frozen) k

/-- **Simulation.** -/
theorem Posted.simulated (h : Posted id s s' accounts) (hblank : BlankMints id s)
    (hminted : AllMinted id s) : book id s' = book id s ∨ ∃ i,
      Tokens.exec (signs id s accounts) (handedOver id s) (book id s) i = some (book id s') := by
  cases h with
  | same h => exact .inl h
  | call i h => exact .inr ⟨i, h⟩
  | leftover _ _ hnot => exact absurd hblank hnot
  | foreign _ _ _ hnot => exact absurd hminted hnot

/-! ## What nobody can do without the authority -/

/-- Only the owner has a say over the account. -/
structure Account.Guarded (a : Account) : Prop where
  notSystem : a.isOwnedBySystemProgramOrIncinerator = false
  delegate : a.delegate = none
  closeAuthority : a.closeAuthority = none

/-- The account is as guarded as before, and has lost nothing. -/
structure Account.Keeps (a a' : Account) : Prop where
  owner : a'.owner = a.owner
  mint : a'.mint = a.mint
  delegate : a'.delegate = a.delegate
  closeAuthority : a'.closeAuthority = a.closeAuthority
  amount : a.amount ≤ a'.amount

theorem Account.Keeps.refl (a : Account) : a.Keeps a := ⟨rfl, rfl, rfl, rfl, UInt64.le_refl _⟩

theorem Account.Guarded.of_keeps (hg : a.Guarded) (h : a.Keeps a') : a'.Guarded := by
  refine ⟨?_, h.delegate.trans hg.delegate, h.closeAuthority.trans hg.closeAuthority⟩
  rw [Account.isOwnedBySystemProgramOrIncinerator, h.owner]
  exact hg.notSystem

structure Mint.Keeps (m m' : Mint) : Prop where
  mintAuthority : m'.mintAuthority = m.mintAuthority
  supply : m'.supply ≤ m.supply

theorem Mint.Keeps.refl (m : Mint) : m.Keeps m := ⟨rfl, UInt64.le_refl _⟩

structure Guard (id : Pubkey) (s s' : Bank) (accounts : List AccountMeta) : Prop where
  account : ∀ k a, accountAt id s k = some a → a.Guarded → ¬ Authorized id s accounts a.owner →
    ∃ a', accountAt id s' k = some a' ∧ a.Keeps a'
  mint : ∀ k m x, mintAt id s k = some m → m.mintAuthority = some x →
    ¬ Authorized id s accounts x → ∃ m', mintAt id s' k = some m' ∧ m.Keeps m'

theorem Posted.guard (h : Posted id s s' accounts) : Guard id s s' accounts := by
  refine ⟨fun k a ha hg hno => ?_, fun k m x hm hx hno => ?_⟩
  · have hchange := h.change k
    rw [book_account ha] at hchange
    have hbefore : a.token.Locked a.mint a.owner :=
      ⟨rfl, hg.notSystem, rfl, hg.delegate, hg.closeAuthority⟩
    obtain ⟨_, hafter, hlocked, hle⟩ := hchange.locked hbefore (signs_eq_false hno)
    obtain ⟨a', ha', rfl⟩ := book_eq_account hafter
    exact ⟨a', ha', hlocked.owner, hlocked.mint, hlocked.delegate.trans hg.delegate.symm,
      hlocked.closeAuthority.trans hg.closeAuthority.symm, UInt64.le_iff_toNat_le.mpr hle⟩
  · have hchange := h.change k
    rw [book_mint hm] at hchange
    obtain ⟨_, hafter, hauthority, hle, -⟩ := hchange.mint_kept fun y hy => by
      cases hx.symm.trans hy
      exact signs_eq_false hno
    obtain ⟨m', hm', rfl⟩ := book_eq_mint hafter
    exact ⟨m', hm', hauthority, UInt64.le_iff_toNat_le.mpr hle⟩

/-- A key without an account of the program is authorised by its own signature only. -/
theorem Authorized.signed {x : Pubkey} (h : Authorized id s accounts x)
    (howner : (s x).owner ≠ id) :
    ∃ m ∈ accounts, m.key = x ∧ m.isSigner = true := by
  obtain ⟨info, _, hsuffix, hvalid⟩ := h
  simp only [validateOwner, checks, ne_eq, not_not] at hvalid
  obtain ⟨rfl, hvalid⟩ := hvalid
  rw [if_neg fun hmulti => howner hmulti.1.symm] at hvalid
  exact ⟨info, hsuffix.subset mem_cons_self, rfl, by simpa using hvalid⟩

end SolanaPrograms.Token
