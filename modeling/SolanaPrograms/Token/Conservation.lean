import SolanaPrograms.Lib.Ledger
import SolanaPrograms.Token.Invariants

/-!
# Conservation of supply

The token program refines the abstract ledger. The ledger of a store has the mints as assets
and the accounts of the program as holders; wrapped SOL, whose amounts follow lamports, is left
out. Every effect of an instruction is a move of this ledger (`Effect.move`), and what other
programs do is no move at all, so the supply of every mint is the sum of the amounts of its
accounts in every state of every run.
-/

namespace SolanaPrograms.Token

open Outcome SolanaPrograms.Runtime

variable {id : Pubkey} {s s' : Bank} {accounts : List AccountMeta} {ix : TokenInstruction}

def amountOf (id : Pubkey) (s : Bank) (k m : Pubkey) : ℕ :=
  match accountAt id s k with
  | some a => if a.mint = m then a.amount.toNat else 0
  | none => 0

def supplyOf (id : Pubkey) (s : Bank) (m : Pubkey) : ℕ :=
  match mintAt id s m with
  | some mint => mint.supply.toNat
  | none => 0

/-- The ledger a store represents, without wrapped SOL. -/
def ledger (id : Pubkey) (s : Bank) : Ledger Pubkey Pubkey where
  supply m := if m = nativeMintId then 0 else supplyOf id s m
  holding k m := if m = nativeMintId then 0 else amountOf id s k m

variable {k m : Pubkey} {a a' : Account} {m' : Mint}

theorem amountOf_some (h : accountAt id s k = some a) (m : Pubkey) :
    amountOf id s k m = if a.mint = m then a.amount.toNat else 0 := by
  rw [amountOf, h]

theorem amountOf_none (h : accountAt id s k = none) (m : Pubkey) : amountOf id s k m = 0 := by
  rw [amountOf, h]

theorem amountOf_congr (h : accountAt id s' k = accountAt id s k) (m : Pubkey) :
    amountOf id s' k m = amountOf id s k m := by
  rw [amountOf, amountOf, h]

theorem supplyOf_some {mint : Mint} (h : mintAt id s m = some mint) :
    supplyOf id s m = mint.supply.toNat := by
  rw [supplyOf, h]

theorem supplyOf_none (h : mintAt id s m = none) : supplyOf id s m = 0 := by
  rw [supplyOf, h]

theorem supplyOf_congr (h : mintAt id s' m = mintAt id s m) :
    supplyOf id s' m = supplyOf id s m := by
  rw [supplyOf, supplyOf, h]

/-- The ledger with wrapped SOL. -/
def accounting (id : Pubkey) (s : Bank) : Ledger Pubkey Pubkey := ⟨supplyOf id s, amountOf id s⟩

theorem sameAt_of_views (ha : accountAt id s' k = accountAt id s k)
    (hm : mintAt id s' k = mintAt id s k) : (accounting id s).SameAt (accounting id s') k :=
  ⟨supplyOf_congr hm, amountOf_congr ha⟩

theorem sameAt_of_frame {keys : List Pubkey} (h : SameExcept s s' keys) (hk : k ∉ keys) :
    (accounting id s).SameAt (accounting id s') k :=
  sameAt_of_views (view_of_eq (h k hk)) (view_of_eq (h k hk))

theorem supplyOf_of_no_mints (h : mintAt id s k = none) (h' : mintAt id s' k = none) :
    supplyOf id s' k = supplyOf id s k :=
  supplyOf_congr (h'.trans h.symm)

/-- Where token accounts of one mint were and are, only what they hold of it changes. -/
theorem holdingAt_of_accounts (h : accountAt id s k = some a) (h' : accountAt id s' k = some a')
    (hmint : a'.mint = a.mint) : (accounting id s).HoldingAt (accounting id s') k a.mint where
  supply := supplyOf_of_no_mints (mintAt_of_accountAt h) (mintAt_of_accountAt h')
  other n hn := by simp [accounting, amountOf_some h, amountOf_some h', hmint, hn.symm]

theorem amountOf_of_mints {m : Mint} (h : mintAt id s k = some m) (h' : mintAt id s' k = some m')
    (n : Pubkey) : amountOf id s' k n = amountOf id s k n :=
  amountOf_congr ((accountAt_of_mintAt h').trans (accountAt_of_mintAt h).symm) n

/-! ## Effects are moves -/

/-- A change to one account that concerns wrapped SOL at most. -/
theorem move_single {k : Pubkey} (hframe : SameExcept s s' [k])
    (hk : (accounting id s).HoldingAt (accounting id s') k nativeMintId) :
    Ledger.Move (ledger id s) (ledger id s') :=
  .of_single (fun _ hj => sameAt_of_frame hframe (by simpa using hj)) hk

theorem move_update (hupd : AccountUpdate id s s' k a a') (hmint : a'.mint = a.mint)
    (hamount : a'.amount = a.amount) : Ledger.Move (ledger id s) (ledger id s') :=
  move_single hupd.frame ⟨(holdingAt_of_accounts hupd.before hupd.after hmint).supply, fun n _ => by
    simp [accounting, amountOf_some hupd.before, amountOf_some hupd.after, hmint, hamount]⟩

/-- A new mint starts without supply, so nothing changes in the ledger. -/
theorem move_mintCreated {m : Mint} (howner : (s k).owner = id)
    (hread : Pack.unpackUnchecked Mint (s k).data = .ok m) (huninit : m.isInitialized = false)
    (hafter : mintAt id s' k = some m') (hsupply : m'.supply = m.supply)
    (hframe : SameExcept s s' [k]) (hblank : BlankMints id s) :
    Ledger.Move (ledger id s) (ledger id s') := by
  have hlen : (s k).data.length = 82 := (Pack.unpackUnchecked_eq_ok.mp hread).1
  have hbefore : mintAt id s k = none := stateAt_of_uninitialized hread huninit
  refine move_single hframe ⟨?_, fun n _ => ?_⟩
  · simp only [accounting, supplyOf_some hafter, supplyOf_none hbefore, hsupply,
      hblank k m howner hread huninit]
    rfl
  · simp only [accounting, amountOf_none (accountAt_of_mintAt hafter),
      amountOf_none (accountAt_of_length (by rw [hlen]; decide))]

theorem move_closed {dst : Pubkey} (hbefore : accountAt id s k = some a)
    (hbalance : a.isNative = none → a.amount = 0) (hdata' : (s' k).data = .replicate 165 0)
    (hdst : (s' dst).owner = (s dst).owner ∧ (s' dst).data = (s dst).data)
    (hframe : SameExcept s s' [k, dst]) (hbacked : AllBacked id s) :
    Ledger.Move (ledger id s) (ledger id s') := by
  have hrest : ∀ j, j ≠ k → (accounting id s).SameAt (accounting id s') j := by
    intro j hj
    by_cases hj' : j = dst
    · subst hj'
      exact sameAt_of_views (stateAt_congr hdst.1 hdst.2) (stateAt_congr hdst.1 hdst.2)
    · exact sameAt_of_frame hframe (by simp [hj, hj'])
  refine .of_single hrest ⟨supplyOf_of_no_mints (mintAt_of_accountAt hbefore)
    (mintAt_of_length (by rw [hdata', List.length_replicate]; decide)), fun m hm => ?_⟩
  simp only [accounting, amountOf_none (accountAt_zero hdata'), amountOf_some hbefore]
  split
  next hmint =>
    have hnone : a.isNative = none := by
      by_contra hsome
      exact hm (hmint ▸ (hbacked k a hbefore).native.mp (Option.isSome_iff_ne_none.mpr hsome))
    simp [hbalance hnone]
  next => rfl

/-- **Refinement.** From a well-formed store every effect is a move of the ledger. -/
theorem Effect.move (he : Effect id s s' accounts ix) (hbacked : AllBacked id s)
    (hblank : BlankMints id s) : Ledger.Move (ledger id s) (ledger id s') := by
  cases he with
  | idle heq => exact .of_eq (by rw [heq])
  | mintCreated _ _ _ _ howner hread huninit hafter hsupply _ hframe =>
    exact move_mintCreated howner hread huninit hafter hsupply hframe hblank
  | accountCreated _ _ _ hnew =>
    have hlen := hnew.length
    refine move_single hnew.frame ⟨supplyOf_of_no_mints (mintAt_of_length (by omega))
      (mintAt_of_accountAt hnew.after), fun n hn => ?_⟩
    simp only [accounting, amountOf_some hnew.after, amountOf_none hnew.before]
    rcases hnew.kind with ⟨hmint, _⟩ | ⟨_, _, hzero⟩
    · rw [if_neg (by rw [hmint]; exact hn.symm)]
    · simp [hzero]
  | multisigCreated _ _ _ _ _ hframe =>
    exact move_single hframe ⟨supplyOf_of_no_mints (mintAt_of_length (by omega))
      (mintAt_of_length (by omega)), fun n _ => amountOf_congr ((accountAt_of_length
        (by omega)).trans (accountAt_of_length (by omega)).symm) n⟩
  | accountUpdated _ _ _ _ hupd hmint hamount => exact move_update hupd hmint hamount
  | approved _ _ _ _ _ _ _ hupd => exact move_update hupd rfl rfl
  | mintUpdated _ _ _ _ hupd hsupply =>
    refine move_single hupd.frame ⟨?_, fun n _ => amountOf_of_mints hupd.before hupd.after n⟩
    simp only [accounting, supplyOf_some hupd.after, supplyOf_some hupd.before, hsupply]
  | transferred _ _ _ _ _ _ x _ _ _ _ hne hsrc hdst hmint hauth hy hz hsrc' hdst' _ hframe =>
    refine .of_transfer (x := x.toNat) hne
      (fun _ h₁ h₂ => sameAt_of_frame hframe (by simp [h₁, h₂]))
      (holdingAt_of_accounts hsrc hsrc' hauth.same.1)
      (hmint ▸ holdingAt_of_accounts hdst hdst' rfl) ?_ ?_
    · simp [accounting, amountOf_some hsrc', amountOf_some hsrc, hauth.same.1, hy]
    · simp [accounting, amountOf_some hdst', amountOf_some hdst, hmint, hz]
  | minted _ _ _ _ x _ _ _ hsrc _ hmintKey hmint hy hz hsrc' hmint' _ _ hframe =>
    subst hmintKey
    refine .of_mint (x := x.toNat)
      (fun _ h₁ h₂ => sameAt_of_frame hframe (by simp [h₁, h₂]))
      (holdingAt_of_accounts hsrc hsrc' rfl) (amountOf_of_mints hmint hmint') ?_ ?_
    · simp [accounting, amountOf_some hsrc', amountOf_some hsrc, hy]
    · simp [accounting, supplyOf_some hmint', supplyOf_some hmint, hz]
  | burned _ _ a a' _ _ x _ _ _ _ hsrc _ hmintKey hmint hauth hy hz hsrc' hmint' _ _ hframe =>
    subst hmintKey
    have hsame : a'.mint = a.mint := by
      split at hauth
      · rw [hauth]
      · exact hauth.same.1
    refine .of_burn (x := x.toNat)
      (fun _ h₁ h₂ => sameAt_of_frame hframe (by simp [h₁, h₂]))
      (holdingAt_of_accounts hsrc hsrc' hsame) (amountOf_of_mints hmint hmint') ?_ ?_
    · simp [accounting, amountOf_some hsrc', amountOf_some hsrc, hsame, hy]
    · simp [accounting, supplyOf_some hmint', supplyOf_some hmint, hz]
  | closed _ _ _ _ _ hbefore hbalance _ _ hdata' hdst hframe =>
    exact move_closed hbefore hbalance hdata' ⟨hdst.1, hdst.2.1⟩ hframe hbacked
  | synced k a _ _ _ hnative _ _ hupd =>
    have hmint : a.mint = nativeMintId :=
      (hbacked k a hupd.before).native.mp (by rw [hnative]; rfl)
    exact move_single hupd.frame (hmint ▸ holdingAt_of_accounts hupd.before hupd.after rfl)

/-! ## Runs -/

/-- Other programs cannot move the ledger. -/
theorem ledger_of_drift (hd : ∀ k, Program.Drift id (s k) (s' k)) : ledger id s' = ledger id s :=
  Ledger.without_congr fun k => (sameAt_of_views (accountAt_of_drift (hd k))
    (mintAt_of_drift (hd k))).holdingAt nativeMintId

theorem ledger_step (h : WellFormed s) (e : Event Rent TokenInstruction) :
    Ledger.Move (ledger tokenProgramId s) (ledger tokenProgramId (program.step s e)) := by
  rcases step_cases s e with heq | ⟨rent, ix, accounts, -, hexec⟩ | hd
  · exact .of_eq (by rw [heq])
  · exact (execute_effect hexec).move h.backed h.blank
  · exact .of_eq (ledger_of_drift hd)

theorem ledger_run (h : WellFormed s) (events : List (Event Rent TokenInstruction)) :
    Ledger.Moves (ledger tokenProgramId s) (ledger tokenProgramId (program.run s events)) := by
  induction events generalizing s with
  | nil => exact .refl
  | cons e _ ih => exact .head (ledger_step h e) (ih (h.step e))

/-- Before the first instruction nothing is issued and nothing is held. -/
theorem ledger_fresh (h : program.Fresh s) : (ledger tokenProgramId s).Conserved := by
  have haccount : ∀ k, accountAt tokenProgramId s k = none := fun k =>
    stateAt_eq_none.mpr fun _ howner => Account.unpack_zero (h k howner)
  have hmint : ∀ k, mintAt tokenProgramId s k = none := fun k =>
    stateAt_eq_none.mpr fun _ howner => Mint.unpack_zero (h k howner)
  intro m
  simp [ledger, Ledger.total, supplyOf_none (hmint m), amountOf_none (haccount _)]

/-- **Conservation of supply.** Whatever instructions are run, with whatever accounts, and
whatever other programs do in between: the supply of an initialised mint other than the native
mint is the sum of the amounts of the initialised or frozen accounts of that mint. -/
theorem supply_eq_sum_amounts {s₀ : Bank} (hfresh : program.Fresh s₀)
    (events : List (Event Rent TokenInstruction)) {m : Pubkey} {mint : Mint}
    (hmint : mintAt tokenProgramId (program.run s₀ events) m = some mint)
    (hnative : m ≠ nativeMintId) :
    mint.supply.toNat = ∑ k, amountOf tokenProgramId (program.run s₀ events) k m := by
  have hwf := WellFormed.of_fresh hfresh
  have hcons := (ledger_run hwf events).conserved (ledger_fresh hfresh) m
  simpa [ledger, Ledger.total, hnative, supplyOf_some hmint] using hcons

def mintingRun : List (Event Rent TokenInstruction) :=
  let mint : Pubkey := .replicate 1
  let account : Pubkey := .replicate 2
  let authority : Pubkey := .replicate 3
  [.enter mint 82, .enter account 165,
    .instruction (flatRent 0) (.initializeMint2 0 authority none) [⟨mint, false⟩],
    .instruction (flatRent 0) (.initializeAccount3 authority) [⟨account, false⟩, ⟨mint, false⟩],
    .instruction (flatRent 0) (.mintTo 5)
      [⟨mint, false⟩, ⟨account, false⟩, ⟨authority, true⟩]]

theorem supply_eq_sum_amounts_minting :
    5 = ∑ k, amountOf tokenProgramId (program.run Program.emptyBank mintingRun) k
      (.replicate 1) := by
  have hmint : mintAt tokenProgramId (program.run Program.emptyBank mintingRun) (.replicate 1) =
      some ⟨some (.replicate 3), 5, 0, true, none⟩ := by decide +kernel
  exact supply_eq_sum_amounts program.fresh_emptyBank mintingRun hmint (by decide)

end SolanaPrograms.Token
