import SolanaPrograms.Token2022.WithheldFees

/-!
# Token-2022 refines its book

The program as the runtime sees it, and the theorem that collects the handlers: every accepted
instruction is a sequence of effects (`execute_refines`). What the rest of the chain does between
instructions leaves the book as it is. Invariants of the book that every effect keeps therefore
hold in every state of every run (`book_invariant`).
-/

namespace SolanaPrograms.Token2022

open Outcome SolanaPrograms.Runtime StateWithExtensionsMut Program

def token2022Id : Pubkey :=
  ⟨[6, 221, 246, 225, 238, 117, 143, 222, 24, 66, 93, 188, 228, 108, 205, 218, 182, 26, 252, 77,
    131, 185, 13, 39, 254, 189, 249, 40, 216, 161, 139, 252], rfl⟩

/-- Token-2022, built without `zk-ops`. -/
def program : Program Env TokenInstruction where
  id := token2022Id
  id_ne_system := by decide
  process := process token2022Id

def requestBy : Event Env TokenInstruction → Request
  | .instruction _ ix accounts => requestOf ix accounts
  | _ => .other

/-! ## Instructions -/

section Instructions

variable {id : Pubkey} {s s' : Bank} {accounts : List AccountMeta} {env : Env}

variable {request : Request} {ix : TokenInstruction}

theorem processTransferFee_refines {ix : TransferFeeInstruction} (hs : AllSound id s)
    (h : processTransferFee id env ix accounts s = .ok s') (hr : AllRespect id accounts s s') :
    Refines id (requestOf (.transferFeeExtension ix) accounts) s s' := by
  cases ix with
  | initializeTransferFeeConfig => exact processInitializeTransferFeeConfig_refines hs hr h
  | transferCheckedWithFee => exact processTransfer_refines hs h
  | withdrawWithheldTokensFromMint =>
    exact processWithdrawWithheldTokensFromMint_refines hs h hr
  | withdrawWithheldTokensFromAccounts =>
    exact processWithdrawWithheldTokensFromAccounts_refines hs h hr
  | harvestWithheldTokensToMint => exact processHarvestWithheldTokensToMint_refines hs h hr
  | setTransferFee => exact processSetTransferFee_refines hs hr h

theorem processConfidentialTransfer_refines {ix : ConfidentialTransferInstruction}
    (hs : AllSound id s) (h : processConfidentialTransfer id env ix accounts s = .ok s')
    (hr : AllRespect id accounts s s') : Refines id request s s' := by
  cases ix with
  | initializeMint => exact processInitializeConfidentialMint_refines hs hr h
  | updateMint => exact processUpdateConfidentialMint_refines hs hr h
  | configureAccount => exact processConfigureAccount_refines hs hr h
  | approveAccount => exact processApproveAccount_refines hs hr h
  | emptyAccount => exact processEmptyAccount_refines hs hr h
  | disableBalanceCredits | enableBalanceCredits => exact processAllowBalanceCredits_refines hs hr h
  | needsZkOps => cases h

theorem Refines.of_query {α : Type} {query : Except Fault α} (hs : AllSound id s)
    (h : (query >>= fun _ => pure s) = .ok s') : Refines id request s s' := by
  obtain ⟨_, -, h⟩ := bind_eq_ok.mp h
  cases pure_eq_ok.mp h
  exact .refl hs

theorem processLocal_refines (hs : AllSound id s) (h : processLocal id env ix accounts s = .ok s')
    (hr : AllRespect id accounts s s') : Refines id (requestOf ix accounts) s s' := by
  cases ix with
  | initializeMint | initializeMint2 => exact initializeMintWith_refines hs h hr
  | initializeAccount | initializeAccount2 | initializeAccount3 =>
    exact initializeAccountWith_refines hs h hr
  | initializeMultisig | initializeMultisig2 => exact initializeMultisigWith_refines hs h hr
  | transfer | transferChecked => exact processTransfer_refines hs h
  | approve | approveChecked => exact processApprove_refines hs hr h
  | revoke => exact processRevoke_refines hs hr h
  | setAuthority => exact processSetAuthority_refines hs hr h
  | mintTo | mintToChecked => exact processMintTo_refines hs h
  | burn | burnChecked => exact processBurn_refines hs h
  | closeAccount => exact processCloseAccount_refines hs h hr
  | freezeAccount | thawAccount => exact processToggleFreezeAccount_refines hs hr h
  | syncNative => exact processSyncNative_refines hs h
  | initializeImmutableOwner => exact processInitializeImmutableOwner_refines hs hr h
  | initializeMintCloseAuthority => exact processInitializeMintCloseAuthority_refines hs hr h
  | transferFeeExtension => exact processTransferFee_refines hs h hr
  | confidentialTransferExtension => exact processConfidentialTransfer_refines hs h hr
  | initializeDefaultAccountState => exact processInitializeDefaultAccountState_refines hs hr h
  | updateDefaultAccountState => exact processUpdateDefaultAccountState_refines hs hr h
  | enableRequiredMemoTransfers | disableRequiredMemoTransfers =>
    exact processRequiredMemoTransfers_refines hs hr h
  | getAccountDataSize => exact .of_query hs h
  | amountToUiAmount => exact .of_query hs h
  | uiAmountToAmount => exact .of_query hs h
  | reallocate => cases h
  | createNativeMint => cases h

theorem process_refines {base : Bank} (hid : id ≠ systemProgramId) (hs : AllSound id s)
    (h : process id env ix accounts s = .ok (base, s')) (hr : AllRespect id accounts base s') :
    Refines id (requestOf ix accounts) s s' := by
  unfold process at h
  split at h
  next => exact processReallocate_refines hs h
  next => exact processCreateNativeMint_refines hid hs h
  next =>
    simp only [checks] at h
    obtain ⟨_, h, rfl, rfl⟩ := h
    exact processLocal_refines hs h hr

/-- **Every accepted instruction is a sequence of effects.** -/
theorem execute_refines (hs : AllSound token2022Id s)
    (h : program.execute env ix accounts s = .ok s') :
    Refines token2022Id (requestOf ix accounts) s s' := by
  obtain ⟨_, hproc, hr⟩ := execute_ok h
  exact process_refines program.id_ne_system hs hproc hr

end Instructions

/-! ## Runs -/

section Runs

variable {s s' s₀ : Bank} {id : Pubkey} {request : Request} {I : Book → Prop}

theorem Refines.of_drift (hs : AllSound id s)
    (h : ∀ k, Program.Drift id (s k) (s' k)) : Refines id request s s' := by
  have hentry : ∀ k, book id s' k = book id s k ∧ ((s' k).owner = id → Sound (s' k).data) := by
    intro k
    cases h k with
    | kept howner hdata =>
      refine ⟨by simp [book, howner, hdata], fun howner' => ?_⟩
      rw [hdata]
      exact hs k (howner ▸ howner')
    | entered hpre _ hdata =>
      have hzeros : ∀ b ∈ (s' k).data, b = 0 := by
        rw [hdata]
        exact fun b hb => List.eq_of_mem_replicate hb
      refine ⟨?_, fun _ => .of_zeros hzeros⟩
      rw [book_of_owner_ne hpre, book, entryOf_zeros hzeros, ite_self]
    | outside hpre hpost =>
      exact ⟨by rw [book_of_owner_ne hpre, book_of_owner_ne hpost], fun h => absurd h hpost⟩
    | left hpost hdata =>
      refine ⟨?_, fun h => absurd h hpost⟩
      rw [book_of_owner_ne hpost, book, entryOf_zeros hdata, ite_self]
  refine ⟨?_, fun k => (hentry k).2⟩
  rw [show book id s' = book id s from funext fun k => (hentry k).1]

/-- **Step.** Every event is a sequence of effects on the book. -/
theorem step_refines (hs : AllSound token2022Id s) (e : Event Env TokenInstruction) :
    Refines token2022Id (requestBy e) s (program.step s e) := by
  by_cases he : ∃ env ix accounts, e = .instruction env ix accounts
  · obtain ⟨env, ix, accounts, rfl⟩ := he
    rcases step_instruction (P := program) env ix accounts s with h | h
    · exact execute_refines hs h
    · rw [h]
      exact .refl hs
  · exact .of_drift hs (step_drift (P := program) s fun env ix accounts h =>
      he ⟨env, ix, accounts, h⟩)

theorem AllSound.of_fresh (h : program.Fresh s) : AllSound token2022Id s :=
  fun k howner => .of_zeros (h k howner)

theorem book_of_fresh (h : program.Fresh s) : book token2022Id s = fun _ => .vacant := by
  funext k
  by_cases howner : (s k).owner = token2022Id
  · rw [book_of_owner howner, entryOf_zeros (h k howner)]
  · exact book_of_owner_ne howner

theorem AllSound.run (hfresh : program.Fresh s₀)
    (events : List (Event Env TokenInstruction)) : AllSound token2022Id (program.run s₀ events) :=
  run_invariant (P := program) (I := AllSound token2022Id)
    (fun _ e h => (step_refines h e).sound) (.of_fresh hfresh) events

theorem Effects.invariant (heffect : ∀ B B', Effect request B B' → I B → I B') {B B' : Book}
    (h : Effects request B B') (hI : I B) : I B' := by
  induction h with
  | refl => exact hI
  | tail _ hlast ih => exact heffect _ _ hlast ih

/-- **Run.** What every effect keeps holds of the book in every state of every run. -/
theorem book_invariant (hvacant : I fun _ => .vacant)
    (heffect : ∀ request B B', Effect request B B' → I B → I B')
    (hfresh : program.Fresh s₀) (events : List (Event Env TokenInstruction)) :
    I (book token2022Id (program.run s₀ events)) := by
  have hrun := run_invariant (P := program)
    (I := fun s => AllSound token2022Id s ∧ I (book token2022Id s))
    (fun s e h => ⟨(step_refines h.1 e).sound,
      Effects.invariant (heffect _) (step_refines h.1 e).effects h.2⟩)
    ⟨.of_fresh hfresh, by rw [book_of_fresh hfresh]; exact hvacant⟩ events
  exact hrun.2

/-- **Refinement.** Every run of token-2022 on bytes is a run of the abstract machine that starts
with nothing in its book, and the data of the program's accounts is sound at its end. -/
theorem run_refines {s₀ : Bank} (hfresh : program.Fresh s₀)
    (events : List (Event Env TokenInstruction)) :
    Relation.ReflTransGen (fun B B' => ∃ request, Effect request B B') (fun _ => .vacant)
      (book token2022Id (program.run s₀ events)) ∧
    AllSound token2022Id (program.run s₀ events) := by
  refine ⟨book_invariant .refl (fun request B B' h hrun => ?_) hfresh events, .run hfresh events⟩
  exact hrun.tail ⟨request, h⟩

end Runs

/-- An epoch without rent and without proofs. -/
def plainEnv : Env := ⟨flatRent 0, 0, none, fun _ _ => .error (.err .invalidInstructionData)⟩

/-- A mint with a fee of ten percent is created and two accounts for it; a hundred tokens are
minted to one account, fifty of them are sent to the other, and the fee withheld there is harvested
to the mint. -/
def feeRun : List (Event Env TokenInstruction) :=
  let mint : Pubkey := .replicate 1
  let alice : Pubkey := .replicate 2
  let bob : Pubkey := .replicate 3
  let authority : Pubkey := .replicate 4
  [.enter mint 278, .enter alice 178, .enter bob 178,
    .instruction plainEnv (.transferFeeExtension (.initializeTransferFeeConfig none none 1000 100))
      [⟨mint, false⟩],
    .instruction plainEnv (.initializeMint2 0 authority none) [⟨mint, false⟩],
    .instruction plainEnv (.initializeAccount3 authority) [⟨alice, false⟩, ⟨mint, false⟩],
    .instruction plainEnv (.initializeAccount3 authority) [⟨bob, false⟩, ⟨mint, false⟩],
    .instruction plainEnv (.mintTo 100) [⟨mint, false⟩, ⟨alice, false⟩, ⟨authority, true⟩],
    .instruction plainEnv (.transferChecked 50 0)
      [⟨alice, false⟩, ⟨mint, false⟩, ⟨bob, false⟩, ⟨authority, true⟩],
    .instruction plainEnv (.transferFeeExtension .harvestWithheldTokensToMint)
      [⟨mint, false⟩, ⟨bob, false⟩],
    .instruction plainEnv (.transferChecked 20 0)
      [⟨alice, false⟩, ⟨mint, false⟩, ⟨bob, false⟩, ⟨authority, true⟩]]

/-- The run in which fees are charged and harvested. At its end a hundred tokens are in the book. -/
theorem run_refines_feeRun :
    (mintAt token2022Id (program.run emptyBank feeRun) (.replicate 1)).map (·.base.supply) =
      some 100 ∧
    Relation.ReflTransGen (fun B B' => ∃ request, Effect request B B') (fun _ => .vacant)
      (book token2022Id (program.run emptyBank feeRun)) ∧
    AllSound token2022Id (program.run emptyBank feeRun) :=
  ⟨by decide +kernel, run_refines program.fresh_emptyBank feeRun⟩

end SolanaPrograms.Token2022
