import SolanaPrograms.Lib.Run
import SolanaPrograms.Token2022.Conservation

/-!
# Transfer fees are charged

`process_transfer` relies on every account of a mint with a `TransferFeeConfig` having a
`TransferFeeAmount`: a plain `Transfer` looks only at the source account to decide that no fee is
due, and the withholding of a fee calls its absence a thing that "should never happen".

`_process_initialize_account` establishes this against the mint as it is then. A mint with a close
authority can be closed while accounts of it remain, as long as its supply is zero, and its address
can be initialised again as a mint with a fee. Its old accounts then transfer for free
(`not_feesCharged`). In runs that close a mint only after its accounts, fees are charged throughout
(`feesCharged_of_closesUnused`).
-/

namespace SolanaPrograms.Token2022

open Function Outcome SolanaPrograms.Runtime StateWithExtensionsMut Program Option
open Token (Mint Account)

/-! ## Coverage of a book -/

def Covered (B : Book) : Prop :=
  ∀ k r, B k = .account r → ∃ m, B r.base.mint = .mint m ∧
    ((m.get TransferFeeConfig).isSome → (r.get TransferFeeAmount).isSome)

def Unused (k : Pubkey) (B : Book) : Prop := ∀ j r, B j = .account r → r.base.mint ≠ k

section Book

variable {request : Request} {B B' : Book} {k j : Pubkey} {r r' : Record Account}

theorem Covered.unused (h : Covered B) (hk : ∀ m, B k ≠ .mint m) : Unused k B := by
  rintro j r hj rfl
  obtain ⟨m, hm, -⟩ := h j r hj
  exact hk m hm

theorem Unused.update (h : Unused k B) {e : Entry}
    (he : ∀ r, e = .account r → r.base.mint ≠ k) : Unused k (update B j e) := by
  intro i r hi
  by_cases hij : i = j
  · rw [hij, update_self] at hi
    exact he r hi
  · rw [update_of_ne hij] at hi
    exact h i r hi

theorem Unused.sameAccount (h : Unused k B) (hj : B j = .account r) (hsame : SameAccount r r') :
    Unused k (Function.update B j (.account r')) := by
  refine h.update fun r'' hr'' => ?_
  cases hr''
  rw [hsame.mint]
  exact h j r hj

/-- An instruction that closes an account opens none. -/
theorem Unused.effect (h : Effect (.close k) B B') (hB : Unused k B) : Unused k B' := by
  have hmint : ∀ m r, Entry.mint m = .account r → r.base.mint ≠ k := fun m r h => by cases h
  have hvacant : ∀ r, Entry.vacant = .account r → r.base.mint ≠ k := fun r h => by cases h
  cases h with
  | openAccount _ _ _ hrequest | configure _ _ _ _ hrequest | setFees _ _ _ _ hrequest =>
    cases hrequest
  | openMint => exact hB.update (hmint _)
  | editAccount _ _ _ hj hsame | syncNative _ _ _ hj _ hsame => exact hB.sameAccount hj hsame
  | editMint => exact hB.update (hmint _)
  | closeAccount => exact hB.update hvacant
  | closeMint => exact hB.update hvacant
  | pay _ _ _ _ _ _ _ hne hsrc _ _ ha hb =>
    refine (hB.sameAccount hsrc ha).sameAccount ?_ hb
    rwa [update_of_ne hne.symm]
  | harvest _ _ _ _ _ _ hj _ ha | burn _ _ _ _ _ _ hj _ ha =>
    exact (hB.sameAccount hj ha).update (hmint _)
  | withdraw _ _ _ _ _ _ hj hm ha | mintTo _ _ _ _ _ _ hj hm ha =>
    refine (hB.update (hmint _)).sameAccount ?_ ha
    rwa [update_of_ne (account_ne_mint hj hm)]

variable (h : Covered B)
include h

theorem Covered.account (hk : ∀ m, B k ≠ .mint m) {r : Record Account} {m : Record Mint}
    (hm : B r.base.mint = .mint m)
    (hfee : (m.get TransferFeeConfig).isSome → (r.get TransferFeeAmount).isSome) :
    Covered (update B k (.account r)) := by
  have hmints : ∀ j n, B j = .mint n → update B k (.account r) j = .mint n := by
    intro j n hj
    have hne : j ≠ k := by
      rintro rfl
      exact hk n hj
    rwa [update_of_ne hne]
  intro j r' hj
  by_cases hjk : j = k
  · subst hjk
    rw [update_self] at hj
    cases hj
    exact ⟨m, hmints _ m hm, hfee⟩
  · rw [update_of_ne hjk] at hj
    obtain ⟨n, hn, hfee'⟩ := h j r' hj
    exact ⟨n, hmints _ n hn, hfee'⟩

theorem Covered.sameAccount (hk : B k = .account r)
    (hsame : SameAccount r r') : Covered (update B k (.account r')) := by
  obtain ⟨_, hm, hfee⟩ := h k r hk
  refine h.account (fun n hn => ?_) (hsame.mint ▸ hm) fun hconfig => hsame.fee ▸ hfee hconfig
  rw [hk] at hn
  cases hn

/-- A mint that charges fees as before, or that no account belongs to. -/
theorem Covered.mint {m' : Record Mint} (hsame : Unused k B ∨ ∃ m, B k = .mint m ∧
    (m'.get TransferFeeConfig).isSome = (m.get TransferFeeConfig).isSome) :
    Covered (update B k (.mint m')) := by
  intro j r hj
  by_cases hjk : j = k
  · rw [hjk, update_self] at hj
    cases hj
  · rw [update_of_ne hjk] at hj
    obtain ⟨n, hn, hfee⟩ := h j r hj
    by_cases hmint : r.base.mint = k
    · rcases hsame with hunused | ⟨m, hm, hsame⟩
      · exact absurd hmint (hunused j r hj)
      · rw [hmint, hm] at hn
        cases hn
        rw [hmint]
        exact ⟨m', update_self .., fun hconfig => hfee (hsame ▸ hconfig)⟩
    · exact ⟨n, by rwa [update_of_ne hmint], hfee⟩

theorem Covered.sameMint {m m' : Record Mint} (hk : B k = .mint m) (hsame : SameMint m m') :
    Covered (update B k (.mint m')) :=
  h.mint (.inr ⟨m, hk, hsame.isSome⟩)

theorem Covered.vacate (hk : Unused k B) {e : Entry} (he : ∀ r, e ≠ .account r) :
    Covered (update B k e) := by
  intro j r hj
  by_cases hjk : j = k
  · rw [hjk, update_self] at hj
    exact absurd hj (he r)
  · rw [update_of_ne hjk] at hj
    obtain ⟨n, _, hfee⟩ := h j r hj
    exact ⟨n, by rwa [update_of_ne (hk j r hj)], hfee⟩

omit h

/-- **Step.** An effect keeps the coverage, provided a mint it closes is unused. -/
theorem Covered.effect (h : Effect request B B') (hB : Covered B)
    (hunused : ∀ k, request = .close k → Unused k B) : Covered B' := by
  cases h with
  | openAccount _ _ _ _ hk hm hfee =>
    exact hB.account (fun n hn => by rw [hk] at hn; cases hn) hm hfee
  | configure _ _ _ hk => exact hB.vacate (hB.unused fun n => hk ▸ Entry.ofConfig_ne_mint _ n) nofun
  | openMint _ _ hk => exact hB.mint (.inl (hB.unused fun n => hk ▸ Entry.ofConfig_ne_mint _ n))
  | setFees _ _ _ hk _ hsame => exact hB.mint (.inr ⟨_, hk, hsame⟩)
  | editAccount _ _ _ hk hsame | syncNative _ _ _ hk _ hsame => exact hB.sameAccount hk hsame
  | editMint _ _ _ hk hsame => exact hB.sameMint hk hsame
  | closeAccount _ _ hk =>
    exact hB.vacate (hB.unused fun n hn => by rw [hk] at hn; cases hn) nofun
  | closeMint k _ _ hrequest => exact hB.vacate (hunused k hrequest) nofun
  | pay _ _ _ _ _ _ _ hne hsrc _ _ ha hb =>
    refine (hB.sameAccount hsrc ha).sameAccount ?_ hb
    rwa [update_of_ne hne.symm]
  | harvest _ _ _ _ _ _ hk hm ha hmint | burn _ _ _ _ _ _ hk hm ha hmint =>
    refine (hB.sameAccount hk ha).sameMint ?_ hmint
    rwa [update_of_ne (account_ne_mint hk hm).symm]
  | withdraw _ _ _ _ _ _ hk hm ha hmint | mintTo _ _ _ _ _ _ hk hm ha hmint =>
    refine (hB.sameMint hm hmint).sameAccount ?_ ha
    rwa [update_of_ne (account_ne_mint hk hm)]

/-- The effects of one instruction keep the coverage, provided a mint it closes is unused. -/
theorem Covered.effects (h : Effects request B B') (hB : Covered B)
    (hunused : ∀ k, request = .close k → Unused k B) : Covered B' := by
  refine (Effects.invariant (I := fun B => Covered B ∧ ∀ k, request = .close k → Unused k B)
    (fun B₁ B₂ heffect hI => ⟨hI.1.effect heffect hI.2, fun k hk => ?_⟩) h ⟨hB, hunused⟩).1
  subst hk
  exact (hI.2 k rfl).effect heffect

end Book

/-! ## Transfers -/

def FeesCovered (s : Bank) : Prop :=
  ∀ k a m, accountAt token2022Id s k = some a → mintAt token2022Id s a.base.mint = some m →
    (m.read TransferFeeConfig).isOk = true → (a.read TransferFeeAmount).isOk = true

def transferOf : TokenInstruction → Option (UInt64 × Option UInt8)
  | .transfer amount => some (amount, none)
  | .transferChecked amount decimals => some (amount, some decimals)
  | .transferFeeExtension (.transferCheckedWithFee amount decimals _) =>
    some (amount, some decimals)
  | _ => none

/-- `amount` leaves the source; the destination receives it less the fee, which is withheld
there. -/
def Charged (s s' : Bank) (source destination : Pubkey) (amount fee : UInt64) : Prop :=
  ∃ a a' b b', accountAt token2022Id s source = some a ∧
    accountAt token2022Id s' source = some a' ∧ accountAt token2022Id s destination = some b ∧
    accountAt token2022Id s' destination = some b' ∧
    a'.base.amount.toNat + amount.toNat = a.base.amount.toNat ∧
    b'.base.amount.toNat + fee.toNat = b.base.amount.toNat + amount.toNat ∧
    withheldOn b' = withheldOn b + fee.toNat

/-- A transfer of tokens whose mint carries a `TransferFeeConfig` succeeds only with the mint
given, and is charged the fee of the epoch. A transfer to the same account moves nothing. -/
def TransfersCharged (s : Bank) : Prop :=
  ∀ env ix accounts s' amount decimals t a m config, transferOf ix = some (amount, decimals) →
    program.execute env ix accounts s = .ok s' → transferAccounts decimals accounts = some t →
    accountAt token2022Id s t.source.key = some a → mintAt token2022Id s a.base.mint = some m →
    m.read TransferFeeConfig = .ok config →
    t.mint.isSome = true ∧ ∃ fee, config.calculateEpochFee env.epoch amount = some fee ∧
      (t.source.key = t.destination.key ∧ s' = s ∨
        Charged s s' t.source.key t.destination.key amount fee)

section Transfers

variable {s s' : Bank} {env : Env} {x fee : UInt64}

theorem AllSound.accountAt_of_book {id k : Pubkey} (hs : AllSound id s) {r : Record Account}
    (h : book id s k = .account r) : ∃ a, accountAt id s k = some a ∧ a.Shows r := by
  obtain ⟨a, ha⟩ := Token2022.accountAt_of_book h
  obtain ⟨_, hr', hshows⟩ := hs.book_account ha
  rw [h] at hr'
  cases hr'
  exact ⟨a, ha, hshows⟩

theorem Settled.charged {src dst : Pubkey} {a a' b b' : Record Account}
    (hs : AllSound token2022Id s) (hne : src ≠ dst)
    (h : Settled token2022Id s s' src dst x fee a a' b b') : Charged s s' src dst x fee := by
  obtain ⟨va, hva, ha⟩ := hs.accountAt_of_book h.source
  obtain ⟨vb, hvb, hb⟩ := hs.accountAt_of_book h.destination
  obtain ⟨va', hva', ha'⟩ := h.sound.accountAt_of_book (k := src) (r := a')
    (by rw [h.book_eq, update_of_ne hne, update_self])
  obtain ⟨vb', hvb', hb'⟩ := h.sound.accountAt_of_book (k := dst) (r := b')
    (by rw [h.book_eq, update_self])
  refine ⟨va, va', vb, vb', hva, hva', hvb, hvb', ?_, ?_, ?_⟩
  · rw [ha.base, ha'.base]
    exact h.debited
  · rw [hb.base, hb'.base]
    exact h.credited
  · rw [withheldOn_eq hb, withheldOn_eq hb']
    exact h.withheldDestination

theorem execute_transfer {ix : TokenInstruction} {accounts : List AccountMeta} {amount : UInt64}
    {decimals : Option UInt8} (hix : transferOf ix = some (amount, decimals))
    (h : program.execute env ix accounts s = .ok s') :
    ∃ expectedFee, processTransfer token2022Id env accounts amount decimals expectedFee s =
      .ok s' := by
  obtain ⟨_, hproc, -⟩ := execute_ok h
  unfold transferOf at hix
  split at hix
  case h_4 => cases hix
  all_goals
    cases hix
    obtain ⟨_, hproc, hpure⟩ := bind_eq_ok.mp hproc
    cases pure_eq_ok.mp hpure
    exact ⟨_, hproc⟩

theorem transferFee_of_config {source : AccountMeta} {mint : Option (AccountMeta × UInt8)}
    {st : StateWithExtensionsMut Account} {m : StateWithExtensions Mint}
    {config : TransferFeeConfig} (hp : st.Proper)
    (hm : mintAt token2022Id s st.base.mint = some m)
    (hconfig : m.read TransferFeeConfig = .ok config)
    (hcovered : (st.view.read TransferFeeAmount).isOk = true)
    (h : transferFee env s source st mint x = .ok fee) :
    mint.isSome = true ∧ config.calculateEpochFee env.epoch x = some fee := by
  cases mint with
  | none =>
    -- the source can withhold fees, so the mint is asked for
    rw [view_read hp.area] at hcovered
    cases hget : st.record.get TransferFeeAmount with
    | none =>
      rw [hget] at hcovered
      cases hcovered
    | some =>
      obtain ⟨_, hborrow⟩ := borrow_of_get hp.area hget
      rw [transferFee, hborrow] at h
      cases h
  | some pair =>
    simp only [transferFee, checks, ne_eq, not_not] at h
    obtain ⟨hkey, -, _, hm', -, _, hread, h⟩ := h
    obtain ⟨-, st', hst', rfl⟩ := stateAt_eq_some.mp hm
    rw [← hkey, StateWithExtensions.unpack, hst'] at hm'
    cases hm'
    rw [show StateWithExtensions.read TransferFeeConfig
      (.mk st'.base st'.tlvData) = .ok config from hconfig] at hread
    cases hread
    exact ⟨rfl, okOr_eq_ok.mp h⟩

theorem FeesCovered.transfersCharged (hs : AllSound token2022Id s) (h : FeesCovered s) :
    TransfersCharged s := by
  intro env ix accounts s' amount decimals t a m config hix hexec ht ha hm hconfig
  obtain ⟨_, hproc⟩ := execute_transfer hix hexec
  obtain ⟨_, _, fee, ht', howner, hst, hfee, hend⟩ := processTransfer_ok hs hproc
  rw [ht] at ht'
  cases ht'
  obtain ⟨-, _, hst', rfl⟩ := stateAt_eq_some.mp ha
  rw [hst] at hst'
  cases hst'
  have hcovered := h _ _ m ha hm (by rw [hconfig]; rfl)
  obtain ⟨hgiven, hcharge⟩ := transferFee_of_config (hs.account howner hst).1 hm hconfig hcovered
    hfee
  refine ⟨hgiven, fee, hcharge, ?_⟩
  rcases hend with hself | ⟨hne, a', b, b', hsettled⟩
  · exact .inl hself
  · exact .inr (hsettled.charged hs hne)

end Transfers

/-! ## Runs -/

/-- The event does not close a mint that accounts still belong to. -/
def ClosesUnused (s : Bank) (e : Event Env TokenInstruction) : Prop :=
  ∀ k m, requestBy e = .close k → mintAt token2022Id s k = some m →
    ∀ j a, accountAt token2022Id s j = some a → a.base.mint ≠ k

theorem Covered.step {s : Bank} {e : Event Env TokenInstruction} (hs : AllSound token2022Id s)
    (hcovered : Covered (book token2022Id s)) (he : ClosesUnused s e) :
    Covered (book token2022Id (program.step s e)) := by
  refine hcovered.effects (step_refines hs e).effects fun k hk => ?_
  by_cases hmint : ∃ r, book token2022Id s k = .mint r
  · obtain ⟨_, hr⟩ := hmint
    obtain ⟨m, hm⟩ := mintAt_of_book hr
    intro j a hj
    obtain ⟨v, hv, hshows⟩ := hs.accountAt_of_book hj
    rw [← hshows.base]
    exact he k m hk hm j v hv
  · exact hcovered.unused fun r hr => hmint ⟨r, hr⟩

theorem Covered.feesCovered {s : Bank} (hs : AllSound token2022Id s)
    (h : Covered (book token2022Id s)) : FeesCovered s := by
  intro k a m ha hm hconfig
  obtain ⟨r, hr, hshows⟩ := hs.book_account ha
  obtain ⟨rm, hrm, hshows'⟩ := hs.book_mint hm
  obtain ⟨_, hn, hfee⟩ := h k r hr
  rw [← hshows.base, hrm] at hn
  cases hn
  rw [hshows'.read] at hconfig
  rw [hshows.read]
  cases hc : rm.get TransferFeeConfig with
  | none =>
    rw [hc] at hconfig
    cases hconfig
  | some =>
    obtain ⟨_, hv⟩ := isSome_iff_exists.mp (hfee (by rw [hc]; rfl))
    rw [hv]
    rfl

/-- **Fee coverage.** In every run that closes a mint only when no account belongs to it, every
account whose mint carries a `TransferFeeConfig` has a `TransferFeeAmount`, and transfers of its
tokens are charged. -/
theorem feesCharged_of_closesUnused {s₀ : Bank} (hfresh : program.Fresh s₀)
    {events : List (Event Env TokenInstruction)}
    (hcloses : Along program.step ClosesUnused s₀ events) :
    FeesCovered (program.run s₀ events) ∧ TransfersCharged (program.run s₀ events) := by
  have hrun := hcloses.invariant
    (I := fun s => AllSound token2022Id s ∧ Covered (book token2022Id s))
    (fun s e he hI => ⟨(step_refines hI.1 e).sound, hI.2.step hI.1 he⟩)
    ⟨.of_fresh hfresh, by rw [book_of_fresh hfresh]; intro k r h; cases h⟩
  have hcovered := Covered.feesCovered hrun.1 hrun.2
  exact ⟨hcovered, hcovered.transfersCharged hrun.1⟩

theorem feesCharged_of_closesUnused_feeRun :
    FeesCovered (program.run emptyBank feeRun) ∧
      TransfersCharged (program.run emptyBank feeRun) := by
  have hcloses : Along program.step ClosesUnused emptyBank feeRun :=
    ⟨nofun, nofun, nofun, nofun, nofun, nofun, nofun, nofun, nofun, nofun, nofun, trivial⟩
  exact feesCharged_of_closesUnused program.fresh_emptyBank hcloses

/-- A mint with a close authority is created, and two accounts for it. The mint is closed, its
address is taken for a mint with a fee of ten percent, and a hundred tokens are minted to one of the
old accounts. -/
def reopenedMintRun : List (Event Env TokenInstruction) :=
  let mint : Pubkey := .replicate 1
  let alice : Pubkey := .replicate 2
  let bob : Pubkey := .replicate 3
  let authority : Pubkey := .replicate 4
  [.enter mint 202, .enter alice 165, .enter bob 165,
    .instruction plainEnv (.initializeMintCloseAuthority (some authority)) [⟨mint, false⟩],
    .instruction plainEnv (.initializeMint2 0 authority none) [⟨mint, false⟩],
    .instruction plainEnv (.initializeAccount3 authority) [⟨alice, false⟩, ⟨mint, false⟩],
    .instruction plainEnv (.initializeAccount3 authority) [⟨bob, false⟩, ⟨mint, false⟩],
    .instruction plainEnv .closeAccount [⟨mint, false⟩, ⟨authority, false⟩, ⟨authority, true⟩],
    .reclaim mint, .enter mint 278,
    .instruction plainEnv (.transferFeeExtension (.initializeTransferFeeConfig none none 1000 100))
      [⟨mint, false⟩],
    .instruction plainEnv (.initializeMint2 0 authority none) [⟨mint, false⟩],
    .instruction plainEnv (.mintTo 100) [⟨mint, false⟩, ⟨alice, false⟩, ⟨authority, true⟩]]

/-- The accounts of the closed mint belong to the new one, without room for its fees; a plain
`Transfer` between them is accepted. -/
theorem not_feesCharged : ∃ events, ¬ FeesCovered (program.run emptyBank events) ∧
    ¬ TransfersCharged (program.run emptyBank events) := by
  have haccount : (accountAt token2022Id (program.run emptyBank reopenedMintRun)
      (.replicate 2)).map (fun a => (a.base.mint, (a.read TransferFeeAmount).isOk)) =
        some (.replicate 1, false) := by decide +kernel
  have hmint : (mintAt token2022Id (program.run emptyBank reopenedMintRun)
      (.replicate 1)).map (fun m => (m.read TransferFeeConfig).isOk) = some true := by
    decide +kernel
  have htransfer : (program.execute plainEnv (.transfer 50) [⟨.replicate 2, false⟩,
      ⟨.replicate 3, false⟩, ⟨.replicate 4, true⟩]
      (program.run emptyBank reopenedMintRun)).isOk = true := by decide +kernel
  obtain ⟨a, ha, hvalues⟩ := map_eq_some_iff.mp haccount
  obtain ⟨hkey, hamount⟩ := Prod.mk.inj hvalues
  obtain ⟨m, hm, hconfig⟩ := map_eq_some_iff.mp hmint
  rw [← hkey] at hm
  refine ⟨reopenedMintRun, fun hcovered => ?_, fun hcharged => ?_⟩
  · rw [hcovered _ a m ha hm hconfig] at hamount
    cases hamount
  · cases hexec : program.execute plainEnv (.transfer 50) [⟨.replicate 2, false⟩,
        ⟨.replicate 3, false⟩, ⟨.replicate 4, true⟩]
        (program.run emptyBank reopenedMintRun) with
    | error =>
      rw [hexec] at htransfer
      cases htransfer
    | ok s' =>
      cases hread : m.read TransferFeeConfig with
      | error =>
        rw [hread] at hconfig
        cases hconfig
      | ok config =>
        have hgiven := (hcharged plainEnv (.transfer 50) _ s' 50 none
          ⟨⟨.replicate 2, false⟩, none, ⟨.replicate 3, false⟩⟩ a m config rfl hexec rfl ha hm hread).1
        cases hgiven

end SolanaPrograms.Token2022
