import SolanaPrograms.BinaryOptions.Effects
import SolanaPrograms.Token.Authority

/-!
# Positions are closed by their owners or after settlement

A position in a pool is a balance in a token account of its long or short mint. `Trade` leaves an
allowance on such accounts with the pool's authority, so that `Collect` can burn them without a
signature of the owner. The program has to make sure that this happens after settlement only.

`Collect` reads the pool from an account whose owner it does not check. Whoever can create accounts
of another program can show it a pool of their own making with the mints of a real pool, already
settled; if the victim holds nothing of the side it declares the winner, nothing is written back and
the runtime has no objection (`forged_pool_burns_position`). When the account belongs to the
program, it is the pool itself, and a position is lost with consent only (`position_consent`).
-/

namespace SolanaPrograms.BinaryOptions

open Function Outcome SolanaPrograms.Runtime Program BinaryOption List Bank
open Token (Mint Account TokenInstruction tokenProgramId accountAt mintAt balanceAt)

/-! ## The chain around the program -/

/-- What can happen: instructions of this program, instructions of the token program, accounts
created for either, other programs at work on their own accounts, lamports given, and empty accounts
taken back. -/
inductive Happening
  | option (rent : Rent) (ix : BinaryOptionInstruction) (accounts : List AccountMeta)
  | token (rent : Rent) (ix : TokenInstruction) (accounts : List AccountMeta)
  | enter (owner k : Pubkey) (len : Nat)
  | external (k : Pubkey) (account : RuntimeAccount)
  | deposit (k : Pubkey) (lamports : UInt64)
  | reclaim (k : Pubkey)

def Inside (a : RuntimeAccount) : Prop := a.owner = tokenProgramId ∨ a.owner = binaryOptionId

instance (a : RuntimeAccount) : Decidable (Inside a) := by unfold Inside; infer_instance

section Machine

variable (findProgramAddress : List Pubkey → Pubkey)

/-- The store after one happening. Nobody signs for the zero address. -/
def step (s : Bank) : Happening → Bank
  | .option rent ix accounts =>
    if Signed accounts systemProgramId then s
    else (program findProgramAddress).step s (.instruction rent ix accounts)
  | .token rent ix accounts => Token.program.step s (.instruction rent ix accounts)
  | .enter owner k len =>
    if Inside (s k) then s
    else update s k { s k with owner, data := .replicate len 0 }
  | .external k account => if Inside (s k) ∨ Inside account then s else update s k account
  | .deposit k lamports => Token.program.step s (.deposit k lamports)
  | .reclaim k => Token.program.step s (.reclaim k)

/-- The store after a list of happenings. -/
def run (s : Bank) (events : List Happening) : Bank := events.foldl (step findProgramAddress) s

end Machine

/-! ## Pools through a run -/

/-- The initialised pool at `k`. In a zero-filled account the long mint is the zero address. -/
def poolAt (s : Bank) (k : Pubkey) : Option BinaryOption :=
  (optionAt s k).filter fun b => b.longMintAccountPubkey ≠ systemProgramId

def BinaryOption.mints (b : BinaryOption) : List Pubkey :=
  [b.longMintAccountPubkey, b.shortMintAccountPubkey]

def BinaryOption.Blank (b : BinaryOption) : Prop :=
  b.longMintAccountPubkey = systemProgramId ∧ b.shortMintAccountPubkey = systemProgramId

/-- Every pool goes on as the same bet, and no new pool appears. `settles k owner` allows the pool
at `k` to become settled. -/
structure Continues (settles : Pubkey → Pubkey → Prop) (s s' : Bank) : Prop where
  mints : ∀ x m, mintAt tokenProgramId s x = some m → ∃ m', mintAt tokenProgramId s' x = some m'
  back : ∀ k b', optionAt s' k = some b' → b'.Blank ∨
    ∃ b, optionAt s k = some b ∧ SameBet b b' ∧ (b'.settled = b.settled ∨ settles k b.owner)
  forth : ∀ k b, poolAt s k = some b → ∃ b', poolAt s' k = some b' ∧ SameBet b b'

section Pools

variable {settles : Pubkey → Pubkey → Prop} {s s' s₁ base : Bank} {k pool : Pubkey}
  {b b' : BinaryOption}

theorem poolAt_eq_some : poolAt s k = some b ↔
    optionAt s k = some b ∧ b.longMintAccountPubkey ≠ systemProgramId := by
  simp [poolAt, Option.filter_eq_some_iff]

theorem poolAt_of_optionAt_none (h : optionAt s k = none) : poolAt s k = none := by
  rw [poolAt, h]
  rfl

theorem poolAt_of_owner_ne (h : (s k).owner ≠ binaryOptionId) : poolAt s k = none :=
  poolAt_of_optionAt_none (optionAt_of_owner_ne h)

theorem blank_of_zero {data : List UInt8} (hzero : ∀ x ∈ data, x = 0)
    (h : tryFromSlice data = .ok b) : b.Blank := by
  have hdata : data = .replicate data.length 0 := eq_replicate_of_mem hzero
  have hlen := length_eq h
  rw [hdata, hlen] at h
  have hread : tryFromSlice (.replicate len 0) =
      .ok ⟨0, 0, false, systemProgramId, systemProgramId, systemProgramId, systemProgramId,
        systemProgramId, systemProgramId⟩ := by decide +kernel
  rw [hread] at h
  cases h
  exact ⟨rfl, rfl⟩

theorem poolAt_of_zero (hzero : ∀ x ∈ (s k).data, x = 0) : poolAt s k = none := by
  cases hpool : poolAt s k with
  | none => rfl
  | some =>
    obtain ⟨hopt, hne⟩ := poolAt_eq_some.mp hpool
    exact absurd (blank_of_zero hzero (optionAt_eq_some.mp hopt).2).1 hne

theorem Continues.of_steady (h : Steady s s') : Continues settles s s' where
  mints := h.mints
  back k b' hb' := .inr ⟨b', h.options k ▸ hb', ⟨rfl, rfl, rfl⟩, .inl rfl⟩
  forth k b hb := ⟨b, by rwa [poolAt, h.options k], rfl, rfl, rfl⟩

theorem Continues.after (h : Steady s s₁) (h' : Continues settles s₁ s') :
    Continues settles s s' where
  mints x m hm := by
    obtain ⟨m₁, hm₁⟩ := h.mints x m hm
    exact h'.mints x m₁ hm₁
  back k b' hb' := by
    rcases h'.back k b' hb' with hblank | ⟨b, hb, hrest⟩
    · exact .inl hblank
    · exact .inr ⟨b, h.options k ▸ hb, hrest⟩
  forth k b hb := h'.forth k b (by rwa [poolAt, h.options k])

theorem Continues.of_one (hkept : ∀ x, x ≠ k → Kept s s' x)
    (hmint : mintAt tokenProgramId s k = none)
    (hback : ∀ b', optionAt s' k = some b' → b'.Blank ∨ ∃ b, optionAt s k = some b ∧
      SameBet b b' ∧ (b'.settled = b.settled ∨ settles k b.owner))
    (hforth : ∀ b, poolAt s k = some b → ∃ b', poolAt s' k = some b' ∧ SameBet b b') :
    Continues settles s s' := by
  refine ⟨fun x m hm => ?_, fun x b' hb' => ?_, fun x b hb => ?_⟩ <;> by_cases hx : x = k
  · rw [hx, hmint] at hm
    cases hm
  · exact ⟨m, (stateAt_congr (hkept x hx).1 (hkept x hx).2).trans hm⟩
  · subst hx
    exact hback b' hb'
  · exact .inr ⟨b', optionAt_congr (hkept x hx) ▸ hb', ⟨rfl, rfl, rfl⟩, .inl rfl⟩
  · subst hx
    exact hforth b hb
  · exact ⟨b, by rwa [poolAt, optionAt_congr (hkept x hx)], rfl, rfl, rfl⟩

theorem Continues.update {a : RuntimeAccount} (hmint : mintAt tokenProgramId s k = none)
    (hpool : poolAt s k = none) (hpost : a.owner ≠ binaryOptionId ∨ ∀ x ∈ a.data, x = 0) :
    Continues settles s (update s k a) := by
  refine .of_one (fun x hx => .of_eq (update_of_ne hx _ _)) hmint (fun b' hb' => .inl ?_)
    (by simp [hpool])
  obtain ⟨howner, hread⟩ := optionAt_eq_some.mp hb'
  rw [update_self] at howner hread
  exact blank_of_zero (hpost.resolve_left (not_not.mpr howner)) hread

theorem Continues.write (hb : optionAt s pool = some b) (hbet : SameBet b b')
    (hsettled : b'.settled = b.settled ∨ settles pool b.owner) :
    Continues settles s (s.setData pool b'.serialize) := by
  obtain ⟨howner, -⟩ := optionAt_eq_some.mp hb
  have hself := optionAt_write howner b'
  refine .of_one (fun x hx => .of_eq (setData_of_ne s hx _))
    (stateAt_of_owner_ne (howner ▸ tokenProgramId_ne.symm)) (fun b₁ hb₁ => ?_) fun b₁ hb₁ => ?_
  · cases hself.symm.trans hb₁
    exact .inr ⟨b, hb, hbet, hsettled⟩
  · obtain ⟨hopt, hne⟩ := poolAt_eq_some.mp hb₁
    cases hb.symm.trans hopt
    exact ⟨b', poolAt_eq_some.mpr ⟨hself, hbet.1 ▸ hne⟩, hbet⟩

variable {sources : List Pubkey}

/-- A write to the account a pool was read from: the runtime lets it happen in an account of the
program, and anywhere else only if it changes nothing. -/
theorem Continues.write_back
    (hread : tryFromSlice (s pool).data = .ok b) (hund : Undisturbed sources s base)
    (hresp : Respects binaryOptionId (base pool) (base.setData pool b'.serialize pool))
    (hbet : SameBet b b') (hsettled : b'.settled = b.settled ∨ settles pool b.owner) :
    Continues settles s (base.setData pool b'.serialize) := by
  rcases hresp.owned_or_same with howner | ⟨-, hsame⟩
  · refine .after hund.toSteady (.write ?_ hbet hsettled)
    rw [hund.options]
    exact optionAt_eq_some.mpr ⟨hund.owned _ howner, hread⟩
  · rw [hsame]
    exact .of_steady hund.toSteady

end Pools

/-! ## One happening -/

section Steps

variable {find : List Pubkey → Pubkey} {s s' : Bank} {rent : Rent}
  {ix : BinaryOptionInstruction} {accounts : List AccountMeta}

/-- The instruction succeeds, and the zero address is not among its signers. -/
def Accepted (findProgramAddress : List Pubkey → Pubkey) (s : Bank) (rent : Rent)
    (ix : BinaryOptionInstruction) (accounts : List AccountMeta) (s' : Bank) : Prop :=
  ¬ Signed accounts systemProgramId ∧
    (program findProgramAddress).execute rent ix accounts s = .ok s'

theorem step_option (find : List Pubkey → Pubkey) (s : Bank) (rent : Rent)
    (ix : BinaryOptionInstruction)
    (accounts : List AccountMeta) :
    Accepted find s rent ix accounts
        (step find s (.option rent ix accounts)) ∨
      step find s (.option rent ix accounts) = s := by
  simp only [step]
  split
  · exact .inr rfl
  next hno =>
    rcases step_instruction (P := program find) rent ix accounts s with h | h
    · exact .inl ⟨hno, h⟩
    · exact .inr h

theorem Accepted.step_eq (h : Accepted find s rent ix accounts s') :
    step find s (.option rent ix accounts) = s' := by
  simp [step, h.1, Program.step, h.2]

def Settles (findProgramAddress : List Pubkey → Pubkey) (s : Bank) (e : Happening)
    (k owner : Pubkey) : Prop :=
  ∃ rent accounts s', e = .option rent .settle accounts ∧
    Accepted findProgramAddress s rent .settle accounts s' ∧
    (keys accounts)[0]? = some k ∧ Signed accounts owner

theorem tradeAccounts_ok {t : TradeAccounts} (h : tradeAccounts accounts = .ok t) :
    t.binaryOption ∈ accounts ∧ (keys accounts)[1]? = some t.escrowAccount.key := by
  unfold tradeAccounts at h
  split at h
  · cases h
    exact ⟨mem_cons_self, rfl⟩
  · cases h

theorem collectAccounts_ok {t : CollectAccounts} (h : collectAccounts accounts = .ok t) :
    t.binaryOption ∈ accounts ∧ (keys accounts)[0]? = some t.binaryOption.key ∧
      (keys accounts)[7]? = some t.escrowAccount.key := by
  unfold collectAccounts at h
  split at h
  · cases h
    exact ⟨mem_cons_self, rfl, rfl⟩
  · cases h

theorem accepted_pools (h : Accepted find s rent ix accounts s') :
    Continues (Settles find s (.option rent ix accounts)) s s' ∨
      ∃ decimals pool b, ix = .initializeBinaryOption decimals ∧
        Initialized accounts s s' pool b := by
  obtain ⟨base, hproc, hresp⟩ := execute_ok h.2
  change process find binaryOptionId rent accounts ix s = .ok (base, s') at hproc
  cases ix with
  | initializeBinaryOption decimals =>
    obtain ⟨pool, b, hinit⟩ := processInitializeBinaryOption_ok hproc
    exact .inr ⟨decimals, pool, b, rfl, hinit⟩
  | trade =>
    obtain ⟨_, _, _, ht, hb, hund, hbet, hsettled, rfl, -⟩ := processTrade_ok hproc
    exact .inl (.write_back hb hund (hresp _ (tradeAccounts_ok ht).1) hbet (.inl hsettled))
  | settle =>
    obtain ⟨_, _, owner, _, _, _, rfl, hb, hsigner, howner, hbet, rfl, rfl⟩ :=
      processSettle_ok hproc
    refine .inl (.write_back hb (.refl [] _) (hresp _ mem_cons_self) hbet (.inr ?_))
    exact ⟨rent, _, _, rfl, h, rfl, owner, by simp, howner, hsigner⟩
  | collect =>
    obtain ⟨_, _, _, ht, hb, -, hund, hbet, hsettled, rfl, -⟩ := processCollect_ok hproc
    exact .inl (.write_back hb hund (hresp _ (collectAccounts_ok ht).1) hbet (.inl hsettled))

theorem kept_deposit (find : List Pubkey → Pubkey) (s : Bank) (k : Pubkey) (lamports : UInt64)
    (x : Pubkey) : Kept s (step find s (.deposit k lamports)) x := by
  simp only [step, Program.step]
  split
  · exact ⟨setLamports_owner s k x _, setLamports_data s k x _⟩
  · exact ⟨rfl, rfl⟩

theorem step_pools (find : List Pubkey → Pubkey) (s : Bank) (e : Happening) :
    Continues (Settles find s e) s (step find s e) ∨
      ∃ rent decimals accounts pool b, e = .option rent (.initializeBinaryOption decimals) accounts ∧
        Accepted find s rent (.initializeBinaryOption decimals) accounts
          (step find s e) ∧
        Initialized accounts s (step find s e) pool b := by
  cases e with
  | option rent ix accounts =>
    rcases step_option find s rent ix accounts with h | h
    · rcases accepted_pools h with hcont | ⟨decimals, pool, b, rfl, hinit⟩
      · exact .inl hcont
      · exact .inr ⟨rent, decimals, accounts, pool, b, rfl, h, hinit⟩
    · rw [h]
      exact .inl (.of_steady (.refl s))
  | token rent ix accounts =>
    refine .inl (.of_steady ?_)
    rcases Program.step_instruction (P := Token.program) rent ix accounts s with h | h
    · exact steady_of_token h
    · rw [step, h]
      exact .refl s
  | enter =>
    simp only [step]
    split
    next => exact .inl (.of_steady (.refl s))
    next hout =>
      obtain ⟨htoken, hoption⟩ := not_or.mp hout
      exact .inl (.update (stateAt_of_owner_ne htoken) (poolAt_of_owner_ne hoption)
        (.inr fun x hx => eq_of_mem_replicate hx))
  | external =>
    simp only [step]
    split
    next => exact .inl (.of_steady (.refl s))
    next hout =>
      obtain ⟨hpre, hpost⟩ := not_or.mp hout
      obtain ⟨htoken, hoption⟩ := not_or.mp hpre
      exact .inl (.update (stateAt_of_owner_ne htoken) (poolAt_of_owner_ne hoption)
        (.inl (not_or.mp hpost).2))
  | deposit k lamports =>
    have hkept := kept_deposit find s k lamports
    exact .inl (.of_steady ⟨fun x m hm => ⟨m, (stateAt_congr (hkept x).1 (hkept x).2).trans hm⟩,
      fun x => optionAt_congr (hkept x), fun x hx => (hkept x).1 ▸ hx⟩)
  | reclaim =>
    simp only [step, Program.step]
    split
    next hzero =>
      exact .inl (.update (stateAt_eq_none.mpr fun _ _ => Token.Mint.unpack_zero hzero.2)
        (poolAt_of_zero hzero.2) (.inl system_ne_binaryOption))
    next => exact .inl (.of_steady (.refl s))

end Steps

/-! ## Whole runs -/

/-- What holds of the pools at all times: the mints of a pool exist, and no two pools share one. -/
structure Registered (s : Bank) : Prop where
  live : ∀ k b, poolAt s k = some b → ∀ m ∈ b.mints,
    m ≠ systemProgramId ∧ ∃ v, mintAt tokenProgramId s m = some v
  blank : ∀ k b, optionAt s k = some b → b.longMintAccountPubkey = systemProgramId → b.Blank
  unique : ∀ k b k' b', poolAt s k = some b → poolAt s k' = some b' →
    ∀ m ∈ b.mints, m ∈ b'.mints → k = k'

section Runs

variable {find : List Pubkey → Pubkey} {s s' : Bank} {k m : Pubkey}
  {b b' : BinaryOption}

theorem BinaryOption.mem_mints :
    m ∈ b.mints ↔ m = b.longMintAccountPubkey ∨ m = b.shortMintAccountPubkey := by
  simp [mints]

theorem SameBet.mints_eq (h : SameBet b b') : b'.mints = b.mints := by
  rw [mints, h.1, h.2.1, mints]

variable {settles : Pubkey → Pubkey → Prop}

theorem Continues.pool_back (h : Continues settles s s') (hb' : poolAt s' k = some b') :
    ∃ b, poolAt s k = some b ∧ SameBet b b' ∧ (b'.settled = b.settled ∨ settles k b.owner) := by
  obtain ⟨hopt, hne⟩ := poolAt_eq_some.mp hb'
  rcases h.back k b' hopt with hblank | ⟨b, hb, hbet, hsettled⟩
  · exact absurd hblank.1 hne
  · exact ⟨b, poolAt_eq_some.mpr ⟨hb, hbet.1 ▸ hne⟩, hbet, hsettled⟩

theorem Registered.continues (h : Registered s) (hcont : Continues settles s s') :
    Registered s' where
  live k b' hb' m hm := by
    obtain ⟨b, hb, hbet, -⟩ := hcont.pool_back hb'
    obtain ⟨hne, v, hv⟩ := h.live k b hb m (hbet.mints_eq ▸ hm)
    exact ⟨hne, hcont.mints m v hv⟩
  blank k b' hb' hlong := by
    rcases hcont.back k b' hb' with hblank | ⟨b, hb, hbet, -⟩
    · exact hblank
    · exact ⟨hlong, hbet.2.1 ▸ (h.blank k b hb (hbet.1 ▸ hlong)).2⟩
  unique k b₁ k' b₂ hb₁ hb₂ m hm hm' := by
    obtain ⟨c₁, hc₁, hbet₁, -⟩ := hcont.pool_back hb₁
    obtain ⟨c₂, hc₂, hbet₂, -⟩ := hcont.pool_back hb₂
    exact h.unique k c₁ k' c₂ hc₁ hc₂ m (hbet₁.mints_eq ▸ hm) (hbet₂.mints_eq ▸ hm')

variable {accounts : List AccountMeta} {b₀ : BinaryOption} {s₀ : Bank}

theorem Initialized.other {pool : Pubkey} (h : Initialized accounts s s' pool b) (hk : k ≠ pool) :
    optionAt s' k = optionAt s k := by
  obtain ⟨_, hund, -, -, -, hkept⟩ := h.mints
  rw [optionAt_congr (hkept k hk), hund.options k]

theorem Initialized.self {pool : Pubkey} (h : Initialized accounts s s' pool b) :
    optionAt s' pool = some b :=
  optionAt_eq_some.mpr ⟨h.owner, h.data ▸ b.tryFromSlice_serialize⟩

theorem Initialized.vacant {pool : Pubkey} (h : Initialized accounts s s' pool b) :
    optionAt s pool = none := by
  obtain ⟨_, hund, -, -, hvacant, -⟩ := h.mints
  rw [← hund.options pool]
  exact optionAt_of_owner_ne (hvacant ▸ system_ne_binaryOption)

theorem Initialized.forth {pool : Pubkey} (h : Initialized accounts s s' pool b₀)
    (hb : poolAt s k = some b) : poolAt s' k = some b := by
  have hk : k ≠ pool := by
    rintro rfl
    rw [poolAt_of_optionAt_none h.vacant] at hb
    cases hb
  rwa [poolAt, h.other hk]

theorem Initialized.pool_back {pool : Pubkey} (h : Initialized accounts s s' pool b₀)
    (hb : poolAt s' k = some b) : k = pool ∧ b = b₀ ∨ poolAt s k = some b := by
  by_cases hk : k = pool
  · subst hk
    exact .inl ⟨rfl, Option.some.inj ((poolAt_eq_some.mp hb).1.symm.trans h.self)⟩
  · rw [poolAt, h.other hk] at hb
    exact .inr hb

theorem Initialized.mints_live {pool : Pubkey} (h : Initialized accounts s s' pool b)
    (hm : (∃ v, mintAt tokenProgramId s m = some v) ∨ m ∈ b.mints) :
    ∃ v, mintAt tokenProgramId s' m = some v := by
  obtain ⟨s₁, hund, hlong, hshort, hvacant, hkept⟩ := h.mints
  have hlive : ∃ v, mintAt tokenProgramId s₁ m = some v := by
    rcases hm with ⟨v, hv⟩ | hm
    · exact hund.mints m v hv
    · rcases mem_mints.mp hm with rfl | rfl
      · exact hlong
      · exact hshort
  obtain ⟨v, hv⟩ := hlive
  have hne : m ≠ pool := by
    rintro rfl
    cases hv.symm.trans (stateAt_of_owner_ne (hvacant ▸ system_ne_token))
  exact ⟨v, (stateAt_congr (hkept m hne).1 (hkept m hne).2).trans hv⟩

/-- The mints of the new pool were nobody's, so no other pool has them. -/
theorem Registered.fresh_mint {pool : Pubkey} (h : Registered s)
    (hinit : Initialized accounts s s' pool b₀) (hb : poolAt s k = some b)
    (hm : m ∈ b.mints) : m ∉ b₀.mints := by
  obtain ⟨-, _, hv⟩ := h.live k b hb m hm
  intro hm₀
  have hvacant : (s m).owner = systemProgramId := by
    rcases mem_mints.mp hm₀ with rfl | rfl
    · exact hinit.long_vacant
    · exact hinit.short_vacant
  cases hv.symm.trans (stateAt_of_owner_ne (hvacant ▸ system_ne_token))

theorem Registered.initialized {pool : Pubkey} (h : Registered s)
    (hinit : Initialized accounts s s' pool b₀) (hsystem : ¬ Signed accounts systemProgramId) :
    Registered s' := by
  have hnonzero : ∀ m ∈ b₀.mints, m ≠ systemProgramId := by
    intro m hm hzero
    rcases mem_mints.mp hm with rfl | rfl
    · exact hsystem (hzero ▸ hinit.long_signed)
    · exact hsystem (hzero ▸ hinit.short_signed)
  refine ⟨fun x c hc m hm => ?_, fun x c hc hlong => ?_, fun x c x' c' hc hc' m hm hm' => ?_⟩
  · rcases hinit.pool_back hc with ⟨-, rfl⟩ | hold
    · exact ⟨hnonzero m hm, hinit.mints_live (.inr hm)⟩
    · obtain ⟨hne, hlive⟩ := h.live x c hold m hm
      exact ⟨hne, hinit.mints_live (.inl hlive)⟩
  · by_cases hx : x = pool
    · rw [hx, hinit.self] at hc
      cases hc
      exact absurd hlong (hnonzero _ mem_cons_self)
    · rw [hinit.other hx] at hc
      exact h.blank x c hc hlong
  · rcases hinit.pool_back hc with ⟨hx, rfl⟩ | hold
    · rcases hinit.pool_back hc' with ⟨hx', -⟩ | hold'
      · rw [hx, hx']
      · exact absurd hm (h.fresh_mint hinit hold' hm')
    · rcases hinit.pool_back hc' with ⟨-, rfl⟩ | hold'
      · exact absurd hm' (h.fresh_mint hinit hold hm)
      · exact h.unique x c x' c' hold hold' m hm hm'

/-- Before anything happens, the accounts of the two programs are zero-filled. -/
def Fresh (s : Bank) : Prop := ∀ k, Inside (s k) → ∀ x ∈ (s k).data, x = 0

theorem Fresh.poolAt_none (h : Fresh s) (k : Pubkey) : poolAt s k = none := by
  by_cases howner : (s k).owner = binaryOptionId
  · exact poolAt_of_zero (h k (.inr howner))
  · exact poolAt_of_owner_ne howner

theorem Fresh.registered (h : Fresh s) : Registered s where
  live k b hb := by
    rw [h.poolAt_none k] at hb
    cases hb
  blank k b hb _ :=
    blank_of_zero (h k (.inr (optionAt_eq_some.mp hb).1)) (optionAt_eq_some.mp hb).2
  unique k b _ _ hb := by
    rw [h.poolAt_none k] at hb
    cases hb

theorem Registered.step (h : Registered s) (e : Happening) : Registered (step find s e) := by
  rcases step_pools find s e with
    hcont | ⟨rent, decimals, accounts, pool, b, -, haccepted, hinit⟩
  · exact h.continues hcont
  · exact h.initialized hinit haccepted.1

/-- **Invariant.** Pools keep their mints to themselves in every reached state. -/
theorem Registered.run (h : Registered s) (events : List Happening) :
    Registered (run find s events) := by
  induction events generalizing s with
  | nil => exact h
  | cons e _ ih => exact ih (h.step e)

theorem pool_forth (hb : poolAt s k = some b) (events : List Happening) :
    ∃ b', poolAt (run find s events) k = some b' ∧ SameBet b b' := by
  induction events generalizing s b with
  | nil => exact ⟨b, hb, rfl, rfl, rfl⟩
  | cons e _ ih =>
    have hstep : ∃ b₁, poolAt (step find s e) k = some b₁ ∧ SameBet b b₁ := by
      rcases step_pools find s e with
        hcont | ⟨rent, decimals, accounts, pool, b₀, -, -, hinit⟩
      · exact hcont.forth k b hb
      · exact ⟨b, hinit.forth hb, rfl, rfl, rfl⟩
    obtain ⟨_, hb₁, hbet₁⟩ := hstep
    obtain ⟨b₂, hb₂, hbet₂⟩ := ih hb₁
    exact ⟨b₂, hb₂, hbet₂.1.trans hbet₁.1, hbet₂.2.1.trans hbet₁.2.1, hbet₂.2.2.trans hbet₁.2.2⟩

variable (findProgramAddress : List Pubkey → Pubkey) {events : List Happening}

def Opened (s₀ : Bank) (events : List Happening) (k long short owner : Pubkey) : Prop :=
  ∃ pre rent decimals accounts post s',
    events = pre ++ .option rent (.initializeBinaryOption decimals) accounts :: post ∧
    Accepted findProgramAddress (run findProgramAddress s₀ pre) rent
      (.initializeBinaryOption decimals) accounts s' ∧
    InitializeNames accounts k long short owner

/-- In the course of the run, a successful `Settle` signed by `owner` settled the pool at `k`. -/
def SettledBefore (s₀ : Bank) (events : List Happening) (k owner : Pubkey) : Prop :=
  ∃ pre e post, events = pre ++ e :: post ∧
    Settles findProgramAddress (run findProgramAddress s₀ pre) e k owner

theorem SettledBefore.concat {owner : Pubkey}
    (h : SettledBefore find s₀ events k owner) (e : Happening) :
    SettledBefore find s₀ (events ++ [e]) k owner := by
  obtain ⟨pre, e₀, post, rfl, hsettles⟩ := h
  exact ⟨pre, e₀, post ++ [e], by simp, hsettles⟩

/-- **History.** A settled pool was settled by its owner. -/
theorem settled_history (hfresh : Fresh s₀) (events : List Happening)
    (hb : poolAt (run find s₀ events) k = some b) (hsettled : b.settled = true) :
    SettledBefore find s₀ events k b.owner := by
  induction events using reverseRecOn generalizing b with
  | nil =>
    have hnone := hfresh.poolAt_none k
    rw [show poolAt s₀ k = some b from hb] at hnone
    cases hnone
  | append_singleton events e ih =>
    rw [run, foldl_append] at hb
    rcases step_pools find (run find s₀ events) e with
      hcont | ⟨rent, decimals, accounts, pool, b₀, -, -, hinit⟩
    · obtain ⟨_, hb₁, hbet, hsame | hsettles⟩ := hcont.pool_back hb
      · rw [hbet.2.2]
        exact (ih hb₁ (hsame ▸ hsettled)).concat e
      · rw [hbet.2.2]
        exact ⟨events, e, [], rfl, hsettles⟩
    · rcases hinit.pool_back hb with ⟨-, rfl⟩ | hb
      · exact absurd (hinit.settled.symm.trans hsettled) (by simp)
      · exact (ih hb hsettled).concat e

theorem Opened.pool {long short owner : Pubkey} (h : Opened find s₀ events k long short owner) :
    ∃ b, poolAt (run find s₀ events) k = some b ∧ b.mints = [long, short] ∧
      b.owner = owner := by
  obtain ⟨pre, rent, decimals, accounts, post, s', rfl, haccepted, hnames⟩ := h
  obtain ⟨_, hproc, -⟩ := execute_ok haccepted.2
  obtain ⟨_, b, hinit⟩ := processInitializeBinaryOption_ok hproc
  obtain ⟨hpool, hlong, hshort, howner⟩ := hnames
  obtain ⟨hpool', hlong', hshort', howner'⟩ := hinit.names
  cases hpool.symm.trans hpool'
  cases hlong.symm.trans hlong'
  cases hshort.symm.trans hshort'
  cases howner.symm.trans howner'
  have hne : b.longMintAccountPubkey ≠ systemProgramId := fun hzero =>
    haccepted.1 (hzero ▸ hinit.long_signed)
  have hrun : run find s₀ (pre ++ .option rent (.initializeBinaryOption decimals)
      accounts :: post) = run find s' post := by
    rw [← haccepted.step_eq]
    simp [run]
  obtain ⟨b', hb', hbet⟩ := pool_forth (poolAt_eq_some.mpr ⟨hinit.self, hne⟩) post
  exact ⟨b', hrun ▸ hb', hbet.mints_eq, hbet.2.2⟩

end Runs

/-! ## Consent -/

def escrowOf (ix : BinaryOptionInstruction) (accounts : List AccountMeta) : Option Pubkey :=
  match ix with
  | .trade _ _ _ => (keys accounts)[1]?
  | .collect => (keys accounts)[7]?
  | .initializeBinaryOption _ | .settle => none

/-- The pool of a `Collect` belongs to the program, and the escrow paid from is not itself an account
of the given mints. -/
structure Genuine (s : Bank) (ix : BinaryOptionInstruction) (accounts : List AccountMeta)
    (mints : List Pubkey) : Prop where
  pool : ix = .collect → ∀ p, (keys accounts)[0]? = some p → (s p).owner = binaryOptionId
  escrow : ∀ p a, escrowOf ix accounts = some p → accountAt tokenProgramId s p = some a →
    a.mint ∉ mints

section Consent

variable {find findProgramAddress : List Pubkey → Pubkey} {s s' base : Bank} {rent : Rent}
  {ix : BinaryOptionInstruction} {accounts : List AccountMeta} {x pool : Pubkey} {a : Account}
  {d : List UInt8}

theorem accountAt_write_back
    (hresp : Respects binaryOptionId (base pool) (base.setData pool d pool))
    (ha : accountAt tokenProgramId base x = some a) :
    accountAt tokenProgramId (base.setData pool d) x = some a := by
  by_cases hx : x = pool
  · subst hx
    rcases hresp.owned_or_same with howner | ⟨-, hsame⟩
    · exact absurd ((stateAt_eq_some.mp ha).1.symm.trans howner) tokenProgramId_ne
    · rwa [hsame]
  · exact (Token.view_of_eq (setData_of_ne base hx d)).trans ha

theorem mem_sources_of_debits (hund : Undisturbed sources s base)
    (hresp : Respects binaryOptionId (base pool) (base.setData pool d pool))
    (ha : accountAt tokenProgramId s x = some a)
    (hless : balanceAt tokenProgramId (base.setData pool d) x < a.amount.toNat) : x ∈ sources := by
  obtain ⟨_, ha', -, hle⟩ := hund.debits x a ha
  rw [Token.balanceAt_some (accountAt_write_back hresp ha')] at hless
  by_contra hx
  have := UInt64.le_iff_toNat_le.mp (hle hx)
  omega

/-- **One instruction.** A position shrinks in a trade its owner signed, or in a collection from its
own settled pool. -/
theorem accepted_consent (hreg : Registered s) {k : Pubkey} {b : BinaryOption}
    (hpool : poolAt s k = some b) (h : Accepted find s rent ix accounts s')
    (ha : accountAt tokenProgramId s x = some a) (hmint : a.mint ∈ b.mints)
    (hgenuine : Genuine s ix accounts b.mints)
    (hless : balanceAt tokenProgramId s' x < a.amount.toNat) :
    (∃ size buyPrice sellPrice, ix = .trade size buyPrice sellPrice ∧ Signed accounts a.owner) ∨
      (ix = .collect ∧ b.settled = true) := by
  obtain ⟨base, hproc, hresp⟩ := execute_ok h.2
  change process find binaryOptionId rent accounts ix s = .ok (base, s') at hproc
  cases ix with
  | initializeBinaryOption =>
    obtain ⟨pool, _, hinit⟩ := processInitializeBinaryOption_ok hproc
    obtain ⟨_, hund, -, -, hvacant, hkept⟩ := hinit.mints
    obtain ⟨a', ha', -, hle⟩ := hund.debits x a ha
    have hx : x ≠ pool := by
      rintro rfl
      cases ha'.symm.trans (stateAt_of_owner_ne (hvacant ▸ system_ne_token))
    have ha'' : accountAt tokenProgramId s' x = some a' :=
      (stateAt_congr (hkept x hx).1 (hkept x hx).2).trans ha'
    rw [Token.balanceAt_some ha''] at hless
    have := UInt64.le_iff_toNat_le.mp (hle (by simp))
    omega
  | trade size buyPrice sellPrice =>
    obtain ⟨t, _, _, ht, -, hund, -, -, rfl, hsigned⟩ := processTrade_ok hproc
    have hx := mem_sources_of_debits hund (hresp _ (tradeAccounts_ok ht).1) ha hless
    have hescrow : x ≠ t.escrowAccount.key := fun heq =>
      hgenuine.escrow _ a (tradeAccounts_ok ht).2 (heq ▸ ha) hmint
    exact .inl ⟨size, buyPrice, sellPrice, rfl, hsigned x hx hescrow a ha⟩
  | settle =>
    obtain ⟨_, _, _, _, _, _, rfl, -, -, -, -, rfl, rfl⟩ := processSettle_ok hproc
    have hx := mem_sources_of_debits (.refl [] _) (hresp _ mem_cons_self) ha hless
    cases hx
  | collect =>
    obtain ⟨t, b₀, _, ht, hb₀, hsettled, hund, -, -, rfl, hmints⟩ := processCollect_ok hproc
    obtain ⟨hmem, hnamed, hescrowKey⟩ := collectAccounts_ok ht
    have hx := mem_sources_of_debits hund (hresp _ hmem) ha hless
    have hescrow : x ≠ t.escrowAccount.key := fun heq =>
      hgenuine.escrow _ a hescrowKey (heq ▸ ha) hmint
    have hmint₀ := mem_mints.mpr (hmints x hx hescrow a ha)
    have hopt : optionAt s t.binaryOption.key = some b₀ :=
      optionAt_eq_some.mpr ⟨hgenuine.pool rfl _ hnamed, hb₀⟩
    -- the pool that was read has mints, and a mint belongs to one pool only
    have hlong : b₀.longMintAccountPubkey ≠ systemProgramId := by
      intro hzero
      have hblank := hreg.blank _ b₀ hopt hzero
      rw [mints, hblank.1, hblank.2] at hmint₀
      exact (hreg.live k b hpool _ hmint).1 (by simpa using hmint₀)
    have hpool₀ := poolAt_eq_some.mpr ⟨hopt, hlong⟩
    have hkey := hreg.unique k b _ b₀ hpool hpool₀ _ hmint hmint₀
    rw [← hkey, hpool] at hpool₀
    cases hpool₀
    exact .inr ⟨rfl, hsettled⟩

/-- **Consent.** Take a pool opened in the course of a run, an account of one of its mints, and an
instruction that is shown the program's own pools. The account loses tokens only in a trade signed
by its owner, or in a collection after the owner of the pool settled it. -/
theorem position_consent {s₀ : Bank} (hfresh : Fresh s₀) {events : List Happening}
    {k long short poolOwner : Pubkey}
    (hopened : Opened findProgramAddress s₀ events k long short poolOwner)
    (ha : accountAt tokenProgramId (run findProgramAddress s₀ events) x = some a)
    (hmint : a.mint ∈ [long, short])
    (hgenuine : Genuine (run findProgramAddress s₀ events) ix accounts [long, short])
    (hless : balanceAt tokenProgramId (step findProgramAddress (run findProgramAddress s₀ events)
      (.option rent ix accounts)) x < a.amount.toNat) :
    (∃ size buyPrice sellPrice, ix = .trade size buyPrice sellPrice ∧ Signed accounts a.owner) ∨
      (ix = .collect ∧ SettledBefore findProgramAddress s₀ events k poolOwner) := by
  obtain ⟨_, hpool, hmints, rfl⟩ := hopened.pool
  have hreg : Registered (run findProgramAddress s₀ events) := hfresh.registered.run events
  rw [← hmints] at hmint hgenuine
  rcases step_option findProgramAddress (run findProgramAddress s₀ events) rent ix accounts with
    haccepted | hsame
  · rcases accepted_consent hreg hpool haccepted ha hmint hgenuine hless with
      htrade | ⟨hcollect, hsettled⟩
    · exact .inl htrade
    · exact .inr ⟨hcollect, settled_history hfresh events hpool hsettled⟩
  · rw [hsame, Token.balanceAt_some ha] at hless
    omega

end Consent

/-! ## A forged pool -/

/-- The one derived address of the runs below. -/
def onlyAddress : List Pubkey → Pubkey := fun _ => .replicate 77

/-- The accounts of the initialisation: pool 1, escrow mint 2, escrow 3, mints 4 and 5, owner 6. -/
def openAccounts : List AccountMeta :=
  [⟨.replicate 1, true⟩, ⟨.replicate 2, false⟩, ⟨.replicate 3, true⟩, ⟨.replicate 4, true⟩,
    ⟨.replicate 5, true⟩, ⟨.replicate 6, true⟩, ⟨.replicate 6, true⟩, ⟨tokenProgramId, false⟩,
    ⟨systemProgramId, false⟩, ⟨rentSysvarId, false⟩]

/-- A collateral mint, and lamports for the owner of the pool. -/
def beforeOpening : List Happening :=
  [.deposit (.replicate 6) 1000, .enter tokenProgramId (.replicate 2) 82,
    .token (flatRent 0) (.initializeMint2 0 (.replicate 6) none) [⟨.replicate 2, false⟩]]

def openTokenAccount (k m owner : UInt8) : List Happening :=
  [.enter tokenProgramId (.replicate k) 165,
    .token (flatRent 0) (.initializeAccount3 (.replicate owner))
      [⟨.replicate k, false⟩, ⟨.replicate m, false⟩]]

/-- The accounts of the buyer 10 and the seller 11; the buyer has five tokens of collateral. -/
def traders : List Happening :=
  openTokenAccount 12 2 10 ++ openTokenAccount 13 2 11 ++ openTokenAccount 14 4 10 ++
    openTokenAccount 15 5 10 ++ openTokenAccount 16 4 11 ++ openTokenAccount 17 5 11 ++
    [.token (flatRent 0) (.mintTo 5)
      [⟨.replicate 2, false⟩, ⟨.replicate 12, false⟩, ⟨.replicate 6, true⟩]]

/-- Five contracts, signed by buyer and seller. -/
def tradeOfFive : Happening :=
  .option (flatRent 0) (.trade 5 1 0)
    [⟨.replicate 1, false⟩, ⟨.replicate 3, false⟩, ⟨.replicate 4, false⟩, ⟨.replicate 5, false⟩,
      ⟨.replicate 10, true⟩, ⟨.replicate 11, true⟩, ⟨.replicate 12, false⟩, ⟨.replicate 13, false⟩,
      ⟨.replicate 14, false⟩, ⟨.replicate 15, false⟩, ⟨.replicate 16, false⟩, ⟨.replicate 17, false⟩,
      ⟨.replicate 77, false⟩, ⟨tokenProgramId, false⟩]

/-- A pool is opened and traded; the buyer is long five contracts. -/
def tradedRun : List Happening :=
  beforeOpening ++ .option (flatRent 0) (.initializeBinaryOption 0) openAccounts ::
    (traders ++ [tradeOfFive])

/-- The real pool's mints in an account of another program, settled for the short side. -/
def forgedPool : RuntimeAccount where
  lamports := 1
  owner := .replicate 99
  data := (⟨0, 5, true, .replicate 2, .replicate 3, .replicate 4, .replicate 5, .replicate 98,
    .replicate 5⟩ : BinaryOption).serialize

/-- The buyer's position collected with the pool account `pool`; nobody signs. -/
def collectFrom (pool : UInt8) : List AccountMeta :=
  [⟨.replicate pool, false⟩, ⟨.replicate 10, false⟩, ⟨.replicate 14, false⟩, ⟨.replicate 15, false⟩,
    ⟨.replicate 12, false⟩, ⟨.replicate 4, false⟩, ⟨.replicate 5, false⟩, ⟨.replicate 3, false⟩,
    ⟨.replicate 77, false⟩, ⟨tokenProgramId, false⟩]

def forgedRun : List Happening := tradedRun ++ [.external (.replicate 20) forgedPool]

theorem fresh_emptyBank : Fresh emptyBank := by
  rintro k (howner | howner)
  · exact absurd howner system_ne_token
  · exact absurd howner system_ne_binaryOption

theorem accepted_of_isOk {find : List Pubkey → Pubkey} {s : Bank} {rent : Rent}
    {ix : BinaryOptionInstruction} {accounts : List AccountMeta}
    (hsigned : ¬ Signed accounts systemProgramId)
    (hok : ((program find).execute rent ix accounts s).toBool = true) :
    ∃ s', Accepted find s rent ix accounts s' := by
  cases h : (program find).execute rent ix accounts s with
  | error => simp [h, Except.toBool] at hok
  | ok s' => exact ⟨s', hsigned, h⟩

/-- The pool of the runs is opened in the ordinary way. -/
theorem opened_of_tradedRun (later : List Happening) :
    Opened onlyAddress emptyBank (tradedRun ++ later) (.replicate 1) (.replicate 4)
      (.replicate 5) (.replicate 6) := by
  obtain ⟨s', haccepted⟩ : ∃ s', Accepted onlyAddress
      (run onlyAddress emptyBank beforeOpening) (flatRent 0) (.initializeBinaryOption 0)
      openAccounts s' := accepted_of_isOk (by decide) (by decide +kernel)
  exact ⟨beforeOpening, flatRent 0, 0, openAccounts, traders ++ [tradeOfFive] ++ later, s',
    by simp [tradedRun], haccepted, rfl, rfl, rfl, rfl⟩

/-- Without a condition on the accounts, positions are not safe: in `forgedRun` nothing was ever
settled, and a `Collect` nobody signed burns the five tokens of the buyer. -/
theorem forged_pool_burns_position :
    ¬ ∀ (findProgramAddress : List Pubkey → Pubkey) (s₀ : Bank) (events : List Happening)
        (k long short poolOwner x : Pubkey) (a : Account) (rent : Rent)
        (ix : BinaryOptionInstruction) (accounts : List AccountMeta),
      Fresh s₀ → Opened findProgramAddress s₀ events k long short poolOwner →
      accountAt tokenProgramId (run findProgramAddress s₀ events) x = some a →
      a.mint ∈ [long, short] →
      balanceAt tokenProgramId (step findProgramAddress (run findProgramAddress s₀ events)
        (.option rent ix accounts)) x < a.amount.toNat →
      (∃ size buyPrice sellPrice, ix = .trade size buyPrice sellPrice ∧
          Signed accounts a.owner) ∨
        (ix = .collect ∧ SettledBefore findProgramAddress s₀ events k poolOwner) := by
  intro hclaim
  obtain ⟨a, ha, hmint, hamount⟩ : ∃ a, accountAt tokenProgramId
      (run onlyAddress emptyBank forgedRun) (.replicate 14) = some a ∧
      a.mint = .replicate 4 ∧ a.amount = 5 :=
    ⟨⟨.replicate 4, .replicate 10, 5, some (.replicate 77), .initialized, none, 5, none⟩,
      by decide +kernel, rfl, rfl⟩
  have hburned : balanceAt tokenProgramId (step onlyAddress
      (run onlyAddress emptyBank forgedRun)
      (.option (flatRent 0) .collect (collectFrom 20))) (.replicate 14) = 0 := by decide +kernel
  rcases hclaim onlyAddress emptyBank forgedRun (.replicate 1) (.replicate 4)
      (.replicate 5) (.replicate 6) (.replicate 14) a (flatRent 0) .collect (collectFrom 20)
      fresh_emptyBank (opened_of_tradedRun _) ha (by simp [hmint])
      (by rw [hburned, hamount]; decide) with ⟨_, _, _, htrade, -⟩ | ⟨-, hsettled⟩
  · cases htrade
  · obtain ⟨_, _, _, hevents, rent, accounts, _, rfl, -⟩ := hsettled
    have hmem : .option rent .settle accounts ∈ forgedRun := by simp [hevents]
    simp [forgedRun, tradedRun, beforeOpening, traders, openTokenAccount, tradeOfFive] at hmem

/-- The pool is settled for the long side before the buyer's position is collected. -/
def settledRun : List Happening :=
  tradedRun ++ [.option (flatRent 0) .settle
    [⟨.replicate 1, false⟩, ⟨.replicate 4, false⟩, ⟨.replicate 6, true⟩]]

theorem position_consent_settled :
    ∃ a, accountAt tokenProgramId (run onlyAddress emptyBank settledRun) (.replicate 14) =
        some a ∧ a.amount = 5 ∧
      ((∃ size buyPrice sellPrice, BinaryOptionInstruction.collect = .trade size buyPrice sellPrice ∧
          Signed (collectFrom 1) a.owner) ∨
        (BinaryOptionInstruction.collect = .collect ∧ SettledBefore onlyAddress emptyBank
          settledRun (.replicate 1) (.replicate 6))) := by
  have ha : accountAt tokenProgramId (run onlyAddress emptyBank settledRun)
      (.replicate 14) = some ⟨.replicate 4, .replicate 10, 5, some (.replicate 77), .initialized,
        none, 5, none⟩ := by decide +kernel
  have hgenuine : Genuine (run onlyAddress emptyBank settledRun) .collect (collectFrom 1)
      [.replicate 4, .replicate 5] := by
    refine ⟨fun _ p hp => ?_, fun p a hp hacc => ?_⟩
    · cases hp
      decide +kernel
    · cases hp
      have hescrow : accountAt tokenProgramId (run onlyAddress emptyBank settledRun)
          (.replicate 3) = some ⟨.replicate 2, .replicate 77, 5, none, .initialized, none, 0,
            none⟩ := by decide +kernel
      cases hescrow.symm.trans hacc
      decide
  have hless : balanceAt tokenProgramId (step onlyAddress
      (run onlyAddress emptyBank settledRun)
      (.option (flatRent 0) .collect (collectFrom 1))) (.replicate 14) < (5 : UInt64).toNat := by
    decide +kernel
  exact ⟨_, ha, rfl, position_consent fresh_emptyBank (opened_of_tradedRun _) ha (by simp) hgenuine
    hless⟩

/-- **Pools go on.** In every reached state a pool has two live mints that no other pool has, and
whatever follows, it stays a pool with the same mints and the same owner. -/
theorem pools_go_on {s : Bank} (find : List Pubkey → Pubkey) (h : Fresh s)
    (before after : List Happening) : Registered (run find s before) ∧
      ∀ k b, poolAt (run find s before) k = some b →
        ∃ b', poolAt (run find (run find s before) after) k = some b' ∧ SameBet b b' :=
  ⟨h.registered.run before, fun _ _ hb => pool_forth hb after⟩

/-- After five contracts have been traded, the pool is settled and the buyer collects. -/
theorem pools_go_on_collected :
    let s := run onlyAddress emptyBank tradedRun
    let s' := run onlyAddress s [.option (flatRent 0) .settle
        [⟨.replicate 1, false⟩, ⟨.replicate 4, false⟩, ⟨.replicate 6, true⟩],
      .option (flatRent 0) .collect (collectFrom 1)]
    Registered s ∧ ∃ b b', poolAt s (.replicate 1) = some b ∧ b.circulation = 5 ∧
      poolAt s' (.replicate 1) = some b' ∧ b'.circulation = 0 ∧ SameBet b b' := by
  intro s s'
  have hfive : (poolAt s (.replicate 1)).map (·.circulation) = some 5 := by decide +kernel
  have hnone : (poolAt s' (.replicate 1)).map (·.circulation) = some 0 := by decide +kernel
  obtain ⟨b, hb, hfive⟩ := Option.map_eq_some_iff.mp hfive
  obtain ⟨hregistered, hforth⟩ := pools_go_on onlyAddress fresh_emptyBank tradedRun _
  obtain ⟨b', hb', hbet⟩ := hforth _ b hb
  rw [hb'] at hnone
  exact ⟨hregistered, b, b', hb, hfive, hb', Option.some.inj hnone, hbet⟩

end SolanaPrograms.BinaryOptions
