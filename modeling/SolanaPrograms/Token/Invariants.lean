import SolanaPrograms.Token.Handlers

/-!
# Invariants of single accounts

The token program as a `Program` of the runtime, and what holds of every account it keeps, in
every state of every run:

* an account is marked native exactly when its mint is the native mint;
* the lamports of a native account cover its reserve and its amount;
* data of a mint's length that is not yet an initialised mint records no supply;
* there is a mint for every account that is not native.

So every event of a run leaves the book alone or is an instruction of a token program
(`run_simulated`).
-/

namespace SolanaPrograms.Token

open Outcome SolanaPrograms.Runtime List UInt64 Program

def tokenProgramId : Pubkey :=
  ⟨[6, 221, 246, 225, 215, 101, 161, 147, 217, 203, 225, 70, 206, 235, 121, 172, 28, 180, 133,
    237, 95, 91, 55, 145, 58, 140, 245, 133, 126, 255, 0, 169], rfl⟩

/-- The token program; it makes no cross-program calls. -/
def program : Program Rent TokenInstruction where
  id := tokenProgramId
  id_ne_system := by decide
  process rent ix accounts s := do
    let s' ← process tokenProgramId rent ix accounts s
    return (s, s')

variable {rent : Rent} {id k : Pubkey} {s s' : Bank} {accounts : List AccountMeta}
  {ix : TokenInstruction}

variable (h : program.execute rent ix accounts s = .ok s') {changed : List Pubkey}
include h

theorem execute_process :
    process tokenProgramId rent ix accounts s = .ok s' ∧
      AllRespect tokenProgramId accounts s s' := by
  obtain ⟨_, hproc, hr⟩ := execute_ok h
  obtain ⟨_, hproc, hpair⟩ := bind_eq_ok.mp hproc
  cases pure_eq_ok.mp hpair
  exact ⟨hproc, hr⟩

theorem execute_effect : Effect tokenProgramId s s' accounts ix := by
  obtain ⟨hproc, hr⟩ := execute_process h
  exact process_effect hr hproc

theorem execute_guard : Guard tokenProgramId s s' accounts :=
  (execute_effect h).posted.guard

omit h

/-! ## What happens at one address -/

inductive Touched (id : Pubkey) (s s' : Bank) (accounts : List AccountMeta)
    (ix : TokenInstruction) (k : Pubkey) : Prop
  | kept (howner : (s' k).owner = (s k).owner) (hdata : (s' k).data = (s k).data)
      (hdebit : ∀ d, debitOf ix accounts = some d → d.source = k → d.destination = some k)
      (happroval : ∀ x, approvalOf ix accounts = some (k, x) → accountAt id s k = none)
  | opened (hix : Plain ix accounts) (haccount : accountAt id s k = none)
      (hmint : mintAt id s k = none) (howner : (s' k).owner = (s k).owner)
      (hkind : (s k).owner = id ∨ (s k).data.length = 355 ∧ (s' k).data.length = 355)
      (hlen : (s k).data.length ∈ [82, 165, 355])
      (hmint' : (s' k).data.length ≠ 82 ∨ ∃ m, mintAt id s' k = some m)
      (hdelegated : ∀ a, accountAt id s' k = some a → a.delegatedAmount = 0)
      (hminted : ∀ a, accountAt id s' k = some a → a.isNative = none → mintAt id s a.mint ≠ none)
  | account (a a' : Account) (hdebit : ∀ d, debitOf ix accounts = some d → d.source ≠ k)
      (happroval : approvalOf ix accounts = none) (before : accountAt id s k = some a)
      (after : accountAt id s' k = some a') (hmint : a'.mint = a.mint)
      (hamount : a.amount ≤ a'.amount) (hdelegated : a'.delegatedAmount ≤ a.delegatedAmount)
      (hnative : a'.isNative = a.isNative)
  | approved (a : Account) (delegate : Pubkey) (amount : UInt64)
      (happroval : approvalOf ix accounts = some (k, amount)) (before : accountAt id s k = some a)
      (after : accountAt id s' k =
        some { a with delegate := some delegate, delegatedAmount := amount })
  | debited (d : Debit) (a a' : Account) (y : UInt64) (hdebit : debitOf ix accounts = some d)
      (hsource : d.source = k) (hdestination : d.destination ≠ some k)
      (happroval : approvalOf ix accounts = none) (before : accountAt id s k = some a)
      (hauth : if d.destination = none ∧ a.isOwnedBySystemProgramOrIncinerator then a' = a
        else DebitAuthority id s accounts a d.authority d.amount a')
      (hy : y.toNat + d.amount.toNat = a.amount.toNat)
      (after : accountAt id s' k = some { a' with amount := y })
  | mint (m m' : Mint) (hdebit : ∀ d, debitOf ix accounts = some d → d.source ≠ k)
      (happroval : approvalOf ix accounts = none) (before : mintAt id s k = some m)
      (after : mintAt id s' k = some m')
  | closed (a : Account) (hix : ix = .closeAccount) (before : accountAt id s k = some a)
      (hbalance : a.isNative = none → a.amount = 0)
      (hauth : a.isOwnedBySystemProgramOrIncinerator = false →
        Authorized id s accounts (a.closeAuthority.getD a.owner))
      (howner : (s' k).owner = id) (hdata : (s' k).data = .replicate 165 0)

/-- Only the addresses that changed need a look, if the debit and the approval are about them. -/
theorem Touched.of_frame (hframe : SameExcept s s' changed)
    (hdebit : ∀ d, debitOf ix accounts = some d → d.source ∈ changed)
    (happroval : ∀ k x, approvalOf ix accounts = some (k, x) → k ∈ changed)
    (h : changed.Forall (Touched id s s' accounts ix)) (k : Pubkey) :
    Touched id s s' accounts ix k :=
  hframe.forall h (fun k hk heq => .kept (by rw [heq]) (by rw [heq])
    (fun d hd hsource => absurd (hsource ▸ hdebit d hd) hk)
    (fun x hx => absurd (happroval k x hx) hk)) k

/-- The same for an instruction that is neither a debit nor an approval. -/
theorem Touched.of_plain (hix : Plain ix accounts)
    (hframe : SameExcept s s' changed) (h : changed.Forall (Touched id s s' accounts ix))
    (k : Pubkey) : Touched id s s' accounts ix k :=
  .of_frame hframe (by simp [hix.1]) (by simp [hix.2]) h k

variable {a a' : Account} {x y : UInt64} {k : Pubkey}

/-- An account of a plain instruction that loses neither tokens nor more than the allowance. -/
theorem Touched.of_account (hix : Plain ix accounts) (before : accountAt id s k = some a)
    (after : accountAt id s' k = some a') (hmint : a'.mint = a.mint)
    (hamount : a.amount ≤ a'.amount) (hdelegated : a'.delegatedAmount ≤ a.delegatedAmount)
    (hnative : a'.isNative = a.isNative) : Touched id s s' accounts ix k :=
  .account a a' (by simp [hix.1]) hix.2 before after hmint hamount hdelegated hnative

/-- **What one accepted instruction does at one address.** -/
theorem Effect.touched (he : Effect id s s' accounts ix) (k : Pubkey) :
    Touched id s s' accounts ix k := by
  cases he with
  | idle heq hdebit happroval =>
    exact .kept (by rw [heq]) (by rw [heq]) (fun d hd hsource => hsource ▸ hdebit d hd)
      (fun x hx => happroval k x hx)
  | mintCreated k₀ _ m' hix howner hread huninit hafter _ hfunds hframe =>
    refine .of_plain hix hframe ?_ k
    have hlen : (s k₀).data.length = 82 := (Pack.unpackUnchecked_eq_ok.mp hread).1
    exact .opened hix (accountAt_of_length (by omega)) (stateAt_of_uninitialized hread huninit)
      hfunds.1 (.inl howner) (by simp [hlen]) (.inr ⟨m', hafter⟩)
      (by simp [accountAt_of_mintAt hafter]) (by simp [accountAt_of_mintAt hafter])
  | accountCreated _ _ hix hnew =>
    refine .of_plain hix hnew.frame ?_ k
    have hlen := hnew.length
    refine .opened hix hnew.before (mintAt_of_length (by omega)) hnew.funds.1 (.inl ?_)
      (by simp [hlen]) (.inl (by rw [accountAt_length hnew.after]; decide))
      (by simp [hnew.after, hnew.own]) (by simpa [hnew.after] using hnew.minted)
    rw [← hnew.funds.1]
    exact (stateAt_eq_some.mp hnew.after).1
  | multisigCreated k₀ hix hlen hlen' hfunds hframe =>
    refine .of_plain hix hframe ?_ k
    exact .opened hix (accountAt_of_length (by omega)) (mintAt_of_length (by omega)) hfunds.1
      (.inr ⟨hlen, hlen'⟩) (by simp [hlen]) (.inl (by omega))
      (by simp [show accountAt id s' k₀ = none from accountAt_of_length (by omega)])
      (by simp [show accountAt id s' k₀ = none from accountAt_of_length (by omega)])
  | accountUpdated _ _ _ hix hupd hmint hamount hnative hdelegated =>
    exact .of_plain hix hupd.frame (.of_account hix hupd.before hupd.after hmint
      (UInt64.le_of_eq hamount.symm) hdelegated hnative) k
  | approved _ a delegate amount hdebit happroval _ hupd =>
    exact .of_frame hupd.frame (by simp [hdebit]) (by simp [happroval])
      (.approved a delegate amount happroval hupd.before hupd.after) k
  | mintUpdated _ m m' hix hupd =>
    exact .of_plain hix hupd.frame
      (.mint m m' (by simp [hix.1]) hix.2 hupd.before hupd.after) k
  | transferred _ _ a b a' _ _ y _ hdebit happroval hne hsrc hdst _ hauth hy _ hsrc' hdst' _
      hframe =>
    refine .of_frame hframe (by simp [hdebit]) (by simp [happroval]) (.intro ?_ ?_) k
    · exact .debited _ a a' y hdebit rfl (by simpa using hne.symm) happroval hsrc
        (by simpa using hauth) hy hsrc'
    · exact .account b _ (by simp [hdebit, hne]) happroval hdst hdst' rfl
        (UInt64.le_iff_toNat_le.mpr (by dsimp only; omega)) (UInt64.le_refl _) rfl
  | minted _ _ _ m _ _ _ hix hsrc _ _ hmint _ _ hsrc' hmint' _ _ hframe =>
    refine .of_plain hix hframe (.intro ?_ ?_) k
    · exact .of_account hix hsrc hsrc' rfl (le_iff_toNat_le.mpr (by dsimp only; omega))
        (UInt64.le_refl _) rfl
    · exact .mint m _ (by simp [hix.1]) hix.2 hmint hmint'
  | burned _ _ a a' m _ _ y _ hdebit happroval hsrc _ _ hmint hauth hy _ hsrc' hmint' _ _ hframe =>
    refine .of_frame hframe (by simp [hdebit]) (by simp [happroval]) (.intro ?_ ?_) k
    · exact .debited _ a a' y hdebit rfl (by simp) happroval hsrc (by simpa using hauth) hy hsrc'
    · refine .mint m _ (fun d hd => ?_) happroval hmint hmint'
      cases hdebit.symm.trans hd
      rintro rfl
      exact absurd (hsrc.symm.trans (accountAt_of_mintAt hmint)) (by simp)
  | closed _ _ a hix _ hbefore hbalance hauth howner' hdata' hdst hframe =>
    subst hix
    refine .of_plain ⟨rfl, rfl⟩ hframe (.intro ?_ ?_) k
    · exact .closed a rfl hbefore hbalance hauth howner' hdata'
    · exact .kept hdst.1 hdst.2.1 nofun nofun
  | synced _ _ _ _ hix _ _ hle hupd =>
    exact .of_plain hix hupd.frame
      (.of_account hix hupd.before hupd.after rfl hle (UInt64.le_refl _) rfl) k

/-! ## The invariant of one account -/

structure Backed (a : Account) (lamports : UInt64) : Prop where
  native : a.isNative.isSome = true ↔ a.mint = nativeMintId
  backed : ∀ reserve, a.isNative = some reserve → reserve.toNat + a.amount.toNat ≤ lamports.toNat

def AllBacked (id : Pubkey) (s : Bank) : Prop :=
  ∀ k a, accountAt id s k = some a → Backed a (s k).lamports

theorem Backed.mono (h : Backed a x) (hle : x ≤ y) : Backed a y := by
  exact ⟨h.native, fun r hr => (h.backed r hr).trans hle⟩

theorem Backed.of_none (hnative : a.isNative = none) (hmint : a.mint ≠ nativeMintId) :
    Backed a x where
  native := by simp [hnative, hmint]
  backed r hr := by simp [hnative] at hr

theorem Backed.congr (h : Backed a x) (hmint : a'.mint = a.mint)
    (hnative : a'.isNative = a.isNative) (hamount : a'.amount = a.amount) : Backed a' x := by
  obtain ⟨h₁, h₂⟩ := h
  exact ⟨by rw [hnative, hmint, h₁], fun r hr => by rw [hamount]; exact h₂ r (hnative ▸ hr)⟩

theorem Backed.of_nonnative (h : Backed a x) (hnone : a.isNative = none) (hmint : a'.mint = a.mint)
    (hnative : a'.isNative = a.isNative) : Backed a' y := by
  refine .of_none (hnative.trans hnone) fun hm => ?_
  have := h.native.mpr (hmint ▸ hm)
  simp [hnone] at this

/-- Both sides of a transfer stay backed: equal mints are equally native, so the lamports that
leave one side arrive at the other. -/
theorem Backed.transfer {src dst : Pubkey} {b : Account} {z : UInt64}
    (ha : Backed a (s src).lamports) (hb : Backed b (s dst).lamports) (hmint : a.mint = b.mint)
    (hmint' : a'.mint = a.mint) (hnative : a'.isNative = a.isNative)
    (hy : y.toNat + x.toNat = a.amount.toNat) (hz : z.toNat = b.amount.toNat + x.toNat)
    (hlamports : LamportsMoved s s' src dst x a.isNative.isSome) :
    Backed { a' with amount := y } (s' src).lamports ∧
      Backed { b with amount := z } (s' dst).lamports := by
  unfold LamportsMoved at hlamports
  split at hlamports
  next hsome =>
    refine ⟨⟨by simpa [hnative, hmint'] using ha.native, fun r hr => ?_⟩,
      ⟨hb.native, fun r hr => ?_⟩⟩
    · have := ha.backed r (hnative ▸ hr)
      dsimp only
      omega
    · have := hb.backed r hr
      dsimp only
      omega
  next hsome =>
    have hnone : a.isNative = none := by simpa using hsome
    have hnone' : b.isNative = none := by
      have hm : b.mint ≠ nativeMintId := by
        rw [← hmint]
        exact fun hm => hsome (ha.native.mpr hm)
      by_contra hb'
      exact hm (hb.native.mp (Option.isSome_iff_ne_none.mpr hb'))
    exact ⟨ha.of_nonnative hnone hmint' hnative, hb.of_nonnative hnone' rfl rfl⟩

/-- What `AllBacked` says at one address. -/
def BackedAt (id : Pubkey) (s : Bank) (k : Pubkey) : Prop :=
  ∀ a, accountAt id s k = some a → Backed a (s k).lamports

theorem BackedAt.of_some (ha : accountAt id s k = some a) (hb : Backed a (s k).lamports) :
    BackedAt id s k := by
  intro b hb'
  cases ha.symm.trans hb'
  exact hb

theorem BackedAt.of_none (ha : accountAt id s k = none) : BackedAt id s k := by
  simp [BackedAt, ha]

/-- Only the accounts that changed need a look. -/
theorem AllBacked.of_frame (h : AllBacked id s)
    (hframe : SameExcept s s' changed) (hchanged : changed.Forall (BackedAt id s')) :
    AllBacked id s' := by
  refine hframe.forall hchanged fun k _ heq a ha => ?_
  rw [accountAt, view_of_eq heq] at ha
  rw [heq]
  exact h k a ha

/-- An account that changed in neither mint, mark, amount nor lamports. -/
theorem AccountUpdate.backedAt (hupd : AccountUpdate id s s' k a a') (h : AllBacked id s)
    (hmint : a'.mint = a.mint) (hnative : a'.isNative = a.isNative)
    (hamount : a'.amount = a.amount) : BackedAt id s' k :=
  .of_some hupd.after (by rw [hupd.funds.2]; exact (h k a hupd.before).congr hmint hnative hamount)

theorem Effect.allBacked (he : Effect id s s' accounts ix) (h : AllBacked id s) :
    AllBacked id s' := by
  cases he with
  | idle heq => rwa [heq]
  | mintCreated _ _ _ _ _ _ _ hafter _ _ hframe =>
    exact h.of_frame hframe (.of_none (accountAt_of_mintAt hafter))
  | accountCreated _ _ _ hnew =>
    refine h.of_frame hnew.frame (.of_some hnew.after ?_)
    rcases hnew.kind with ⟨hmint, r, hr, hsum⟩ | ⟨hmint, hnone, _⟩
    · refine ⟨by simp [hr, hmint], fun r' hr' => ?_⟩
      rw [hr] at hr'
      cases hr'
      rw [hnew.funds.2, hsum]
    · exact .of_none hnone hmint
  | multisigCreated _ _ _ _ _ hframe =>
    exact h.of_frame hframe (.of_none (accountAt_of_length (by omega)))
  | accountUpdated _ _ _ _ hupd hmint hamount hnative =>
    exact h.of_frame hupd.frame (hupd.backedAt h hmint hnative hamount)
  | approved _ _ _ _ _ _ _ hupd =>
    exact h.of_frame hupd.frame (hupd.backedAt h rfl rfl rfl)
  | mintUpdated _ _ _ _ hupd =>
    exact h.of_frame hupd.frame (.of_none (accountAt_of_mintAt hupd.after))
  | transferred src dst a b _ _ _ _ _ _ _ _ hsrc hdst hmint hauth hy hz hsrc' hdst' hlamports
      hframe =>
    obtain ⟨hmint', _, _, hnative⟩ := hauth.same
    obtain ⟨hback, hback'⟩ := (h src a hsrc).transfer (h dst b hdst) hmint hmint' hnative hy hz
      hlamports
    exact h.of_frame hframe (.intro (.of_some hsrc' hback) (.of_some hdst' hback'))
  | minted k _ a _ _ _ _ _ hsrc hnative _ _ _ _ hsrc' hmint' _ _ hframe =>
    exact h.of_frame hframe (.intro
      (.of_some hsrc' ((h k a hsrc).of_nonnative hnative rfl rfl))
      (.of_none (accountAt_of_mintAt hmint')))
  | burned k _ a _ _ _ _ _ _ _ _ hsrc hnative _ _ hauth _ _ hsrc' hmint' _ _ hframe =>
    refine h.of_frame hframe
      (.intro (.of_some hsrc' ?_) (.of_none (accountAt_of_mintAt hmint')))
    split at hauth
    · subst hauth
      exact (h k _ hsrc).of_nonnative hnative rfl rfl
    · exact (h k a hsrc).of_nonnative hnative hauth.same.1 hauth.same.2.2.2
  | closed _ dst _ _ _ _ _ _ _ hdata' hdst hframe =>
    refine h.of_frame hframe (.intro (.of_none (accountAt_zero hdata')) fun c hc => ?_)
    rw [accountAt, stateAt_congr hdst.1 hdst.2.1] at hc
    exact (h dst c hc).mono hdst.2.2
  | synced k a reserve _ _ hnative hx _ hupd =>
    refine h.of_frame hupd.frame (.of_some hupd.after ?_)
    refine ⟨(h k a hupd.before).native, fun r hr => ?_⟩
    rw [show r = reserve from Option.some.inj (hr.symm.trans hnative), hupd.funds.2]
    exact hx.le

/-! ## Uninitialised mints -/

theorem Effect.blankMints (he : Effect id s s' accounts ix) (h : BlankMints id s) :
    BlankMints id s' := by
  intro k m howner hread huninit
  have hlen : (s' k).data.length = 82 := (Pack.unpackUnchecked_eq_ok.mp hread).1
  have hnone : mintAt id s' k = none := by
    refine stateAt_eq_none.mpr fun m' _ hm' => ?_
    obtain ⟨hm', hinit⟩ := Pack.unpack_eq_ok.mp hm'
    rw [hread] at hm'
    cases hm'
    exact absurd (huninit.symm.trans hinit) (by decide)
  cases he.touched k with
  | kept howner' hdata => exact h k m (howner' ▸ howner) (hdata ▸ hread) huninit
  | opened _ _ _ _ _ _ hmint' =>
    rcases hmint' with hne | ⟨m', hm'⟩
    · exact absurd hlen hne
    · exact absurd (hnone.symm.trans hm') (by simp)
  | mint _ _ _ _ _ hm' => exact absurd (hnone.symm.trans hm') (by simp)
  | account _ _ _ _ _ hafter | approved _ _ _ _ _ hafter | debited _ _ _ _ _ _ _ _ _ _ _ hafter =>
    exact absurd ((accountAt_length hafter).symm.trans hlen) (by decide)
  | closed _ _ _ _ _ _ hdata =>
    rw [hdata, length_replicate] at hlen
    exact absurd hlen (by decide)

/-! ## The mints of the accounts -/

theorem Effect.mint_stays (he : Effect id s s' accounts ix) (h : mintAt id s k ≠ none) :
    mintAt id s' k ≠ none := by
  obtain ⟨m, hm⟩ := Option.ne_none_iff_exists'.mp h
  cases he.touched k with
  | kept howner hdata => rwa [mintAt, stateAt_congr howner hdata]
  | opened _ _ hnone => exact absurd hnone h
  | mint _ _ _ _ _ hm' => simp [hm']
  | account _ _ _ _ ha | approved _ _ _ _ ha | debited _ _ _ _ _ _ _ _ ha | closed _ _ ha =>
    exact absurd (mintAt_of_accountAt ha) h

theorem Effect.allMinted (he : Effect id s s' accounts ix) (h : AllMinted id s) :
    AllMinted id s' := by
  intro k a ha hnative
  refine he.mint_stays ?_
  cases he.touched k with
  | kept howner hdata =>
    rw [accountAt, stateAt_congr howner hdata] at ha
    exact h k a ha hnative
  | opened _ _ _ _ _ _ _ _ hminted => exact hminted a ha hnative
  | account b _ _ _ before after hmint _ _ hsame =>
    cases after.symm.trans ha
    rw [hmint]
    exact h k b before (hsame ▸ hnative)
  | approved b _ _ _ before after =>
    cases after.symm.trans ha
    exact h k b before hnative
  | debited _ b a' _ _ _ _ _ before hauth _ after =>
    cases after.symm.trans ha
    have hsame : a'.mint = b.mint ∧ a'.isNative = b.isNative := by
      split at hauth
      · exact hauth ▸ ⟨rfl, rfl⟩
      · exact ⟨hauth.same.1, hauth.same.2.2.2⟩
    show mintAt id s a'.mint ≠ none
    rw [hsame.1]
    exact h k b before (hsame.2 ▸ hnative)
  | mint _ _ _ _ _ after => simp [accountAt_of_mintAt after] at ha
  | closed _ _ _ _ _ _ hdata => simp [accountAt_zero hdata] at ha

/-! ## Runs -/

/-- What holds of the accounts of the program in every state of a run. -/
structure WellFormed (s : Bank) : Prop where
  backed : AllBacked tokenProgramId s
  blank : BlankMints tokenProgramId s
  minted : AllMinted tokenProgramId s

theorem accountAt_of_drift (hd : Program.Drift id (s k) (s' k)) :
    accountAt id s' k = accountAt id s k :=
  (stateAt_of_drift Account.unpack_zero hd).1

theorem mintAt_of_drift (hd : Program.Drift id (s k) (s' k)) : mintAt id s' k = mintAt id s k :=
  (stateAt_of_drift Mint.unpack_zero hd).1

theorem AllBacked.of_drift (h : AllBacked id s) (hd : ∀ k, Program.Drift id (s k) (s' k)) :
    AllBacked id s' := by
  intro k a ha
  rw [accountAt_of_drift (hd k)] at ha
  exact (h k a ha).mono ((stateAt_of_drift Account.unpack_zero (hd k)).2 a ha)

theorem BlankMints.of_drift (h : BlankMints id s) (hd : ∀ k, Program.Drift id (s k) (s' k)) :
    BlankMints id s' := by
  intro k m howner hread huninit
  cases hd k with
  | kept howner' hdata => exact h k m (howner' ▸ howner) (hdata ▸ hread) huninit
  | entered _ _ hdata =>
    refine (Mint.unpackUnchecked_zero ?_ hread).2
    rw [hdata]
    exact fun b hb => eq_of_mem_replicate hb
  | outside _ hpost => exact absurd howner hpost
  | left hpost => exact absurd howner hpost

/-- Accounts that are still zero-filled meet the invariants. -/
theorem WellFormed.of_fresh (h : program.Fresh s) : WellFormed s where
  backed k _ ha :=
    absurd (stateAt_eq_some.mp ha).2 (Account.unpack_zero (h k (stateAt_eq_some.mp ha).1))
  blank k _ howner hread _ := (Mint.unpackUnchecked_zero (h k howner) hread).2
  minted k _ ha :=
    absurd (stateAt_eq_some.mp ha).2 (Account.unpack_zero (h k (stateAt_eq_some.mp ha).1))

/-- One event, the same rule for every invariant: an accepted instruction has an effect, any
other event lets accounts drift. -/
theorem step_cases (s : Bank) (e : Event Rent TokenInstruction) :
    program.step s e = s ∨
      (∃ rent ix accounts, e = .instruction rent ix accounts ∧
        program.execute rent ix accounts s = .ok (program.step s e)) ∨
      ∀ k, Program.Drift tokenProgramId (s k) (program.step s e k) := by
  cases e with
  | instruction rent ix accounts =>
    rcases step_instruction (P := program) rent ix accounts s with h | h
    · exact .inr (.inl ⟨rent, ix, accounts, rfl, h⟩)
    · exact .inl h
  | enter | external | deposit | reclaim =>
    exact .inr (.inr (step_drift (P := program) s (by intros; exact nofun)))

theorem WellFormed.step (h : WellFormed s) (e : Event Rent TokenInstruction) :
    WellFormed (program.step s e) := by
  rcases step_cases s e with heq | ⟨rent, ix, accounts, -, hexec⟩ | hd
  · rwa [heq]
  · have he := execute_effect hexec
    exact ⟨he.allBacked h.backed, he.blankMints h.blank, he.allMinted h.minted⟩
  · refine ⟨h.backed.of_drift hd, h.blank.of_drift hd, fun k a ha => ?_⟩
    rw [accountAt_of_drift (hd k)] at ha
    rw [mintAt_of_drift (hd _)]
    exact h.minted k a ha

theorem WellFormed.run (h : WellFormed s) (events : List (Event Rent TokenInstruction)) :
    WellFormed (program.run s events) :=
  run_invariant (fun _ e hs => hs.step e) h events

/-- **Simulation.** In every state of every run, an event leaves the book alone or is an instruction
of a token program, signed by those whose signatures the instruction carries. -/
theorem run_simulated {s₀ : Bank} (hfresh : program.Fresh s₀)
    (events : List (Event Rent TokenInstruction)) (e : Event Rent TokenInstruction) :
    let s := program.run s₀ events
    book tokenProgramId (program.step s e) = book tokenProgramId s ∨
      ∃ rent ix accounts i, e = .instruction rent ix accounts ∧
        Tokens.exec (signs tokenProgramId s accounts) (handedOver tokenProgramId s)
          (book tokenProgramId s) i = some (book tokenProgramId (program.step s e)) := by
  intro s
  have hwf : WellFormed s := (WellFormed.of_fresh hfresh).run events
  rcases step_cases s e with heq | ⟨rent, ix, accounts, he, hexec⟩ | hd
  · exact .inl (by rw [heq])
  · refine ((execute_effect hexec).posted.simulated hwf.blank hwf.minted).imp_right ?_
    rintro ⟨i, hi⟩
    exact ⟨rent, ix, accounts, i, he, hi⟩
  · exact .inl (funext fun k => book_congr (accountAt_of_drift (hd k)) (mintAt_of_drift (hd k)))

/-- **Wrapped SOL is backed.** In every state of every run, with deposits of lamports anywhere
in between, an account is native exactly when its mint is, and its lamports cover the reserve
and the whole amount. -/
theorem native_accounts_backed {s₀ : Bank} (hfresh : program.Fresh s₀)
    (events : List (Event Rent TokenInstruction)) {k : Pubkey} {a : Account}
    (ha : accountAt tokenProgramId (program.run s₀ events) k = some a) :
    (a.isNative.isSome = true ↔ a.mint = nativeMintId) ∧
      ∀ reserve, a.isNative = some reserve →
        reserve.toNat + a.amount.toNat ≤ (program.run s₀ events k).lamports.toNat := by
  have h := ((WellFormed.of_fresh hfresh).run events).backed k a ha
  exact ⟨h.native, h.backed⟩

/-- Ten lamports are wrapped with a reserve of three, then two more are deposited. -/
def wrappingRun : List (Event Rent TokenInstruction) :=
  [.enter (.replicate 2) 165, .deposit (.replicate 2) 10,
    .instruction (flatRent 3) (.initializeAccount3 (.replicate 3))
      [⟨.replicate 2, false⟩, ⟨nativeMintId, false⟩],
    .deposit (.replicate 2) 2]

theorem native_accounts_backed_wrapping :
    ∃ a : Account, a.isNative = some 3 ∧ a.amount = 7 ∧
      3 + 7 ≤ (program.run emptyBank wrappingRun (.replicate 2)).lamports.toNat := by
  let a : Account :=
    ⟨nativeMintId, .replicate 3, 7, none, .initialized, some 3, 0, none⟩
  have ha : accountAt tokenProgramId (program.run emptyBank wrappingRun) (.replicate 2) =
      some a := by decide +kernel
  exact ⟨a, rfl, rfl,
    (native_accounts_backed program.fresh_emptyBank wrappingRun ha).2 3 rfl⟩

end SolanaPrograms.Token
