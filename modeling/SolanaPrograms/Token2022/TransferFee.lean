import SolanaPrograms.Token2022.Conservation

/-!
# The schedule of transfer fees

The fee of an amount is its share in basis points, rounded up and capped. A mint keeps two fees, an
older and a newer one, each with the epoch from which it is in force: `SetTransferFee` moves the fee
of the current epoch to the older slot and lets the new one begin with the next epoch. Along every
run in which a mint's fees are set at epochs that do not decrease, the slots therefore stay ordered
and nobody changes the fee of the epoch that is running.
-/

namespace SolanaPrograms.Token2022

open Outcome SolanaPrograms.Runtime StateWithExtensionsMut UInt64 Nat Program Record Entry
open Token (Mint)
open Function (update update_of_ne update_self)

/-! ## The fee of an amount -/

/-- The fee of an amount: its basis points rounded up, and never more than the maximum. -/
theorem TransferFee.calculate_eq {fee : TransferFee} (hb : fee.transferFeeBasisPoints ≤ 10000)
    (a : UInt64) : ∃ f, fee.calculate a = some f ∧ f.toNat ≤ a.toNat ∧
      f.toNat = min (a.toNat * fee.transferFeeBasisPoints.toNat ⌈/⌉ 10000) fee.maximumFee.toNat := by
  have hle : a.toNat * fee.transferFeeBasisPoints.toNat ≤ a.toNat * 10000 :=
    mul_le_mul_left _ (UInt16.le_iff_toNat_le.mp hb)
  have hlt := a.toNat_lt
  unfold calculate
  rw [ceilDiv_eq_add_pred_div]
  by_cases hzero : fee.transferFeeBasisPoints.toNat = 0 ∨ a = 0
  · refine ⟨0, if_pos hzero, zero_le _, ?_⟩
    rcases hzero with hzero | rfl <;> simp [*]
  · simp only [hzero, if_false]
    generalize a.toNat * fee.transferFeeBasisPoints.toNat = x at hle ⊢
    have hraw : (if 0 < x % 10000 then x / 10000 + 1 else x / 10000) = (x + 10000 - 1) / 10000 := by
      split <;> omega
    rw [hraw, if_pos (by omega)]
    have hmin : (min (ofNat ((x + 10000 - 1) / 10000)) fee.maximumFee).toNat =
        min ((x + 10000 - 1) / 10000) fee.maximumFee.toNat := by
      rw [toNat_min, toNat_ofNat_of_lt' (show _ < 2 ^ 64 by omega)]
    exact ⟨_, rfl, by rw [hmin]; omega, hmin⟩

/-- **The fee is exact, monotone and not evaded by splitting.** -/
theorem fee_exact_and_subadditive (fee : TransferFee) (hb : fee.transferFeeBasisPoints ≤ 10000) :
    (∀ a, ∃ f, fee.calculate a = some f ∧ f.toNat ≤ a.toNat ∧
      f.toNat = min (a.toNat * fee.transferFeeBasisPoints.toNat ⌈/⌉ 10000) fee.maximumFee.toNat) ∧
    (∀ a c f g, a ≤ c → fee.calculate a = some f → fee.calculate c = some g → f ≤ g) ∧
    ∀ a c f g h, a.toNat + c.toNat < 2 ^ 64 → fee.calculate a = some f → fee.calculate c = some g →
      fee.calculate (a + c) = some h → h.toNat ≤ f.toNat + g.toNat := by
  have hvalue : ∀ {a f}, fee.calculate a = some f → f.toNat = min
      ((a.toNat * fee.transferFeeBasisPoints.toNat + 10000 - 1) / 10000) fee.maximumFee.toNat := by
    intro a f hf
    obtain ⟨_, hf', -, hvalue⟩ := TransferFee.calculate_eq hb a
    rw [hf] at hf'
    cases hf'
    rw [hvalue, ceilDiv_eq_add_pred_div]
  refine ⟨TransferFee.calculate_eq hb, fun a c f g hac hf hg => ?_, fun a c f g h hac hf hg hh => ?_⟩
  · have hmul := mul_le_mul_right fee.transferFeeBasisPoints.toNat (le_iff_toNat_le.mp hac)
    rw [le_iff_toNat_le, hvalue hf, hvalue hg]
    omega
  · have hsum : (a + c).toNat = a.toNat + c.toNat := by
      rw [UInt64.toNat_add, mod_eq_of_lt hac]
    rw [hvalue hf, hvalue hg, hvalue hh, hsum, add_mul]
    omega

/-- Ten percent, and at most three tokens: of forty tokens the cap is taken, of 25 the rounded
share, and of two halves more than of the whole. -/
theorem fee_exact_and_subadditive_of_three :
    (⟨0, 3, 1000⟩ : TransferFee).calculate 40 = some 3 ∧
    (∃ f, (⟨0, 3, 1000⟩ : TransferFee).calculate 25 = some f ∧ f.toNat ≤ 25 ∧
      f.toNat = min (25 * 1000 ⌈/⌉ 10000) 3) ∧
    (2 : UInt64) ≤ 3 ∧ (3 : UInt64).toNat ≤ (2 : UInt64).toNat + (2 : UInt64).toNat := by
  obtain ⟨hexact, hmono, hsplit⟩ := fee_exact_and_subadditive ⟨0, 3, 1000⟩ (by decide)
  exact ⟨by decide, hexact 25, hmono 20 40 2 3 (by decide) (by decide) (by decide),
    hsplit 20 20 2 2 3 (by decide) (by decide) (by decide) (by decide)⟩

/-! ## The schedule of a mint -/

def Entry.config : Entry → Option TransferFeeConfig
  | .draft config => some config
  | .mint r => r.get TransferFeeConfig
  | _ => none

def configAt (s : Bank) (k : Pubkey) : Option TransferFeeConfig := (book token2022Id s k).config

/-- The two slots, seen from the epoch `e` at which they were last set to end in `fee`. -/
structure TransferFeeConfig.Ordered (c : TransferFeeConfig) (e : UInt64) (fee : TransferFee) :
    Prop where
  newer : c.newerTransferFee = fee
  slots : c.olderTransferFee.epoch ≤ fee.epoch
  next : fee.epoch.toNat ≤ e.toNat + 1
  older_points : c.olderTransferFee.transferFeeBasisPoints ≤ 10000
  newer_points : fee.transferFeeBasisPoints ≤ 10000

/-- The mint at `k` has had its fees initialised, and they were last set at the epoch `e`, to
`fee`. In between anything may happen, except that the mint is closed or its fees are initialised
again. -/
inductive Scheduled (k : Pubkey) : UInt64 → TransferFee → Bank → Prop
  | initialised {s₀ s' : Bank} {events : List (Event Env TokenInstruction)} {env : Env}
      {authority withdraw : Option Pubkey} {points : UInt16} {maximum : UInt64} {signer : Bool}
      {rest : List AccountMeta} (hfresh : program.Fresh s₀)
      (howner : (program.run s₀ events k).owner = token2022Id)
      (hexec : program.execute env (.transferFeeExtension (.initializeTransferFeeConfig authority
        withdraw points maximum)) (⟨k, signer⟩ :: rest) (program.run s₀ events) = .ok s') :
      Scheduled k env.epoch ⟨env.epoch, maximum, points⟩ s'
  | set {e : UInt64} {fee : TransferFee} {s s' : Bank} {env : Env} {points : UInt16}
      {maximum : UInt64} {signer : Bool} {rest : List AccountMeta} (hs : Scheduled k e fee s)
      (he : e ≤ env.epoch) (hlast : env.epoch.toNat < 2 ^ 64 - 1)
      (hexec : program.execute env (.transferFeeExtension (.setTransferFee points maximum))
        (⟨k, signer⟩ :: rest) s = .ok s') :
      Scheduled k env.epoch ⟨env.epoch + 1, maximum, points⟩ s'
  | other {e : UInt64} {fee : TransferFee} {s : Bank} (hs : Scheduled k e fee s)
      (event : Event Env TokenInstruction) (hother : ∀ env ix accounts s',
        event = .instruction env ix accounts → program.execute env ix accounts s = .ok s' →
        requestOf ix accounts ≠ .close k ∧ requestOf ix accounts ≠ .fees k) :
      Scheduled k e fee (program.step s event)

/-! ## What other instructions do to the fees -/

section Kept

variable {B B' : Book} {request : Request} {k j : Pubkey}

theorem config_ofConfig (c : Option TransferFeeConfig) : (Entry.ofConfig c).config = c := by
  cases c <;> rfl

theorem config_update {e : Entry} (he : e.config.map (·.fees) = (B j).config.map (·.fees)) :
    (update B j e k).config.map (·.fees) = (B k).config.map (·.fees) := by
  by_cases hk : k = j
  · rw [hk, update_self, he]
  · rw [update_of_ne hk]

/-- **Step.** Only an instruction that asks for it changes the fees of a mint. -/
theorem Effect.config_kept (h : Effect request B B') (hclose : request ≠ .close k)
    (hfees : request ≠ .fees k) :
    (B' k).config.map (·.fees) = (B k).config.map (·.fees) := by
  have hmint : ∀ {B : Book} {j m m'}, B j = .mint m → SameMint m m' →
      (Entry.mint m').config.map (·.fees) = (B j).config.map (·.fees) := fun hj hsame => by
    rw [hj]
    exact hsame
  have hother : ∀ {B : Book} {j e}, (B j).config = none → Entry.config e = none →
      e.config.map (·.fees) = (B j).config.map (·.fees) := fun hj he => by rw [hj, he]
  cases h with
  | openAccount _ _ _ _ hj => exact config_update (hother (by rw [hj]; rfl) rfl)
  | configure _ _ _ _ hrequest | setFees _ _ _ _ hrequest =>
    rw [update_of_ne]
    rintro rfl
    exact hfees hrequest
  | openMint _ _ hj =>
    refine config_update ?_
    rw [hj, config_ofConfig]
    rfl
  | editAccount _ _ _ hj | syncNative _ _ _ hj | closeAccount _ _ hj =>
    exact config_update (hother (by rw [hj]; rfl) rfl)
  | editMint _ _ _ hj hsame => exact config_update (hmint hj hsame)
  | closeMint _ _ _ hrequest =>
    rw [update_of_ne]
    rintro rfl
    exact hclose hrequest
  | pay _ _ _ _ _ _ _ hne hsrc hdst =>
    rw [config_update (hother (by rw [update_of_ne hne.symm, hdst]; rfl) rfl)]
    exact config_update (hother (by rw [hsrc]; rfl) rfl)
  | harvest _ _ _ _ _ _ hj hm _ hsame | burn _ _ _ _ _ _ hj hm _ hsame =>
    rw [config_update (hmint (by rwa [update_of_ne (account_ne_mint hj hm).symm]) hsame)]
    exact config_update (hother (by rw [hj]; rfl) rfl)
  | withdraw _ _ _ _ _ _ hj hm _ hsame | mintTo _ _ _ _ _ _ hj hm _ hsame =>
    rw [config_update (hother (by rw [update_of_ne (account_ne_mint hj hm), hj]; rfl) rfl)]
    exact config_update (hmint hm hsame)

theorem configAt_step {s : Bank} (hs : AllSound token2022Id s) (event : Event Env TokenInstruction)
    (hother : ∀ env ix accounts s', event = .instruction env ix accounts →
      program.execute env ix accounts s = .ok s' →
      requestOf ix accounts ≠ .close k ∧ requestOf ix accounts ≠ .fees k) :
    (configAt (program.step s event) k).map (·.fees) = (configAt s k).map (·.fees) := by
  have hkept : ∀ {request s'}, Refines token2022Id request s s' → request ≠ .close k →
      request ≠ .fees k → (configAt s' k).map (·.fees) = (configAt s k).map (·.fees) :=
    fun h hclose hfees => Effects.invariant
      (I := fun B => (B k).config.map (·.fees) = (configAt s k).map (·.fees))
      (fun _ _ heffect hB => (heffect.config_kept hclose hfees).trans hB) h.effects rfl
  by_cases he : ∃ env ix accounts, event = .instruction env ix accounts
  · obtain ⟨env, ix, accounts, rfl⟩ := he
    rcases step_instruction (P := program) env ix accounts s with h | h
    · obtain ⟨hclose, hfees⟩ := hother _ _ _ _ rfl h
      exact hkept (execute_refines hs h) hclose hfees
    · rw [h]
  · have hdrift : Refines token2022Id .other s (program.step s event) :=
      .of_drift hs (step_drift (P := program) s fun env ix accounts h => he ⟨env, ix, accounts, h⟩)
    exact hkept hdrift (by simp) (by simp)

end Kept

section Schedule

variable {s s' : Bank} {k : Pubkey} {c : TransferFeeConfig} {fee : TransferFee} {env : Env}
  {points : UInt16} {maximum e : UInt64} {signer : Bool} {rest : List AccountMeta}

theorem configAt_store {S : Type} (howner : (s k).owner = token2022Id)
    (st : StateWithExtensionsMut S) : configAt (store s k st) k = (entryOf st.bytes).config := by
  rw [configAt, store, book_setData howner, update_self]

theorem configAt_initialised {authority withdraw : Option Pubkey} (hs : AllSound token2022Id s)
    (howner : (s k).owner = token2022Id)
    (h : program.execute env (.transferFeeExtension (.initializeTransferFeeConfig authority
      withdraw points maximum)) (⟨k, signer⟩ :: rest) s = .ok s') :
    ∃ c, configAt s' k = some c ∧ c.Ordered env.epoch ⟨env.epoch, maximum, points⟩ := by
  obtain ⟨_, hproc, -⟩ := execute_ok h
  change (processInitializeTransferFeeConfig env _ _ _ _ _ s >>= fun s' => pure (s, s')) = _
    at hproc
  simp only [checks, processInitializeTransferFeeConfig, nextAccountInfo_eq_ok, List.cons.injEq]
    at hproc
  obtain ⟨_, ⟨info, _, ⟨rfl, -⟩, st, hread, _, st', hcreate, _, -, _, -, hpoints, rfl⟩, -, rfl⟩ :=
    hproc
  obtain ⟨-, hu⟩ := unpackUninitialized_eq_ok.mp hread
  have hc := create_ok ((hs k howner).newMint hread).1 hcreate
  have hpoints := UInt16.not_lt.mp hpoints
  rw [configAt_store howner, entryOf_newMint ((hu.create hc).put hc.dataAt _), config_ofConfig,
    hc.record_put, get_put_same]
  exact ⟨_, rfl, rfl, UInt64.le_refl _, le_succ _, hpoints, hpoints⟩

/-- `SetTransferFee` moves the fee in force to the older slot, and the new fee to the newer one. -/
theorem configAt_set (hs : AllSound token2022Id s) (hc : configAt s k = some c)
    (h : program.execute env (.transferFeeExtension (.setTransferFee points maximum))
      (⟨k, signer⟩ :: rest) s = .ok s') (hlast : env.epoch.toNat < 2 ^ 64 - 1) :
    points ≤ 10000 ∧ configAt s' k = some { c with
      olderTransferFee := c.getEpochFee env.epoch
      newerTransferFee := ⟨env.epoch + 1, maximum, points⟩ } := by
  obtain ⟨_, hproc, -⟩ := execute_ok h
  change (processSetTransferFee token2022Id env _ _ _ s >>= fun s' => pure (s, s')) = _ at hproc
  simp only [checks, processSetTransferFee, nextAccountInfo_eq_ok, List.cons.injEq] at hproc
  obtain ⟨_, ⟨info, _, ⟨rfl, rfl⟩, _, _, -, st, hread, i, c', hborrow, _, -, _, -, hpoints, rfl⟩,
    -, rfl⟩ := hproc
  have howner : (s k).owner = token2022Id := by
    by_contra hne
    rw [configAt, book_of_owner_ne hne] at hc
    cases hc
  have hnext : env.epoch ≠ ofNat (2 ^ 64 - 1) := by
    intro heq
    rw [heq] at hlast
    exact absurd hlast (by decide)
  obtain ⟨hp, hbook⟩ := hs.mint howner hread
  obtain ⟨hat, hget⟩ := borrow_ok hp.area hborrow
  rw [configAt, hbook, config, hget] at hc
  cases hc
  refine ⟨UInt16.not_lt.mp hpoints, ?_⟩
  rw [configAt_store howner, entryOf_mint (hp.put hat _).toValid, config, (hat.put _).2.1,
    get_put_same, if_neg hnext]
  rfl

/-- After the epoch of the last change its fee is in force. -/
theorem TransferFeeConfig.Ordered.later (h : c.Ordered e fee) {e' : UInt64} (he : e < e') :
    c.getEpochFee e' = fee := by
  have hle : fee.epoch ≤ e' := by
    have hnext := h.next
    rw [lt_iff_toNat_lt] at he
    rw [le_iff_toNat_le]
    omega
  rw [getEpochFee, h.newer, if_pos hle]

theorem TransferFeeConfig.Ordered.inForce (h : c.Ordered e fee) (e' : UInt64) :
    (c.getEpochFee e').epoch ≤ fee.epoch ∧ (c.getEpochFee e').transferFeeBasisPoints ≤ 10000 := by
  unfold getEpochFee
  split
  · rw [h.newer]
    exact ⟨UInt64.le_refl _, h.newer_points⟩
  · exact ⟨h.slots, h.older_points⟩

theorem TransferFeeConfig.Ordered.set (h : c.Ordered e fee) (maximum : UInt64)
    (he : e ≤ env.epoch) (hlast : env.epoch.toNat < 2 ^ 64 - 1) (hpoints : points ≤ 10000) :
    TransferFeeConfig.Ordered { c with
      olderTransferFee := c.getEpochFee env.epoch
      newerTransferFee := ⟨env.epoch + 1, maximum, points⟩ } env.epoch
        ⟨env.epoch + 1, maximum, points⟩ := by
  obtain ⟨hslots, holder⟩ := h.inForce env.epoch
  have hsucc : (env.epoch + 1).toNat = env.epoch.toNat + 1 := by
    rw [UInt64.toNat_add, UInt64.toNat_one, mod_eq_of_lt (by omega)]
  refine ⟨rfl, le_iff_toNat_le.mpr ?_, hsucc.le, holder, hpoints⟩
  have hnext := h.next
  rw [le_iff_toNat_le] at he hslots
  change (c.getEpochFee env.epoch).epoch.toNat ≤ (env.epoch + 1).toNat
  omega

/-- Along a schedule the accounts stay sound and the slots ordered. -/
theorem Scheduled.ordered (h : Scheduled k e fee s) :
    AllSound token2022Id s ∧ ∃ c, configAt s k = some c ∧ c.Ordered e fee := by
  induction h with
  | @initialised _ _ events _ _ _ _ _ _ _ hfresh howner hexec =>
    have hs := AllSound.run hfresh events
    exact ⟨(execute_refines hs hexec).sound, configAt_initialised hs howner hexec⟩
  | set _ he hlast hexec ih =>
    obtain ⟨hs, c, hc, hordered⟩ := ih
    obtain ⟨hpoints, hc'⟩ := configAt_set hs hc hexec hlast
    exact ⟨(execute_refines hs hexec).sound, _, hc', hordered.set _ he hlast hpoints⟩
  | other _ event hother ih =>
    obtain ⟨hs, c, hc, hordered⟩ := ih
    have hkept := configAt_step hs event hother
    rw [hc, Option.map_some, Option.map_eq_some_iff] at hkept
    obtain ⟨c', hc', hslots⟩ := hkept
    obtain ⟨holder, hnewer⟩ := Prod.mk.inj hslots
    refine ⟨(step_refines hs event).sound, c', hc', hnewer.trans hordered.newer, ?_,
      hordered.next, ?_, hordered.newer_points⟩
    · rw [holder]
      exact hordered.slots
    · rw [holder]
      exact hordered.older_points

/-- **Fee changes never apply to the current epoch.** The two slots of a mint stay ordered, in
every later epoch the fee set last is in force, and whoever sets another fee leaves the fee of the
current epoch as it is. -/
theorem fee_changes_apply_later (h : Scheduled k e fee s) :
    ∃ c, configAt s k = some c ∧ c.Ordered e fee ∧ (∀ e', e < e' → c.getEpochFee e' = fee) ∧
      ∀ (env : Env) (points : UInt16) (maximum : UInt64) (signer : Bool) (rest : List AccountMeta)
        (s' : Bank), e ≤ env.epoch → env.epoch.toNat < 2 ^ 64 - 1 →
        program.execute env (.transferFeeExtension (.setTransferFee points maximum))
          (⟨k, signer⟩ :: rest) s = .ok s' →
        ∃ c', configAt s' k = some c' ∧ c'.Ordered env.epoch ⟨env.epoch + 1, maximum, points⟩ ∧
          c'.getEpochFee env.epoch = c.getEpochFee env.epoch ∧
          ∀ e', env.epoch < e' → c'.getEpochFee e' = ⟨env.epoch + 1, maximum, points⟩ := by
  obtain ⟨hs, c, hc, hordered⟩ := h.ordered
  refine ⟨c, hc, hordered, fun _ => hordered.later, ?_⟩
  intro env points maximum signer rest s' he hlast hexec
  obtain ⟨hpoints, hc'⟩ := configAt_set hs hc hexec hlast
  have hnew := hordered.set maximum he hlast hpoints
  refine ⟨_, hc', hnew, if_neg ?_, fun _ => hnew.later⟩
  rw [UInt64.not_le, UInt64.lt_iff_toNat_lt, UInt64.toNat_add, UInt64.toNat_one,
    mod_eq_of_lt (by omega)]
  omega

end Schedule

theorem execute_of_isOk {env : Env} {ix : TokenInstruction} {accounts : List AccountMeta} {s : Bank}
    (h : (program.execute env ix accounts s).isOk = true) :
    program.execute env ix accounts s = .ok (program.step s (.instruction env ix accounts)) := by
  cases hexec : program.execute env ix accounts s with
  | error => rw [hexec] at h; cases h
  | ok => rw [step, hexec]

/-- The fee of a mint is initialised at the epoch zero, and set at three and at seven. -/
def feeChanges : List (Event Env TokenInstruction) :=
  let mint : Pubkey := .replicate 1
  let authority : Pubkey := .replicate 4
  [.enter mint 278,
    .instruction plainEnv (.transferFeeExtension (.initializeTransferFeeConfig (some authority)
      none 1000 100)) [⟨mint, false⟩],
    .instruction plainEnv (.initializeMint2 0 authority none) [⟨mint, false⟩],
    .instruction { plainEnv with epoch := 3 } (.transferFeeExtension (.setTransferFee 500 50))
      [⟨mint, false⟩, ⟨authority, true⟩],
    .instruction { plainEnv with epoch := 7 } (.transferFeeExtension (.setTransferFee 200 20))
      [⟨mint, false⟩, ⟨authority, true⟩]]

/-- After the change at the epoch seven the fee set at three is still in force, and from eight on
the new one. -/
theorem fee_changes_apply_later_set :
    ∃ c, configAt (program.run emptyBank feeChanges) (.replicate 1) = some c ∧
      c.getEpochFee 7 = ⟨4, 50, 500⟩ ∧ c.getEpochFee 8 = ⟨8, 20, 200⟩ := by
  have howner : (program.run emptyBank [.enter (.replicate 1) 278] (.replicate 1)).owner =
      token2022Id := by decide +kernel
  have hexec : program.execute plainEnv (.transferFeeExtension (.initializeTransferFeeConfig
      (some (.replicate 4)) none 1000 100)) [⟨.replicate 1, false⟩]
      (program.run emptyBank [.enter (.replicate 1) 278]) = .ok _ :=
    execute_of_isOk (by decide +kernel)
  have hdraft := Scheduled.initialised program.fresh_emptyBank howner hexec
  simp only [run, List.foldl_cons, List.foldl_nil] at hdraft
  have hmint := hdraft.other (.instruction plainEnv (.initializeMint2 0 (.replicate 4) none)
    [⟨.replicate 1, false⟩]) fun _ _ _ _ hevent _ => by
      cases hevent
      simp [requestOf]
  have hexec' : program.execute { plainEnv with epoch := 3 } (.transferFeeExtension
      (.setTransferFee 500 50)) [⟨.replicate 1, false⟩, ⟨.replicate 4, true⟩]
      (program.run emptyBank (feeChanges.take 3)) = .ok _ := execute_of_isOk (by decide +kernel)
  simp only [run, feeChanges, List.take_succ_cons, List.take_zero, List.foldl_cons,
    List.foldl_nil] at hexec'
  obtain ⟨c, -, -, hlater, hnext⟩ :=
    fee_changes_apply_later (hmint.set (by decide) (by decide) hexec')
  obtain ⟨c', hc', -, hkept, hlater'⟩ := hnext { plainEnv with epoch := 7 } 200 20 false
    [⟨.replicate 4, true⟩] _ (by decide) (by decide) (execute_of_isOk (by decide +kernel))
  simp only [run, feeChanges, List.foldl_cons, List.foldl_nil]
  exact ⟨c', hc', hkept.trans (hlater 7 (by decide)), hlater' 8 (by decide)⟩

end SolanaPrograms.Token2022
