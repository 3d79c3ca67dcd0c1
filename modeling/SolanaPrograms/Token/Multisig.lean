import SolanaPrograms.Token.Processor

/-!
# Multisignatures

`validate_owner` counts the positions of a multisignature whose keys are listed, each of them once.
Nothing compares the two numbers of a multisignature when it is created, and the number of signers
is cut to a byte before it is checked.
-/

namespace SolanaPrograms.Token

open Outcome SolanaPrograms.Runtime ProgramError List

/-! ## Counting signatures -/

section Signatures

/-- One signer marks the positions of its key that were not matched before, and each of them
counts once. -/
theorem matchPositions_eq (signer : AccountMeta) (positions : List (Pubkey × Bool)) (c : UInt8) :
    matchPositions signer positions c =
      if (signer.key, false) ∈ positions → signer.isSigner = true then
        .ok (positions.map fun p => (p.1, p.2 || decide (p.1 = signer.key)),
          c + UInt8.ofNat (positions.count (signer.key, false)))
      else .error missingRequiredSignature := by
  induction positions generalizing c with
  | nil => simp [matchPositions]
  | cons p rest ih =>
    obtain ⟨key, matched⟩ := p
    rw [matchPositions]
    by_cases h : key = signer.key ∧ matched = false
    · obtain ⟨rfl, rfl⟩ := h
      cases hsigner : signer.isSigner with
      | false => simp [failIf]
      | true => simp [failIf, hsigner, ih, UInt8.add_assoc, UInt8.add_comm]
    · have hne : (signer.key, false) ≠ (key, matched) := by simpa [eq_comm] using h
      have hmark : (matched || decide (key = signer.key)) = matched := by
        cases matched <;> simp_all
      rw [if_neg h, ih, count_cons_of_ne hne.symm, map_cons, hmark]
      simp only [mem_cons, hne, false_or]
      split <;> rfl

def SignedByKey (signers : List AccountMeta) : Prop :=
  ∀ a ∈ signers, ∀ b ∈ signers, a.key = b.key → a.isSigner = b.isSigner

variable {positions : List (Pubkey × Bool)} {signers : List AccountMeta}

theorem mem_marked {k k' : Pubkey} :
    (k', false) ∈ positions.map (fun p => (p.1, p.2 || decide (p.1 = k))) ↔
      (k', false) ∈ positions ∧ k' ≠ k := by
  simp only [mem_map, Prod.mk.injEq, Bool.or_eq_false_iff, decide_eq_false_iff_not]
  constructor
  · rintro ⟨⟨_, _⟩, hp, rfl, rfl, hk⟩
    exact ⟨hp, hk⟩
  · rintro ⟨hp, hk⟩
    exact ⟨_, hp, rfl, rfl, hk⟩

theorem count_marked (k : Pubkey) (ks : List Pubkey) (positions : List (Pubkey × Bool)) :
    positions.count (k, false) + (positions.map fun p => (p.1, p.2 || decide (p.1 = k))).countP
        (fun p => !p.2 && decide (p.1 ∈ ks)) =
      positions.countP fun p => !p.2 && decide (p.1 ∈ k :: ks) := by
  induction positions with
  | nil => rfl
  | cons p rest ih =>
    obtain ⟨key, matched⟩ := p
    simp only [count_cons, map_cons, countP_cons, ← ih]
    by_cases hk : key = k <;> cases matched <;> simp [hk] <;> omega

/-- The signers together: every position with the key of one of them counts once. -/
theorem matchSigners_eq (hsig : SignedByKey signers) (c : UInt8) :
    matchSigners signers positions c =
      if ∀ a ∈ signers, (a.key, false) ∈ positions → a.isSigner = true then
        .ok (c + UInt8.ofNat
          (positions.countP fun p => !p.2 && decide (p.1 ∈ keys signers)))
      else .error missingRequiredSignature := by
  induction signers generalizing positions c with
  | nil => simp [matchSigners, Runtime.keys]
  | cons signer signers ih =>
    have hrest : SignedByKey signers := fun a ha b hb =>
      hsig a (mem_cons_of_mem _ ha) b (mem_cons_of_mem _ hb)
    rw [matchSigners, matchPositions_eq]
    by_cases h : (signer.key, false) ∈ positions → signer.isSigner = true
    · simp only [if_pos h, ok_bind, ih hrest]
      rw [Runtime.keys_cons, ← count_marked, UInt8.ofNat_add, UInt8.add_assoc]
      refine if_congr ?_ rfl rfl
      simp only [mem_marked, forall_mem_cons]
      constructor
      · refine fun hall => ⟨h, fun a ha hpos => ?_⟩
        -- an account with the key of `signer` has the flag of `signer`
        by_cases hk : a.key = signer.key
        · rw [hsig a (mem_cons_of_mem _ ha) signer mem_cons_self hk]
          exact h (hk ▸ hpos)
        · exact hall a ha ⟨hpos, hk⟩
      · exact fun hall a ha hpos => hall.2 a ha hpos.1
    · rw [if_neg h, if_neg fun hall => h (forall_mem_cons.mp hall).1]
      rfl

variable {programId key : Pubkey} {s : Bank} {multisig : Multisig} (signer : Bool)
  (howner : (s key).owner = programId) (hread : Pack.unpack Multisig (s key).data = .ok multisig)
  (hn : multisig.n.toNat ≤ maxSigners) (hsig : SignedByKey signers)

include howner hread hn hsig

/-- A multisignature is given exactly if every listed account with one of its keys signs, and the
keys of at least `m` of its positions are listed. -/
theorem validateOwner_multisig :
    validateOwner programId s key ⟨key, signer⟩ signers =
      if (∀ a ∈ signers, a.key ∈ multisig.signers.take multisig.n.toNat → a.isSigner = true) ∧
        multisig.m.toNat ≤ (multisig.signers.take multisig.n.toNat).countP (· ∈ keys signers)
      then .ok () else .error missingRequiredSignature := by
  rw [validateOwner, failIf, if_neg (not_not_intro rfl), ok_bind,
    if_pos ⟨howner.symm, Pack.unpack_length hread⟩, hread, ok_bind, failIf,
    if_neg fun h => Nat.not_lt.mpr hn h.2, ok_bind]
  have hlen := length_take_le multisig.n.toNat multisig.signers
  generalize multisig.signers.take multisig.n.toNat = ks at hlen ⊢
  have hcount : ks.countP (· ∈ keys signers) < 2 ^ 8 := by
    have := (ks.countP_le_length (p := (· ∈ keys signers)))
    unfold maxSigners at hn
    omega
  show (matchSigners signers (ks.map (·, false)) 0 >>= _) = _
  simp only [matchSigners_eq hsig, mem_map, Prod.mk.injEq, and_true, exists_eq_right,
    countP_map, UInt8.zero_add, Function.comp_def, Bool.not_false, Bool.true_and]
  by_cases h : ∀ a ∈ signers, a.key ∈ ks → a.isSigner = true
  · rw [if_pos h, ok_bind, failIf]
    simp only [UInt8.lt_iff_toNat_lt, UInt8.toNat_ofNat_of_lt' hcount, eq_true h, true_and,
      ← Nat.not_le, ite_not]
  · rw [if_neg h, if_neg fun hall => h hall.1]
    rfl

/-- **What a multisignature needs.** Repeated keys of the multisignature count as often as they
stand in it, repeated accounts count once, and neither their order nor other accounts matter. -/
theorem multisig_counts_positions :
    (validateOwner programId s key ⟨key, signer⟩ signers = .ok () ↔
      (∀ a ∈ signers, a.key ∈ multisig.signers.take multisig.n.toNat → a.isSigner = true) ∧
        multisig.m.toNat ≤ (multisig.signers.take multisig.n.toNat).countP (· ∈ keys signers)) ∧
    ∀ signers', (∀ a, a ∈ signers' ↔ a ∈ signers) →
      validateOwner programId s key ⟨key, signer⟩ signers' =
        validateOwner programId s key ⟨key, signer⟩ signers := by
  constructor
  · rw [validateOwner_multisig signer howner hread hn hsig]
    split <;> simp_all
  · intro signers' hmem
    have hsig' : SignedByKey signers' := fun a ha b hb =>
      hsig a ((hmem a).mp ha) b ((hmem b).mp hb)
    rw [validateOwner_multisig signer howner hread hn hsig,
      validateOwner_multisig signer howner hread hn hsig']
    simp only [hmem, Runtime.keys, mem_map]

end Signatures

/-- A multisignature that has the key of ones twice. -/
def twice : Multisig where
  m := 2
  n := 2
  isInitialized := true
  signers := .replicate maxSigners (.replicate 1)
  length_signers := length_replicate

/-- One signature, given twice, counts for both positions. -/
theorem multisig_counts_positions_twice :
    let s : Bank := fun _ => ⟨0, systemProgramId, Pack.packIntoSlice twice (.replicate 355 0)⟩
    let signer : AccountMeta := ⟨.replicate 1, true⟩
    validateOwner systemProgramId s (.replicate 9) ⟨.replicate 9, false⟩ [signer, signer] =
      .ok () := by
  intro s signer
  have hread : Pack.unpack Multisig (s (.replicate 9)).data = .ok twice :=
    Pack.unpack_packIntoSlice length_replicate rfl
  exact (multisig_counts_positions false rfl hread (by decide) (by simp [SignedByKey])).1.mpr
    (by decide)

/-! ## Creating a multisignature -/

/-- The multisignature at `key` has the given signers, and they can sign with it. -/
def UsableBy (programId : Pubkey) (s : Bank) (key : Pubkey) (signers : List AccountMeta) : Prop :=
  ∃ multisig, Pack.unpack Multisig (s key).data = .ok multisig ∧
    multisig.n.toNat = signers.length ∧
    multisig.signers.take multisig.n.toNat = keys signers ∧
    ∀ signer, validateOwner programId s key ⟨key, signer⟩ ((keys signers).map (⟨·, true⟩)) = .ok ()

/-- Whoever asks for a multisignature gets an error or one that can be used. -/
def CreatesUsable (m : UInt8) (signers : List AccountMeta) : Prop :=
  ∀ (programId : Pubkey) (rent : Rent) (s : Bank) (info rentInfo : AccountMeta),
    (s info.key).owner = programId →
    ∀ result ∈ [processInitializeMultisig rent (info :: rentInfo :: signers) m s,
      processInitializeMultisig2 rent (info :: signers) m s],
    result ≠ .error .panic ∧ ∀ s', result = .ok s' → UsableBy programId s' info.key signers

section Creation

variable {m : UInt8} {signers : List AccountMeta} {s : Bank} {info : AccountMeta} {rent : Rent}

/-- What is stored can be used if no more signatures are needed than there are signers. -/
theorem usableBy_stored {programId key : Pubkey} {multisig : Multisig} (m : UInt8)
    (howner : (s key).owner = programId) (hlen : (s key).data.length = Pack.len Multisig)
    (h : (keys signers).length ≤ maxSigners) :
    UsableBy programId (s.setData key (Pack.packIntoSlice (multisig.storeSigners m
        (UInt8.ofNat signers.length) (keys signers) h) (s key).data)) key signers ↔
      m.toNat ≤ signers.length := by
  have hkeys : (keys signers).length = signers.length := length_map ..
  have hn : (UInt8.ofNat signers.length).toNat = signers.length := by
    unfold maxSigners at h
    exact UInt8.toNat_ofNat_of_lt' (show _ < 2 ^ 8 by omega)
  set stored := multisig.storeSigners m (UInt8.ofNat signers.length) (keys signers) h
  have hread : Pack.unpack Multisig
      ((s.setData key (Pack.packIntoSlice stored (s key).data)) key).data = .ok stored := by
    rw [Bank.setData_same]
    exact Pack.unpack_packIntoSlice hlen rfl
  have htake : stored.signers.take stored.n.toNat = keys signers := by
    show ((keys signers) ++ _).take (UInt8.ofNat signers.length).toNat = _
    rw [hn, ← hkeys, take_left]
  have hsigned : SignedByKey ((keys signers).map (⟨·, true⟩)) := by simp [SignedByKey]
  have hall : (keys signers).countP (· ∈ Runtime.keys ((keys signers).map (⟨·, true⟩))) =
      signers.length := by
    rw [← hkeys, countP_eq_length]
    simp [Runtime.keys]
  have hvalid := fun signer => validateOwner_multisig signer
    (by rw [Bank.setData_owner, howner]) hread (hn ▸ hkeys ▸ h) hsigned
  constructor
  · rintro ⟨_, hread', -, -, hsign⟩
    cases hread.symm.trans hread'
    have hok := hsign true
    rw [hvalid, htake, hall] at hok
    by_contra hlt
    rw [if_neg fun hand => hlt hand.2] at hok
    cases hok
  · intro hle
    refine ⟨stored, hread, hn, htake, fun signer => ?_⟩
    rw [hvalid, htake, hall, if_pos ⟨by simp, hle⟩]

/-- The numbers are those of an array of signers whenever they pass the checks made of them. -/
def FitsSigners (m : UInt8) (signers : List AccountMeta) : Prop :=
  isValidSignerIndex m.toNat → isValidSignerIndex (signers.length % 256) →
    signers.length ≤ maxSigners ∧ m.toNat ≤ signers.length

theorem avoids_unpack_multisig (data : List UInt8) :
    Avoids .panic (Pack.unpackUnchecked Multisig data) := by
  have hslice : Avoids .panic (Multisig.unpackFromSlice data) := by
    refine avoids_bind.mpr ⟨?_, fun _ _ => avoids_pure⟩
    simp [unpackBool, avoids_ite]
  exact avoids_bind.mpr ⟨by simp, fun _ _ => hslice⟩

theorem initializeMultisigWith_usable {programId : Pubkey} {it : List AccountMeta} {sysvar : Bool}
    (howner : (s info.key).owner = programId) (hfits : FitsSigners m signers)
    (hrent : Avoids .panic (readRent rent sysvar it))
    (hsigners : ∀ p, readRent rent sysvar it = .ok p → p.2 = signers) :
    initializeMultisigWith rent (info :: it) m sysvar s ≠ .error .panic ∧
      ∀ s', initializeMultisigWith rent (info :: it) m sysvar s = .ok s' →
        UsableBy programId s' info.key signers := by
  constructor
  · change Avoids _ _
    simp only [initializeMultisigWith, nextAccountInfo, ok_bind, avoids_bind, hrent, true_and,
      avoids_unpack_multisig, avoids_failIf, failIf_eq_ok, not_not, ne_eq, reduceCtorEq,
      not_false_eq_true, implies_true, forall_const]
    rintro ⟨rent', signers'⟩ hp _ - - - hn hm
    obtain rfl : signers' = signers := hsigners _ hp
    have hlen : (keys signers').length ≤ maxSigners := (length_map ..).trans_le (hfits hm hn).1
    rw [dif_pos hlen]
    refine avoids_bind.mpr ⟨avoids_bind.mpr ⟨by simp, fun _ _ => avoids_pure⟩, fun _ _ => ?_⟩
    exact avoids_pure
  · intro s' h
    simp only [initializeMultisigWith, checks, nextAccountInfo, ok_bind, not_not] at h
    obtain ⟨rent', signers', hp, multisig, -, -, -, hn, hm, h⟩ := h
    obtain rfl : signers' = signers := hsigners _ hp
    have hlen : (keys signers').length ≤ maxSigners := (length_map ..).trans_le (hfits hm hn).1
    rw [dif_pos hlen] at h
    obtain ⟨hdata, rfl⟩ := packInto_eq_ok.mp h
    exact (usableBy_stored m howner hdata hlen).mpr (hfits hm hn).2

/-- Accounts that are large enough for a multisignature, and empty. -/
def blankBank : Bank := fun _ => ⟨0, systemProgramId, replicate 355 0⟩

theorem initialize_blank (info : AccountMeta) (hm : isValidSignerIndex m.toNat)
    (hn : isValidSignerIndex (signers.length % 256)) : ∃ multisig : Multisig,
    processInitializeMultisig2 (flatRent 0) (info :: signers) m blankBank =
      if h : (keys signers).length ≤ maxSigners then
        packInto blankBank info.key
          (multisig.storeSigners m (UInt8.ofNat signers.length) (keys signers) h)
      else .error .panic := by
  have hblank : (Pack.unpackUnchecked Multisig (replicate 355 0)).toOption.map
      (·.isInitialized) = some false := by decide +kernel
  obtain ⟨multisig, hread, hinit⟩ := Option.map_eq_some_iff.mp hblank
  refine ⟨multisig, ?_⟩
  have hexempt : (flatRent 0).isExempt (blankBank info.key).lamports
      (blankBank info.key).data.length := UInt64.le_refl 0
  simp [processInitializeMultisig2, initializeMultisigWith, nextAccountInfo, readRent, failIf,
    show Pack.unpackUnchecked Multisig (blankBank info.key).data = _ from
      toOption_eq_some.mp hread, hinit, hexempt, hm, hn]

theorem fitsSigners_of_createsUsable (h : CreatesUsable m signers) : FitsSigners m signers := by
  intro hm hn
  let info : AccountMeta := ⟨.replicate 1, false⟩
  obtain ⟨hpanic, husable⟩ := h systemProgramId (flatRent 0) blankBank info info rfl _
    (mem_cons_of_mem _ mem_cons_self)
  obtain ⟨multisig, hresult⟩ := initialize_blank info hm hn
  by_cases hlen : (keys signers).length ≤ maxSigners
  · have hdata : (blankBank info.key).data.length = Pack.len Multisig := length_replicate
    rw [dif_pos hlen] at hresult
    have hstored := husable _ (hresult.trans (packInto_eq_ok.mpr ⟨hdata, rfl⟩))
    exact ⟨(length_map ..).symm.trans_le hlen, (usableBy_stored m rfl hdata hlen).mp hstored⟩
  · rw [dif_neg hlen] at hresult
    exact absurd hresult hpanic

/-- **The multisignatures that can be used.** Asking for one never panics and gives one that its
signers can use exactly if the number of signers, which is checked after it was cut to a byte, fits
the array, and no more signatures are asked for than there are signers. -/
theorem createsUsable_iff (m : UInt8) (signers : List AccountMeta) :
    CreatesUsable m signers ↔ FitsSigners m signers := by
  constructor
  · exact fitsSigners_of_createsUsable
  · intro hfits programId rent s info rentInfo howner result hresult
    simp only [mem_cons, not_mem_nil, or_false] at hresult
    rcases hresult with rfl | rfl
    · refine initializeMultisigWith_usable howner hfits ?_ ?_
      · simp [readRent, nextAccountInfo]
      · rintro ⟨_, _⟩ h
        simp only [readRent, nextAccountInfo, if_true, checks, ok_bind] at h
        exact h.2.2.symm
    · refine initializeMultisigWith_usable howner hfits avoids_ok ?_
      rintro _ ⟨⟩
      rfl

/-- Two signatures asked of one signer. -/
theorem not_createsUsable : ¬ ∀ m signers, CreatesUsable m signers := by
  intro h
  have hfits := fitsSigners_of_createsUsable (h 2 [⟨.replicate 1, false⟩])
  exact absurd (hfits (by decide) (by decide)).2 (by decide)

end Creation

end SolanaPrograms.Token
