import SolanaPrograms.Lib.Run
import SolanaPrograms.NameService.Processor

/-!
# Who can change a name record

`Change` lists what an instruction can do to one account: nothing, or one of the four instructions
was for this account and was signed as it has to be. The class and the parent of a record are part
of its address, so that they stay the same even if a record without an owner is created again.
-/

namespace SolanaPrograms.NameService

open Function Outcome Bytes SolanaPrograms.Runtime NameRecordHeader Program Except List Bank Pubkey

/-! ## Records and signatures -/

/-- The header of a record: an account of the name service that is long enough. -/
def record? (env : Environment) (s : Bank) (a : Pubkey) : Option NameRecordHeader :=
  if (s a).owner = env.programId then (unpackFromSlice (s a).data).toOption
  else none

/-- The bytes behind the header. -/
def body (s : Bank) (a : Pubkey) : List UInt8 := (s a).data.drop len

/-- The account has room for this many bytes behind the header, and all of them are zero. -/
def Fresh (s : Bank) (a : Pubkey) (space : UInt32) : Prop :=
  (s a).data.length = len + space.toNat ∧ ∀ b ∈ body s a, b = 0

def SignedBy (accounts : List AccountMeta) (k : Pubkey) : Prop :=
  ∃ m ∈ accounts, m.key = k ∧ m.isSigner = true

instance (accounts : List AccountMeta) (k : Pubkey) : Decidable (SignedBy accounts k) := by
  unfold SignedBy; infer_instance

variable (s : Bank) (accounts : List AccountMeta) {seeds data : List UInt8}

def SignedByOwnerOf (parent : Pubkey) : Prop :=
  ∃ h, unpackFromSlice (s parent).data = .ok h ∧ SignedBy accounts h.owner

def SignedByOwner (h : NameRecordHeader) : Prop :=
  SignedBy accounts h.owner ∨ h.parentName ≠ defaultKey ∧ SignedByOwnerOf s accounts h.parentName

theorem record?_eq_some {env : Environment} {s : Bank} {a : Pubkey} {h : NameRecordHeader} :
    record? env s a = some h ↔
      (s a).owner = env.programId ∧ unpackFromSlice (s a).data = .ok h := by
  unfold record?
  split_ifs with howner
  · simp only [howner, true_and]
    cases unpackFromSlice (s a).data <;> simp [Except.toOption]
  · simp [howner]

/-! ## What an instruction does to an account -/

structure Creates (env : Environment) (instruction : NameRegistryInstruction)
    (accounts : List AccountMeta) (a nameClass parent : Pubkey) (seeds : List UInt8) : Prop where
  account : ∃ m, accounts[2]? = some m ∧ m.key = a
  classAccount : ∃ m, accounts[4]? = some m ∧ m.key = nameClass
  parentAccount : ∃ m, accounts[5]? = some m ∧ m.key = parent
  call : ∃ hashedName lamports space, instruction = .create hashedName lamports space ∧
    env.getSeedsAndKey hashedName (some nameClass) (some parent) = .ok (a, seeds)

inductive Change (env : Environment) (s : Bank) (a : Pubkey) (instruction : NameRegistryInstruction)
    (accounts : List AccountMeta) (s' : Bank) : Prop
  | kept (howner : (s' a).owner = (s a).owner) (hdata : (s' a).data = (s a).data)
  | created {nameClass parent owner : Pubkey} {seeds : List UInt8}
      (hcreates : Creates env instruction accounts a nameClass parent seeds)
      (hclass : nameClass ≠ defaultKey → SignedBy accounts nameClass)
      (hparent : parent ≠ defaultKey → SignedByOwnerOf s accounts parent)
      (hpre : ∀ h, record? env s a = some h → body s' a = body s a) (howner : owner ≠ defaultKey)
      (hpost : record? env s' a = some ⟨parent, owner, nameClass⟩)
  | updated {h : NameRecordHeader} {offset : UInt32} {data : List UInt8}
      (hinstruction : instruction = .update offset data)
      (haccount : ∃ m, accounts[0]? = some m ∧ m.key = a)
      (hclass : h.classKey ≠ defaultKey → SignedBy accounts h.classKey)
      (howner : h.classKey = defaultKey → SignedByOwner s accounts h)
      (hpre : record? env s a = some h) (hpost : record? env s' a = some h)
  | transferred {h : NameRecordHeader} {newOwner : Pubkey}
      (hinstruction : instruction = .transfer newOwner)
      (haccount : ∃ m, accounts[0]? = some m ∧ m.key = a)
      (hclass : h.classKey ≠ defaultKey → SignedBy accounts h.classKey)
      (howner : SignedByOwner s accounts h) (hpre : record? env s a = some h)
      (hpost : record? env s' a = some { h with owner := newOwner })
      (hbody : body s' a = body s a)
  | deleted {h : NameRecordHeader} (hinstruction : instruction = .delete)
      (haccount : ∃ m, accounts[0]? = some m ∧ m.key = a) (howner : SignedBy accounts h.owner)
      (hpre : record? env s a = some h) (hpost : ∀ b ∈ (s' a).data, b = 0)

section Handlers

variable {env : Environment} {s base s' : Bank} {accounts : List AccountMeta} {a k : Pubkey}
  {instruction : NameRegistryInstruction}

theorem Change.of_kept (h : Kept s s' a) : Change env s a instruction accounts s' := .kept h.1 h.2

/-- One account is written, which belongs to the program or stays as it is. -/
theorem Change.of_write {d : List UInt8} (hresp : Respects env.programId (s k) (s.setData k d k))
    (howned : (s k).owner = env.programId →
      Change env s k instruction accounts (s.setData k d)) (a : Pubkey) :
    Change env s a instruction accounts (s.setData k d) := by
  by_cases ha : a = k
  · subst ha
    rcases hresp.owned_or_same with howner | ⟨-, hsame⟩
    · exact howned howner
    · rw [hsame]
      exact .kept rfl rfl
  · exact .of_kept (.of_eq (setData_of_ne s ha d))

variable (hsystem : (s defaultKey).data.length < len)
include hsystem

theorem signedByOwner_of_isParentOwner {h : NameRecordHeader} {parentName : Option AccountMeta}
    {signer : Pubkey} {b : Bool}
    (hok : isParentOwner s h parentName signer = .ok b) (hsigned : SignedBy accounts signer)
    (howner : h.owner ≠ signer → b = true) : SignedByOwner s accounts h := by
  by_cases hown : h.owner = signer
  · exact .inl (hown ▸ hsigned)
  rw [howner hown] at hok
  cases parentName with
  | none => cases hok
  | some =>
    simp only [isParentOwner, checks, ne_eq, not_not, decide_eq_true_eq] at hok
    obtain ⟨hkey, ph, hph, rfl⟩ := hok
    rw [← hkey] at hph
    refine .inr ⟨fun hdefault => ?_, ph, hph, hsigned⟩
    rw [hdefault] at hph
    have hlen := (unpackFromSlice_eq_ok.mp hph).1
    exact absurd hlen (not_le.mpr hsystem)

theorem processUpdate_change {offset : UInt32}
    (h : processUpdate accounts offset data s = .ok (base, s'))
    (hresp : AllRespect env.programId accounts base s') (a : Pubkey) :
    Change env s a (.update offset data) accounts s' := by
  unfold processUpdate at h
  split at h
  next nameAccount signer rest =>
    simp only [checks, not_and, not_not, ne_eq, Bool.not_eq_false] at h
    obtain ⟨header, hheader, _, hparent, hsigned, hclass, howner, _, hd, rfl, rfl⟩ := h
    have hsigner : SignedBy (nameAccount :: signer :: rest) signer.key :=
      ⟨signer, by simp, rfl, hsigned⟩
    refine .of_write (hresp nameAccount (by simp)) (fun howned => ?_) a
    refine .updated rfl ⟨nameAccount, rfl, rfl⟩ (fun hc => hclass hc ▸ hsigner)
      (fun hc => signedByOwner_of_isParentOwner hsystem hparent hsigner fun hown =>
        howner hc hown.symm) (record?_eq_some.mpr ⟨howned, hheader⟩)
      (record?_eq_some.mpr ⟨by simpa using howned, ?_⟩)
    rw [writeData, failIf_bind_eq_ok, pure_eq_ok] at hd
    obtain ⟨_, rfl⟩ := hd
    obtain ⟨hle, hslice⟩ := unpackFromSlice_eq_ok.mp hheader
    rw [setData_same]
    refine unpackFromSlice_eq_ok.mpr ⟨?_, ?_⟩
    · rw [length_splice (by omega)]
      exact hle
    · rw [slice_splice_before (by omega) (by simp [len])]
      exact hslice
  next => cases h

theorem processTransfer_change {newOwner : Pubkey}
    (h : processTransfer accounts newOwner s = .ok (base, s'))
    (hresp : AllRespect env.programId accounts base s') (a : Pubkey) :
    Change env s a (.transfer newOwner) accounts s' := by
  unfold processTransfer at h
  split at h
  next nameAccount nameOwner rest =>
    simp only [checks, not_and, not_or, ne_eq, Bool.not_eq_false] at h
    obtain ⟨header, hheader, _, hparent, ⟨hsigned, howner⟩, hclass, _, hd, rfl, rfl⟩ := h
    have hsigner : SignedBy (nameAccount :: nameOwner :: rest) nameOwner.key :=
      ⟨nameOwner, by simp, rfl, hsigned⟩
    obtain ⟨hread, hbody⟩ := packIntoSlice_ok hd
    refine .of_write (hresp nameAccount (by simp)) (fun howned => ?_) a
    refine .transferred rfl ⟨nameAccount, rfl, rfl⟩ (fun hc => ?_)
      (signedByOwner_of_isParentOwner hsystem hparent hsigner howner)
      (record?_eq_some.mpr ⟨howned, hheader⟩)
      (record?_eq_some.mpr ⟨by simpa using howned, by simpa using hread⟩)
      (by simpa [body, len] using hbody)
    obtain ⟨nameClass, hmem, hkey, hs⟩ := not_not.mp (hclass hc)
    have hmem : nameClass ∈ rest := mem_of_getElem? hmem
    exact ⟨nameClass, by simp [hmem], hkey.symm, hs⟩
  next => cases h

omit hsystem

theorem processDelete_change (h : processDelete accounts s = .ok (base, s'))
    (hresp : AllRespect env.programId accounts base s') (a : Pubkey) :
    Change env s a .delete accounts s' := by
  unfold processDelete at h
  split at h
  next nameAccount nameOwner refundTarget rest =>
    simp only [checks, not_or, not_not, ne_eq, Bool.not_eq_false] at h
    obtain ⟨_, hheader, ⟨hsigned, howner⟩, d, hd, _, rfl, rfl⟩ := h
    have hdata : ∀ k, ((((s.setData nameAccount.key d).setLamports refundTarget.key
        ((s refundTarget.key).lamports + (s nameAccount.key).lamports)).setLamports
        nameAccount.key 0) k).data = (s.setData nameAccount.key d k).data := by simp
    by_cases ha : a = nameAccount.key
    · subst ha
      rcases hresp nameAccount (by simp) with howned | ⟨-, hsame, -⟩
      · refine .deleted rfl ⟨nameAccount, rfl, rfl⟩ ⟨nameOwner, by simp, howner.symm, hsigned⟩
          (record?_eq_some.mpr ⟨howned, hheader⟩) fun b hb => ?_
        rw [writeData, failIf_bind_eq_ok, pure_eq_ok] at hd
        rw [hdata, setData_same, ← hd.2] at hb
        simp only [splice, take_zero, nil_append, length_replicate, Nat.zero_add, drop_length,
          append_nil] at hb
        exact eq_of_mem_replicate hb
      · exact .kept (by simp) hsame
    · exact .kept (by simp) (by rw [hdata, setData_of_ne s ha])
  next => cases h

theorem checkVacant_ok (h : checkVacant data = .ok ()) :
    data = [] ∨ ∃ header, unpackFromSlice data = .ok header ∧
      header.owner = defaultKey := by
  unfold checkVacant at h
  split at h
  · simp only [checks, ne_eq, not_not] at h
    exact .inr h
  · next hlen => exact .inl (eq_nil_of_length_eq_zero (by omega))

theorem checkParentNameOwner_ok {parent : Pubkey} {owner : Option AccountMeta}
    (h : checkParentNameOwner s parent owner = .ok ()) (howner : ∀ m ∈ owner, m ∈ accounts)
    (hparent : parent ≠ defaultKey) : SignedByOwnerOf s accounts parent := by
  unfold checkParentNameOwner at h
  rw [if_pos hparent] at h
  simp only [checks, ne_eq, not_not, Bool.not_eq_false] at h
  obtain ⟨m, hm, hsigned, header, hheader, hkey⟩ := h
  exact ⟨header, hheader, m, howner m hm, hkey.symm, hsigned⟩

variable {lamports : UInt64} {space : UInt32}

theorem issueNameAccount_ok {payer nameAccount : Pubkey}
    (h : issueNameAccount env accounts payer nameAccount seeds lamports space s = .ok base) :
    (∀ k, k ≠ nameAccount → Kept s base k) ∧
      (((s nameAccount).data ≠ [] ∧ base = s) ∨
        ((s nameAccount).owner = systemProgramId ∧ (base nameAccount).owner = env.programId ∧
          (s nameAccount).data = [] ∧
          (base nameAccount).data = .replicate (len + space.toNat) 0)) := by
  unfold issueNameAccount at h
  split at h
  · next hlen =>
    simp only [bind_eq_ok] at h
    obtain ⟨s₁, htransfer, _, hallocate, hassign⟩ := h
    have hkept := System.transfer_kept htransfer
    obtain ⟨-, -, howner, rfl⟩ := System.allocate_ok hallocate
    cases System.assign_ok hassign
    refine ⟨fun k hk => (hkept k).trans (.of_eq ?_),
      .inr ⟨(hkept nameAccount).1 ▸ howner, by simp, eq_nil_of_length_eq_zero hlen, by simp⟩⟩
    rw [update_of_ne hk, setData_of_ne s₁ hk]
  · next hlen =>
    cases h
    exact ⟨fun k _ => ⟨rfl, rfl⟩, .inl ⟨fun hnil => hlen (by rw [hnil]; rfl), rfl⟩⟩

variable {hashedName : List UInt8}
  (h : processCreate env accounts hashedName lamports space s = .ok (base, s'))
  (hresp : AllRespect env.programId accounts base s')
include h hresp

/-- What a `Create` leaves: the new header in the name account, all else kept. -/
theorem processCreate_ok :
    ∃ nameAccount nameOwner nameClass parent : AccountMeta, ∃ seeds,
      accounts[2]? = some nameAccount ∧ accounts[4]? = some nameClass ∧
      accounts[5]? = some parent ∧
      env.getSeedsAndKey hashedName (some nameClass.key) (some parent.key) =
        .ok (nameAccount.key, seeds) ∧
      (nameClass.key ≠ defaultKey → SignedBy accounts nameClass.key) ∧
      (parent.key ≠ defaultKey → SignedByOwnerOf s accounts parent.key) ∧
      ((s nameAccount.key).data = [] ∧ Fresh s' nameAccount.key space ∨
        (∃ h, record? env s nameAccount.key = some h ∧ h.owner = defaultKey) ∧
          (s' nameAccount.key).data.length = (s nameAccount.key).data.length ∧
          body s' nameAccount.key = body s nameAccount.key) ∧
      nameOwner.key ≠ defaultKey ∧
      record? env s' nameAccount.key = some ⟨parent.key, nameOwner.key, nameClass.key⟩ ∧
      ∀ k, k ≠ nameAccount.key → Kept s s' k := by
  unfold processCreate at h
  split at h
  next system payer nameAccount nameOwner nameClass parent rest =>
    simp only [checks, not_and, not_not, ne_eq, Bool.not_eq_false] at h
    obtain ⟨key, seeds, hseeds, hkey, ⟨⟩, hvacant, hclass, ⟨⟩, hparent, howner, s₁, hissue, _, hd,
      rfl, rfl⟩ := h
    obtain ⟨hkept, hname⟩ := issueNameAccount_ok hissue
    obtain ⟨hread, hbody⟩ := packIntoSlice_ok hd
    have hlength := length_packIntoSlice hd
    -- A header with an owner is not what was there, so the account is the program's.
    have howned : (s₁ nameAccount.key).owner = env.programId := by
      rcases hname with ⟨hdata, rfl⟩ | ⟨-, howned, -⟩
      · rcases (hresp nameAccount (by simp)).owned_or_same with howned | ⟨hsame, -⟩
        · exact howned
        · rcases checkVacant_ok hvacant with hnil | ⟨header, hheader, hdefault⟩
          · exact absurd hnil hdata
          · rw [hsame, hheader] at hread
            rw [ok.inj hread] at hdefault
            exact absurd hdefault howner
      · exact howned
    refine ⟨nameAccount, nameOwner, nameClass, parent, seeds, rfl, rfl, rfl, hkey ▸ hseeds,
      fun hc => ⟨nameClass, by simp, rfl, hclass hc⟩, fun hp => ?_, ?_, howner,
      record?_eq_some.mpr ⟨by simpa using howned, by simpa using hread⟩,
      fun k hk => (hkept k hk).trans (.of_eq (setData_of_ne s₁ hk _))⟩
    · refine checkParentNameOwner_ok hparent (fun m hm => ?_) hp
      have hm : m ∈ rest := mem_of_mem_head? hm
      simp [hm]
    · simp only [Fresh, body, len, setData_same, hlength, hbody]
      rcases hname with ⟨hdata, rfl⟩ | ⟨-, -, hdata, hzero⟩
      · obtain ⟨header, hheader, hdefault⟩ := (checkVacant_ok hvacant).resolve_left hdata
        exact .inr ⟨⟨header, record?_eq_some.mpr ⟨howned, hheader⟩, hdefault⟩, rfl, rfl⟩
      · refine .inl ⟨hdata, by simp [hzero, len], fun b hb => ?_⟩
        rw [hzero] at hb
        exact eq_of_mem_replicate (mem_of_mem_drop hb)
  next => cases h

theorem processCreate_change (a : Pubkey) :
    Change env s a (.create hashedName lamports space) accounts s' := by
  obtain ⟨nameAccount, _, _, _, _, hname, hclass, hparent, hseeds, hsigned,
    hsigned', hpre, howner, hpost, hkept⟩ := processCreate_ok h hresp
  by_cases ha : a = nameAccount.key
  · subst ha
    refine .created ⟨⟨_, hname, rfl⟩, ⟨_, hclass, rfl⟩, ⟨_, hparent, rfl⟩, _, _, _, rfl, hseeds⟩
      hsigned hsigned' (fun header hheader => ?_) howner hpost
    rcases hpre with ⟨hnil, -⟩ | ⟨-, -, hbody⟩
    · have hread := (record?_eq_some.mp hheader).2
      rw [hnil] at hread
      cases hread
    · exact hbody
  · exact .of_kept (hkept a ha)

omit h hresp

theorem Creates.record {nameClass parent : Pubkey}
    (hcreates : Creates env instruction accounts a nameClass parent seeds)
    (h : (program env).execute () instruction accounts s = .ok s') :
    ∃ owner, record? env s' a = some ⟨parent, owner, nameClass⟩ := by
  obtain ⟨_, hprocess, hresp⟩ := execute_ok h
  obtain ⟨_, _, _, rfl, -⟩ := hcreates.call
  obtain ⟨_, hm₂, rfl⟩ := hcreates.account
  obtain ⟨_, hm₄, rfl⟩ := hcreates.classAccount
  obtain ⟨_, hm₅, rfl⟩ := hcreates.parentAccount
  obtain ⟨_, nameOwner, _, _, _, hname, hclass, hparent, -, -, -, -, -, hpost, -⟩ :=
    processCreate_ok hprocess hresp
  cases hm₂.symm.trans hname
  cases hm₄.symm.trans hclass
  cases hm₅.symm.trans hparent
  exact ⟨nameOwner.key, hpost⟩

/-- **Step.** What a successful instruction does to an account. -/
theorem execute_change (hsystem : (s defaultKey).data.length < len)
    (h : (program env).execute () instruction accounts s = .ok s') (a : Pubkey) :
    Change env s a instruction accounts s' := by
  obtain ⟨_, hprocess, hresp⟩ := execute_ok h
  cases instruction with
  | create => exact processCreate_change hprocess hresp a
  | update => exact processUpdate_change hsystem hprocess hresp a
  | transfer => exact processTransfer_change hsystem hprocess hresp a
  | delete => exact processDelete_change hprocess hresp a

end Handlers

/-! ## Runs -/

/-- The runtime takes an account without lamports back. -/
def Removes (s : Bank) (a : Pubkey) (e : Event) : Prop :=
  (s a).lamports = 0 ∧ (e = .chain (.reclaim a) ∨ e = .vanish a)

variable (env : Environment) (s : Bank) (a : Pubkey) (e : Event) {used : Set (List UInt8)}

def Deletes : Prop :=
  ∃ accounts h, e = .call .delete accounts ∧ (∃ m, accounts[0]? = some m ∧ m.key = a) ∧
    record? env s a = some h ∧ SignedBy accounts h.owner ∧
    ((program env).execute () .delete accounts s).isOk = true

def CreatesSigned : Prop :=
  ∃ instruction accounts nameClass parent seeds, e = .call instruction accounts ∧
    Creates env instruction accounts a nameClass parent seeds ∧
    (nameClass ≠ defaultKey → SignedBy accounts nameClass) ∧
    (parent ≠ defaultKey → SignedByOwnerOf s accounts parent)

def TransfersSigned : Prop :=
  ∃ newOwner accounts h, e = .call (.transfer newOwner) accounts ∧
    (∃ m, accounts[0]? = some m ∧ m.key = a) ∧ record? env s a = some h ∧
    SignedByOwner s accounts h ∧ (h.classKey ≠ defaultKey → SignedBy accounts h.classKey)

/-- An `Update` of the record at `a`, signed by the class if it is set, and otherwise by the owner or
the owner of the parent. -/
def UpdatesSigned : Prop :=
  ∃ offset data accounts h, e = .call (.update offset data) accounts ∧
    (∃ m, accounts[0]? = some m ∧ m.key = a) ∧ record? env s a = some h ∧
    (h.classKey ≠ defaultKey → SignedBy accounts h.classKey) ∧
    (h.classKey = defaultKey → SignedByOwner s accounts h)

def Event.seeds? (env : Environment) : Event → Option (List UInt8)
  | .chain (.instruction _ (.create hashedName _ _) accounts) => do
    let nameClass ← accounts[4]?
    let parent ← accounts[5]?
    let (_, seeds) ← (env.getSeedsAndKey hashedName (some nameClass.key)
      (some parent.key)).toOption
    return seeds
  | _ => none

section Runs

variable {env : Environment} {s : Bank} {a : Pubkey} {e : Event} {h h' : NameRecordHeader}

/-- **Step.** What an event does to an account: an instruction changes it, it stays, it is new and
zero-filled, or it is taken back. -/
theorem step_cases (hsystem : (s defaultKey).data.length < len) (e : Event) (a : Pubkey) :
    (∃ instruction accounts, e = .call instruction accounts ∧
      ((program env).execute () instruction accounts s).isOk = true ∧
      Change env s a instruction accounts (step env s e)) ∨
    Kept s (step env s e) a ∨
    (record? env s a = none ∧
      ∀ h, record? env (step env s e) a = some h → ∀ b ∈ (step env s e a).data, b = 0) ∨
    (Removes s a e ∧ record? env (step env s e) a = none) := by
  have hgone : ∀ {k : Pubkey}, record? env (update s k ⟨0, systemProgramId, []⟩) k = none := by
    intro k
    rw [record?, update_self, if_neg env.programId_ne.symm]
  have hone : ∀ (k : Pubkey) (x : RuntimeAccount), a = k ∨ Kept s (update s k x) a :=
    fun k x => or_iff_not_imp_left.mpr fun hk => .of_eq (update_of_ne hk x s)
  have hforeign : (s a).owner ≠ env.programId → record? env s a = none := by
    intro hne
    rw [record?, if_neg hne]
  cases e with
  | vanish k =>
    simp only [step]
    split_ifs with hlamports
    · rcases hone k _ with rfl | hkept
      · exact .inr (.inr (.inr ⟨⟨hlamports, .inr rfl⟩, hgone⟩))
      · exact .inr (.inl hkept)
    · exact .inr (.inl ⟨rfl, rfl⟩)
  | chain e =>
    cases e with
    | instruction u instruction accounts =>
      rcases (program env).step_instruction u instruction accounts s with hok | hno
      · exact .inl ⟨instruction, accounts, rfl, by rw [hok]; rfl, execute_change hsystem hok a⟩
      · exact .inr (.inl (by simp [step, hno, Kept]))
    | enter k =>
      simp only [step, Program.step]
      split_ifs with hown
      · exact .inr (.inl ⟨rfl, rfl⟩)
      · rcases hone k _ with rfl | hkept
        · refine .inr (.inr (.inl ⟨hforeign hown, fun _ _ b hb => ?_⟩))
          rw [update_self] at hb
          exact eq_of_mem_replicate hb
        · exact .inr (.inl hkept)
    | external k =>
      simp only [step, Program.step]
      split_ifs with hown
      · exact .inr (.inl ⟨rfl, rfl⟩)
      · rcases hone k _ with rfl | hkept
        · refine .inr (.inr (.inl ⟨hforeign fun h => hown (.inl h), fun h hh => ?_⟩))
          have hpost := (record?_eq_some.mp hh).1
          rw [update_self] at hpost
          exact absurd (.inr hpost) hown
        · exact .inr (.inl hkept)
    | deposit k lamports =>
      refine .inr (.inl ?_)
      simp only [step, Program.step]
      cases checkedAdd (s k).lamports lamports <;> simp [Kept]
    | reclaim k =>
      simp only [step, Program.step]
      split_ifs with hguard
      · rcases hone k _ with rfl | hkept
        · exact .inr (.inr (.inr ⟨⟨hguard.1, .inl rfl⟩, hgone⟩))
        · exact .inr (.inl hkept)
      · exact .inr (.inl ⟨rfl, rfl⟩)

theorem record?_of_kept {s' : Bank} (howner : (s' a).owner = (s a).owner)
    (hdata : (s' a).data = (s a).data) : record? env s' a = record? env s a := by
  rw [record?, record?, howner, hdata]

/-- Who can change the owner of a record, and the bytes behind its header. -/
theorem record_step (hsystem : (s defaultKey).data.length < len)
    (hrecord : record? env (step env s e) a = some h') :
    ((∃ h, record? env s a = some h ∧ h.owner = h'.owner) ∨
      (record? env s a = none ∧ h' = .blank) ∨ CreatesSigned env s a e ∨
      TransfersSigned env s a e ∨ Deletes env s a e) ∧
    ∀ h, record? env s a = some h →
      body (step env s e) a = body s a ∨ UpdatesSigned env s a e ∨ Deletes env s a e := by
  have hkept (howner : (step env s e a).owner = (s a).owner)
      (hdata : (step env s e a).data = (s a).data) :
      record? env s a = some h' ∧ body (step env s e) a = body s a :=
    ⟨by rw [← record?_of_kept howner hdata, hrecord], by rw [body, body, hdata]⟩
  rcases step_cases hsystem e a with ⟨instruction, accounts, he, hok, hchange⟩ | ⟨howner, hdata⟩ |
    ⟨hnone, hzero⟩ | ⟨-, hgone⟩
  · cases hchange with
    | kept howner hdata =>
      exact ⟨.inl ⟨h', (hkept howner hdata).1, rfl⟩, fun _ _ => .inl (hkept howner hdata).2⟩
    | created hcreates hclass hparent hpre =>
      exact ⟨.inr (.inr (.inl ⟨_, _, _, _, _, he, hcreates, hclass, hparent⟩)),
        fun h hh => .inl (hpre h hh)⟩
    | @updated h _ _ hinstruction haccount hclass howner hpre hpost =>
      obtain rfl : h = h' := Option.some.inj (hpost.symm.trans hrecord)
      exact ⟨.inl ⟨h, hpre, rfl⟩,
        fun _ _ => .inr (.inl ⟨_, _, _, _, hinstruction ▸ he, haccount, hpre, hclass, howner⟩)⟩
    | transferred hinstruction haccount hclass howner hpre _ hbody =>
      exact ⟨.inr (.inr (.inr (.inl ⟨_, _, _, hinstruction ▸ he, haccount, hpre, howner, hclass⟩))),
        fun _ _ => .inl hbody⟩
    | deleted hinstruction haccount howner hpre =>
      subst hinstruction
      have hdeletes : Deletes env s a e := ⟨_, _, he, haccount, hpre, howner, hok⟩
      exact ⟨.inr (.inr (.inr (.inr hdeletes))), fun _ _ => .inr (.inr hdeletes)⟩
  · exact ⟨.inl ⟨h', (hkept howner hdata).1, rfl⟩, fun _ _ => .inl (hkept howner hdata).2⟩
  · have hblank := unpackFromSlice_of_zero (record?_eq_some.mp hrecord).2 (hzero h' hrecord)
    exact ⟨.inr (.inl ⟨hnone, hblank⟩), fun h hh => by simp [hnone] at hh⟩
  · rw [hgone] at hrecord
    cases hrecord

def Placed (env : Environment) (used : Set (List UInt8)) (s : Bank) (a nameClass parent : Pubkey) :
    Prop :=
  (∃ owner, record? env s a = some ⟨parent, owner, nameClass⟩) ∧
    ∃ hashedName, ∃ seeds ∈ used,
      env.getSeedsAndKey hashedName (some nameClass) (some parent) = .ok (a, seeds)

variable {nameClass parent : Pubkey}

theorem Creates.seeds?_eq {instruction : NameRegistryInstruction} {accounts : List AccountMeta}
    (h : Creates env instruction accounts a nameClass parent seeds) :
    (Event.call instruction accounts).seeds? env = some seeds := by
  obtain ⟨_, hm, rfl⟩ := h.classAccount
  obtain ⟨_, hn, rfl⟩ := h.parentAccount
  obtain ⟨_, _, _, rfl, hseeds⟩ := h.call
  simp [Event.call, Event.seeds?, hm, hn, hseeds, Except.toOption]

/-- **Step.** The class and the parent stay, also when the record is created again. -/
theorem Placed.step (hfree : env.CollisionFree used)
    (hplaced : Placed env used s a nameClass parent) (hused : ∀ seeds ∈ e.seeds? env, seeds ∈ used)
    (hsystem : (s defaultKey).data.length < len) (hremoves : ¬ Removes s a e)
    (hdeletes : ¬ Deletes env s a e) : Placed env used (step env s e) a nameClass parent := by
  obtain ⟨⟨owner, hrecord⟩, hashedName, seeds, hmem, hseeds⟩ := hplaced
  have hkeep : ∀ owner', record? env (NameService.step env s e) a = some ⟨parent, owner', nameClass⟩ →
      Placed env used (NameService.step env s e) a nameClass parent :=
    fun owner' hpost => ⟨⟨owner', hpost⟩, hashedName, seeds, hmem, hseeds⟩
  rcases step_cases hsystem e a with ⟨instruction, accounts, he, hok, hchange⟩ | ⟨howner, hdata⟩ |
    ⟨hnone, -⟩ | ⟨hgone, -⟩
  · cases hchange with
    | kept howner hdata => exact hkeep owner (by rw [record?_of_kept howner hdata, hrecord])
    | created hcreates _ _ _ _ hpost =>
      obtain ⟨_, _, _, -, hseeds'⟩ := hcreates.call
      have hmem' := hused _ (he ▸ hcreates.seeds?_eq)
      obtain ⟨-, rfl, rfl⟩ := hfree.getSeedsAndKey_inj hseeds hseeds' hmem hmem'
      exact hkeep _ hpost
    | updated _ _ _ _ hpre hpost =>
      rw [hrecord] at hpre
      cases hpre
      exact hkeep owner hpost
    | transferred _ _ _ _ hpre hpost =>
      rw [hrecord] at hpre
      cases hpre
      exact hkeep _ hpost
    | deleted hinstruction haccount howner hpre =>
      subst hinstruction
      exact absurd ⟨_, _, he, haccount, hpre, howner, hok⟩ hdeletes
  · exact hkeep owner (by rw [record?_of_kept howner hdata, hrecord])
  · rw [hrecord] at hnone
    cases hnone
  · exact absurd hgone hremoves

/-- **Run.** The class and the parent stay until the record is deleted or its account ends. -/
theorem Placed.run (hfree : env.CollisionFree used)
    (hplaced : Placed env used s a nameClass parent) {events : List Event}
    (hused : ∀ e ∈ events, ∀ seeds ∈ e.seeds? env, seeds ∈ used)
    (hrun : Along (NameService.step env) (fun s e =>
      (s defaultKey).data.length < len ∧ ¬ Removes s a e ∧ ¬ Deletes env s a e)
      s events) : Placed env used (events.foldl (NameService.step env) s) a nameClass parent := by
  induction events generalizing s with
  | nil => exact hplaced
  | cons e _ ih =>
    obtain ⟨⟨hsystem, hremoves, hdeletes⟩, hrest⟩ := hrun
    exact ih (hplaced.step hfree (hused e (by simp)) hsystem hremoves hdeletes)
      (fun e' he' => hused e' (by simp [he'])) hrest

/-- Names, classes and parents have accounts of their own. From its `Create` on, the class and the
parent of a record stay until it is deleted (or the runtime takes an account without lamports away).
Its owner changes only by a signed `Create`, `Transfer` or `Delete`, and the bytes behind its header
only by a signed `Update` or a `Delete`. -/
theorem name_authority {used : Set (List UInt8)} (hfree : env.CollisionFree used) :
    (∀ name name' nameClass nameClass' parent parent' a seeds seeds',
      env.getSeedsAndKey name (some nameClass) (some parent) = .ok (a, seeds) →
      env.getSeedsAndKey name' (some nameClass') (some parent') = .ok (a, seeds') →
      seeds ∈ used → seeds' ∈ used → name = name' ∧ nameClass = nameClass' ∧ parent = parent') ∧
    (∀ s s₁ instruction accounts a nameClass parent seeds events,
      Creates env instruction accounts a nameClass parent seeds → seeds ∈ used →
      (program env).execute () instruction accounts s = .ok s₁ →
      (∀ e ∈ events, ∀ seeds ∈ e.seeds? env, seeds ∈ used) →
      Along (step env) (fun s e => (s defaultKey).data.length < len ∧
        ¬ Removes s a e ∧ ¬ Deletes env s a e) s₁ events →
      ∃ owner, record? env (events.foldl (step env) s₁) a = some ⟨parent, owner, nameClass⟩) ∧
    ∀ s e a h', (s defaultKey).data.length < len →
      record? env (step env s e) a = some h' →
      ((∃ h, record? env s a = some h ∧ h.owner = h'.owner) ∨
        (record? env s a = none ∧ h' = .blank) ∨ CreatesSigned env s a e ∨
        TransfersSigned env s a e ∨ Deletes env s a e) ∧
      ∀ h, record? env s a = some h →
        body (step env s e) a = body s a ∨ UpdatesSigned env s a e ∨ Deletes env s a e := by
  refine ⟨fun name name' c c' p p' a seeds seeds' h h' hs hs' =>
      hfree.getSeedsAndKey_inj h h' hs hs', ?_, fun s e a h' => record_step⟩
  intro s s₁ instruction accounts a nameClass parent seeds events hcreates hmem hexec hused hrun
  obtain ⟨hashedName, _, _, -, hseeds⟩ := hcreates.call
  have hplaced : Placed env used s₁ a nameClass parent :=
    ⟨hcreates.record hexec, hashedName, seeds, hmem, hseeds⟩
  exact (hplaced.run hfree hused hrun).1

end Runs

/-! ## New names -/

def Surrenders (env : Environment) (s : Bank) : Event → Prop
  | .chain (.instruction _ (.transfer newOwner) accounts) => newOwner = defaultKey ∧
    ((program env).execute () (.transfer newOwner) accounts s).isOk = true
  | _ => False

instance (env : Environment) (s : Bank) (e : Event) : Decidable (Surrenders env s e) := by
  unfold Surrenders; split <;> infer_instance

def Event.SignedBy (k : Pubkey) : Event → Prop
  | .chain (.instruction _ _ accounts) => NameService.SignedBy accounts k
  | _ => False

instance (k : Pubkey) (e : Event) : Decidable (e.SignedBy k) := by
  unfold Event.SignedBy; split <;> infer_instance

/-- A record without an owner is zero-filled. -/
def Cleared (env : Environment) (s : Bank) : Prop :=
  ∀ a h, record? env s a = some h → h.owner = defaultKey → ∀ b ∈ (s a).data, b = 0

section Fresh

variable {env : Environment} {s s' : Bank} {e : Event}

/-- **Step.** Nobody can write into a record without an owner, and only a `Delete` takes the owner
away. -/
theorem Cleared.step (h : Cleared env s) (hsystem : (s defaultKey).data.length < len)
    (hsurrenders : ¬ Surrenders env s e) (hsigned : ¬ e.SignedBy defaultKey) :
    Cleared env (step env s e) := by
  intro a header hrecord hdefault
  rcases step_cases hsystem e a with ⟨instruction, accounts, he, hok, hchange⟩ | ⟨howner, hdata⟩ |
    ⟨-, hzero⟩ | ⟨-, hgone⟩
  · cases hchange with
    | kept howner hdata =>
      rw [hdata]
      exact h a header (record?_of_kept howner hdata ▸ hrecord) hdefault
    | created _ _ _ _ howner hpost =>
      cases hpost.symm.trans hrecord
      exact absurd hdefault howner
    | updated hinstruction _ _ howner hpre hpost =>
      cases hpost.symm.trans hrecord
      -- The record was zero-filled, so its class and parent are not set, and nobody can sign.
      have hblank := unpackFromSlice_of_zero (record?_eq_some.mp hpre).2 (h a header hpre hdefault)
      subst hblank he
      rcases howner rfl with hs | ⟨hparent, -⟩
      · exact absurd hs hsigned
      · exact absurd rfl hparent
    | transferred hinstruction _ _ _ _ hpost =>
      cases hpost.symm.trans hrecord
      subst hinstruction he
      exact absurd ⟨hdefault, hok⟩ hsurrenders
    | deleted _ _ _ _ hpost => exact hpost
  · rw [hdata]
    exact h a header (record?_of_kept howner hdata ▸ hrecord) hdefault
  · exact hzero header hrecord
  · rw [hgone] at hrecord
    cases hrecord

/-- In every run in which no name is given to the default key (and the default key, the address of
the system program, neither signs nor holds a record), a name is fresh after its `Create` if and only
if its account was empty or had the right length: what an earlier owner wrote is gone, but `Create`
does not resize the account of a deleted record. -/
theorem created_fresh_iff {events : List Event} {hashedName : List UInt8} {lamports : UInt64}
    {space : UInt32} {accounts : List AccountMeta} {m : AccountMeta}
    (hstart : ∀ a, record? env s a = none)
    (hrun : Along (step env) (fun s e => (s defaultKey).data.length < len ∧ ¬ Surrenders env s e ∧
      ¬ e.SignedBy defaultKey) s events)
    (h : (program env).execute () (.create hashedName lamports space) accounts
      (events.foldl (step env) s) = .ok s') (hm : accounts[2]? = some m) :
    Fresh s' m.key space ↔ (events.foldl (step env) s m.key).data.length = 0 ∨
      (events.foldl (step env) s m.key).data.length = len + space.toNat := by
  have hcleared : Cleared env (events.foldl (step env) s) :=
    hrun.invariant (fun s e he hs => hs.step he.1 he.2.1 he.2.2)
      fun a h hh => by simp [hstart a] at hh
  obtain ⟨_, hprocess, hresp⟩ := execute_ok h
  obtain ⟨_, _, _, _, _, hname, -, -, -, -, -, hpre, -⟩ := processCreate_ok hprocess hresp
  cases hm.symm.trans hname
  rcases hpre with ⟨hnil, hfresh⟩ | ⟨⟨header, hheader, hdefault⟩, hlength, hbody⟩
  · exact iff_of_true hfresh (.inl (by rw [hnil]; rfl))
  · have hzero := hcleared _ header hheader hdefault
    have hlong := (unpackFromSlice_eq_ok.mp (record?_eq_some.mp hheader).2).1
    rw [Fresh, hlength, hbody, or_iff_right (by omega)]
    exact and_iff_left fun b hb => hzero b (mem_of_mem_drop hb)

end Fresh

/-! ## A name to look at -/

namespace Sample

/-- The address is made of the first byte of the seeds. -/
def environment : Environment where
  programId := .replicate 9
  programId_ne := by decide
  derive := fun seeds => seeds.head?.map .replicate

/-- The user, with a hundred lamports. -/
def user : Pubkey := .replicate 7

def start : Bank := fun k => ⟨if k = user then 100 else 0, systemProgramId, []⟩

def name (n : UInt8) : Pubkey := .replicate n

def nameSeeds (n : UInt8) (nameClass parent : Pubkey) : List UInt8 :=
  n :: (nameClass.bytes ++ parent.bytes ++ [255])

def createAccounts (n : UInt8) (nameClass parent : Pubkey) : List AccountMeta :=
  [⟨systemProgramId, false⟩, ⟨user, true⟩, ⟨name n, false⟩, ⟨user, false⟩,
   ⟨nameClass, nameClass ≠ defaultKey⟩, ⟨parent, false⟩, ⟨user, true⟩]

def create (n : UInt8) (space : UInt32) : Event :=
  .call (.create [n] 10 space) (createAccounts n defaultKey defaultKey)

def classKey : Pubkey := .replicate 5

/-- The user has the name `[1]`. -/
def registered : Bank := step environment start (create 1 0)

def give : Event :=
  .call (.transfer (.replicate 8)) [⟨name 2, false⟩, ⟨user, true⟩, ⟨classKey, true⟩]

/-- The user creates the name `[1]` with room for some bytes and writes the first one. -/
def written (space : UInt32) : List Event :=
  [create 1 space, .call (.update 0 [5]) [⟨name 1, false⟩, ⟨user, true⟩]]

def surrender : List Event :=
  written 1 ++ [.call (.transfer defaultKey) [⟨name 1, false⟩, ⟨user, true⟩]]

/-- The name is deleted, but its account is still there. -/
def deleted : List Event :=
  written 3 ++ [.call .delete [⟨name 1, false⟩, ⟨user, true⟩, ⟨user, false⟩]]

def usedSeeds : Set (List UInt8) :=
  {nameSeeds 1 defaultKey defaultKey, nameSeeds 2 classKey (name 1)}

theorem collisionFree : environment.CollisionFree usedSeeds := by
  rintro _ (rfl | rfl) _ (rfl | rfl) a hn hn'
  · rfl
  · exact absurd (hn.trans hn'.symm) (by decide)
  · exact absurd (hn.trans hn'.symm) (by decide)
  · rfl

end Sample

/-- A name with a class and a parent that is given away keeps both. The owner and the class signed,
and no other name has its account. -/
theorem name_authority_given_away :
    ∃ s₁, (program Sample.environment).execute () (.create [2] 10 0)
        (Sample.createAccounts 2 Sample.classKey (Sample.name 1)) Sample.registered = .ok s₁ ∧
      Sample.environment.getSeedsAndKey [1] (some defaultKey) (some defaultKey) ≠
        .ok (Sample.name 2, Sample.nameSeeds 1 defaultKey defaultKey) ∧
      (∃ owner, record? Sample.environment (step Sample.environment s₁ Sample.give)
        (Sample.name 2) = some ⟨Sample.name 1, owner, Sample.classKey⟩) ∧
      TransfersSigned Sample.environment s₁ (Sample.name 2) Sample.give := by
  have hrun : ((program Sample.environment).execute () (.create [2] 10 0)
      (Sample.createAccounts 2 Sample.classKey (Sample.name 1)) Sample.registered).toOption.map
        (fun s => ((s defaultKey).data.length, record? Sample.environment s (Sample.name 2),
          record? Sample.environment (step Sample.environment s Sample.give) (Sample.name 2))) =
      some (0, some ⟨Sample.name 1, Sample.user, Sample.classKey⟩,
        some ⟨Sample.name 1, .replicate 8, Sample.classKey⟩) := by decide +kernel
  have hseeds : Sample.environment.getSeedsAndKey [2] (some Sample.classKey)
      (some (Sample.name 1)) = .ok (Sample.name 2, Sample.nameSeeds 2 Sample.classKey
        (Sample.name 1)) := by decide +kernel
  obtain ⟨s₁, hexec, heq⟩ := Option.map_eq_some_iff.mp hrun
  rw [toOption_eq_some] at hexec
  obtain ⟨hlen, hbefore, hafter⟩ : _ ∧ _ ∧ _ := by simpa only [Prod.mk.injEq] using heq
  obtain ⟨hapart, hkept, hsigned⟩ := name_authority Sample.collisionFree
  refine ⟨s₁, hexec, fun h => ?_, ?_, ?_⟩
  · exact absurd (hapart _ _ _ _ _ _ _ _ _ h hseeds (.inl rfl) (.inr rfl)).1 (by decide)
  · refine hkept _ s₁ _ _ _ _ _ _ [Sample.give]
      ⟨⟨_, rfl, rfl⟩, ⟨_, rfl, rfl⟩, ⟨_, rfl, rfl⟩, _, _, _, rfl, hseeds⟩ (.inr rfl) hexec ?_
      ⟨⟨by rw [hlen]; decide, ?_, ?_⟩, trivial⟩
    · intro e he seeds hs
      cases mem_singleton.mp he
      cases hs
    · rintro ⟨-, h | h⟩ <;> cases h
    · rintro ⟨accounts, header, h, -⟩
      cases h
  · rcases (hsigned s₁ Sample.give _ _ (by rw [hlen]; decide) hafter).1 with
      ⟨h, hh, howner⟩ | ⟨hnone, -⟩ | ⟨_, _, _, _, _, he, hcreates, -⟩ | htransfers | ⟨_, _, he, -⟩
    · cases hbefore.symm.trans hh
      exact absurd howner (by decide)
    · rw [hbefore] at hnone
      cases hnone
    · cases he
      obtain ⟨_, _, _, h, -⟩ := hcreates.call
      cases h
    · exact htransfers
    · cases he

/-- A name with room for three bytes is created again after it was written and deleted. -/
theorem created_fresh_iff_three :
    ∃ s, (program Sample.environment).execute () (.create [1] 10 3)
      (Sample.createAccounts 1 defaultKey defaultKey)
      (Sample.deleted.foldl (step Sample.environment) Sample.start) = .ok s ∧
      Fresh s (Sample.name 1) 3 := by
  have hok : ((program Sample.environment).execute () (.create [1] 10 3)
      (Sample.createAccounts 1 defaultKey defaultKey)
      (Sample.deleted.foldl (step Sample.environment) Sample.start)).toOption.map (fun _ => ()) =
      some () := by decide +kernel
  obtain ⟨s, hs, -⟩ := Option.map_eq_some_iff.mp hok
  rw [toOption_eq_some] at hs
  refine ⟨s, hs, (created_fresh_iff (fun a => ?_) (by decide +kernel) hs rfl).mpr
    (.inr (by decide +kernel))⟩
  exact if_neg Sample.environment.programId_ne.symm

/-- The owner writes a byte and gives the name to the default key: the byte is there when the name is
created again. -/
theorem created_again_is_not_fresh :
    ¬ ∀ (env : Environment) (s s' : Bank) (events : List Event) (hashedName : List UInt8)
      (lamports : UInt64) (space : UInt32) (accounts : List AccountMeta) (m : AccountMeta),
      (∀ a, record? env s a = none) → (program env).execute () (.create hashedName lamports space)
        accounts (events.foldl (step env) s) = .ok s' →
      accounts[2]? = some m → Fresh s' m.key space := by
  intro hfresh
  have hbody : ((program Sample.environment).execute () (.create [1] 10 1)
      (Sample.createAccounts 1 defaultKey defaultKey)
      (Sample.surrender.foldl (step Sample.environment) Sample.start)).toOption.map
        (fun s => body s (Sample.name 1)) = some [5] := by decide +kernel
  obtain ⟨s', hs', hfive⟩ := Option.map_eq_some_iff.mp hbody
  obtain ⟨-, hzero⟩ := hfresh _ Sample.start s' _ _ _ _ _ _
    (fun a => if_neg Sample.environment.programId_ne.symm) (toOption_eq_some.mp hs') rfl
  exact absurd (hzero 5 (hfive ▸ mem_singleton_self 5)) (by decide)

end SolanaPrograms.NameService
