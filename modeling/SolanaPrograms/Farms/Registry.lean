import SolanaPrograms.Farms.MainRouter
import SolanaPrograms.Lib.Run

/-!
# The registry of vaults

The RefDB is the directory of the metadata accounts: every live record names a metadata account
that holds the vault of that name, and every such account has one record. The two instructions keep
the directory and the accounts in step, as long as a caller who gives an index for a name on record
gives the index of that record, and as long as the vault without a name is not removed: the zero
bytes that are left of it are again a vault without a name.
-/

namespace SolanaPrograms.Farms

open Outcome SolanaPrograms.Runtime Storage List Except World Option
open Function (update update_of_ne update_self)

/-! ## The law -/

variable (w : World) (name : ArrayString64)

def metadata? : Option Vault :=
  match findTargetPda name with
  | .ok (.target bytes) =>
    if (w.target bytes).owner = .mainRouter then (Vault.unpack (w.target bytes).data).toOption
    else none
  | _ => none

def Holds : Prop := ∃ vault ∈ metadata? w name, vault.name = name

instance (w : World) (name : ArrayString64) : Decidable (Holds w name) := by
  unfold Holds; infer_instance

variable (slots : List Slot)

def NamedAt (i : Nat) (name : ArrayString64) : Prop :=
  ∃ slot ∈ slots[i]?, slot.Named name

instance (slots : List Slot) (i : Nat) (name : ArrayString64) :
    Decidable (NamedAt slots i name) := by
  unfold NamedAt; infer_instance

/-- A live record of the name exists. -/
def Listed (name : ArrayString64) : Prop := ∃ slot ∈ slots, slot.Named name

instance (slots : List Slot) (name : ArrayString64) : Decidable (Listed slots name) := by
  unfold Listed; infer_instance

/-- No two live records have one name. -/
def Unique : Prop :=
  ∀ i j name, NamedAt slots i name → NamedAt slots j name → i = j

/-- The directory agrees with the metadata accounts. -/
structure Consistent (w : World) : Prop where
  unique : Unique w.refdb.data.slots
  listed_iff : ∀ name, Listed w.refdb.data.slots name ↔ Holds w name
  reference : ∀ slot ∈ w.refdb.data.slots, ∀ name, slot.Named name →
    ∃ address, findTargetPda name = .ok address ∧ slot.reference = .pubkey address

/-! ## Records in a list of slots -/

variable {slots : List Slot} {name : ArrayString64} {offset : Nat} {slot : Slot} {w w' : World}
  {storage storage' : Storage} {record : Record} {account account' : Account VaultData}
  {env : Environment}

theorem listed_iff : Listed slots name ↔ ∃ i, NamedAt slots i name := by
  simp only [Listed, NamedAt, mem_iff_getElem?, mem_def]
  constructor
  · rintro ⟨slot, ⟨i, hi⟩, hnamed⟩
    exact ⟨i, slot, hi, hnamed⟩
  · rintro ⟨i, slot, hi, hnamed⟩
    exact ⟨slot, ⟨i, hi⟩, hnamed⟩

theorem namedAt_set (hfound : slots[offset]? = some slot) (slot' : Slot) (i : Nat)
    (name : ArrayString64) :
    NamedAt (slots.set offset slot') i name ↔
      (i = offset ∧ slot'.Named name) ∨ (i ≠ offset ∧ NamedAt slots i name) := by
  have hlt : offset < slots.length := (List.getElem?_eq_some_iff.mp hfound).1
  by_cases hi : i = offset
  · subst hi
    simp [NamedAt, getElem?_set_self hlt]
  · simp [NamedAt, getElem?_set_ne (.symm hi), hi]

theorem zeroFree_of_unpack {field : List UInt8} (h : unpackArrayString64 field = .ok name) :
    name.ZeroFree := by
  unfold unpackArrayString64 ArrayString64.tryFromUtf8 at h
  split at h
  next =>
    cases h
    intro b hb
    simpa using mem_takeWhile_imp hb
  next => cases h

/-- A record as `AddVault` writes it. -/
structure Entry (slot : Slot) (name : ArrayString64) : Prop where
  live : slot.counter ≠ 0
  zeroFree : name.ZeroFree
  name_eq : slot.name = nameField name
  reference : slot.reference = .pubkey (.target name.bytes)

theorem Entry.named_iff {name' : ArrayString64} (h : Entry slot name) :
    slot.Named name' ↔ name' = name := by
  have hread := unpackArrayString64_nameField h.zeroFree
  rw [Slot.Named, h.name_eq, hread]
  exact ⟨fun hn => (ok.inj hn.2).symm, fun hn => ⟨h.live, hn ▸ rfl⟩⟩

/-! ## The invariant -/

structure Full (account : Account VaultData) (name : ArrayString64) : Prop where
  short : name.bytes.length ≤ 32
  funded : 0 < account.lamports
  owner : account.owner = .mainRouter
  len : Vault.stakeLpCompoundRewardsLen ≤ account.data.len
  name_eq : account.data.name = nameField name

structure Vacant (account : Account VaultData) (name : ArrayString64) : Prop where
  name_eq : account.data.name = zeroName
  len : name = .empty → account.data.len = 0

/-- A slot is free or holds a record as `AddVault` writes it. -/
def SlotWellFormed (slot : Slot) : Prop :=
  (slot.counter = 0 ∧ slot.name = zeroName) ∨ ∃ name, Entry slot name

/-- The state of the storage by itself. -/
structure StorageWellFormed (storage : Storage) : Prop where
  counted : storage.Counted
  small : storage.dataLen < 2 ^ 32
  ready : storage.isInitialized = true ∨
    (storage.name = zeroName ∧ ∀ slot ∈ storage.slots, slot.counter = 0)
  slots : ∀ slot ∈ storage.slots, SlotWellFormed slot
  unique : Unique storage.slots

/-- The directory and the accounts are in step. -/
structure Registry (w : World) : Prop where
  storage : StorageWellFormed w.refdb.data
  target : ∀ name : ArrayString64, name.ZeroFree →
    (Listed w.refdb.data.slots name ∧ Full (w.target name.bytes) name) ∨
      (¬ Listed w.refdb.data.slots name ∧ Vacant (w.target name.bytes) name)

theorem metadata?_eq (h : name.bytes.length ≤ 32) :
    metadata? w name = if (w.target name.bytes).owner = .mainRouter then
      (Vault.unpack (w.target name.bytes).data).toOption else none := by
  simp [metadata?, findTargetPda, h]

theorem holds_iff :
    Holds w name ↔ name.bytes.length ≤ 32 ∧ (w.target name.bytes).owner = .mainRouter ∧
      Vault.stakeLpCompoundRewardsLen ≤ (w.target name.bytes).data.len ∧
      unpackArrayString64 (w.target name.bytes).data.name = .ok name := by
  by_cases hshort : name.bytes.length ≤ 32
  · rw [Holds, metadata?_eq hshort]
    split_ifs with howner
    · simp only [mem_def, toOption_eq_some, Vault.unpack_eq_ok, hshort, howner,
        true_and]
      constructor
      · rintro ⟨vault, ⟨hlen, hname, -⟩, rfl⟩
        exact ⟨hlen, hname⟩
      · rintro ⟨hlen, hname⟩
        exact ⟨{ (w.target name.bytes).data.fields with name }, ⟨hlen, hname, rfl⟩, rfl⟩
    · simp [howner]
  · simp [Holds, metadata?, findTargetPda, hshort]

theorem Full.holds (h : Full (w.target name.bytes) name) (hzero : name.ZeroFree) : Holds w name :=
  holds_iff.mpr ⟨h.short, h.owner, h.len, h.name_eq ▸ unpackArrayString64_nameField hzero⟩

theorem Vacant.not_holds (h : Vacant (w.target name.bytes) name) : ¬ Holds w name := by
  intro hholds
  obtain ⟨-, -, hlen, hname⟩ := holds_iff.mp hholds
  rw [h.name_eq, unpackArrayString64_zeroName] at hname
  have hzero := h.len (ok.inj hname).symm
  rw [hzero] at hlen
  exact absurd hlen (by decide)

/-- In step, the directory and the accounts agree. -/
theorem Registry.consistent (h : Registry w) : Consistent w := by
  refine ⟨h.storage.unique, fun name => ?_, fun slot hslot name hnamed => ?_⟩
  · by_cases hzero : name.ZeroFree
    · rcases h.target name hzero with ⟨hlisted, hfull⟩ | ⟨hnot, hvacant⟩
      · exact iff_of_true hlisted (hfull.holds hzero)
      · exact iff_of_false hnot hvacant.not_holds
    · refine iff_of_false ?_ ?_
      · rintro ⟨slot, -, hnamed⟩
        exact hzero (zeroFree_of_unpack hnamed.2)
      · exact fun hholds => hzero (zeroFree_of_unpack (holds_iff.mp hholds).2.2.2)
  · rcases h.storage.slots slot hslot with ⟨hdead, -⟩ | ⟨name', hentry⟩
    · exact absurd hdead hnamed.1
    · cases hentry.named_iff.mp hnamed
      have hlisted : Listed w.refdb.data.slots name := ⟨slot, hslot, hnamed⟩
      rcases h.target name hentry.zeroFree with ⟨-, hfull⟩ | ⟨hnot, -⟩
      · exact ⟨.target name.bytes, if_pos hfull.short, hentry.reference⟩
      · exact absurd hlisted hnot

/-! ## The storage under the two instructions -/

theorem isInitialized_eq (hname : unpackArrayString64 storage.name = .ok name)
    (hcounter : storage.counter ≠ 0) (hactive : storage.activeRecords.toNat ≤ storage.slots.length)
    : storage.isInitialized = true := by
  simp only [isInitialized, hname, Bool.and_eq_true, decide_eq_true_eq]
  exact ⟨UInt32.pos_iff_ne_zero.mpr hcounter, hactive⟩

theorem Counted.le (h : storage.Counted) : storage.activeRecords.toNat ≤ storage.slots.length := by
  rw [h]
  exact liveCount_le _

theorem name_of_isInitialized (h : storage.isInitialized = true) :
    ∃ name, unpackArrayString64 storage.name = .ok name := by
  unfold isInitialized at h
  split at h
  next name hname => exact ⟨name, hname⟩
  next => cases h

variable (h : ∀ slot ∈ slots, slot.counter = 0)
include h

theorem not_listed_of_dead (name : ArrayString64) : ¬ Listed slots name := by
  rintro ⟨slot, hslot, hnamed⟩
  exact hnamed.1 (h slot hslot)

theorem unique_of_dead : Unique slots :=
  fun i _ name hi => absurd (listed_iff.mpr ⟨i, hi⟩) (not_listed_of_dead h name)

theorem liveCount_of_dead : liveCount slots = 0 :=
  countP_eq_zero.mpr fun slot hslot => by simp [h slot hslot]

omit h

theorem StorageWellFormed.of_free (hactive : storage.activeRecords = 0)
    (hsmall : storage.dataLen < 2 ^ 32)
    (hfree : ∀ slot ∈ storage.slots, slot.counter = 0 ∧ slot.name = zeroName)
    (hready : storage.isInitialized = true ∨ storage.name = zeroName) :
    StorageWellFormed storage := by
  have hdead := fun slot hslot => (hfree slot hslot).1
  refine ⟨?_, hsmall, hready.imp_right fun hname => ⟨hname, hdead⟩, fun slot hslot => ?_,
    unique_of_dead hdead⟩
  · rw [Storage.Counted, liveCount_of_dead hdead, hactive]
    rfl
  · exact .inl (hfree slot hslot)

theorem SlotWellFormed.name_of_dead (h : SlotWellFormed slot) (hdead : slot.counter = 0) :
    slot.name = zeroName := by
  rcases h with ⟨-, hname⟩ | ⟨_, hentry⟩
  · exact hname
  · exact absurd hdead hentry.live

theorem initIfNeeded_ok (hs : StorageWellFormed storage) (h : initIfNeeded storage = .ok storage') :
    StorageWellFormed storage' ∧ storage'.isInitialized = true ∧
      (storage' = storage ∨ ((∀ slot ∈ storage.slots, slot.counter = 0) ∧
        ∀ slot ∈ storage'.slots, slot.counter = 0)) := by
  unfold initIfNeeded at h
  split at h
  next hinit =>
    cases h
    exact ⟨hs, hinit, .inl rfl⟩
  next hinit =>
    obtain ⟨hname, hdead⟩ := hs.ready.resolve_left hinit
    obtain ⟨hcounter, hactive, hname', hlen, hslots⟩ := init_ok h
    have hfree : ∀ slot ∈ storage'.slots, slot.counter = 0 ∧ slot.name = zeroName := by
      intro slot hslot
      rcases hslots with heq | ⟨n, heq⟩
      · rw [heq] at hslot
        exact ⟨hdead slot hslot, (hs.slots slot hslot).name_of_dead (hdead slot hslot)⟩
      · rw [heq] at hslot
        rw [eq_of_mem_replicate hslot]
        exact ⟨rfl, rfl⟩
    have hready : storage'.isInitialized = true := by
      have hfield : unpackArrayString64 storage'.name = .ok vaultTypeName := by
        rw [hname', hname]
        exact unpackArrayString64_nameField (by decide)
      refine isInitialized_eq hfield (by rw [hcounter]; decide) ?_
      rw [hactive]
      exact Nat.zero_le _
    exact ⟨.of_free hactive (hlen ▸ hs.small) hfree (.inl hready), hready,
      .inr ⟨hdead, fun slot hslot => (hfree slot hslot).1⟩⟩

theorem slots_length_lt (h : storage.dataLen < 2 ^ 32) : storage.slots.length < 2 ^ 32 := by
  have hsize : 1 ≤ storage.getRecordSize := by
    unfold getRecordSize noRefLen
    omega
  have hle := Nat.le_mul_of_pos_right storage.slots.length hsize
  unfold dataLen at h
  omega

/-- Where `AddVault` may write: at the live record of the name, or, if there is none, where no
record is live. -/
theorem place_of_careful (hs : StorageWellFormed storage)
    (h : storage.Written storage' record offset slot)
    (hcareful : ∀ idx ∈ record.index, Listed storage.slots record.name →
      NamedAt storage.slots idx.toNat record.name) :
    slot.Named record.name ∨ (slot.counter = 0 ∧ ¬ Listed storage.slots record.name) := by
  have hoffset := h.offset_eq
  have hfound := h.found
  cases hindex : record.index with
  | none =>
    rw [hindex] at hoffset
    rcases findWriteOffset_ok hs.counted hoffset with ⟨s, hs, hnamed⟩ | ⟨hnone, hdead⟩
    · rw [hfound] at hs
      cases hs
      exact .inl hnamed
    · exact .inr ⟨hdead slot hfound, fun ⟨s, hs, hnamed⟩ => hnone s hs hnamed⟩
  | some idx =>
    rw [hindex] at hoffset
    cases hoffset
    by_cases hlive : slot.counter = 0
    · refine .inr ⟨hlive, fun hlisted => ?_⟩
      obtain ⟨_, hs, hnamed⟩ := hcareful idx (by rw [hindex]; rfl) hlisted
      rw [hfound] at hs
      cases hs
      exact hnamed.1 hlive
    · exact .inl (h.matching hlive (by rw [hindex]; rfl))

theorem wellFormed_set (hs : StorageWellFormed storage) {slot' : Slot} {counter active : UInt32}
    (hready : storage.isInitialized = true) (hfound : storage.slots[offset]? = some slot)
    (hcounter : counter ≠ 0) (hcounted : active.toNat = liveCount (storage.slots.set offset slot'))
    (hslot' : SlotWellFormed slot')
    (hnew : ∀ name, slot'.Named name → slot.Named name ∨ ¬ Listed storage.slots name) :
    StorageWellFormed { storage with
      counter, activeRecords := active, slots := storage.slots.set offset slot' } := by
  obtain ⟨name, hname⟩ := name_of_isInitialized hready
  have hcounted' : Storage.Counted { storage with
      counter, activeRecords := active, slots := storage.slots.set offset slot' } := hcounted
  refine ⟨hcounted', ?_, .inl (isInitialized_eq hname hcounter (Counted.le hcounted')), ?_, ?_⟩
  · have hsmall := hs.small
    simp only [dataLen, getRecordSize, length_set] at hsmall ⊢
    exact hsmall
  · intro s hmem
    rcases mem_or_eq_of_mem_set hmem with hmem | rfl
    · exact hs.slots s hmem
    · exact hslot'
  · -- a record of the new slot's name elsewhere would have been listed before
    have hother : ∀ i name, i ≠ offset → slot'.Named name → ¬ NamedAt storage.slots i name := by
      intro i name hi hnamed hat
      rcases hnew name hnamed with hold | hnot
      · exact hi (hs.unique i offset name hat ⟨slot, hfound, hold⟩)
      · exact hnot (listed_iff.mpr ⟨i, hat⟩)
    intro i j name hi hj
    replace hi := (namedAt_set hfound slot' i name).mp hi
    replace hj := (namedAt_set hfound slot' j name).mp hj
    rcases hi with ⟨rfl, hi⟩ | ⟨hne, hi⟩ <;> rcases hj with ⟨rfl, hj⟩ | ⟨hne', hj⟩
    · rfl
    · exact absurd hj (hother j name hne' hi)
    · exact absurd hi (hother i name hne hj)
    · exact hs.unique i j name hi hj

theorem entry_of_write (hslot : SlotWellFormed slot) (hzero : record.name.ZeroFree)
    (href : record.reference = .pubkey (.target record.name.bytes))
    (hplace : slot.Named record.name ∨ slot.counter = 0) (counter : UInt16) (hlive : counter ≠ 0) :
    Entry { slot.pack record with counter } record.name := by
  refine ⟨hlive, hzero, ?_, href⟩
  show packArrayString64 record.name slot.name = nameField record.name
  rcases hslot with ⟨-, hname⟩ | ⟨name, hentry⟩
  · rw [hname, nameField]
  · rcases hplace with hnamed | hdead
    · rw [hentry.name_eq, hentry.named_iff.mp hnamed, packArrayString64_nameField]
    · exact absurd hdead hentry.live

variable (hs : StorageWellFormed storage) {vault : Vault} {size : Nat}
include hs

/-- **A write of a record**, in its place: afterwards its name is listed as well. -/
theorem write_wellFormed (hready : storage.isInitialized = true) (hzero : record.name.ZeroFree)
    (href : record.reference = .pubkey (.target record.name.bytes))
    (h : storage.Written storage' record offset slot)
    (hplace : slot.Named record.name ∨ (slot.counter = 0 ∧ ¬ Listed storage.slots record.name)) :
    StorageWellFormed storage' ∧ ∀ name,
      Listed storage'.slots name ↔ name = record.name ∨ Listed storage.slots name := by
  obtain ⟨counter, hcounter, rfl⟩ := h.result
  have hfound := h.found
  have hmem : slot ∈ storage.slots := mem_of_getElem? hfound
  have hentry := entry_of_write (hs.slots slot hmem) hzero href (hplace.imp_right And.left)
    (nextRecordCounter slot.counter) (nextRecordCounter_ne_zero _)
  generalize hslot' : ({ slot.pack record with counter := nextRecordCounter slot.counter } : Slot)
    = slot' at hentry
  have hset := liveCount_set hfound slot'
  rw [if_neg hentry.live] at hset
  have hcounted : storage.activeRecords.toNat = liveCount storage.slots := hs.counted
  refine ⟨wellFormed_set hs hready hfound hcounter ?_ (.inr ⟨_, hentry⟩) ?_, fun name => ?_⟩
  · split_ifs with hdead
    · rw [if_pos hdead] at hset
      have hle := liveCount_le (storage.slots.set offset slot')
      rw [length_set] at hle
      have hlt := slots_length_lt hs.small
      rw [addActive_toNat (by omega)]
      omega
    · rw [if_neg hdead] at hset
      omega
  · intro name hnamed
    rw [hentry.named_iff.mp hnamed]
    exact hplace.imp_right And.right
  · rw [listed_iff, listed_iff]
    simp only [namedAt_set hfound, hentry.named_iff]
    constructor
    · rintro ⟨i, ⟨-, rfl⟩ | ⟨-, hi⟩⟩
      · exact .inl rfl
      · exact .inr ⟨i, hi⟩
    · rintro (rfl | ⟨i, hi⟩)
      · exact ⟨offset, .inl ⟨rfl, rfl⟩⟩
      · by_cases hio : i = offset
        · -- the slot written to held this name, or no record
          subst hio
          obtain ⟨_, hs', hnamed⟩ := hi
          rw [hfound] at hs'
          cases hs'
          rcases hplace with hold | ⟨hdead, -⟩
          · exact ⟨i, Or.inl ⟨rfl, ok.inj (hnamed.2.symm.trans hold.2)⟩⟩
          · exact absurd hdead hnamed.1
        · exact ⟨i, .inr ⟨hio, hi⟩⟩

theorem StorageWellFormed.readable :
    ∀ slot ∈ storage.slots, ∃ name, unpackArrayString64 slot.name = .ok name := by
  intro slot hslot
  rcases hs.slots slot hslot with ⟨-, hname⟩ | ⟨name, hentry⟩
  · exact ⟨.empty, hname ▸ unpackArrayString64_zeroName⟩
  · exact ⟨name, (hentry.named_iff.mpr rfl).2⟩

theorem StorageWellFormed.counter_ne_zero (h : Listed storage.slots name) :
    storage.isInitialized = true ∧ storage.counter ≠ 0 := by
  rcases hs.ready with hready | ⟨-, hdead⟩
  · refine ⟨hready, ?_⟩
    obtain ⟨_, hname⟩ := name_of_isInitialized hready
    simp only [isInitialized, hname, Bool.and_eq_true, decide_eq_true_eq] at hready
    exact UInt32.pos_iff_ne_zero.mp hready.1
  · exact absurd h (not_listed_of_dead hdead name)

/-- **A deletion by name**: afterwards the name is not listed, also where the error of the deletion
is ignored. -/
theorem deleteIfPossible_wellFormed (name : ArrayString64) :
    StorageWellFormed (deleteIfPossible storage name) ∧ ∀ name',
      Listed (deleteIfPossible storage name).slots name' ↔
        name' ≠ name ∧ Listed storage.slots name' := by
  have hunlisted : ¬ Listed storage.slots name → ∀ name', Listed storage.slots name' ↔
      name' ≠ name ∧ Listed storage.slots name' := fun hnot name' =>
    ⟨fun hl => ⟨fun heq => hnot (heq ▸ hl), hl⟩, And.right⟩
  unfold deleteIfPossible
  split
  next storage' h =>
    obtain ⟨offset, hoffset, hdeleted⟩ := delete_ok h
    have hplace := findWriteOffset_ok hs.counted hoffset
    cases hdeleted with
    | absent hself hdead =>
      subst hself
      refine ⟨hs, hunlisted ?_⟩
      rintro ⟨s, hmem, hnamed⟩
      rcases hplace with ⟨s', hs', hnamed'⟩ | ⟨hnone, -⟩
      · exact hnamed'.1 (hdead s' hs')
      · exact hnone s hmem hnamed
    | cleared slot counter hfound hnamed hcounter hself =>
      subst hself
      have hlisted : Listed storage.slots name := ⟨slot, mem_of_getElem? hfound, hnamed⟩
      have hclear : ∀ name', ¬ slot.clear.Named name' := fun _ hn => hn.1 rfl
      have hset := liveCount_set hfound slot.clear
      rw [if_neg hnamed.1, if_pos (show slot.clear.counter = 0 from rfl)] at hset
      have hcounted : storage.activeRecords.toNat = liveCount storage.slots := hs.counted
      refine ⟨wellFormed_set hs (hs.counter_ne_zero hlisted).1 hfound hcounter ?_
        (.inl ⟨rfl, rfl⟩) (fun name' hn => absurd hn (hclear name')), fun name' => ?_⟩
      · rw [removeActive_toNat]
        omega
      · rw [listed_iff, listed_iff]
        simp only [namedAt_set hfound, hclear, and_false, false_or]
        constructor
        · rintro ⟨i, hi, hat⟩
          refine ⟨?_, i, hat⟩
          rintro rfl
          exact hi (hs.unique i offset _ hat ⟨slot, hfound, hnamed⟩)
        · rintro ⟨hne, i, hat⟩
          refine ⟨i, ?_, hat⟩
          rintro rfl
          obtain ⟨_, hs', hnamed'⟩ := hat
          rw [hfound] at hs'
          cases hs'
          exact hne (ok.inj (hnamed'.2.symm.trans hnamed.2))
  next e h =>
    refine ⟨hs, hunlisted fun hlisted => ?_⟩
    have htotal : ∃ offset, storage.findWriteOffset name = .ok offset := by
      unfold findWriteOffset
      split
      · exact ⟨_, rfl⟩
      · exact findWriteLoop_total hs.readable _ _ _
    obtain ⟨_, hoffset⟩ := htotal
    rcases findWriteOffset_ok hs.counted hoffset with ⟨slot, hfound, hnamed⟩ | ⟨hnone, -⟩
    · obtain ⟨_, hok⟩ := delete_of_named hoffset hfound hnamed
        (hs.counter_ne_zero hlisted).2
      rw [hok] at h
      cases h
    · obtain ⟨s, hmem, hnamed⟩ := hlisted
      exact hnone s hmem hnamed

omit hs

/-! ## What the handlers do -/

/-- An account that `AddVault` has prepared: its data is as before, or newly allocated. -/
structure Prepared (env : Environment) (before after : Account VaultData) (size : Nat) : Prop where
  owner : after.owner = .mainRouter
  lamports : env.minimumBalance size ≤ after.lamports
  data : after.data = before.data ∨ (before.data.len = 0 ∧ after.data = .zeros size)

theorem findTargetPda_ok {address : Address} (h : findTargetPda name = .ok address) :
    name.bytes.length ≤ 32 ∧ address = .target name.bytes := by
  unfold findTargetPda at h
  split at h
  next hshort => exact ⟨hshort, (ok.inj h).symm⟩
  next => cases h

theorem allocateIfEmpty_ok (h : allocateIfEmpty account size = .ok account') :
    account'.data = account.data ∨ (account.data.len = 0 ∧ account'.data = .zeros size) := by
  unfold allocateIfEmpty at h
  split at h
  next hempty =>
    rw [failIf_bind_eq_ok, pure_eq_ok] at h
    obtain ⟨-, rfl⟩ := h
    exact .inr ⟨hempty, rfl⟩
  next =>
    cases h
    exact .inl rfl

theorem fundIfNeeded_ok {signer signer' : Account Nat}
    (h : fundIfNeeded env signer account size = .ok (signer', account')) :
    account'.data = account.data ∧ env.minimumBalance size ≤ account'.lamports := by
  unfold fundIfNeeded at h
  dsimp only at h
  split at h
  next hless =>
    simp only [checks] at h
    obtain ⟨-, -, -, rfl⟩ := h
    refine ⟨rfl, ?_⟩
    show _ ≤ account.lamports + (env.minimumBalance size - account.lamports)
    omega
  next henough =>
    cases h
    exact ⟨rfl, by omega⟩

theorem assignIfNeeded_ok (h : assignIfNeeded account = .ok account') :
    account' = { account with owner := .mainRouter } := by
  unfold assignIfNeeded at h
  split at h
  next =>
    rw [failIf_bind_eq_ok, pure_eq_ok] at h
    exact h.2.symm
  next howner =>
    cases h
    rw [← not_not.mp howner]

structure Added (env : Environment) (w w' : World) (vault : Vault) : Prop where
  short : vault.name.bytes.length ≤ 32
  effect : ∃ storage account data,
    initIfNeeded w.refdb.data = .ok storage ∧
    Prepared env (w.target vault.name.bytes) account vault.getSize ∧
    storage.write
      { index := vault.refdbIndex
        counter := vault.refdbCounter
        tag := vaultTag
        name := vault.name
        reference := .pubkey (.target vault.name.bytes) } = .ok w'.refdb.data ∧
    vault.pack account.data = .ok data ∧
    w'.target = update w.target vault.name.bytes { account with data }

theorem addVault_ok {accounts : List AccountMeta}
    (h : addVault env accounts vault w = .ok w') : Added env w w' vault := by
  unfold addVault at h
  split at h
  next =>
    simp only [checkOrInitRefdb, checkOrInitRefdbTarget, checks, ne_eq, not_not] at h
    obtain ⟨_, ⟨-, ⟨⟩, -, ⟨⟩, -, ⟨⟩, -, storage, hinit, rfl⟩, _, ⟨_, hpda, htarget,
      _, hallocate, ⟨⟩, -, _, account₂, hfund, _, hassign, rfl⟩, _,
      hwrite, data, hpack, rfl⟩ := h
    obtain ⟨hshort, haddress⟩ := findTargetPda_ok hpda
    subst haddress
    rw [← htarget] at hwrite
    cases assignIfNeeded_ok hassign
    obtain ⟨hdata, hlamports⟩ := fundIfNeeded_ok hfund
    have hallocated := allocateIfEmpty_ok hallocate
    rw [← hdata] at hallocated
    simp only [setTarget, update_self] at hpack
    exact ⟨hshort, storage, { account₂ with owner := .mainRouter }, data, hinit,
      ⟨rfl, hlamports, hallocated⟩, hwrite, hpack, by simp [setTarget]⟩
  next => cases h

structure Removed (w w' : World) (name : ArrayString64) : Prop where
  refdb : w'.refdb.data = deleteIfPossible w.refdb.data name
  target : w'.target = update w.target name.bytes
    ⟨0, .mainRouter, .zeros (w.target name.bytes).data.len⟩

theorem removeVault_ok {accounts : List AccountMeta} (h : removeVault accounts name w = .ok w') :
    Removed w w' name := by
  unfold removeVault at h
  split at h
  next =>
    simp only [checkRefdb, checkRefdbTarget, closeSystemAccount, checks] at h
    obtain ⟨⟨⟩, -, _, ⟨_, -, -, _, hassign, rfl⟩, -, _, -, rfl⟩ := h
    cases assignIfNeeded_ok hassign
    exact ⟨rfl, by simp [setTarget]⟩
  next => cases h

theorem processInstruction_ok {accounts : List AccountMeta} {instruction : MainInstruction}
    (h : processInstruction env accounts instruction w = .ok w') :
    (∃ vault, instruction = .addVault vault ∧ Added env w w' vault) ∨
      ∃ name, instruction = .removeVault name ∧ Removed w w' name := by
  unfold processInstruction at h
  split at h
  next => cases h
  next =>
    simp only [checks] at h
    obtain ⟨-, -, h⟩ := h
    split at h
    next vault => exact .inl ⟨vault, rfl, addVault_ok h⟩
    next name => exact .inr ⟨name, rfl, removeVault_ok h⟩

/-! ## Steps and runs -/

/-- **`AddVault`** keeps the directory and the accounts in step, in the right place. -/
theorem Registry.added (h : Registry w) (hadded : Added env w w' vault)
    (hzero : vault.name.ZeroFree)
    (hcareful : ∀ idx ∈ vault.refdbIndex, Listed w.refdb.data.slots vault.name →
      NamedAt w.refdb.data.slots idx.toNat vault.name) : Registry w' := by
  obtain ⟨storage, _, data, hinit, hprepared, hwrite, hpack, htarget⟩ := hadded.effect
  obtain ⟨hstorage, hready, hsame⟩ := initIfNeeded_ok h.storage hinit
  have hlisted : ∀ name, Listed storage.slots name ↔ Listed w.refdb.data.slots name := by
    intro name
    rcases hsame with rfl | ⟨hdead, hdead'⟩
    · rfl
    · exact iff_of_false (not_listed_of_dead hdead' name) (not_listed_of_dead hdead name)
  obtain ⟨_, _, hwritten⟩ := write_ok hwrite
  have hplace := place_of_careful hstorage hwritten fun idx hidx hl => by
    rcases hsame with rfl | ⟨-, hdead'⟩
    · exact hcareful idx hidx hl
    · exact absurd hl (not_listed_of_dead hdead' _)
  obtain ⟨hstorage', hlisted'⟩ := write_wellFormed hstorage hready hzero rfl hwritten hplace
  refine ⟨hstorage', fun name hname => ?_⟩
  rw [hlisted', hlisted, htarget]
  by_cases heq : name.bytes = vault.name.bytes
  · cases ArrayString64.ext heq
    rw [update_self]
    obtain ⟨hlen, hlen', hname'⟩ := Vault.pack_ok hpack
    refine .inl ⟨.inl rfl, hadded.short, ?_, hprepared.owner, hlen'.symm ▸ hlen, ?_⟩
    · exact (env.minimumBalance_pos _).trans_le hprepared.lamports
    · show data.name = _
      rw [hname']
      rcases hprepared.data with hdata | ⟨-, hdata⟩
      · rw [hdata]
        rcases h.target vault.name hzero with ⟨-, hfull⟩ | ⟨-, hvacant⟩
        · rw [hfull.name_eq, packArrayString64_nameField]
        · rw [hvacant.name_eq, nameField]
      · rw [hdata]
        rfl
  · rw [update_of_ne heq]
    have hne : name ≠ vault.name := fun hn => heq (congrArg ArrayString64.bytes hn)
    simpa [hne] using h.target name hname

/-- **`RemoveVault`** keeps the directory and the accounts in step, unless it leaves zero bytes
where the vault without a name was. -/
theorem Registry.removed (h : Registry w) (hremoved : Removed w w' name)
    (hcareful : name = .empty → ¬ Holds w name) : Registry w' := by
  obtain ⟨hstorage, hlisted⟩ := deleteIfPossible_wellFormed h.storage name
  rw [← hremoved.refdb] at hstorage hlisted
  refine ⟨hstorage, fun name' hname' => ?_⟩
  rw [hlisted, hremoved.target]
  by_cases heq : name'.bytes = name.bytes
  · cases ArrayString64.ext heq
    rw [update_self]
    refine .inr ⟨fun hl => hl.1 rfl, rfl, fun hempty => ?_⟩
    rcases h.target _ hname' with ⟨-, hfull⟩ | ⟨-, hvacant⟩
    · exact absurd (hfull.holds hname') (hcareful hempty)
    · exact hvacant.len hempty
  · rw [update_of_ne heq]
    have hne : name' ≠ name := fun hn => heq (congrArg ArrayString64.bytes hn)
    simpa [hne] using h.target name' hname'

/-- Accounts that change no more than their lamports, and do not lose them all. -/
theorem Registry.of_same (h : Registry w) (hrefdb : w'.refdb.data = w.refdb.data)
    (htarget : ∀ name, (w'.target name).data = (w.target name).data ∧
      (w'.target name).owner = (w.target name).owner ∧
      (w.target name).lamports ≤ (w'.target name).lamports) : Registry w' := by
  refine ⟨hrefdb.symm ▸ h.storage, fun name hname => ?_⟩
  obtain ⟨hdata, howner, hlamports⟩ := htarget name.bytes
  rw [hrefdb]
  rcases h.target name hname with ⟨hlisted, hfull⟩ | ⟨hnot, hvacant⟩
  · exact .inl ⟨hlisted, hfull.short, hfull.funded.trans_le hlamports, howner.trans hfull.owner,
      hdata.symm ▸ hfull.len, hdata.symm ▸ hfull.name_eq⟩
  · exact .inr ⟨hnot, hdata.symm ▸ hvacant.name_eq, hdata.symm ▸ hvacant.len⟩

theorem Registry.vanished (h : Registry w) {bytes : List UInt8}
    (hzero : (w.target bytes).lamports = 0) :
    Registry (w.setTarget bytes ⟨0, .system, .zeros 0⟩) := by
  refine ⟨h.storage, fun name hname => ?_⟩
  show _ ∧ Full (update w.target bytes _ name.bytes) name ∨
    _ ∧ Vacant (update w.target bytes _ name.bytes) name
  by_cases heq : name.bytes = bytes
  · subst heq
    rw [update_self]
    rcases h.target name hname with ⟨-, hfull⟩ | ⟨hnot, -⟩
    · exact absurd hzero hfull.funded.ne'
    · exact .inr ⟨hnot, rfl, fun _ => rfl⟩
  · rw [update_of_ne heq]
    exact h.target name hname

def Event.ZeroFree : Event → Prop
  | .instruction _ (.addVault vault) => vault.name.ZeroFree
  | .instruction _ (.removeVault name) => name.ZeroFree
  | _ => True

instance (e : Event) : Decidable e.ZeroFree := by
  unfold Event.ZeroFree; split <;> infer_instance

def Careful (w : World) : Event → Prop
  | .instruction _ (.addVault vault) => ∀ idx ∈ vault.refdbIndex,
    Listed w.refdb.data.slots vault.name → NamedAt w.refdb.data.slots idx.toNat vault.name
  | .instruction _ (.removeVault name) => name = .empty → ¬ Holds w name
  | _ => True

instance (w : World) : (e : Event) → Decidable (Careful w e)
  | .instruction _ (.addVault vault) => decidableForallMem vault.refdbIndex
  | .instruction _ (.removeVault name) =>
    inferInstanceAs (Decidable (name = .empty → ¬ Holds w name))
  | .admin _ | .gift _ _ | .vanish _ => .isTrue trivial

/-- **Step.** -/
theorem Registry.step {e : Event} (h : Registry w) (hcareful : Careful w e) (hzero : e.ZeroFree) :
    Registry (step env w e) := by
  cases e with
  | instruction =>
    simp only [Farms.step]
    split
    next w' hok =>
      rcases processInstruction_ok hok with ⟨vault, rfl, hadded⟩ | ⟨name, rfl, hremoved⟩
      · exact h.added hadded hzero hcareful
      · exact h.removed hremoved hcareful
    next => exact h
  | admin => exact h.of_same rfl fun name => ⟨rfl, rfl, le_rfl⟩
  | gift _ receiver =>
    cases receiver with
    | none => exact h.of_same rfl fun name => ⟨rfl, rfl, le_rfl⟩
    | some bytes =>
      refine h.of_same rfl fun name => ?_
      by_cases heq : name = bytes
      · subst heq
        simp [Farms.step, setTarget]
      · simp [Farms.step, setTarget, update_of_ne heq]
  | vanish =>
    simp only [Farms.step]
    split
    next hnone => exact h.vanished hnone
    next => exact h

/-- An empty Vault RefDB, new or initialized, and no metadata accounts. -/
structure Start (w : World) : Prop where
  active : w.refdb.data.activeRecords = 0
  small : w.refdb.data.dataLen ≤ 10485760
  free : ∀ slot ∈ w.refdb.data.slots, slot.counter = 0 ∧ slot.name = zeroName
  ready : w.refdb.data.isInitialized = true ∨ w.refdb.data.name = zeroName
  target : ∀ name, (w.target name).data = .zeros 0

theorem Start.registry (h : Start w) : Registry w := by
  have hdead := fun slot hslot => (h.free slot hslot).1
  refine ⟨.of_free h.active (h.small.trans_lt (by decide)) h.free h.ready, fun name _ => ?_⟩
  refine .inr ⟨not_listed_of_dead hdead name, ?_, fun _ => ?_⟩
  · rw [h.target]
    rfl
  · rw [h.target]
    rfl

/-- **The registry.** From an empty RefDB, in every run in which an index for a name on record is
the index of its record and a vault without a name is not removed, no two live records have one
name, and a name has a live record exactly if its metadata account holds a vault of that name, the
record being a reference to that account. -/
theorem registry_in_step (env : Environment) {w : World} (hstart : Start w) {events : List Event}
    (hzero : ∀ e ∈ events, e.ZeroFree) (hcareful : Along (step env) Careful w events) :
    Consistent (events.foldl (step env) w) :=
  Registry.consistent ((hcareful.and hzero).invariant
    (fun _ _ hstep h => h.step hstep.1 hstep.2) hstart.registry)

namespace Sample

/-- A rent of one lamport a byte, and one for the account. -/
def rent : Environment := ⟨fun len => len + 1, fun len => Nat.succ_pos len⟩

/-- A new RefDB account of the required size, and an admin with funds. -/
def world : World where
  admin := ⟨100000, .system, 0⟩
  refdb := ⟨100000, .mainRouter,
    ⟨0, 0, .pubkey, zeroName, .replicate 249 (.blank .pubkey), 0⟩⟩
  target := fun _ => ⟨0, .system, .zeros 0⟩

def letter (c : UInt8) (h : c ≤ 0x7F) : ArrayString64 :=
  ⟨[c], by simp, decide_eq_true h⟩

def nameA : ArrayString64 := letter 65 (by decide)

def nameB : ArrayString64 := letter 66 (by decide)

variable (name : ArrayString64)

def accounts : List AccountMeta :=
  [⟨.mainRouterAdmin, true⟩, ⟨.refdb, false⟩, ⟨.target name.bytes, false⟩]

def add (index : Option UInt32) (counter : UInt16) : Event :=
  .instruction (accounts name)
    (.addVault { VaultFields.zero with name, refdbIndex := index, refdbCounter := counter })

def remove : Event := .instruction (accounts name) (.removeVault name)

theorem start_world : Start world where
  active := rfl
  small := by decide +kernel
  free := fun slot hslot => by
    rw [eq_of_mem_replicate hslot]
    exact ⟨rfl, rfl⟩
  ready := .inr rfl
  target := fun _ => rfl

end Sample

open Sample in
/-- A vault that is added again with the index of a free slot has two records, and after its removal
one record that refers to an empty account. A vault without a name is still held after its removal,
and stays if lamports come in before the transaction ends. -/
theorem second_index_second_record :
    Start world ∧ (∀ e ∈ [add nameA none 0, add nameA (some 1) 0], e.ZeroFree) ∧
      ¬ Consistent ([add nameA none 0, add nameA (some 1) 0].foldl (step rent) world) ∧
      ¬ Consistent ([add nameA none 0, add nameA (some 1) 0, remove nameA].foldl
        (step rent) world) ∧
      ¬ Consistent ([add .empty none 0, remove .empty, .gift 600 (some []), .vanish []].foldl
        (step rent) world) := by
  refine ⟨start_world, by decide +kernel, fun h => ?_, fun h => ?_, fun h => ?_⟩
  · exact absurd (h.unique 0 1 nameA (by decide +kernel) (by decide +kernel)) (by decide)
  · exact absurd ((h.listed_iff nameA).mp (by decide +kernel)) (by decide +kernel)
  · exact absurd ((h.listed_iff .empty).mpr (by decide +kernel)) (by decide +kernel)

open Sample in
/-- Two vaults, one of them written again at its index and removed. -/
theorem registry_in_step_two_vaults :
    Consistent ([add nameA none 0, add nameA (some 0) 1, add nameB (some 5) 0,
      remove nameA].foldl (step rent) world) ∧
      Listed ([add nameA none 0, add nameA (some 0) 1, add nameB (some 5) 0,
        remove nameA].foldl (step rent) world).refdb.data.slots nameB :=
  ⟨registry_in_step rent start_world (by decide +kernel) (by decide +kernel), by decide +kernel⟩

end SolanaPrograms.Farms
