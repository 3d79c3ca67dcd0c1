import SolanaPrograms.Runtime.Account

/-!
# The on-chain reference database

A RefDB account is a header followed by records of one size. A record is live if its counter is
not zero. `Storage` is such an account cut into its fields: the fields of the header, and one
`Slot` for each whole record; an offset of the source is the number of a slot here. Names are kept
as the 64 bytes they occupy, since packing a name leaves the bytes behind it as they are.
-/

namespace SolanaPrograms.Farms

open Outcome SolanaPrograms.Runtime ProgramError List

/-! ## Names -/

def isContinuation (b : UInt8) : Bool := 0x80 ≤ b && b ≤ 0xBF

def isThreeByteStart (b c : UInt8) : Bool :=
  (b == 0xE0 && 0xA0 ≤ c && c ≤ 0xBF) || (0xE1 ≤ b && b ≤ 0xEC && isContinuation c) ||
    (b == 0xED && 0x80 ≤ c && c ≤ 0x9F) || (0xEE ≤ b && b ≤ 0xEF && isContinuation c)

def isFourByteStart (b c : UInt8) : Bool :=
  (b == 0xF0 && 0x90 ≤ c && c ≤ 0xBF) || (0xF1 ≤ b && b ≤ 0xF3 && isContinuation c) ||
    (b == 0xF4 && 0x80 ≤ c && c ≤ 0x8F)

/-- What `str::from_utf8` accepts. -/
def validUtf8 : List UInt8 → Bool
  | [] => true
  | [b] => b ≤ 0x7F
  | [b, c] => (b ≤ 0x7F && validUtf8 [c]) || (0xC2 ≤ b && b ≤ 0xDF && isContinuation c)
  | [b, c, d] =>
    (b ≤ 0x7F && validUtf8 [c, d]) ||
      (0xC2 ≤ b && b ≤ 0xDF && isContinuation c && validUtf8 [d]) ||
      (isThreeByteStart b c && isContinuation d)
  | b :: c :: d :: e :: rest =>
    (b ≤ 0x7F && validUtf8 (c :: d :: e :: rest)) ||
      (0xC2 ≤ b && b ≤ 0xDF && isContinuation c && validUtf8 (d :: e :: rest)) ||
      (isThreeByteStart b c && isContinuation d && validUtf8 (e :: rest)) ||
      (isFourByteStart b c && isContinuation d && isContinuation e && validUtf8 rest)

structure ArrayString64 where
  bytes : List UInt8
  length_le : bytes.length ≤ 64
  valid : validUtf8 bytes = true
deriving DecidableEq

namespace ArrayString64

theorem ext {a b : ArrayString64} (h : a.bytes = b.bytes) : a = b := by
  cases a; cases b; cases h; rfl

def empty : ArrayString64 := ⟨[], by decide, rfl⟩

def ZeroFree (s : ArrayString64) : Prop := ∀ b ∈ s.bytes, b ≠ 0

instance (s : ArrayString64) : Decidable s.ZeroFree := decidableBAll (fun b => b ≠ 0) s.bytes

def tryFromUtf8 (bytes : List UInt8) : Except Fault ArrayString64 :=
  if h : bytes.length ≤ 64 ∧ validUtf8 bytes = true then .ok ⟨bytes, h.1, h.2⟩
  else .error invalidAccountData

theorem tryFromUtf8_bytes (s : ArrayString64) : tryFromUtf8 s.bytes = .ok s :=
  dif_pos ⟨s.length_le, s.valid⟩

end ArrayString64

def packArrayString64 (input : ArrayString64) (output : List UInt8) : List UInt8 :=
  input.bytes ++ output.drop input.bytes.length

/-- `unpack_array_string64`: the string ends at the first zero. -/
def unpackArrayString64 (input : List UInt8) : Except Fault ArrayString64 :=
  ArrayString64.tryFromUtf8 (input.takeWhile (· ≠ 0))

def zeroName : List UInt8 := .replicate 64 0

def nameField (s : ArrayString64) : List UInt8 := packArrayString64 s zeroName

@[simp] theorem packArrayString64_nameField (s : ArrayString64) :
    packArrayString64 s (nameField s) = nameField s := by
  simp [packArrayString64, nameField]

theorem unpackArrayString64_nameField {s : ArrayString64} (h : s.ZeroFree) :
    unpackArrayString64 (nameField s) = .ok s := by
  have htake : (nameField s).takeWhile (· ≠ 0) = s.bytes := by
    rw [nameField, packArrayString64, zeroName, drop_replicate,
      takeWhile_append_of_pos fun b hb => by simpa using h b hb]
    cases 64 - s.bytes.length with
    | zero => simp
    | succ => simp [replicate_succ]
  rw [unpackArrayString64, htake, ArrayString64.tryFromUtf8_bytes]

@[simp] theorem unpackArrayString64_zeroName : unpackArrayString64 zeroName = .ok .empty := rfl

/-! ## Records -/

/-- The addresses of the main router: its admin, the Vault RefDB, the metadata accounts by the name
they are derived from, and all other keys. -/
inductive Address
  | mainRouterAdmin
  | refdb
  | target (name : List UInt8)
  | key (k : Pubkey)
deriving DecidableEq

inductive ReferenceType
  | pubkey | u8 | u16 | u32 | u64 | f64 | empty
deriving DecidableEq, Repr

def ReferenceType.getSize : ReferenceType → Nat
  | .pubkey => 32
  | .u8 => 1
  | .u16 => 2
  | .u32 => 4
  | .u64 => 8
  | .f64 => 8
  | .empty => 0

/-- `Reference`; a float by its bits. -/
inductive Reference
  | pubkey (data : Address)
  | u8 (data : UInt8)
  | u16 (data : UInt16)
  | u32 (data : UInt32)
  | u64 (data : UInt64)
  | f64 (data : UInt64)
  | empty
deriving DecidableEq

def Reference.getType : Reference → ReferenceType
  | .pubkey _ => .pubkey
  | .u8 _ => .u8
  | .u16 _ => .u16
  | .u32 _ => .u32
  | .u64 _ => .u64
  | .f64 _ => .f64
  | .empty => .empty

def ReferenceType.zero : ReferenceType → Reference
  | .pubkey => .pubkey (.key (.replicate 0))
  | .u8 => .u8 0
  | .u16 => .u16 0
  | .u32 => .u32 0
  | .u64 => .u64 0
  | .f64 => .f64 0
  | .empty => .empty

structure Record where
  index : Option UInt32
  counter : UInt16
  tag : UInt16
  name : ArrayString64
  reference : Reference
deriving DecidableEq

def noRefLen : Nat := 68

def headerLen : Nat := 73

/-- The bytes of one record. -/
structure Slot where
  counter : UInt16
  tag : UInt16
  name : List UInt8
  reference : Reference
deriving DecidableEq

namespace Slot

def blank (referenceType : ReferenceType) : Slot := ⟨0, 0, zeroName, referenceType.zero⟩

variable (slot : Slot)

def unpackCounterAndName : Except Fault (UInt16 × ArrayString64) := do
  let name ← unpackArrayString64 slot.name
  return (slot.counter, name)

def pack (record : Record) : Slot :=
  ⟨record.counter, record.tag, packArrayString64 record.name slot.name, record.reference⟩

def clear : Slot := ⟨0, 0, zeroName, slot.reference⟩

/-- The record is live and has the given name. -/
def Named (name : ArrayString64) : Prop :=
  slot.counter ≠ 0 ∧ unpackArrayString64 slot.name = .ok name

instance (slot : Slot) (name : ArrayString64) : Decidable (slot.Named name) := by
  unfold Named; infer_instance

end Slot

def nextRecordCounter (counter : UInt16) : UInt16 := if counter < 65535 then counter + 1 else 1

theorem nextRecordCounter_ne_zero (counter : UInt16) : nextRecordCounter counter ≠ 0 := by
  unfold nextRecordCounter
  split
  next h =>
    intro h0
    have hlt : counter.toNat < 65535 := UInt16.lt_iff_toNat_lt.mp h
    have hzero := congrArg UInt16.toNat h0
    simp at hzero
    omega
  next => decide

/-! ## The storage -/

/-- A RefDB account. -/
structure Storage where
  counter : UInt32
  activeRecords : UInt32
  referenceType : ReferenceType
  name : List UInt8
  slots : List Slot
  /-- The number of bytes behind the last whole record. -/
  spare : Nat
deriving DecidableEq

namespace Storage

variable (self : Storage)

def getRecordSize : Nat := noRefLen + self.referenceType.getSize

def dataLen : Nat :=
  headerLen + self.slots.length * self.getRecordSize + self.spare

/-- The records of an account that holds no live ones, for another record size. -/
def recut (referenceType : ReferenceType) : Storage :=
  let size := noRefLen + referenceType.getSize
  { self with
    referenceType
    slots := .replicate ((self.dataLen - headerLen) / size) (.blank referenceType)
    spare := (self.dataLen - headerLen) % size }

def isInitialized : Bool :=
  match unpackArrayString64 self.name with
  | .ok _ => 0 < self.counter && self.activeRecords.toNat ≤ self.slots.length
  | .error _ => false

/-- `RefDB::init`. A storage that was not in use is zero-filled behind its header, so that its
records can be cut to the new size. -/
def init (name : ArrayString64) (referenceType : ReferenceType) : Except Fault Storage := do
  failIf (self.isInitialized = true) accountAlreadyInitialized
  failIf (self.dataLen < headerLen + (noRefLen + referenceType.getSize)) accountDataTooSmall
  let self := if self.referenceType = referenceType then self else self.recut referenceType
  return { self with
    counter := 1
    activeRecords := 0
    name := packArrayString64 name self.name }

def getRecordCounterAndName (offset : Nat) : Except Fault (UInt16 × ArrayString64) := do
  let slot ← okOr self.slots[offset]? accountDataTooSmall
  slot.unpackCounterAndName

def findWriteLoop (recActive : Nat) (name : ArrayString64) :
    List Slot → Nat → Nat → Option Nat → Except Fault Nat
  | [], offset, _, freeSlot => .ok (freeSlot.getD offset)
  | slot :: rest, offset, checked, freeSlot =>
    match slot.unpackCounterAndName with
    | .error e => .error e
    | .ok (counter, recName) =>
      if 0 < counter then
        if recName = name then .ok offset
        else if checked + 1 = recActive then .ok (freeSlot.getD (offset + 1))
        else findWriteLoop recActive name rest (offset + 1) (checked + 1) freeSlot
      else findWriteLoop recActive name rest (offset + 1) checked (freeSlot.or (some offset))

variable (self : Storage)

def findWriteOffset (name : ArrayString64) : Except Fault Nat :=
  if self.activeRecords = 0 then .ok 0
  else findWriteLoop self.activeRecords.toNat name self.slots 0 0 none

/-- The index if there is one (`RefDB::get_offset`), or a search by name. An index behind the last
record fails in the read that follows, with the error of `get_offset`. -/
def writeOffset (index : Option UInt32) (name : ArrayString64) : Except Fault Nat :=
  match index with
  | some idx => .ok idx.toNat
  | none => self.findWriteOffset name

def countUpdate : Except Fault Storage := do
  failIf (self.counter = 0) uninitializedAccount
  return { self with counter := if self.counter < 4294967295 then self.counter + 1 else 1 }

def addActive : Storage :=
  if self.activeRecords < 4294967295 then
    { self with activeRecords := self.activeRecords + 1 }
  else self

def removeActive : Storage :=
  if 0 < self.activeRecords then { self with activeRecords := self.activeRecords - 1 } else self

def write (record : Record) : Except Fault Storage := do
  let offset ← self.writeOffset record.index record.name
  let (curCounter, curName) ← self.getRecordCounterAndName offset
  failIf (0 < curCounter ∧ 0 < record.counter ∧ curCounter ≠ record.counter)
    (.err (.custom 409))
  failIf (0 < curCounter ∧ record.index.isSome = true ∧ record.name ≠ curName)
    (.err (.custom 409))
  failIf (self.referenceType ≠ record.reference.getType) (.err (.custom 409))
  let self ← self.countUpdate
  let self := if curCounter = 0 then self.addActive else self
  return { self with
    slots := self.slots.modify offset fun slot =>
      { slot.pack record with counter := nextRecordCounter curCounter } }

/-- `RefDB::delete`, of a record with an empty reference: what is cleared ends before the
reference. -/
def delete (index : Option UInt32) (counter : UInt16) (name : ArrayString64) :
    Except Fault Storage := do
  let offset ← self.writeOffset index name
  let (storedCounter, storedName) ← self.getRecordCounterAndName offset
  if storedCounter = 0 then return self
  failIf (0 < counter ∧ storedCounter ≠ counter) (.err (.custom 409))
  failIf (name ≠ storedName) (.err (.custom 409))
  let self ← self.countUpdate
  let self := self.removeActive
  return { self with slots := self.slots.modify offset .clear }

def deleteWithName (name : ArrayString64) : Except Fault Storage :=
  self.delete none 0 name

/-! ## What a search finds -/

def liveCount (slots : List Slot) : Nat := slots.countP fun slot => slot.counter ≠ 0

theorem liveCount_cons (slot : Slot) (rest : List Slot) :
    liveCount (slot :: rest) = liveCount rest + if slot.counter = 0 then 0 else 1 := by
  by_cases h : slot.counter = 0 <;> simp [liveCount, h]

theorem liveCount_le (slots : List Slot) : liveCount slots ≤ slots.length :=
  countP_le_length

variable {slots : List Slot} {slot : Slot} {name : ArrayString64} {offset recActive : Nat}
  {self self' : Storage} {p : UInt16 × ArrayString64}

theorem counter_eq_zero_of_liveCount (h : liveCount slots = 0) (hslot : slot ∈ slots) :
    slot.counter = 0 := by
  simpa using countP_eq_zero.mp h slot hslot

/-- Where a record of the name is to be written: at its live record, or, if there is none, where no
record is live. -/
def Place (slots : List Slot) (name : ArrayString64) (offset : Nat) : Prop :=
  (∃ slot, slots[offset]? = some slot ∧ slot.Named name) ∨
    ((∀ slot ∈ slots, ¬ slot.Named name) ∧
      ∀ slot, slots[offset]? = some slot → slot.counter = 0)

theorem unpackCounterAndName_ok (h : slot.unpackCounterAndName = .ok p)
    : p.1 = slot.counter ∧ unpackArrayString64 slot.name = .ok p.2 := by
  simp only [Slot.unpackCounterAndName, checks] at h
  obtain ⟨_, hname, rfl⟩ := h
  exact ⟨rfl, hname⟩

/-- The loop, after `checked` live records of other names and before at least one more: it ends at
a live record of the name, or at the free slot seen before, or at a slot that is not live. -/
theorem findWriteLoop_ok {checked result : Nat} {freeSlot : Option Nat}
    (hcount : checked + liveCount slots = recActive) (hmore : checked < recActive)
    (h : findWriteLoop recActive name slots offset checked freeSlot = .ok result) :
    (∃ i slot, result = offset + i ∧ slots[i]? = some slot ∧ slot.Named name) ∨
      ((∀ slot ∈ slots, ¬ slot.Named name) ∧ (freeSlot = some result ∨
        ∃ i, result = offset + i ∧ ∀ slot, slots[i]? = some slot → slot.counter = 0)) := by
  induction slots generalizing offset checked freeSlot with
  | nil =>
    simp only [liveCount, countP_nil] at hcount
    omega
  | cons slot rest ih =>
    rw [liveCount_cons] at hcount
    rw [findWriteLoop] at h
    split at h
    next => cases h
    next counter recName hslot =>
      obtain ⟨hcounter, hname⟩ := unpackCounterAndName_ok hslot
      subst hcounter
      split at h
      next hlive =>
        have hne : slot.counter ≠ 0 := (UInt16.pos_iff_ne_zero).mp hlive
        rw [if_neg hne] at hcount
        split at h
        next heq =>
          cases h
          exact .inl ⟨0, slot, rfl, rfl, hne, heq ▸ hname⟩
        next hother =>
          have hnot : ¬ slot.Named name := fun hnamed =>
            hother (Except.ok.inj (hname.symm.trans hnamed.2))
          split at h
          next hlast =>
            -- the last live record: the rest of the storage is free
            cases h
            have hzero : liveCount rest = 0 := by omega
            have hrest : ∀ s ∈ rest, s.counter = 0 := fun _ => counter_eq_zero_of_liveCount hzero
            refine .inr ⟨?_, ?_⟩
            · intro s hs
              rcases mem_cons.mp hs with rfl | hs
              · exact hnot
              · exact fun hnamed => hnamed.1 (hrest s hs)
            · cases freeSlot with
              | some => exact .inl rfl
              | none =>
                refine .inr ⟨1, rfl, fun s hs => hrest s ?_⟩
                exact mem_of_getElem? hs
          next hlast =>
            rcases ih (by omega) (by omega) h with ⟨i, s, rfl, hs, hnamed⟩ | ⟨hnone, hfree⟩
            · exact .inl ⟨i + 1, s, by omega, by simpa using hs, hnamed⟩
            · refine .inr ⟨forall_mem_cons.mpr ⟨hnot, hnone⟩, hfree.imp_right ?_⟩
              rintro ⟨i, rfl, hi⟩
              exact ⟨i + 1, by omega, by simpa using hi⟩
      next hdead =>
        have hzero : slot.counter = 0 := by
          by_contra hne
          exact hdead ((UInt16.pos_iff_ne_zero).mpr hne)
        have hnot : ¬ slot.Named name := fun hnamed => hnamed.1 hzero
        rw [if_pos hzero] at hcount
        rcases ih (by omega) hmore h with ⟨i, s, rfl, hs, hnamed⟩ | ⟨hnone, hfree⟩
        · exact .inl ⟨i + 1, s, by omega, by simpa using hs, hnamed⟩
        · refine .inr ⟨forall_mem_cons.mpr ⟨hnot, hnone⟩, ?_⟩
          rcases hfree with hfree | ⟨i, rfl, hi⟩
          · cases freeSlot with
            | some => exact .inl hfree
            | none =>
              refine .inr ⟨0, by simpa using hfree.symm, fun s hs => ?_⟩
              cases hs
              exact hzero
          · exact .inr ⟨i + 1, by omega, by simpa using hi⟩

theorem findWriteLoop_total
    (hnames : ∀ slot ∈ slots, ∃ recName, unpackArrayString64 slot.name = .ok recName)
    (offset checked : Nat) (freeSlot : Option Nat) :
    ∃ result, findWriteLoop recActive name slots offset checked freeSlot = .ok result := by
  induction slots generalizing offset checked freeSlot with
  | nil => exact ⟨_, rfl⟩
  | cons slot _ ih =>
    obtain ⟨recName, hname⟩ := hnames slot mem_cons_self
    have hrest := ih fun s hs => hnames s (mem_cons_of_mem _ hs)
    have hread : slot.unpackCounterAndName = .ok (slot.counter, recName) := by
      rw [Slot.unpackCounterAndName, hname]
      rfl
    rw [findWriteLoop, hread]
    dsimp only
    split_ifs
    · exact ⟨_, rfl⟩
    · exact ⟨_, rfl⟩
    · exact hrest _ _ _
    · exact hrest _ _ _

def Counted (self : Storage) : Prop := self.activeRecords.toNat = liveCount self.slots

theorem findWriteOffset_ok (hcounted : self.Counted) (h : self.findWriteOffset name = .ok offset) :
    Place self.slots name offset := by
  unfold Counted at hcounted
  unfold findWriteOffset at h
  split at h
  next hzero =>
    rw [hzero] at hcounted
    have hdead : ∀ slot ∈ self.slots, slot.counter = 0 := fun _ =>
      counter_eq_zero_of_liveCount hcounted.symm
    exact .inr ⟨fun slot hslot hnamed => hnamed.1 (hdead slot hslot),
      fun slot hslot => hdead slot (mem_of_getElem? hslot)⟩
  next hactive =>
    have hpos : 0 < self.activeRecords.toNat :=
      Nat.pos_of_ne_zero fun h0 => hactive (UInt32.toNat_inj.mp h0)
    rcases findWriteLoop_ok (by omega) hpos h with ⟨i, slot, rfl, hs, hnamed⟩ | ⟨hnone, hfree⟩
    · exact .inl ⟨slot, by simpa using hs, hnamed⟩
    · rcases hfree with hfree | ⟨i, rfl, hi⟩
      · cases hfree
      · exact .inr ⟨hnone, by simpa using hi⟩

/-! ## What a write and a deletion leave -/

theorem getRecordCounterAndName_ok (h : self.getRecordCounterAndName offset = .ok p) :
    ∃ slot, self.slots[offset]? = some slot ∧ p.1 = slot.counter ∧
      unpackArrayString64 slot.name = .ok p.2 := by
  simp only [getRecordCounterAndName, okOr_bind_eq_ok] at h
  obtain ⟨slot, hslot, h⟩ := h
  exact ⟨slot, hslot, unpackCounterAndName_ok h⟩

theorem countUpdate_ok (h : self.countUpdate = .ok self') :
    ∃ counter, counter ≠ 0 ∧ self' = { self with counter } := by
  rw [countUpdate, failIf_bind_eq_ok, pure_eq_ok] at h
  obtain ⟨-, rfl⟩ := h
  refine ⟨_, ?_, rfl⟩
  split
  next hlt =>
    intro h0
    have hlt' : self.counter.toNat < 4294967295 := UInt32.lt_iff_toNat_lt.mp hlt
    have hzero := congrArg UInt32.toNat h0
    simp at hzero
    omega
  next => decide

theorem addActive_toNat (h : self.activeRecords.toNat + 1 < 2 ^ 32) :
    self.addActive.activeRecords.toNat = self.activeRecords.toNat + 1 := by
  have hlt : self.activeRecords < 4294967295 := UInt32.lt_iff_toNat_lt.mpr (by
    show _ < 4294967295
    omega)
  rw [addActive, if_pos hlt]
  show (self.activeRecords + 1).toNat = _
  rw [UInt32.toNat_add, Nat.mod_eq_of_lt (by simpa using h)]
  rfl

theorem removeActive_toNat (self : Storage) :
    self.removeActive.activeRecords.toNat = self.activeRecords.toNat - 1 := by
  unfold removeActive
  split
  next hpos =>
    have hle : 1 ≤ self.activeRecords := UInt32.le_iff_toNat_le.mpr (UInt32.lt_iff_toNat_lt.mp hpos)
    show (self.activeRecords - 1).toNat = _
    rw [UInt32.toNat_sub_of_le _ _ hle]
    rfl
  next hpos =>
    have hzero : ¬ 0 < self.activeRecords.toNat := fun h0 => hpos (UInt32.lt_iff_toNat_lt.mpr h0)
    omega

theorem modify_eq_set {α : Type} {l : List α} {i : Nat} {a : α} (h : l[i]? = some a) (f : α → α) :
    l.modify i f = l.set i (f a) := by
  apply ext_getElem?
  intro j
  rw [getElem?_modify, getElem?_set']
  by_cases hj : i = j
  · subst hj
    simp [h]
  · simp [hj]

theorem liveCount_set {i : Nat} (h : slots[i]? = some slot) (slot' : Slot) :
    liveCount (slots.set i slot') + (if slot.counter = 0 then 0 else 1) =
      liveCount slots + (if slot'.counter = 0 then 0 else 1) := by
  induction slots generalizing i with
  | nil => simp at h
  | cons _ _ ih =>
    cases i with
    | zero =>
      cases h
      simp only [set_cons_zero, liveCount_cons]
      omega
    | succ =>
      simp only [set_cons_succ, liveCount_cons]
      have hrest := ih (by simpa using h)
      omega

theorem recut_dataLen (h : headerLen ≤ self.dataLen) (referenceType : ReferenceType) :
    (self.recut referenceType).dataLen = self.dataLen := by
  have hdiv := Nat.div_add_mod (self.dataLen - headerLen) (noRefLen + referenceType.getSize)
  rw [Nat.mul_comm] at hdiv
  show headerLen + (replicate _ _).length * (noRefLen + referenceType.getSize) +
    (self.dataLen - headerLen) % (noRefLen + referenceType.getSize) = self.dataLen
  rw [length_replicate]
  omega

theorem init_ok {referenceType : ReferenceType} (h : self.init name referenceType = .ok self') :
    self'.counter = 1 ∧ self'.activeRecords = 0 ∧ self'.name = packArrayString64 name self.name ∧
      self'.dataLen = self.dataLen ∧
      (self'.slots = self.slots ∨ ∃ n, self'.slots = .replicate n (.blank referenceType)) := by
  simp only [init, checks, not_lt] at h
  obtain ⟨-, _, rfl⟩ := h
  split_ifs with htype
  · exact ⟨rfl, rfl, rfl, rfl, .inl rfl⟩
  · refine ⟨rfl, rfl, rfl, ?_, .inr ⟨_, rfl⟩⟩
    exact recut_dataLen (by omega) referenceType

/-- What a write that completes did. -/
structure Written (before after : Storage) (record : Record) (offset : Nat) (slot : Slot) :
    Prop where
  offset_eq : before.writeOffset record.index record.name = .ok offset
  found : before.slots[offset]? = some slot
  matching : slot.counter ≠ 0 → record.index.isSome = true → slot.Named record.name
  result : ∃ counter, counter ≠ 0 ∧ after = { before with
    counter
    activeRecords := (if slot.counter = 0 then before.addActive else before).activeRecords
    slots := before.slots.set offset
      { slot.pack record with counter := nextRecordCounter slot.counter } }

theorem addActive_eq (self : Storage) :
    self.addActive = { self with activeRecords := self.addActive.activeRecords } := by
  unfold addActive
  split <;> rfl

theorem removeActive_eq (self : Storage) :
    self.removeActive = { self with activeRecords := self.removeActive.activeRecords } := by
  unfold removeActive
  split <;> rfl

theorem write_ok {record : Record} (h : self.write record = .ok self') :
    ∃ offset slot, Written self self' record offset slot := by
  simp only [write, checks] at h
  obtain ⟨offset, hoffset, _, curName, hread, -, hmatch, -, _, hcount, rfl⟩ := h
  obtain ⟨slot, hslot, rfl, hname⟩ := getRecordCounterAndName_ok hread
  obtain ⟨counter, hcounter, rfl⟩ := countUpdate_ok hcount
  refine ⟨offset, slot, hoffset, hslot, ?_, counter, hcounter, ?_⟩
  · intro hlive hsome
    have heq : record.name = curName := by
      by_contra hne
      exact hmatch ⟨UInt16.pos_iff_ne_zero.mpr hlive, hsome, hne⟩
    exact ⟨hlive, heq ▸ hname⟩
  · split_ifs with hzero
    · rw [addActive_eq]
      simp only [modify_eq_set hslot]
      rw [addActive, addActive]
      split <;> rfl
    · simp only [modify_eq_set hslot]

/-- What a deletion that completes did: nothing, or it cleared one live record of the name. -/
inductive Deleted (self self' : Storage) (name : ArrayString64) (offset : Nat) : Prop
  | absent (hself : self' = self)
      (hdead : ∀ slot, self.slots[offset]? = some slot → slot.counter = 0)
  | cleared (slot : Slot) (counter : UInt32) (hfound : self.slots[offset]? = some slot)
      (hnamed : slot.Named name) (hcounter : counter ≠ 0)
      (hself : self' = { self with
        counter
        activeRecords := self.removeActive.activeRecords
        slots := self.slots.set offset slot.clear })

theorem delete_ok {index : Option UInt32} {counter : UInt16}
    (h : self.delete index counter name = .ok self') :
    ∃ offset, self.writeOffset index name = .ok offset ∧ Deleted self self' name offset := by
  simp only [delete, checks] at h
  obtain ⟨offset, hoffset, _, _, hread, h⟩ := h
  obtain ⟨slot, hslot, rfl, hname⟩ := getRecordCounterAndName_ok hread
  refine ⟨offset, hoffset, ?_⟩
  split at h
  next hzero =>
    refine .absent (pure_eq_ok.mp h).symm fun s hs => ?_
    rw [hslot] at hs
    cases hs
    exact hzero
  next hlive =>
    simp only [checks, ne_eq, not_not] at h
    obtain ⟨-, rfl, _, hcount, rfl⟩ := h
    obtain ⟨counter', hcounter, rfl⟩ := countUpdate_ok hcount
    refine .cleared slot counter' hslot ⟨hlive, hname⟩ hcounter ?_
    rw [removeActive_eq]
    simp only [modify_eq_set hslot]
    rw [removeActive, removeActive]
    split <;> rfl

theorem delete_of_named (hoffset : self.findWriteOffset name = .ok offset)
    (hfound : self.slots[offset]? = some slot) (hnamed : slot.Named name)
    (hcounter : self.counter ≠ 0) : ∃ self', self.deleteWithName name = .ok self' := by
  have hread : self.getRecordCounterAndName offset = .ok (slot.counter, name) := by
    simp only [getRecordCounterAndName, hfound, okOr, ok_bind, Slot.unpackCounterAndName, hnamed.2]
    rfl
  have hcount : 0 < (0 : UInt16) ↔ False := by decide
  simp only [deleteWithName, delete, writeOffset, hoffset, hread, ok_bind, hnamed.1, if_false,
    failIf, countUpdate, hcounter, hcount, false_and, ne_eq, not_true_eq_false]
  exact ⟨_, rfl⟩

end Storage

end SolanaPrograms.Farms
