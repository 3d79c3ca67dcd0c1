import SolanaPrograms.Token2022.View

/-!
# The representation invariant of the extension area

A mutable view that starts on a zero-filled buffer is edited by any sequence of `init_extension`,
writes through `get_extension_mut`, `pack_base` and `init_account_type`. The trace records which
edits succeeded; `initialised` and `lastWritten` read off it what the view should hold. The
theorem `area_represents_trace` says that the bytes hold exactly that, and that an edit touches
nothing else.

`Changes` says once what one edit can do to a view whose area is well formed; the invariant
(`Represents`) and the frame conditions are read off it.
-/

namespace SolanaPrograms.Token2022

open Outcome Bytes Tlv SolanaPrograms.Runtime List ExtensionType
open Token (Account)
open StateWithExtensionsMut

/-! ## Edits and their trace -/

/-- One edit of a mutable view. The base state is a public field, so `pack_base` packs whatever
value it was given before. -/
inductive Edit (S : Type)
  | init (v : ExtensionType)
  | write (v : ExtensionType) (value : List UInt8) (length_value : value.length = v.getTypeLen)
  | packBase (base : S)
  | initAccountType

namespace Edit

variable {S : Type} [BaseState S]

def run : Edit S → EStateM Fault (StateWithExtensionsMut S) Unit
  | .init v => do
    let _ ← initExtension v
    return ()
  | .write v value _ => do
    let valueStart ← getExtensionMut v
    modify fun self => self.assign valueStart value
  | .packBase base => modify fun self => .packBase { self with base := base }
  | .initAccountType => StateWithExtensionsMut.initAccountType

omit [BaseState S] in
def target : Edit S → Option ExtensionType
  | .init v => some v
  | .write v _ _ => some v
  | .packBase _ => none
  | .initAccountType => none

/-- The view after an edit, failed or not, and the trace extended by it. -/
def apply (state : StateWithExtensionsMut S × List (Edit S × Bool)) (e : Edit S) :
    StateWithExtensionsMut S × List (Edit S × Bool) :=
  match e.run.run state.1 with
  | .ok _ st => (st, state.2 ++ [(e, true)])
  | .error _ st => (st, state.2 ++ [(e, false)])

end Edit

variable {S : Type}

/-- The view after a sequence of edits, with their trace. -/
def runEdits [BaseState S] (st : StateWithExtensionsMut S) (edits : List (Edit S)) :
    StateWithExtensionsMut S × List (Edit S × Bool) :=
  edits.foldl Edit.apply (st, [])

def initialisedBy (types : List ExtensionType) : Edit S × Bool → List ExtensionType
  | (.init v, true) => if v ∈ types then types else types ++ [v]
  | _ => types

/-- The types that were successfully initialised, in the order of their first initialisation. -/
def initialised (trace : List (Edit S × Bool)) : List ExtensionType :=
  trace.foldl initialisedBy []

def writtenBy (v : ExtensionType) (last : Option (List UInt8)) :
    Edit S × Bool → Option (List UInt8)
  | (.init w, true) => if w = v then some (defaultValue v) else last
  | (.write w value _, true) => if w = v then some value else last
  | _ => last

/-- The value last given to an extension: by a write, or its default by an initialisation. -/
def lastWritten (v : ExtensionType) (trace : List (Edit S × Bool)) : Option (List UInt8) :=
  trace.foldl (writtenBy v) none

theorem initialised_snoc (trace : List (Edit S × Bool)) (x : Edit S × Bool) :
    initialised (trace ++ [x]) = initialisedBy (initialised trace) x := by
  rw [initialised, foldl_append]
  rfl

theorem lastWritten_snoc (v : ExtensionType) (trace : List (Edit S × Bool)) (x : Edit S × Bool) :
    lastWritten v (trace ++ [x]) = writtenBy v (lastWritten v trace) x := by
  rw [lastWritten, foldl_append]
  rfl

/-! ## What one edit can do -/

variable [BaseState S]

/-- The results an edit can have on a view whose area holds the extensions `E`. -/
inductive Changes (E : Extensions S) (st : StateWithExtensionsMut S) :
    Edit S → EStateM.Result Fault (StateWithExtensionsMut S) Unit → Prop
  | rejected (e : Edit S) (err : Fault) : Changes E st e (.error err st)
  | reset {v : ExtensionType} (hmem : v ∈ E.types) :
      Changes E st (.init v) (.ok ()
        { st with tlvData := (E.set v (defaultValue v) (length_defaultValue v)).bytes })
  | added {v : ExtensionType} (hmem : v ∉ E.types)
      (hv : v.getAccountType = BaseState.accountType S) (hroom : v.getTlvLen ≤ E.area.free) :
      Changes E st (.init v) (.ok ()
        { st with tlvData := (E.push v (defaultValue v) (length_defaultValue v) hmem hv).bytes })
  | written {v : ExtensionType} {b : List UInt8} (hb : b.length = v.getTypeLen)
      (hmem : v ∈ E.types) :
      Changes E st (.write v b hb) (.ok () { st with tlvData := (E.set v b hb).bytes })
  | elsewhere {e : Edit S} (he : e.target = none) {st' : StateWithExtensionsMut S}
      (htlv : st'.tlvData = st.tlvData) : Changes E st e (.ok () st')

variable {E : Extensions S} {st : StateWithExtensionsMut S}

theorem checkFirstExtensionType_bytes : checkFirstExtensionType S E.bytes = .ok () := by
  rw [checkFirstExtensionType, E.getFirstExtensionType_bytes, ok_bind]
  cases hhead : E.types.head? with
  | none => rfl
  | some t => simp [failIf, E.kind t (mem_of_mem_head? hhead)]

theorem changes_initAccountType (h : st.tlvData = E.bytes) :
    Changes E st .initAccountType (Edit.run .initAccountType |>.run st) := by
  by_cases hempty : st.accountType = []
  · have hrun : (Edit.run .initAccountType).run st = .ok () st := by
      simp [Edit.run, initAccountType, hempty]
    rw [hrun]
    exact .elsewhere rfl rfl
  · have hrun : (Edit.run .initAccountType).run st = .ok ()
        { st with accountType := st.accountType.set 0 (BaseState.accountType S).toByte } := by
      simp [Edit.run, initAccountType, hempty, h, checkFirstExtensionType_bytes]
    rw [hrun]
    exact .elsewhere rfl rfl

/-- Every edit of a view with a well-formed area has one of the listed results. -/
theorem run_changes (h : st.tlvData = E.bytes) (e : Edit S) : Changes E st e (e.run.run st) := by
  cases e with
  | init v =>
    by_cases hmem : v ∈ E.types
    · simp only [Edit.run, EStateM.run_bind, run_initExtension_present h hmem]
      exact .reset hmem
    · by_cases hroom : v.getAccountType = BaseState.accountType S ∧ v.getTlvLen ≤ E.area.free
      · simp only [Edit.run, EStateM.run_bind,
          run_initExtension_absent h hmem hroom.1 hroom.2]
        exact .added hmem hroom.1 hroom.2
      · have hfull := run_initExtension_full h hmem fun hv => not_le.mp fun hle => hroom ⟨hv, hle⟩
        simp only [Edit.run, EStateM.run_bind, hfull]
        exact .rejected _ _
  | write v b hb =>
    simp only [Edit.run, EStateM.run_bind, run_getExtensionMut h]
    by_cases hmem : v ∈ E.types
    · simp only [hmem, if_true]
      have hset : (EStateM.run (modify fun self => self.assign (E.area.offset v + 4) b) st :
          EStateM.Result Fault (StateWithExtensionsMut S) Unit) =
            .ok () { st with tlvData := (E.set v b hb).bytes } := by
        rw [E.bytes_set hb hmem, ← h]
        rfl
      simp only [hset]
      exact .written hb hmem
    · simp only [hmem, if_false]
      exact .rejected _ _
  | packBase => exact .elsewhere rfl rfl
  | initAccountType => exact changes_initAccountType h

/-! ## The invariant -/

/-- The area holds exactly what the trace says. -/
structure Represents (st : StateWithExtensionsMut S) (trace : List (Edit S × Bool))
    (E : Extensions S) : Prop where
  bytes_eq : st.tlvData = E.bytes
  types_eq : E.types = initialised trace
  values_eq : ∀ v, E.lookup v = lastWritten v trace

variable {trace : List (Edit S × Bool)} {b : List UInt8} {v : ExtensionType}

variable (h : Represents st trace E)
include h

theorem Represents.failed (e : Edit S) : Represents st (trace ++ [(e, false)]) E := by
  refine ⟨h.bytes_eq, ?_, fun v => ?_⟩
  · rw [initialised_snoc, h.types_eq]
    cases e <;> rfl
  · rw [lastWritten_snoc, h.values_eq]
    cases e <;> rfl

variable {e : Edit S} {st' : StateWithExtensionsMut S} {w : ExtensionType}

/-- An edit that is not about an extension leaves them alone. -/
theorem Represents.elsewhere (he : e.target = none)
    (htlv : st'.tlvData = st.tlvData) : Represents st' (trace ++ [(e, true)]) E := by
  refine ⟨htlv.trans h.bytes_eq, ?_, fun v => ?_⟩
  · rw [initialised_snoc, h.types_eq]
    cases e with
    | init => cases he
    | write => rfl
    | packBase => rfl
    | initAccountType => rfl
  · rw [lastWritten_snoc, h.values_eq]
    cases e with
    | init => cases he
    | write => cases he
    | packBase => rfl
    | initAccountType => rfl

theorem Represents.set (hb : b.length = v.getTypeLen) (hmem : v ∈ E.types)
    (he : e = .init v ∧ b = defaultValue v ∨ e = .write v b hb) :
    Represents { st with tlvData := (E.set v b hb).bytes } (trace ++ [(e, true)])
      (E.set v b hb) := by
  have htypes : initialised (trace ++ [(e, true)]) = initialised trace := by
    rw [initialised_snoc]
    rcases he with ⟨rfl, -⟩ | rfl
    · exact if_pos (h.types_eq ▸ hmem)
    · rfl
  have hwritten : ∀ w, lastWritten w (trace ++ [(e, true)]) =
      if v = w then some b else lastWritten w trace := by
    intro w
    rw [lastWritten_snoc]
    rcases he with ⟨rfl, rfl⟩ | rfl
    · by_cases hw : v = w
      · subst hw; rfl
      · exact (if_neg hw).trans (if_neg hw).symm
    · rfl
  refine ⟨rfl, by rw [Extensions.types_set, htypes, h.types_eq], fun w => ?_⟩
  rw [hwritten]
  by_cases hw : v = w
  · subst hw
    rw [Extensions.lookup_set_same hb hmem, if_pos rfl]
  · rw [Extensions.lookup_set_of_ne hb (.symm hw), if_neg hw, h.values_eq]

theorem Represents.push (hmem : v ∉ E.types) (hv : v.getAccountType = BaseState.accountType S) :
    Represents
      { st with tlvData := (E.push v (defaultValue v) (length_defaultValue v) hmem hv).bytes }
      (trace ++ [(.init v, true)])
      (E.push v (defaultValue v) (length_defaultValue v) hmem hv) := by
  refine ⟨rfl, ?_, fun w => ?_⟩
  · rw [Extensions.types_push, initialised_snoc, h.types_eq]
    exact (if_neg (h.types_eq ▸ hmem)).symm
  · rw [lastWritten_snoc]
    by_cases hw : v = w
    · subst hw
      rw [Extensions.lookup_push_same]
      exact (if_pos rfl).symm
    · rw [Extensions.lookup_push_of_ne _ hmem hv (.symm hw), h.values_eq]
      exact (if_neg hw).symm

/-- **Step.** Every edit keeps area and trace in agreement. -/
theorem Represents.apply (e : Edit S) :
    ∃ E', Represents (e.apply (st, trace)).1 (e.apply (st, trace)).2 E' := by
  have hchanges := run_changes h.bytes_eq e
  rw [Edit.apply]
  cases hrun : e.run.run st with
  | error err =>
    rw [hrun] at hchanges
    cases hchanges with
    | rejected e => exact ⟨E, h.failed e⟩
  | ok =>
    rw [hrun] at hchanges
    cases hchanges with
    | reset hmem => exact ⟨_, h.set _ hmem (.inl ⟨rfl, rfl⟩)⟩
    | added hmem hv => exact ⟨_, h.push hmem hv⟩
    | written hb hmem => exact ⟨_, h.set hb hmem (.inr rfl)⟩
    | elsewhere he htlv => exact ⟨E, h.elsewhere he htlv⟩

/-- **Run.** Area and trace agree after any sequence of edits. -/
theorem Represents.run (edits : List (Edit S)) :
    ∃ E', Represents (edits.foldl Edit.apply (st, trace)).1
      (edits.foldl Edit.apply (st, trace)).2 E' := by
  induction edits generalizing st trace E with
  | nil => exact ⟨E, h⟩
  | cons e _ ih =>
    obtain ⟨_, h'⟩ := h.apply e
    exact ih h'

omit h

theorem tlvData_of_zero {len : Nat} (h : unpackUninitialized S (.replicate len 0) = .ok st) :
    st.tlvData = .replicate st.tlvData.length 0 := by
  obtain ⟨hbytes, -⟩ := unpackUninitialized_eq_ok.mp h
  refine eq_replicate_of_mem fun b hb => ?_
  have hmem : b ∈ st.bytes := by simp [bytes, hb]
  rw [← hbytes] at hmem
  exact (mem_replicate.mp hmem).2

/-! ## Frame conditions -/

/-- The record of `w` is found at one place in both areas, with the same bytes. -/
def RecordKept (w : ExtensionType) (tlv tlv' : List UInt8) : Prop :=
  ∃ indices, getExtensionIndices w tlv false = .ok indices ∧
    getExtensionIndices w tlv' false = .ok indices ∧
    slice tlv' indices.typeStart w.getTlvLen = slice tlv indices.typeStart w.getTlvLen

theorem slice_record (h : E.lookup w = some b) :
    slice E.bytes (E.area.offset w) w.getTlvLen = format.header w ++ b := by
  have hmem := E.mem_types.mpr ⟨b, h⟩
  have hhead : slice E.bytes (E.area.offset w) 4 = format.header w := Area.slice_header hmem
  have hvalue : slice E.bytes (E.area.offset w + 4) w.getTypeLen = b := Area.slice_value h
  have hlen : w.getTlvLen = 4 + w.getTypeLen := by
    rw [getTlvLen]
    omega
  rw [hlen, ← slice_append_slice, hhead, hvalue]

theorem recordKept_of_lookup {E' : Extensions S} (hmem : w ∈ E.types)
    (hoffset : E'.area.offset w = E.area.offset w) (hlookup : E'.lookup w = E.lookup w) :
    RecordKept w E.bytes E'.bytes := by
  obtain ⟨b, hb⟩ := E.mem_types.mp hmem
  have hb' : E'.lookup w = some b := hlookup.trans hb
  have hv := E.kind w hmem
  refine ⟨getTlvIndices (E.area.offset w), ?_, ?_, ?_⟩
  · rw [E.getExtensionIndices_bytes hv, if_pos (.inl hmem)]
  · rw [E'.getExtensionIndices_bytes hv, if_pos (.inl (E'.mem_types.mpr ⟨b, hb'⟩)), hoffset]
  · have hrecord := slice_record hb'
    rw [hoffset] at hrecord
    exact hrecord.trans (slice_record hb).symm

/-- What an edit about the extension `v` leaves alone. -/
structure Frame (v : ExtensionType) (types : List ExtensionType)
    (st st' : StateWithExtensionsMut S) : Prop where
  base : st'.base = st.base
  baseData : st'.baseData = st.baseData
  padding : st'.padding = st.padding
  accountType : st'.accountType = st.accountType
  length_tlvData : st'.tlvData.length = st.tlvData.length
  others : ∀ w ∈ types, w ≠ v → RecordKept w st.tlvData st'.tlvData

theorem frame_set (h : st.tlvData = E.bytes) (hb : b.length = v.getTypeLen) (hmem : v ∈ E.types) :
    Frame v E.types st { st with tlvData := (E.set v b hb).bytes } where
  base := rfl
  baseData := rfl
  padding := rfl
  accountType := rfl
  length_tlvData := by
    have hle := E.offset_add_le hmem
    rw [E.bytes_set hb hmem, h]
    exact length_splice (by omega)
  others w hw hne := by
    rw [h]
    exact recordKept_of_lookup hw (Area.offset_set hb) (Extensions.lookup_set_of_ne hb hne)

theorem frame_push (h : st.tlvData = E.bytes) (hmem : v ∉ E.types)
    (hv : v.getAccountType = BaseState.accountType S) (hroom : v.getTlvLen ≤ E.area.free) :
    Frame v E.types st
      { st with tlvData := (E.push v (defaultValue v) (length_defaultValue v) hmem hv).bytes } where
  base := rfl
  baseData := rfl
  padding := rfl
  accountType := rfl
  length_tlvData := by
    have hlen : E.bytes.length = E.area.used + E.area.free := E.area.length_bytes
    have hheader := format.length_header v
    rw [format_headerLen] at hheader
    rw [getTlvLen] at hroom
    rw [E.bytes_push _ hmem hv, h]
    exact length_splice (by rw [length_append, hheader, length_defaultValue]; omega)
  others w hw hne := by
    rw [h]
    exact recordKept_of_lookup hw (Area.offset_push _ hmem hw)
      (Extensions.lookup_push_of_ne _ hmem hv hne)

/-- An edit about `v` changes nothing outside the record of `v`. -/
theorem frame_of_changes (h : st.tlvData = E.bytes) (he : e.target = some v)
    (hchanges : Changes E st e (.ok () st')) :
    Frame v E.types st st' := by
  cases hchanges with
  | reset hmem => cases he; exact frame_set h _ hmem
  | added hmem hv hroom => cases he; exact frame_push h hmem hv hroom
  | written hb hmem => cases he; exact frame_set h hb hmem
  | elsewhere hnone => rw [hnone] at he; cases he

/-- **The extension area represents what was written to it.** Start from a zero-filled buffer
and apply any edits. The area is a list of records of the state's own kind with different types
and the right lengths, followed by zero bytes; its types are those initialised, in that order;
an extension has the value last written, and an extension never initialised is an error. A next
edit that fails changes no byte, and one about an extension changes no byte outside its record. -/
theorem area_represents_trace {len : Nat} {st₀ : StateWithExtensionsMut S}
    (h : unpackUninitialized S (.replicate len 0) = .ok st₀) (edits : List (Edit S)) :
    let st := (runEdits st₀ edits).1
    let trace := (runEdits st₀ edits).2
    (∃ E : Extensions S, st.tlvData = E.bytes) ∧
    getExtensionTypes st.tlvData = .ok (initialised trace) ∧
    (∀ v ∈ initialised trace, ∃ b, lastWritten v trace = some b ∧ st.getExtension v = .ok b) ∧
    (∀ v ∉ initialised trace, ∃ err, st.getExtension v = .error err) ∧
    (∀ (e : Edit S) (err : Fault) (st' : StateWithExtensionsMut S),
      e.run.run st = .error err st' → st' = st) ∧
    (∀ (e : Edit S) (v : ExtensionType) (st' : StateWithExtensionsMut S), e.target = some v →
      e.run.run st = .ok () st' → Frame v (initialised trace) st st') := by
  intro st trace
  have hstart : Represents st₀ [] (.blank S st₀.tlvData.length) :=
    ⟨tlvData_of_zero h, rfl, fun v => rfl⟩
  obtain ⟨E, hbytes, htypes, hvalues⟩ := hstart.run edits
  change st.tlvData = E.bytes at hbytes
  change E.types = initialised trace at htypes
  have hread := getExtension_bytes hbytes
  refine ⟨⟨E, hbytes⟩, ?_, ?_, ?_, ?_, ?_⟩
  · rw [hbytes, E.getExtensionTypes_bytes, htypes]
  · intro v hv
    obtain ⟨b, hb⟩ := E.mem_types.mp (htypes ▸ hv)
    exact ⟨b, (hvalues v).symm.trans hb, by rw [hread, hb]; rfl⟩
  · intro v hv
    have hnone := E.lookup_eq_none.mpr (htypes ▸ hv)
    exact ⟨_, by rw [hread, hnone]; rfl⟩
  · intro e err st' hrun
    have hchanges := run_changes hbytes e
    rw [hrun] at hchanges
    cases hchanges
    rfl
  · intro e v st' he hrun
    have hchanges := run_changes hbytes e
    rw [hrun] at hchanges
    exact htypes ▸ frame_of_changes hbytes he hchanges

/-- A zero-filled buffer of 171 bytes, seen as a token account: five bytes for extensions. -/
def zeroView : StateWithExtensionsMut Account where
  base := ⟨.replicate 0, .replicate 0, 0, none, .uninitialized, none, 0, none⟩
  baseData := .replicate 165 0
  padding := []
  accountType := [0]
  tlvData := .replicate 5 0

/-- Set up a memo requirement, write it, and try one more extension, for which no room is left. -/
def memoEdits : List (Edit Account) :=
  [.init .memoTransfer, .write .memoTransfer [1] rfl, .init .immutableOwner, .initAccountType]

theorem area_represents_trace_memo :
    unpackUninitialized Account (.replicate 171 0) = .ok zeroView ∧
    initialised (runEdits zeroView memoEdits).2 = [.memoTransfer] ∧
    getExtensionTypes (runEdits zeroView memoEdits).1.tlvData =
      .ok (initialised (runEdits zeroView memoEdits).2) ∧
    ∃ b, lastWritten .memoTransfer (runEdits zeroView memoEdits).2 = some b ∧
      (runEdits zeroView memoEdits).1.getExtension .memoTransfer = .ok b := by
  have hzero : unpackUninitialized Account (.replicate 171 0) = .ok zeroView := by
    decide +kernel
  have htypes : initialised (runEdits zeroView memoEdits).2 = [.memoTransfer] := by
    decide +kernel
  obtain ⟨-, hall, hvalue, -⟩ := area_represents_trace hzero memoEdits
  exact ⟨hzero, htypes, hall, hvalue .memoTransfer (by rw [htypes]; decide)⟩

end SolanaPrograms.Token2022
