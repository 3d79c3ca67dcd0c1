import SolanaPrograms.Token2022.Processor
import SolanaPrograms.Token2022.Representation

/-!
# Views as records

What the handlers do to a view, said without bytes. A `Record` is a base state together with the
data of each extension; `st.record` is the record behind a view. On a view whose area is a list of
extensions (`HasArea`) the operations of the handlers are those of a record:

* `borrow` and `read` are `get`;
* `put` through a borrowed reference is `put`;
* `create` is `put` of the default.

The lemmas about `borrow` that need no `HasArea` serve accounts of other programs, whose bytes the
program knows nothing about.
-/

namespace SolanaPrograms.Token2022

open Outcome Bytes Tlv SolanaPrograms.Runtime Extension Extensions List
open Token (Mint Account AccountState)

/-! ## Records -/

@[ext] structure Record (S : Type) where
  base : S
  data : ExtensionType → Option (List UInt8)

namespace Record

variable {S V W : Type} [Extension V] [Extension W]

def putBytes (r : Record S) (t : ExtensionType) (b : List UInt8) : Record S :=
  { r with data := Function.update r.data t (some b) }

def get (V : Type) [Extension V] (r : Record S) : Option V :=
  (r.data (type V)).map ofBytes

variable (r : Record S)

/-- Replace the value of an extension. -/
def put (v : V) : Record S := r.putBytes (type V) (toBytes v)

@[simp] theorem base_put (v : V) : (r.put v).base = r.base := rfl

theorem get_putBytes_same (b : List UInt8) : (r.putBytes (type V) b).get V = some (ofBytes b) := by
  simp [get, putBytes]

theorem get_putBytes_of_ne {t : ExtensionType} (b : List UInt8) (h : type W ≠ t) :
    (r.putBytes t b).get W = r.get W := by
  simp [get, putBytes, h]

@[simp] theorem get_put_same (v : V) : (r.put v).get V = some v := by
  rw [put, get_putBytes_same, ofBytes_toBytes]

theorem get_put_of_ne (v : V) (h : type W ≠ type V) : (r.put v).get W = r.get W :=
  get_putBytes_of_ne r _ h

theorem put_putBytes (v : V) (b : List UInt8) : (r.putBytes (type V) b).put v = r.put v := by
  simp [put, putBytes]

@[simp] theorem get_withBase (base : S) : ({ r with base } : Record S).get V = r.get V := rfl

end Record

namespace StateWithExtensionsMut

variable {S : Type} [BaseState S]

variable (st : StateWithExtensionsMut S)

def record : Record S :=
  ⟨st.base, fun t => (st.getExtension t).toOption⟩

/-- The area is a list of extensions of the right kind. -/
def HasArea : Prop := ∃ E : Extensions S, st.tlvData = E.bytes

/-- The read-only view of the same buffer. -/
def view : StateWithExtensions S :=
  { base := st.base, tlvData := st.tlvData }

def DataAt (t : ExtensionType) (i : Nat) : Prop :=
  ∃ E : Extensions S, st.tlvData = E.bytes ∧ t ∈ E.types ∧ i = E.area.offset t + 4

variable {st st' : StateWithExtensionsMut S} {E : Extensions S} {V : Type} [Extension V]
  {t : ExtensionType} {i : Nat}

@[simp] theorem record_base : st.record.base = st.base := rfl

theorem DataAt.hasArea (h : st.DataAt t i) : st.HasArea := by
  obtain ⟨E, hE, -⟩ := h
  exact ⟨E, hE⟩

theorem record_data (h : st.tlvData = E.bytes) : st.record.data = E.lookup := by
  funext t
  simp only [record]
  rw [getExtension_bytes h]
  cases E.lookup t <;> rfl

theorem record_eq (h : st.tlvData = E.bytes) : st.record = ⟨st.base, E.lookup⟩ :=
  Record.ext rfl (record_data h)

theorem record_congr (hbase : st'.base = st.base) (htlv : st'.tlvData = st.tlvData) :
    st'.record = st.record := by
  simp [record, getExtension, hbase, htlv]

theorem record_packBase (st : StateWithExtensionsMut S) : (packBase st).record = st.record :=
  record_congr rfl rfl

theorem record_withBase (st : StateWithExtensionsMut S) (base : S) :
    ({ st with base } : StateWithExtensionsMut S).record = { st.record with base } := rfl

theorem HasArea.congr (h : st.HasArea) (htlv : st'.tlvData = st.tlvData) : st'.HasArea := by
  obtain ⟨E, hE⟩ := h
  exact ⟨E, htlv.trans hE⟩

theorem hasArea_of_zeros (h : ∀ b ∈ st.tlvData, b = 0) : st.HasArea :=
  ⟨.blank S st.tlvData.length, eq_replicate_of_mem h⟩

/-! ## Writing through a reference -/

theorem DataAt.assign (h : st.DataAt t i) {b : List UInt8} (hb : b.length = t.getTypeLen) :
    (st.assign i b).DataAt t i ∧ (st.assign i b).record = st.record.putBytes t b ∧
      (st.assign i b).tlvData.length = st.tlvData.length := by
  obtain ⟨E, hE, hmem, rfl⟩ := h
  have hle := E.offset_add_le hmem
  have htlv : (st.assign (E.area.offset t + 4) b).tlvData = (E.set t b hb).bytes := by
    rw [bytes_set hb hmem, ← hE]
    rfl
  have hoffset : (E.set t b hb).area.offset t = E.area.offset t :=
    Area.offset_set (F := format) hb
  refine ⟨⟨E.set t b hb, htlv, ?_, by rw [hoffset]⟩, ?_, ?_⟩
  · rw [types_set]
    exact hmem
  · rw [record_eq htlv, record_eq hE]
    refine Record.ext rfl (funext fun w => ?_)
    by_cases hw : w = t
    · subst hw
      simp [Record.putBytes, lookup_set_same hb hmem]
    · simp [Record.putBytes, lookup_set_of_ne hb hw, hw]
  · refine length_splice ?_
    rw [hE, hb]
    omega

theorem DataAt.put (h : st.DataAt (type V) i) (v : V) :
    (st.put i v).DataAt (type V) i ∧ (st.put i v).record = st.record.put v ∧
      (st.put i v).tlvData.length = st.tlvData.length :=
  h.assign (length_toBytes v)

/-! ## Borrowing and reading -/

theorem borrow_bytes (h : st.tlvData = E.bytes) : st.borrow V =
    match E.lookup (type V) with
    | some b => .ok (E.area.offset (type V) + 4, ofBytes b)
    | none => .error (.err .invalidAccountData) := by
  unfold borrow
  rw [run_getExtensionMut h]
  cases hb : E.lookup (type V) with
  | none => rw [if_neg (E.lookup_eq_none.mp hb)]
  | some b =>
    have hvalue : slice E.bytes (E.area.offset (type V) + 4)
        (type V).getTypeLen = b := Area.slice_value hb
    rw [if_pos (E.mem_types.mpr ⟨b, hb⟩)]
    simp only [h, hvalue]

variable {v : V}

theorem borrow_ok (ha : st.HasArea) (h : st.borrow V = .ok (i, v)) :
    st.DataAt (type V) i ∧ st.record.get V = some v := by
  obtain ⟨E, hE⟩ := ha
  rw [borrow_bytes hE] at h
  cases hb : E.lookup (type V) with
  | none => rw [hb] at h; cases h
  | some b =>
    rw [hb] at h
    cases h
    exact ⟨⟨E, hE, E.mem_types.mpr ⟨b, hb⟩, rfl⟩, by rw [Record.get, record_data hE, hb]; rfl⟩

theorem borrow_of_get (ha : st.HasArea) (h : st.record.get V = some v) :
    ∃ i, st.borrow V = .ok (i, v) := by
  obtain ⟨_, hE⟩ := ha
  rw [Record.get, record_data hE] at h
  obtain ⟨_, hb, rfl⟩ := Option.map_eq_some_iff.mp h
  exact ⟨_, by rw [borrow_bytes hE, hb]⟩

theorem view_getExtension (h : st.tlvData = E.bytes) (t : ExtensionType) :
    st.view.getExtension t = okOr (E.lookup t) (.err .invalidAccountData) := by
  rw [StateWithExtensions.getExtension, view, h]
  by_cases hv : t.getAccountType = BaseState.accountType S
  · cases hb : E.lookup t with
    | none => simp [failIf, hv, E.getExtensionIndices_bytes hv, E.lookup_eq_none.mp hb, okOr]
    | some b =>
      have hmem := E.mem_types.mpr ⟨b, hb⟩
      simp only [E.getExtensionIndices_bytes hv, hmem, true_or, if_true, failIf, hv, ne_eq,
        not_true_eq_false, if_false, ok_bind, E.lengthAt_bytes hmem]
      show (subslice E.bytes (E.area.offset t + 4) t.getTypeLen >>= _) = _
      rw [E.subslice_bytes hb, ok_bind, podFromBytes, if_pos (E.length_lookup hb)]
      rfl
  · simp [failIf, hv, E.lookup_of_kind_ne hv, okOr]

theorem view_read (ha : st.HasArea) :
    st.view.read V = okOr (st.record.get V) (.err .invalidAccountData) := by
  obtain ⟨E, hE⟩ := ha
  rw [StateWithExtensions.read, view_getExtension hE, Record.get, record_data hE]
  cases E.lookup (type V) <;> rfl

/-! ## Creating an extension -/

structure Created (st st₁ : StateWithExtensionsMut S) (t : ExtensionType) (i : Nat) : Prop where
  frame : ∃ tlv, st₁ = { st with tlvData := tlv } ∧ tlv.length = st.tlvData.length
  dataAt : st₁.DataAt t i
  record_eq : st₁.record = st.record.putBytes t (defaultValue t)

theorem created_push (hE : st.tlvData = E.bytes) (hmem : t ∉ E.types)
    (hv : t.getAccountType = BaseState.accountType S) (hroom : t.getTlvLen ≤ E.area.free) :
    Created st { st with tlvData :=
      (E.push t (defaultValue t) (length_defaultValue t) hmem hv).bytes } t (E.area.used + 4) := by
  have hoffset : (E.push t (defaultValue t) (length_defaultValue t) hmem hv).area.offset t =
      E.area.used := Area.offset_push_same (F := format) (length_defaultValue t) hmem
  refine ⟨⟨_, rfl, ?_⟩, ⟨_, rfl, ?_, by rw [hoffset]⟩, ?_⟩
  · have hlen : E.bytes.length = E.area.used + E.area.free := E.area.length_bytes
    rw [ExtensionType.getTlvLen] at hroom
    rw [bytes_push _ hmem hv, hE]
    refine length_splice ?_
    rw [length_append, format.length_header, format_headerLen, length_defaultValue]
    omega
  · rw [types_push]
    exact mem_append_right _ (mem_singleton_self t)
  · rw [StateWithExtensionsMut.record_eq rfl, StateWithExtensionsMut.record_eq hE]
    refine Record.ext rfl (funext fun w => ?_)
    by_cases hw : w = t
    · subst hw
      simp [Record.putBytes, lookup_push_same _ hmem hv]
    · simp [Record.putBytes, lookup_push_of_ne _ hmem hv hw, hw]

theorem created_set (hE : st.tlvData = E.bytes) (hmem : t ∈ E.types) :
    Created st { st with tlvData := (E.set t (defaultValue t) (length_defaultValue t)).bytes } t
      (E.area.offset t + 4) := by
  have hat : st.DataAt t (E.area.offset t + 4) := ⟨E, hE, hmem, rfl⟩
  have hassign : st.assign (E.area.offset t + 4) (defaultValue t) =
      { st with tlvData := (E.set t (defaultValue t) (length_defaultValue t)).bytes } := by
    rw [bytes_set _ hmem, ← hE]
    rfl
  obtain ⟨hat', hrecord, hlen⟩ := hat.assign (length_defaultValue t)
  rw [hassign] at hat' hrecord hlen
  exact ⟨⟨_, rfl, hlen⟩, hat', hrecord⟩

variable {st₁ : StateWithExtensionsMut S}

theorem initExtension_ok (ha : st.HasArea) (h : (initExtension t).run st = .ok i st₁) :
    Created st st₁ t i := by
  obtain ⟨E, hE⟩ := ha
  by_cases hmem : t ∈ E.types
  · rw [run_initExtension_present hE hmem] at h
    cases h
    exact created_set hE hmem
  · by_cases hroom : t.getAccountType = BaseState.accountType S ∧ t.getTlvLen ≤ E.area.free
    · rw [run_initExtension_absent hE hmem hroom.1 hroom.2] at h
      cases h
      exact created_push hE hmem hroom.1 hroom.2
    · rw [run_initExtension_full hE hmem fun hv => not_le.mp fun hle => hroom ⟨hv, hle⟩] at h
      cases h

theorem create_ok (ha : st.HasArea) (h : st.create V = .ok (i, st₁)) :
    Created st st₁ (type V) i := by
  unfold create at h
  cases hrun : (initExtension (type V)).run st with
  | error => rw [hrun] at h; cases h
  | ok =>
    rw [hrun] at h
    cases h
    exact initExtension_ok ha hrun

theorem Created.record_put (h : Created st st₁ (type V) i) (v : V) :
    (st₁.put i v).record = st.record.put v := by
  rw [(h.dataAt.put v).2.1, h.record_eq]
  exact Record.put_putBytes _ _ _

/-! ## References into unknown bytes -/

variable {α : Type}

omit [BaseState S] in
theorem run_orFail_eq_ok {x : Except Fault α} {a : α}
    (h : (orFail x : EStateM Fault (StateWithExtensionsMut S) α).run st = .ok a st') :
    x = .ok a ∧ st' = st := by
  cases x with
  | error => cases h
  | ok => cases h; exact ⟨rfl, rfl⟩

omit [BaseState S] in
theorem run_bind_eq_ok {α β : Type} {x : EStateM Fault (StateWithExtensionsMut S) α}
    {f : α → EStateM Fault (StateWithExtensionsMut S) β} {b : β} (h : (x >>= f).run st = .ok b st')
    : ∃ a st₁, x.run st = .ok a st₁ ∧ (f a).run st₁ = .ok b st' := by
  rw [EStateM.run_bind] at h
  cases hx : x.run st with
  | error => rw [hx] at h; cases h
  | ok a st₁ => rw [hx] at h; exact ⟨a, st₁, rfl, h⟩

/-- The scan checks that the value it finds lies within the area. -/
theorem getExtensionMut_ok (h : (getExtensionMut t).run st = .ok i st') :
    st' = st ∧ i + t.getTypeLen ≤ st.tlvData.length := by
  obtain ⟨u, _, hkind, h₁⟩ := run_bind_eq_ok h
  obtain ⟨-, rfl⟩ := run_orFail_eq_ok hkind
  obtain ⟨_, _, hget, h₂⟩ := run_bind_eq_ok h₁
  cases hget
  obtain ⟨_, _, hscan, h₃⟩ := run_bind_eq_ok h₂
  obtain ⟨-, rfl⟩ := run_orFail_eq_ok hscan
  obtain ⟨_, _, hroom, h₄⟩ := run_bind_eq_ok h₃
  obtain ⟨-, rfl⟩ := run_orFail_eq_ok hroom
  obtain ⟨_, _, hvalue, h₅⟩ := run_bind_eq_ok h₄
  obtain ⟨hsub, rfl⟩ := run_orFail_eq_ok hvalue
  obtain ⟨_, _, hpod, h₆⟩ := run_bind_eq_ok h₅
  obtain ⟨hlen, rfl⟩ := run_orFail_eq_ok hpod
  cases h₆
  refine ⟨rfl, ?_⟩
  unfold subslice at hsub
  unfold podFromBytes at hlen
  split at hsub
  next hle =>
    cases hsub
    split at hlen
    next heq =>
      rw [length_slice hle] at heq
      omega
    next => cases hlen
  next => cases hsub

/-- A borrowed value, whatever the bytes around it. -/
theorem borrow_bounds (h : st.borrow V = .ok (i, v)) :
    i + (type V).getTypeLen ≤ st.tlvData.length ∧
      v = ofBytes (slice st.tlvData i (type V).getTypeLen) := by
  unfold borrow at h
  cases hrun : (getExtensionMut (type V)).run st with
  | error => rw [hrun] at h; cases h
  | ok =>
    rw [hrun] at h
    obtain ⟨rfl, hle⟩ := getExtensionMut_ok hrun
    cases h
    exact ⟨hle, rfl⟩

theorem length_put (h : st.borrow V = .ok (i, v)) (v' : V) :
    (st.put i v').tlvData.length = st.tlvData.length := by
  obtain ⟨hle, -⟩ := borrow_bounds h
  exact length_splice (by rw [length_toBytes]; exact hle)

theorem eq_of_put_eq {v' : V} (h : st.borrow V = .ok (i, v))
    (heq : (st.put i v').tlvData = st.tlvData) : v' = v := by
  obtain ⟨_, rfl⟩ := borrow_bounds h
  have hlen := length_toBytes v'
  have hval : slice (splice st.tlvData i (toBytes v')) i (toBytes v').length =
      toBytes v' := slice_splice_same (by omega)
  rw [show splice st.tlvData i (toBytes v') = st.tlvData from heq, hlen] at hval
  rw [hval, ofBytes_toBytes]

end StateWithExtensionsMut

/-! ## Optional extensions -/

theorem orNone_eq_some {x : Except Fault α} {a : α} : orNone x = .ok (some a) ↔ x = .ok a := by
  unfold orNone
  split <;> simp

theorem orNone_okOr (o : Option α) : orNone (okOr o (.err .invalidAccountData)) = .ok o := by
  cases o <;> rfl

end SolanaPrograms.Token2022
