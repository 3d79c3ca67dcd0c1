import SolanaPrograms.Token2022.Extension

/-!
# The extension area as a list of records

The bytes the scans walk over are the bytes of a `Tlv.Area` whose records are extensions of one
account kind (`Extensions S`). On such bytes the scans compute what their names say, and the
operations of a view are `lookup`, `set` and `push` of the area.
-/

namespace SolanaPrograms.Token2022

open Outcome Bytes Tlv SolanaPrograms.Runtime ProgramError List Area ExtensionType Nat

/-- An extension record: type and length, two bytes each, then the data of the type. -/
def format : Tlv.Format ExtensionType where
  header t := t.toBytes ++ leBytes 2 t.getTypeLen
  headerLen := 4
  size := getTypeLen
  length_header t := by simp

@[simp] theorem format_headerLen : format.headerLen = 4 := rfl

theorem format_header (t : ExtensionType) :
    format.header t = t.toBytes ++ leBytes 2 t.getTypeLen := rfl

@[simp] theorem format_size (t : ExtensionType) : format.size t = t.getTypeLen := rfl

/-- The extensions of a base state: records of its own kind only. -/
structure Extensions (S : Type) [BaseState S] where
  area : Tlv.Area format
  kind : ∀ t ∈ area.tags, t.getAccountType = BaseState.accountType S

/-! ## Reading a header -/

section Header

variable (pre rest : List UInt8)

theorem slice_at_end (n : Nat) : slice (pre ++ rest) pre.length n = rest.take n := by
  rw [slice_append_right (le_refl _), Nat.sub_self, slice, drop_zero]

theorem slice_past_end (off n : Nat) : slice (pre ++ rest) (pre.length + off) n =
    slice rest off n := by
  rw [slice_append_right (by omega), Nat.add_sub_cancel_left]

variable (e : Entry format)

theorem type_of_entry :
    ofBytes (slice (pre ++ (e.bytes ++ rest)) (getTlvIndices pre.length).typeStart 2)
      = .ok e.tag := by
  have hlen := e.tag.length_toBytes
  rw [getTlvIndices, slice_at_end, Entry.bytes, format_header, append_assoc, append_assoc,
    take_append_of_le_length (by omega), take_of_length_le (by omega),
    ofBytes_toBytes]

theorem length_of_entry :
    lengthAt (pre ++ (e.bytes ++ rest)) (getTlvIndices pre.length) = e.tag.getTypeLen := by
  have hlen := e.tag.length_toBytes
  have hlen' := length_leBytes 2 e.tag.getTypeLen
  rw [lengthAt, getTlvIndices, slice_past_end, Entry.bytes, format_header, append_assoc,
    append_assoc, slice_append_right (by omega), hlen, Nat.sub_self,
    slice_append_left (by omega), slice_self hlen', ofLe_leBytes_of_lt e.tag.getTypeLen_lt]

theorem length_entry_bytes : e.bytes.length = 4 + e.tag.getTypeLen := e.length_bytes

/-- The header of a record lies in the area, and its value ends where the next record starts. -/
theorem header_of_entry :
    pre.length < (pre ++ (e.bytes ++ rest)).length ∧
      ¬ (pre ++ (e.bytes ++ rest)).length < (getTlvIndices pre.length).valueStart ∧
      (getTlvIndices pre.length).valueStart +
        lengthAt (pre ++ (e.bytes ++ rest)) (getTlvIndices pre.length) =
          (pre ++ e.bytes).length := by
  have hbytes := length_entry_bytes e
  have hstart : (getTlvIndices pre.length).valueStart = pre.length + 4 := rfl
  rw [length_of_entry, hstart]
  simp only [length_append]
  omega

theorem type_of_free {n : Nat} (h : 2 ≤ n) :
    ofBytes (slice (pre ++ .replicate n 0) (getTlvIndices pre.length).typeStart 2)
      = .ok .uninitialized := by
  have htake : (replicate n (0 : UInt8)).take 2 = [0, 0] := by
    rw [take_replicate, min_eq_left h]
    rfl
  rw [getTlvIndices, slice_at_end, htake]
  rfl

end Header

/-! ## The scan for one type -/

section Indices

variable {v : ExtensionType}

variable {n rounds : Nat}

/-- In free space a place is found at once if one is wanted and a header fits. -/
theorem getExtensionIndicesFrom_free (init : Bool) (pre : List UInt8) (h : n ≤ rounds) :
    getExtensionIndicesFrom v init (pre ++ .replicate n 0) rounds pre.length =
      if init = true ∧ 4 ≤ n then .ok (getTlvIndices pre.length)
      else .error invalidAccountData := by
  -- without `init` the scan moves on by two bytes, so the induction is on the free space
  induction rounds generalizing pre n with
  | zero =>
    have hn : n = 0 := by omega
    simp [getExtensionIndicesFrom, hn]
  | succ rounds ih =>
    have hlen : (pre ++ .replicate n (0 : UInt8)).length = pre.length + n := by simp
    have hstart : (getTlvIndices pre.length).valueStart = pre.length + 4 := rfl
    rw [getExtensionIndicesFrom]
    by_cases hn : 4 ≤ n
    · have hroom : ¬ (pre ++ .replicate n (0 : UInt8)).length <
          (getTlvIndices pre.length).valueStart := by rw [hlen, hstart]; omega
      simp only [hlen, show pre.length < pre.length + n by omega, if_true, failIf, hstart,
        show ¬ pre.length + n < pre.length + 4 by omega, if_false, ok_bind,
        type_of_free pre (show 2 ≤ n by omega)]
      cases init with
      | true => simp [hn]
      | false =>
        have hshift : pre ++ .replicate n (0 : UInt8) =
            (pre ++ [0, 0]) ++ .replicate (n - 2) 0 := by
          obtain ⟨_, rfl⟩ : ∃ m, n = m + 2 := ⟨n - 2, by omega⟩
          simp [replicate_succ]
        have hnext : (getTlvIndices pre.length).lengthStart = (pre ++ [0, 0]).length := by
          simp [getTlvIndices]
        rw [hshift, hnext, ih (pre ++ [0, 0]) (show n - 2 ≤ rounds by omega)]
        simp
    · simp only [hlen, hstart, failIf, show pre.length + n < pre.length + 4 by omega, if_true,
        error_bind, ite_self, show ¬ (init = true ∧ 4 ≤ n) by tauto, if_false]

/-- The scan finds the first record of the type, or ends up in the free space. -/
theorem getExtensionIndicesFrom_encode (init : Bool)
    {es : List (Entry format)} (hkind : ∀ e ∈ es, e.tag.getAccountType = v.getAccountType)
    (huninit : ∀ e ∈ es, e.tag ≠ .uninitialized) (pre : List UInt8)
    (h : (encode es).length + n ≤ rounds) :
    getExtensionIndicesFrom v init (pre ++ (encode es ++ .replicate n 0)) rounds pre.length =
      if v ∈ es.map Entry.tag ∨ (init = true ∧ 4 ≤ n) then
        .ok (getTlvIndices (pre.length + offsetIn v es))
      else .error invalidAccountData := by
  induction es generalizing pre rounds with
  | nil =>
    rw [encode_nil, nil_append, getExtensionIndicesFrom_free init pre (by simpa using h)]
    simp [offsetIn]
  | cons e es ih =>
    have hbytes := length_entry_bytes e
    rw [encode_cons, length_append] at h
    obtain ⟨_, rfl⟩ : ∃ r, rounds = r + 1 := ⟨rounds - 1, by omega⟩
    obtain ⟨hlt, hroom, hnext⟩ := header_of_entry pre (encode es ++ .replicate n 0) e
    rw [encode_cons, append_assoc, getExtensionIndicesFrom]
    simp only [failIf, type_of_entry, ok_bind, hlt, hroom, if_true, if_false,
      huninit e mem_cons_self]
    by_cases he : e.tag = v
    · simp [he, offsetIn]
    · have hk : v.getAccountType = e.tag.getAccountType :=
        (hkind e mem_cons_self).symm
      simp only [he, if_false, hk, ne_eq, not_true_eq_false, hnext]
      rw [← append_assoc, ih (fun f hf => hkind f (mem_cons_of_mem e hf))
        (fun f hf => huninit f (mem_cons_of_mem e hf)) (pre ++ e.bytes) (by omega)]
      simp [offsetIn, he, Ne.symm he, add_assoc]

end Indices

/-! ## The scan for all types -/

theorem getExtensionTypesFrom_encode {es : List (Entry format)}
    (huninit : ∀ e ∈ es, e.tag ≠ .uninitialized) (pre : List UInt8)
    (h : (encode es).length + n ≤ rounds) :
    getExtensionTypesFrom (pre ++ (encode es ++ .replicate n 0)) rounds pre.length =
      .ok (es.map Entry.tag) := by
  induction es generalizing pre rounds with
  | nil =>
    have hlen : (pre ++ .replicate n (0 : UInt8)).length = pre.length + n := by simp
    have hstart : (getTlvIndices pre.length).valueStart = pre.length + 4 := rfl
    rw [encode_nil, nil_append]
    cases rounds with
    | zero => rfl
    | succ =>
      rw [getExtensionTypesFrom]
      by_cases hn : 4 ≤ n
      · simp [type_of_free pre (show 2 ≤ n by omega)]
      · simp only [hlen, hstart, show pre.length + n < pre.length + 4 by omega, if_true, ite_self,
          map_nil]
  | cons e es ih =>
    have hbytes := length_entry_bytes e
    rw [encode_cons, length_append] at h
    obtain ⟨_, rfl⟩ : ∃ r, rounds = r + 1 := ⟨rounds - 1, by omega⟩
    obtain ⟨hlt, hroom, hnext⟩ := header_of_entry pre (encode es ++ .replicate n 0) e
    rw [encode_cons, append_assoc, getExtensionTypesFrom]
    simp only [type_of_entry, ok_bind, hnext, hlt, hroom, if_true, if_false,
      huninit e mem_cons_self]
    rw [← append_assoc, ih (fun f hf => huninit f (mem_cons_of_mem e hf))
      (pre ++ e.bytes) (by omega)]
    rfl

/-! ## The scans on the extensions of a state -/

namespace Extensions

variable {S : Type} [BaseState S] (E : Extensions S)

def bytes : List UInt8 := E.area.bytes

def types : List ExtensionType := E.area.tags

def lookup (v : ExtensionType) : Option (List UInt8) := E.area.lookup v

variable {v : ExtensionType}

theorem mem_types : v ∈ E.types ↔ ∃ b, E.lookup v = some b :=
  mem_tags

theorem lookup_eq_none : E.lookup v = none ↔ v ∉ E.types :=
  Area.lookup_eq_none

theorem length_lookup {b : List UInt8} (h : E.lookup v = some b) : b.length = v.getTypeLen :=
  Area.length_lookup h

theorem ne_uninitialized {t : ExtensionType} (h : t ∈ E.types) : t ≠ .uninitialized := by
  rintro rfl
  exact BaseState.accountType_ne (E.kind _ h).symm

theorem lookup_of_kind_ne (h : v.getAccountType ≠ BaseState.accountType S) : E.lookup v = none :=
  E.lookup_eq_none.mpr fun hmem => h (E.kind v hmem)

theorem getExtensionIndices_bytes (hv : v.getAccountType = BaseState.accountType S) (init : Bool) :
    getExtensionIndices v E.bytes init =
      if v ∈ E.types ∨ (init = true ∧ 4 ≤ E.area.free) then
        .ok (getTlvIndices (E.area.offset v))
      else .error invalidAccountData := by
  have hkind : ∀ e ∈ E.area.entries, e.tag.getAccountType = v.getAccountType := fun e he =>
    (E.kind e.tag (mem_map_of_mem he)).trans hv.symm
  have huninit : ∀ e ∈ E.area.entries, e.tag ≠ .uninitialized := fun e he =>
    E.ne_uninitialized (mem_map_of_mem he)
  have hscan := getExtensionIndicesFrom_encode init hkind huninit [] (n := E.area.free)
    (le_of_eq E.area.length_bytes.symm)
  rw [nil_append, length_nil, zero_add] at hscan
  exact hscan

theorem getExtensionTypes_bytes : getExtensionTypes E.bytes = .ok E.types := by
  have huninit : ∀ e ∈ E.area.entries, e.tag ≠ .uninitialized := fun e he =>
    E.ne_uninitialized (mem_map_of_mem he)
  have hscan := getExtensionTypesFrom_encode huninit [] (n := E.area.free)
    (le_of_eq E.area.length_bytes.symm)
  exact hscan

theorem getFirstExtensionType_bytes : getFirstExtensionType E.bytes = .ok E.types.head? := by
  have hne := fun t (h : t ∈ E.types) => E.ne_uninitialized h
  obtain ⟨⟨es, n, hnodup⟩, hkind⟩ := E
  rw [getFirstExtensionType]
  cases es with
  | nil =>
    show (if (replicate n (0 : UInt8)).length ≤ 2 then _ else _) = _
    by_cases hn : n ≤ 2
    · simp [hn, types, Area.tags]
    · have htype := type_of_free [] (show 2 ≤ n by omega)
      simp only [nil_append, length_nil] at htype
      rw [if_neg (by simpa using hn)]
      show (ofBytes (slice (.replicate n 0) _ 2) >>= _) = _
      rw [htype]
      rfl
  | cons e es =>
    have htype := type_of_entry [] (encode es ++ .replicate n 0) e
    have hlen := length_entry_bytes e
    have hbytes : (⟨⟨e :: es, n, hnodup⟩, hkind⟩ : Extensions S).bytes =
        e.bytes ++ (encode es ++ .replicate n 0) := by
      simp [bytes, Area.bytes]
    rw [hbytes, if_neg (by simp [getTlvIndices]; omega)]
    simp only [nil_append, length_nil] at htype
    rw [htype]
    show (if e.tag = .uninitialized then _ else _) = _
    rw [if_neg (hne e.tag (by simp [types, Area.tags]))]
    rfl

end Extensions

/-! ## Operations of a view -/

def defaultValue (v : ExtensionType) : List UInt8 := .replicate v.getTypeLen 0

@[simp] theorem length_defaultValue (v : ExtensionType) :
    (defaultValue v).length = v.getTypeLen := length_replicate

namespace Extensions

variable {S : Type} [BaseState S] (E : Extensions S)

/-- No extensions yet, and `n` bytes for them. -/
def blank (S : Type) [BaseState S] (n : Nat) : Extensions S :=
  ⟨.blank n, fun _ h => absurd h not_mem_nil⟩

variable (v : ExtensionType) (b : List UInt8)

def set (hb : b.length = v.getTypeLen) : Extensions S :=
  ⟨E.area.set v b hb, fun t ht => E.kind t ((tags_set hb : _ = E.area.tags) ▸ ht)⟩

/-- Add an extension behind the others. -/
def push (hb : b.length = v.getTypeLen) (h : v ∉ E.types)
    (hv : v.getAccountType = BaseState.accountType S) : Extensions S where
  area := E.area.push v b hb h
  kind t ht := by
    have htags : (E.area.push v b hb h).tags = E.area.tags ++ [v] := tags_push hb h
    rw [htags, mem_append, mem_singleton] at ht
    rcases ht with ht | rfl
    · exact E.kind t ht
    · exact hv

variable {E} {v w : ExtensionType} {b : List UInt8}

variable (hb : b.length = v.getTypeLen)
include hb

@[simp] theorem types_set : (E.set v b hb).types = E.types :=
  tags_set hb

@[simp] theorem types_push (h : v ∉ E.types) (hv : v.getAccountType = BaseState.accountType S) :
    (E.push v b hb h hv).types = E.types ++ [v] :=
  tags_push hb h

theorem lookup_set_same (h : v ∈ E.types) : (E.set v b hb).lookup v = some b :=
  Area.lookup_set_same hb h

theorem lookup_set_of_ne (h : w ≠ v) : (E.set v b hb).lookup w = E.lookup w :=
  Area.lookup_set_of_ne hb h

variable (h : v ∉ E.types) (hv : v.getAccountType = BaseState.accountType S)
include h hv

theorem lookup_push_same : (E.push v b hb h hv).lookup v = some b :=
  Area.lookup_push_same hb h

theorem lookup_push_of_ne (hw : w ≠ v) : (E.push v b hb h hv).lookup w = E.lookup w :=
  Area.lookup_push_of_ne hb h hw

omit h hv

theorem bytes_set (h : v ∈ E.types) :
    (E.set v b hb).bytes = splice E.bytes (E.area.offset v + 4) b :=
  Area.bytes_set hb h

theorem bytes_push (h : v ∉ E.types) (hv : v.getAccountType = BaseState.accountType S) :
    (E.push v b hb h hv).bytes = splice E.bytes E.area.used (format.header v ++ b) :=
  Area.bytes_push hb h

omit hb

theorem offset_add_le (h : v ∈ E.types) : E.area.offset v + (4 + v.getTypeLen) ≤ E.bytes.length :=
  Area.offset_add_le h

theorem lengthAt_bytes (h : v ∈ E.types) :
    lengthAt E.bytes (getTlvIndices (E.area.offset v)) = v.getTypeLen := by
  have hhead : slice E.bytes (E.area.offset v) 4 = format.header v := slice_header h
  have hlen := v.length_toBytes
  have hlen' := length_leBytes 2 v.getTypeLen
  have hfield : slice E.bytes (E.area.offset v + 2) 2 = leBytes 2 v.getTypeLen := by
    rw [← slice_slice (show 2 + 2 ≤ 4 by omega), hhead, format_header,
      slice_append_right (by omega), hlen, Nat.sub_self, slice_self hlen']
  rw [lengthAt, getTlvIndices, hfield, ofLe_leBytes_of_lt v.getTypeLen_lt]

/-- The value of a record that is present, as the views read it. -/
theorem subslice_bytes (h : E.lookup v = some b) :
    subslice E.bytes (E.area.offset v + 4) v.getTypeLen = .ok b := by
  have hle := E.offset_add_le (E.mem_types.mpr ⟨b, h⟩)
  have hval : slice E.bytes (E.area.offset v + 4) v.getTypeLen = b := slice_value h
  rw [subslice, if_pos (by omega), hval]

end Extensions

namespace StateWithExtensionsMut

variable {S α : Type} [BaseState S] {st : StateWithExtensionsMut S} {v : ExtensionType}

omit [BaseState S] in
@[simp] theorem run_orFail_ok (a : α) :
    (orFail (.ok a) : EStateM Fault (StateWithExtensionsMut S) α).run st = .ok a st := rfl

omit [BaseState S] in
@[simp] theorem run_orFail_error (e : Fault) :
    (orFail (.error e) : EStateM Fault (StateWithExtensionsMut S) α).run st = .error e st := rfl

omit [BaseState S] in
@[simp] theorem run_writeTlv (start : Nat) (b : List UInt8) :
    (writeTlv start b : EStateM Fault (StateWithExtensionsMut S) Unit).run st =
      .ok () { st with tlvData := splice st.tlvData start b } := rfl

variable (init : Bool)

theorem run_initOrGetExtension_of_kind_ne (h : v.getAccountType ≠ BaseState.accountType S) :
    (initOrGetExtension v init).run st = .error invalidAccountData st := by
  simp [initOrGetExtension, failIf, h]

variable (hv : v.getAccountType = BaseState.accountType S)
include hv

theorem run_initOrGetExtension_of_error {e : Fault}
    (h : getExtensionIndices v st.tlvData init = .error e) :
    (initOrGetExtension v init).run st = .error e st := by
  simp [initOrGetExtension, failIf, hv, h]

/-- Initialising writes the header and the default value at the place found. -/
theorem run_initExtension_at {i : Nat}
    (h : getExtensionIndices v st.tlvData true = .ok (getTlvIndices i))
    (hroom : i + (4 + v.getTypeLen) ≤ st.tlvData.length) :
    (initExtension v).run st = .ok (i + 4) (st.assign i (format.header v ++ defaultValue v)) := by
  have hfits : ¬ st.tlvData.length - (getTlvIndices i).typeStart < v.getTlvLen := by
    simp only [getTlvIndices, getTlvLen]
    omega
  have hlen := v.length_toBytes
  have hheader : splice (splice st.tlvData i v.toBytes) (i + 2) (leBytes 2 v.getTypeLen) =
      splice st.tlvData i (format.header v) := by
    rw [format_header, ← splice_splice_append (by omega), hlen]
  have hlenHeader : (splice st.tlvData i (format.header v)).length = st.tlvData.length :=
    length_splice (by rw [format.length_header, format_headerLen]; omega)
  have hvalue : subslice (splice st.tlvData i (format.header v)) (i + 2 + 2) v.getTypeLen =
      .ok (slice (splice st.tlvData i (format.header v)) (i + 2 + 2) v.getTypeLen) := by
    rw [subslice, if_pos (by omega)]
  have hall : splice (splice st.tlvData i (format.header v)) (i + 2 + 2) (defaultValue v) =
      splice st.tlvData i (format.header v ++ defaultValue v) := by
    rw [← splice_splice_append (by rw [format.length_header, format_headerLen]; omega),
      format.length_header, format_headerLen]
  simp only [getTlvIndices] at h hfits
  rw [defaultValue] at hall
  simp [-bind_pure_comp, initExtension, initOrGetExtension, failIf, hv, h, hfits, hheader, hvalue,
    hall, assign, defaultValue]

omit hv

variable {E : Extensions S}

variable (h : st.tlvData = E.bytes)
include h

theorem getExtension_bytes (v : ExtensionType) :
    st.getExtension v = okOr (E.lookup v) (.err invalidAccountData) := by
  rw [getExtension, h]
  by_cases hv : v.getAccountType = BaseState.accountType S
  · cases hb : E.lookup v with
    | none =>
      have hmem := E.lookup_eq_none.mp hb
      simp [failIf, hv, E.getExtensionIndices_bytes hv, hmem, okOr]
    | some b =>
      have hmem := E.mem_types.mpr ⟨b, hb⟩
      have hle := E.offset_add_le hmem
      have hfits : ¬ E.bytes.length - (getTlvIndices (E.area.offset v)).typeStart <
          v.getTlvLen := by
        simp only [getTlvIndices, getTlvLen]
        omega
      have hvalue := E.subslice_bytes hb
      have hlen := E.length_lookup hb
      simp only [E.getExtensionIndices_bytes hv, hmem, true_or, if_true, failIf, hv, ne_eq,
        not_true_eq_false, if_false, ok_bind, hfits, E.lengthAt_bytes hmem]
      show (subslice E.bytes (E.area.offset v + 4) v.getTypeLen >>= _) = _
      rw [hvalue, ok_bind, podFromBytes, if_pos hlen]
      rfl
  · simp [failIf, hv, E.lookup_of_kind_ne hv, okOr]

theorem run_getExtensionMut (v : ExtensionType) :
    (getExtensionMut v).run st =
      if v ∈ E.types then .ok (E.area.offset v + 4) st
      else .error invalidAccountData st := by
  by_cases hv : v.getAccountType = BaseState.accountType S
  · have hidx := E.getExtensionIndices_bytes hv false
    rw [← h] at hidx
    by_cases hmem : v ∈ E.types
    · obtain ⟨b, hb⟩ := E.mem_types.mp hmem
      have hle := E.offset_add_le hmem
      have hfits : ¬ st.tlvData.length - (getTlvIndices (E.area.offset v)).typeStart <
          v.getTlvLen := by
        rw [h]
        simp only [getTlvIndices, getTlvLen]
        omega
      have hlength : lengthAt st.tlvData (getTlvIndices (E.area.offset v)) = v.getTypeLen := by
        rw [h, E.lengthAt_bytes hmem]
      have hvalue : subslice st.tlvData (getTlvIndices (E.area.offset v)).valueStart
          v.getTypeLen = .ok b := by
        rw [h]
        exact E.subslice_bytes hb
      simp [-bind_pure_comp, getExtensionMut, initOrGetExtension, failIf, hv, hidx, hfits, hlength,
        hvalue, podFromBytes, E.length_lookup hb, hmem]
      rfl
    · rw [if_neg (by simpa using hmem)] at hidx
      rw [getExtensionMut, run_initOrGetExtension_of_error false hv hidx, if_neg hmem]
  · have hmem : v ∉ E.types := E.lookup_eq_none.mp (E.lookup_of_kind_ne hv)
    rw [getExtensionMut, run_initOrGetExtension_of_kind_ne false hv, if_neg hmem]

theorem run_initExtension_present (hmem : v ∈ E.types) :
    (initExtension v).run st = .ok (E.area.offset v + 4)
      { st with tlvData := (E.set v (defaultValue v) (length_defaultValue v)).bytes } := by
  have hv := E.kind v hmem
  have hle := E.offset_add_le hmem
  have hidx := E.getExtensionIndices_bytes hv true
  rw [if_pos (.inl hmem), ← h] at hidx
  rw [run_initExtension_at hv hidx (by rw [h]; exact hle), E.bytes_set _ hmem, assign, h]
  have hhead : format.header v = slice E.bytes (E.area.offset v) 4 := (slice_header hmem).symm
  rw [hhead, splice_slice_append (by omega)]

theorem run_initExtension_absent (hmem : v ∉ E.types)
    (hv : v.getAccountType = BaseState.accountType S) (hroom : v.getTlvLen ≤ E.area.free) :
    (initExtension v).run st = .ok (E.area.used + 4)
      { st with tlvData := (E.push v (defaultValue v) (length_defaultValue v) hmem hv).bytes } := by
  have hlen : E.bytes.length = E.area.used + E.area.free := E.area.length_bytes
  rw [getTlvLen] at hroom
  have hidx := E.getExtensionIndices_bytes hv true
  rw [if_pos (.inr ⟨rfl, by omega⟩), ← h, offset_of_not_mem hmem] at hidx
  rw [run_initExtension_at hv hidx (by rw [h, hlen]; omega), E.bytes_push _ hmem hv, assign, h]

theorem run_initExtension_full (hmem : v ∉ E.types)
    (hroom : v.getAccountType = BaseState.accountType S → E.area.free < v.getTlvLen) :
    (initExtension v).run st = .error invalidAccountData st := by
  by_cases hv : v.getAccountType = BaseState.accountType S
  · have hidx := E.getExtensionIndices_bytes hv true
    have hlen : E.bytes.length = E.area.used + E.area.free := E.area.length_bytes
    by_cases hfree : 4 ≤ E.area.free
    · rw [if_pos (.inr ⟨rfl, hfree⟩), ← h, offset_of_not_mem hmem] at hidx
      have hfull : st.tlvData.length - (getTlvIndices E.area.used).typeStart < v.getTlvLen := by
        have := hroom hv
        rw [h, hlen]
        simp only [getTlvIndices]
        omega
      simp [initExtension, initOrGetExtension, failIf, hv, hidx, hfull]
    · rw [if_neg (by simp [hmem, hfree]), ← h] at hidx
      exact run_initOrGetExtension_of_error true hv hidx
  · exact run_initOrGetExtension_of_kind_ne true hv

end StateWithExtensionsMut

end SolanaPrograms.Token2022
