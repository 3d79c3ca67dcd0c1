import SolanaPrograms.Lib.Bytes

/-!
# Tagged records in a byte area

An area is a sequence of records with pairwise different tags, followed by free space that is
zero-filled. A record is a header, whose bytes are fixed by the tag, and a value, whose length
is fixed by the tag. Nothing here depends on what tags there are or how a header is written.

`Area.set` replaces a value and `Area.push` adds a record. Both are a write of consecutive bytes,
which is how programs perform them.
-/

namespace SolanaPrograms.Tlv

open Bytes List

/-- The layout of records: a header of fixed width and a value of fixed size for each tag. -/
structure Format (T : Type) where
  header : T → List UInt8
  headerLen : Nat
  size : T → Nat
  length_header : ∀ t, (header t).length = headerLen

structure Entry {T : Type} (F : Format T) where
  tag : T
  value : List UInt8
  length_value : value.length = F.size tag

section Records

variable {T : Type} {F : Format T}

def Entry.bytes (e : Entry F) : List UInt8 := F.header e.tag ++ e.value

theorem Entry.length_bytes (e : Entry F) : e.bytes.length = F.headerLen + F.size e.tag := by
  rw [Entry.bytes, length_append, F.length_header, e.length_value]

def encode (es : List (Entry F)) : List UInt8 := es.flatMap Entry.bytes

@[simp] theorem encode_nil : encode ([] : List (Entry F)) = [] := rfl

@[simp] theorem encode_cons (e : Entry F) (es : List (Entry F)) :
    encode (e :: es) = e.bytes ++ encode es := rfl

@[simp] theorem encode_append (es fs : List (Entry F)) :
    encode (es ++ fs) = encode es ++ encode fs := flatMap_append

variable [DecidableEq T]

def lookupIn (t : T) : List (Entry F) → Option (List UInt8)
  | [] => none
  | e :: es => if e.tag = t then some e.value else lookupIn t es

/-- Where the first record with tag `t` starts; the end of the records if there is none. -/
def offsetIn (t : T) : List (Entry F) → Nat
  | [] => 0
  | e :: es => if e.tag = t then 0 else e.bytes.length + offsetIn t es

def setIn (t : T) (v : List UInt8) (hv : v.length = F.size t) (es : List (Entry F)) :
    List (Entry F) :=
  es.map fun e => if h : e.tag = t then ⟨e.tag, v, by rw [hv, h]⟩ else e

section Lists

variable {t u : T} {v : List UInt8} (hv : v.length = F.size t) (es : List (Entry F))

theorem setIn_cons (e : Entry F) :
    setIn t v hv (e :: es) =
      (if h : e.tag = t then ⟨e.tag, v, by rw [hv, h]⟩ else e) :: setIn t v hv es := rfl

@[simp] theorem map_tag_setIn : (setIn t v hv es).map Entry.tag = es.map Entry.tag := by
  induction es with
  | nil => rfl
  | cons _ _ ih =>
    rw [setIn_cons, map_cons, map_cons, ih]
    split <;> rfl

theorem setIn_of_not_mem (h : t ∉ es.map Entry.tag) : setIn t v hv es = es := by
  induction es with
  | nil => rfl
  | cons _ _ ih =>
    rw [map_cons, mem_cons, not_or] at h
    rw [setIn_cons, dif_neg (Ne.symm h.1), ih h.2]

theorem lookupIn_eq_none : lookupIn t es = none ↔ t ∉ es.map Entry.tag := by
  induction es with
  | nil => simp [lookupIn]
  | cons e _ ih =>
    by_cases h : e.tag = t
    · simp [lookupIn, h]
    · simp [lookupIn, h, ih, Ne.symm h]

theorem lookupIn_append (fs : List (Entry F)) :
    lookupIn t (es ++ fs) = (lookupIn t es).or (lookupIn t fs) := by
  induction es with
  | nil => simp [lookupIn]
  | cons e _ ih =>
    by_cases h : e.tag = t
    · simp [lookupIn, h]
    · simp [lookupIn, h, ih]

theorem lookupIn_setIn_same (h : t ∈ es.map Entry.tag) : lookupIn t (setIn t v hv es) = some v := by
  induction es with
  | nil => simp at h
  | cons e _ ih =>
    rw [setIn_cons]
    by_cases he : e.tag = t
    · simp [lookupIn, he]
    · rw [map_cons, mem_cons] at h
      rw [dif_neg he, lookupIn, if_neg he]
      exact ih (h.resolve_left (Ne.symm he))

theorem lookupIn_setIn_of_ne (h : u ≠ t) : lookupIn u (setIn t v hv es) = lookupIn u es := by
  induction es with
  | nil => rfl
  | cons e _ ih =>
    rw [setIn_cons]
    by_cases he : e.tag = t
    · have hu : ¬ e.tag = u := fun hu => h (hu.symm.trans he)
      rw [dif_pos he, lookupIn, lookupIn, if_neg hu, if_neg hu, ih]
    · rw [dif_neg he, lookupIn, lookupIn, ih]

theorem length_lookupIn {w : List UInt8} (h : lookupIn t es = some w) : w.length = F.size t := by
  induction es with
  | nil => simp [lookupIn] at h
  | cons e _ ih =>
    rw [lookupIn] at h
    split at h
    next he => cases h; rw [e.length_value, he]
    next => exact ih h

theorem offsetIn_of_not_mem (h : t ∉ es.map Entry.tag) : offsetIn t es = (encode es).length := by
  induction es with
  | nil => rfl
  | cons _ _ ih =>
    rw [map_cons, mem_cons, not_or] at h
    rw [offsetIn, if_neg (Ne.symm h.1), ih h.2, encode_cons, length_append]

theorem offsetIn_append (fs : List (Entry F)) (h : t ∈ es.map Entry.tag) :
    offsetIn t (es ++ fs) = offsetIn t es := by
  induction es with
  | nil => simp at h
  | cons e _ ih =>
    rw [cons_append, offsetIn, offsetIn]
    by_cases he : e.tag = t
    · rw [if_pos he, if_pos he]
    · rw [map_cons, mem_cons] at h
      rw [if_neg he, if_neg he, ih (h.resolve_left (Ne.symm he))]

theorem offsetIn_append_of_not_mem (fs : List (Entry F)) (h : t ∉ es.map Entry.tag) :
    offsetIn t (es ++ fs) = (encode es).length + offsetIn t fs := by
  induction es with
  | nil => simp
  | cons _ _ ih =>
    rw [map_cons, mem_cons, not_or] at h
    rw [cons_append, offsetIn, if_neg (Ne.symm h.1), ih h.2, encode_cons,
      length_append]
    omega

theorem offsetIn_setIn : offsetIn u (setIn t v hv es) = offsetIn u es := by
  induction es with
  | nil => rfl
  | cons _ _ ih =>
    rw [setIn_cons, offsetIn, offsetIn, ih]
    split
    next he => simp only [Entry.length_bytes]
    next he => rfl

theorem encode_split (h : t ∈ es.map Entry.tag) :
    ∃ pre e post, es = pre ++ e :: post ∧ e.tag = t ∧ t ∉ pre.map Entry.tag ∧
      (encode pre).length = offsetIn t es ∧ lookupIn t es = some e.value := by
  induction es with
  | nil => simp at h
  | cons e es ih =>
    by_cases he : e.tag = t
    · exact ⟨[], e, es, rfl, he, by simp, by simp [offsetIn, he], by simp [lookupIn, he]⟩
    · rw [map_cons, mem_cons] at h
      obtain ⟨pre, f, post, hes, hf, hpre, hoff, hlook⟩ := ih (h.resolve_left (Ne.symm he))
      refine ⟨e :: pre, f, post, by rw [hes]; rfl, hf, ?_, ?_, ?_⟩
      · rw [map_cons, mem_cons, not_or]
        exact ⟨Ne.symm he, hpre⟩
      · rw [encode_cons, length_append, hoff, offsetIn, if_neg he]
      · rw [lookupIn, if_neg he, hlook]

end Lists

end Records

/-! ## Areas -/

/-- Records with pairwise different tags, followed by `free` zero bytes. -/
structure Area {T : Type} (F : Format T) where
  entries : List (Entry F)
  free : Nat
  nodup : (entries.map Entry.tag).Nodup

namespace Area

variable {T : Type} {F : Format T}

variable (A : Area F)

def bytes : List UInt8 := encode A.entries ++ .replicate A.free 0

/-- The tags of the records, in their order. -/
def tags : List T := A.entries.map Entry.tag

/-- How many bytes the records take; the next record goes there. -/
def used : Nat := (encode A.entries).length

theorem length_bytes : A.bytes.length = A.used + A.free := by
  rw [bytes, length_append, length_replicate, used]

def blank (n : Nat) : Area F := ⟨[], n, nodup_nil⟩

/-- An area with more free space behind it. -/
def grow (n : Nat) : Area F := ⟨A.entries, A.free + n, A.nodup⟩

theorem bytes_grow (n : Nat) : (A.grow n).bytes = A.bytes ++ .replicate n 0 := by
  rw [bytes, bytes, grow, append_assoc, replicate_append_replicate]

variable [DecidableEq T]

/-- The value kept for a tag. -/
def lookup (A : Area F) (t : T) : Option (List UInt8) := lookupIn t A.entries

/-- Where the record of a tag starts. -/
def offset (A : Area F) (t : T) : Nat := offsetIn t A.entries

@[simp] theorem lookup_grow (A : Area F) (n : Nat) (t : T) : (A.grow n).lookup t = A.lookup t :=
  rfl

variable {A : Area F} {t : T}

theorem lookup_eq_none : A.lookup t = none ↔ t ∉ A.tags :=
  lookupIn_eq_none A.entries

theorem mem_tags : t ∈ A.tags ↔ ∃ v, A.lookup t = some v := by
  rw [← Option.ne_none_iff_exists', ne_eq, lookup_eq_none, not_not]

theorem length_lookup {v : List UInt8} (h : A.lookup t = some v) : v.length = F.size t :=
  length_lookupIn A.entries h

theorem offset_of_not_mem (h : t ∉ A.tags) : A.offset t = A.used :=
  offsetIn_of_not_mem A.entries h

variable (A : Area F) (t : T) (v : List UInt8)

def set (hv : v.length = F.size t) : Area F where
  entries := setIn t v hv A.entries
  free := A.free
  nodup := by rw [map_tag_setIn]; exact A.nodup

/-- Add a record at the end of the records. -/
def push (hv : v.length = F.size t) (h : t ∉ A.tags) : Area F where
  entries := A.entries ++ [⟨t, v, hv⟩]
  free := A.free - (F.headerLen + F.size t)
  nodup := by
    rw [map_append]
    exact .append A.nodup (nodup_singleton t) (by simpa [tags] using h)

section Writes

variable {A : Area F} {t u : T} {v : List UInt8} (hv : v.length = F.size t)

@[simp] theorem tags_set : (A.set t v hv).tags = A.tags := map_tag_setIn hv A.entries

omit [DecidableEq T] in
@[simp] theorem tags_push (h : t ∉ A.tags) : (A.push t v hv h).tags = A.tags ++ [t] := by
  simp [tags, push]

theorem lookup_set_same (h : t ∈ A.tags) : (A.set t v hv).lookup t = some v :=
  lookupIn_setIn_same hv A.entries h

theorem lookup_set_of_ne (h : u ≠ t) : (A.set t v hv).lookup u = A.lookup u :=
  lookupIn_setIn_of_ne hv A.entries h

theorem lookup_push_same (h : t ∉ A.tags) : (A.push t v hv h).lookup t = some v := by
  have hnone : lookupIn t A.entries = none := (lookupIn_eq_none A.entries).mpr h
  simp [lookup, push, lookupIn_append, hnone, lookupIn]

theorem lookup_push_of_ne (h : t ∉ A.tags) (hu : u ≠ t) :
    (A.push t v hv h).lookup u = A.lookup u := by
  simp [lookup, push, lookupIn_append, lookupIn, hu.symm]

theorem offset_set : (A.set t v hv).offset u = A.offset u := offsetIn_setIn hv A.entries

theorem offset_push (h : t ∉ A.tags) (hu : u ∈ A.tags) : (A.push t v hv h).offset u = A.offset u :=
  offsetIn_append A.entries _ hu

theorem offset_push_same (h : t ∉ A.tags) : (A.push t v hv h).offset t = A.used := by
  rw [offset, push, offsetIn_append_of_not_mem A.entries _ h]
  simp [offsetIn, used]

theorem offset_add_le (h : t ∈ A.tags) :
    A.offset t + (F.headerLen + F.size t) ≤ A.bytes.length := by
  obtain ⟨_, e, _, hes, he, -, hoff, -⟩ := encode_split A.entries h
  rw [offset, ← hoff, bytes, hes, encode_append, encode_cons]
  simp only [length_append, e.length_bytes, he]
  omega

theorem slice_header (h : t ∈ A.tags) : slice A.bytes (A.offset t) F.headerLen = F.header t := by
  obtain ⟨_, _, _, hes, rfl, -, hoff, -⟩ := encode_split A.entries h
  rw [offset, ← hoff, bytes, hes, encode_append, encode_cons, append_assoc,
    slice_append_right (le_refl _), Nat.sub_self, Entry.bytes, append_assoc,
    append_assoc, slice_append_left (by rw [F.length_header]; omega),
    slice_self (F.length_header _)]

theorem slice_value (h : A.lookup t = some v) :
    slice A.bytes (A.offset t + F.headerLen) (F.size t) = v := by
  have hmem : t ∈ A.tags := mem_tags.mpr ⟨v, h⟩
  obtain ⟨_, e, _, hes, rfl, -, hoff, hlook⟩ := encode_split A.entries hmem
  have hval : e.value = v := Option.some.inj (hlook.symm.trans h)
  have hhead := F.length_header e.tag
  have hlen := e.length_value
  rw [offset, ← hoff, bytes, hes, encode_append, encode_cons, append_assoc,
    slice_append_right (by omega), Nat.add_sub_cancel_left, Entry.bytes, append_assoc,
    append_assoc, slice_append_right (by omega), hhead, Nat.sub_self,
    slice_append_left (by omega), slice_self hlen, hval]

theorem bytes_set (h : t ∈ A.tags) :
    (A.set t v hv).bytes = splice A.bytes (A.offset t + F.headerLen) v := by
  obtain ⟨pre, e, post, hes, he, hpre, hoff, -⟩ := encode_split A.entries h
  have hnodup := A.nodup
  rw [hes, map_append, map_cons, nodup_append, nodup_cons] at hnodup
  have hpost : t ∉ post.map Entry.tag := he ▸ hnodup.2.1.1
  have hset : setIn t v hv A.entries = pre ++ ⟨e.tag, v, by rw [hv, he]⟩ :: post := by
    have hp := setIn_of_not_mem hv pre hpre
    have hq := setIn_of_not_mem hv post hpost
    rw [setIn] at hp hq ⊢
    rw [hes, map_append, map_cons, hp, hq, dif_pos he]
  have hlen : (encode pre ++ F.header e.tag).length = A.offset t + F.headerLen := by
    rw [length_append, hoff, F.length_header, offset]
  have hold : A.bytes = (encode pre ++ F.header e.tag) ++
      (e.value ++ (encode post ++ .replicate A.free 0)) := by
    simp [bytes, hes, Entry.bytes]
  have hvlen : v.length = e.value.length := by rw [hv, e.length_value, he]
  rw [splice, hold, ← hlen, take_left, ← drop_drop, drop_left, hvlen,
    drop_left]
  simp [bytes, set, hset, Entry.bytes]

omit [DecidableEq T] in
theorem bytes_push (h : t ∉ A.tags) :
    (A.push t v hv h).bytes = splice A.bytes A.used (F.header t ++ v) := by
  have hlen : (F.header t ++ v).length = F.headerLen + F.size t := by
    rw [length_append, F.length_header, hv]
  have hdrop : (replicate A.free (0 : UInt8)).drop (F.headerLen + F.size t) =
      replicate (A.free - (F.headerLen + F.size t)) 0 := drop_replicate
  have hold : A.bytes = encode A.entries ++ .replicate A.free 0 := rfl
  rw [splice, hold, ← drop_drop, used, take_left, drop_left, hlen, hdrop]
  simp [bytes, push, Entry.bytes]

end Writes

end Area

end SolanaPrograms.Tlv
