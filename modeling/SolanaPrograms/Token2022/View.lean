import SolanaPrograms.Token2022.Area

/-!
# Buffers and their views

A view is a cut of a buffer into base state, padding, account type and extension area. This
module says which cuts the `unpack` functions accept (`split_eq_ok`), so that a buffer and its
view determine each other: `unpack_eq_ok` and `unpackUninitialized_eq_ok` turn a successful
unpacking into facts about the view and back.
-/

namespace SolanaPrograms.Token2022

open Outcome Bytes Tlv SolanaPrograms.Runtime List Pack
open Token (Mint Account Multisig)

namespace StateWithExtensionsMut

variable {S : Type} [BaseState S]

/-- The slices of a view have the lengths and the padding that the cut gives them. -/
structure Shape (st : StateWithExtensionsMut S) : Prop where
  length_baseData : st.baseData.length = len S
  not_multisig : st.bytes.length ≠ len Multisig
  slots : (st.padding = [] ∧ st.accountType = [] ∧ st.tlvData = []) ∨
    (st.padding = .replicate (baseAccountLength - len S) 0 ∧
      (∃ b, st.accountType = [b]) ∧ st.tlvData ≠ [])

section Split

variable {readBase : List UInt8 → Except Fault S} {check : AccountType → Except Fault Unit}
  {input : List UInt8} {st : StateWithExtensionsMut S}

variable {rest : List UInt8}

theorem typeAndTlvIndices_eq_none : typeAndTlvIndices S rest = .ok none ↔ rest = [] := by
  unfold typeAndTlvIndices
  by_cases h : rest = []
  · simp [h]
  · simp only [h, if_false, iff_false]
    intro hnone
    simp only [checks, reduceCtorEq, and_false] at hnone

theorem typeAndTlvIndices_eq_some {i j : Nat} :
    typeAndTlvIndices S rest = .ok (some (i, j)) ↔
      i = baseAccountLength - len S ∧ j = i + 1 ∧ j < rest.length ∧
        rest.take i = .replicate i 0 := by
  unfold typeAndTlvIndices
  by_cases h : rest = []
  · simp [h]
  · simp only [h, if_false, checks, Option.some.injEq, not_le, ne_eq, not_not]
    constructor
    · rintro ⟨hlen, hpad, rfl, rfl⟩
      exact ⟨rfl, rfl, hlen, hpad⟩
    · rintro ⟨rfl, rfl, hlen, hpad⟩
      exact ⟨hlen, hpad, rfl, rfl⟩

theorem slice_one {i : Nat} (h : i < rest.length) : slice rest i 1 = [(rest.drop i).headD 0] := by
  rw [slice, drop_eq_getElem_cons h]
  rfl

/-- **What a cut is.** A buffer is cut into a view exactly when it is the bytes of that view,
the view has the right shape, and the base state and the account type pass their checks. -/
theorem split_eq_ok : split S readBase check input = .ok st ↔
    input = st.bytes ∧ st.Shape ∧ readBase st.baseData = .ok st.base ∧
      ∀ b, st.accountType = [b] → ∃ t, AccountType.ofByte b = .ok t ∧ check t = .ok () := by
  constructor
  · intro h
    simp only [split, checks, checkMinLenAndNotMultisig, not_or, not_lt] at h
    obtain ⟨⟨hms, hmin⟩, base, hbase, indices, hidx, h⟩ := h
    have hbaseLen : (input.take (len S)).length = len S := by
      rw [length_take, Nat.min_eq_left hmin]
    cases indices with
    | none =>
      have hrest : input.drop (len S) = [] := typeAndTlvIndices_eq_none.mp hidx
      have hinput : input.take (len S) = input :=
        take_of_length_le (drop_eq_nil_iff.mp hrest)
      cases pure_eq_ok.mp h
      have hbytes : input = bytes ⟨base, input.take (len S), [], [], []⟩ := by
        simp [bytes, hinput]
      refine ⟨hbytes, ⟨hbaseLen, hbytes ▸ hms, .inl ⟨rfl, rfl, rfl⟩⟩, hbase, ?_⟩
      intro b hb
      cases hb
    | some ij =>
      obtain ⟨i, _⟩ := ij
      obtain ⟨hi, rfl, _, hpad⟩ := typeAndTlvIndices_eq_some.mp hidx
      simp only [checks] at h
      obtain ⟨t, ht, _, hcheck, rfl⟩ := h
      have htype := slice_one (show i < (input.drop (len S)).length by omega)
      have hbytes : input = bytes ⟨base, input.take (len S), (input.drop (len S)).take i,
          slice (input.drop (len S)) i (i + 1 - i),
          (input.drop (len S)).drop (i + 1)⟩ := by
        simp only [bytes, slice, Nat.add_sub_cancel_left]
        rw [← drop_drop, take_append_drop, take_append_drop,
          take_append_drop]
      refine ⟨hbytes, ⟨hbaseLen, hbytes ▸ hms, .inr ⟨hi ▸ hpad, ?_, ?_⟩⟩, hbase, ?_⟩
      · exact ⟨_, by rw [Nat.add_sub_cancel_left, htype]⟩
      · exact ne_nil_of_length_pos (by rw [length_drop]; omega)
      · intro b hb
        rw [Nat.add_sub_cancel_left, htype] at hb
        cases hb
        exact ⟨t, ht, hcheck⟩
  · rintro ⟨rfl, hshape, hbase, htype⟩
    obtain ⟨hlen, hms, hslots⟩ := hshape
    have htake : st.bytes.take (len S) = st.baseData := by
      rw [bytes, ← hlen, take_left]
    have hdrop : st.bytes.drop (len S) = st.padding ++ (st.accountType ++ st.tlvData) := by
      rw [bytes, ← hlen, drop_left]
    have hmin : ¬ (st.bytes.length = len Multisig ∨ st.bytes.length < len S) := by
      rw [not_or, not_lt]
      exact ⟨hms, by rw [bytes, length_append, hlen]; omega⟩
    simp only [split, checkMinLenAndNotMultisig, failIf, hmin, if_false, ok_bind, htake, hdrop,
      hbase]
    rcases hslots with ⟨hp, ha, ht⟩ | ⟨hp, ⟨b, ha⟩, ht⟩
    · have hnone : typeAndTlvIndices S (st.padding ++ (st.accountType ++ st.tlvData)) =
          .ok none := typeAndTlvIndices_eq_none.mpr (by simp [hp, ha, ht])
      cases st
      simp_all [pure, Except.pure]
    · obtain ⟨_, hofByte, hcheck⟩ := htype b ha
      have hpos : 0 < st.tlvData.length := length_pos_of_ne_nil ht
      have hsome : typeAndTlvIndices S (st.padding ++ (st.accountType ++ st.tlvData)) =
          .ok (some (st.padding.length, st.padding.length + 1)) := by
        refine typeAndTlvIndices_eq_some.mpr ⟨by simp [hp], rfl, ?_, ?_⟩
        · simp only [length_append, ha, length_singleton]
          omega
        · rw [take_left, hp, length_replicate]
      have hcut : (st.padding ++ ([b] ++ st.tlvData)).drop (st.padding.length + 1) =
          st.tlvData := by
        rw [← drop_drop, drop_left]
        rfl
      rw [hsome]
      simp only [ok_bind, ha, drop_left, singleton_append, headD_cons, hofByte,
        hcheck, take_left, Nat.add_sub_cancel_left, slice_at_end] at hcut ⊢
      cases st
      simp_all [pure, Except.pure]

end Split

/-! ## Initialised and uninitialised views -/

/-- A view of an initialised state. -/
structure Valid (st : StateWithExtensionsMut S) : Prop extends Shape st where
  base_eq : Pack.unpack S st.baseData = .ok st.base
  type_eq : st.accountType = [] ∨ st.accountType = [(BaseState.accountType S).toByte]

/-- A view of a state that is not initialised yet. -/
structure Unclaimed (st : StateWithExtensionsMut S) : Prop extends Shape st where
  base_eq : unpackUnchecked S st.baseData = .ok st.base
  uninitialized : isInitialized st.base = false
  type_eq : st.accountType = [] ∨ st.accountType = [AccountType.uninitialized.toByte]
  first_eq : checkFirstExtensionType S st.tlvData = .ok ()

variable {input tlv : List UInt8} {st : StateWithExtensionsMut S}

theorem Shape.accountType_cases (h : st.Shape) :
    st.accountType = [] ∨ ∃ b, st.accountType = [b] := by
  rcases h.slots with ⟨-, ha, -⟩ | ⟨-, hb, -⟩
  · exact .inl ha
  · exact .inr hb

theorem Shape.typed_iff (h : st.Shape) {t : AccountType} :
    (∀ b, st.accountType = [b] → ∃ t', AccountType.ofByte b = .ok t' ∧ t' = t) ↔
      st.accountType = [] ∨ st.accountType = [t.toByte] := by
  constructor
  · intro htype
    rcases h.accountType_cases with ha | ⟨b, ha⟩
    · exact .inl ha
    · obtain ⟨_, ht, rfl⟩ := htype b ha
      exact .inr (by rw [ha, AccountType.toByte_of_ofByte ht])
  · rintro (ha | ha) b hb <;> rw [ha] at hb <;> cases hb
    exact ⟨t, AccountType.ofByte_toByte t, rfl⟩

theorem unpack_eq_ok : unpack S input = .ok st ↔ input = st.bytes ∧ st.Valid := by
  simp only [unpack, split_eq_ok, checkAccountType, failIf_eq_ok, ne_eq, not_not]
  constructor
  · rintro ⟨hin, hshape, hbase, htype⟩
    exact ⟨hin, hshape, hbase, hshape.typed_iff.mp htype⟩
  · rintro ⟨hin, hshape, hbase, htype⟩
    exact ⟨hin, hshape, hbase, hshape.typed_iff.mpr htype⟩

theorem unpackUninitializedBase_eq_ok {b : List UInt8} {base : S} :
    unpackUninitializedBase S b = .ok base ↔
      unpackUnchecked S b = .ok base ∧ isInitialized base = false := by
  simp only [unpackUninitializedBase, checks, Bool.not_eq_true]
  constructor
  · rintro ⟨base', hread, hinit, rfl⟩
    exact ⟨hread, hinit⟩
  · rintro ⟨hread, hinit⟩
    exact ⟨base, hread, hinit, rfl⟩

theorem unpackUninitialized_eq_ok :
    unpackUninitialized S input = .ok st ↔ input = st.bytes ∧ st.Unclaimed := by
  simp only [unpackUninitialized, bind_eq_ok, pure_eq_ok, split_eq_ok,
    unpackUninitializedBase_eq_ok, failIf_eq_ok, ne_eq, not_not]
  constructor
  · rintro ⟨st', ⟨hin, hshape, ⟨hbase, hinit⟩, htype⟩, u, hfirst, rfl⟩
    exact ⟨hin, hshape, hbase, hinit, hshape.typed_iff.mp htype, hfirst⟩
  · rintro ⟨hin, hshape, hbase, hinit, htype, hfirst⟩
    exact ⟨st, ⟨hin, hshape, ⟨hbase, hinit⟩, hshape.typed_iff.mpr htype⟩, (), hfirst, rfl⟩

/-! ## Edits of a view -/

theorem Shape.withTlv (h : st.Shape) (hlen : tlv.length = st.tlvData.length) :
    Shape { st with tlvData := tlv } where
  length_baseData := h.length_baseData
  not_multisig := by
    have hms := h.not_multisig
    simp only [bytes, length_append] at hms ⊢
    rw [hlen]
    exact hms
  slots := by
    rcases h.slots with ⟨hp, ha, ht⟩ | ⟨hp, ha, ht⟩
    · rw [ht, length_nil, length_eq_zero_iff] at hlen
      exact .inl ⟨hp, ha, hlen⟩
    · refine .inr ⟨hp, ha, ne_nil_of_length_pos ?_⟩
      rw [hlen]
      exact length_pos_of_ne_nil ht

theorem Shape.withBase (h : st.Shape) (base : S) : Shape (packBase { st with base := base }) where
  length_baseData := LawfulPack.length_packIntoSlice base h.length_baseData
  not_multisig := by
    have hms := h.not_multisig
    have hlen := LawfulPack.length_packIntoSlice base h.length_baseData
    have hold := h.length_baseData
    simp only [bytes, packBase, length_append] at hms ⊢
    rw [hlen, ← hold]
    exact hms
  slots := h.slots

theorem Valid.withTlv (h : st.Valid) (hlen : tlv.length = st.tlvData.length) :
    Valid { st with tlvData := tlv } :=
  ⟨h.toShape.withTlv hlen, h.base_eq, h.type_eq⟩

/-- An initialised base state is read back after `pack_base`. -/
theorem Valid.withBase (h : st.Valid) {base : S} (hinit : isInitialized base = true) :
    Valid (packBase { st with base := base }) :=
  ⟨h.toShape.withBase base, unpack_packIntoSlice h.length_baseData hinit, h.type_eq⟩

end StateWithExtensionsMut

end SolanaPrograms.Token2022
