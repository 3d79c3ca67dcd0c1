import SolanaPrograms.Lending.World

/-!
# The quote currency of a product

The attributes of a product are pairs of strings, each string behind a byte for its length. The
parser walks over them with a cursor that a length can push out of the area. Two of the three places
where this happens are compared with the end of the area; the length of a value is read without
(`RunsOut`). Everywhere else the parser returns the first value of `quote_currency`, or an error.
-/

namespace SolanaPrograms.Lending

open Outcome LendingError List

/-! ## The format -/

def Pair (bytes key value rest : List UInt8) : Prop :=
  ∃ length n : UInt8, length.toNat = key.length ∧ n.toNat = value.length ∧
    bytes = length :: (key ++ n :: (value ++ rest))

inductive Lists : List UInt8 → List UInt8 → Prop
  | here {bytes value rest : List UInt8} (h : Pair bytes quoteCurrencyKey value rest)
      (hvalue : value.length ≤ 32) : Lists bytes value
  | later {bytes key v rest value : List UInt8} (h : Pair bytes key v rest)
      (hkey : key ≠ quoteCurrencyKey) (hrest : Lists rest value) : Lists bytes value

/-- After pairs with other keys comes a key without a byte behind it for the length of its value. A
key as long as `quote_currency` that does not fit itself is not meant. -/
inductive RunsOut : List UInt8 → Prop
  | here {length : UInt8} {tail : List UInt8} (h : tail.length ≤ length.toNat)
      (hkey : ¬ (length.toNat = 14 ∧ tail.length < 14)) : RunsOut (length :: tail)
  | later {bytes key v rest : List UInt8} (h : Pair bytes key v rest)
      (hkey : key ≠ quoteCurrencyKey) (hrest : RunsOut rest) : RunsOut bytes

/-- The parser returns the first quote currency, filled up with zeros, or an error if there is
none. -/
def Parses (p : PythProduct) : Prop :=
  (∀ value, Lists p.attr value →
    getPythProductQuoteCurrency p = .ok (value ++ .replicate (32 - value.length) 0)) ∧
  ((¬ ∃ value, Lists p.attr value) →
    getPythProductQuoteCurrency p = .error invalidOracleConfig)

/-! ## The cursor -/

section Cursor

variable {attr tail bytes key value rest : List UInt8} {length : UInt8} {start fuel : ℕ}

/-- The cursor is before `bytes`, and there is fuel for the rest of the area. -/
structure At (attr : List UInt8) (fuel start : ℕ) (bytes : List UInt8) : Prop where
  size : attr.length = prodAttrSize
  rest : attr.drop start = bytes
  fuel : prodAttrSize ≤ start + fuel

theorem At.nil (h : At attr fuel start []) :
    quoteCurrencyLoop attr fuel start = .error invalidOracleConfig := by
  have hout : prodAttrSize ≤ start := h.size ▸ drop_eq_nil_iff.mp h.rest
  cases fuel with
  | zero => rfl
  | succ => rw [quoteCurrencyLoop, if_pos hout]

theorem At.cons (h : At attr fuel start (length :: tail)) :
    quoteCurrencyLoop attr fuel start =
      if length.toNat = 14 ∧ tail.length < 14 then .error invalidOracleConfig
      else match tail[length.toNat]? with
        | none => .error .panic
        | some n =>
          if length.toNat = 14 ∧ tail.take 14 = quoteCurrencyKey then
            if 32 < n.toNat ∨ tail.length < 15 + n.toNat then .error invalidOracleConfig
            else .ok ((tail.drop 15).take n.toNat ++ .replicate (32 - n.toNat) 0)
          else quoteCurrencyLoop attr (fuel - 1) (start + 1 + length.toNat + 1 + n.toNat) := by
  obtain ⟨hsize, hrest, hfuel⟩ := h
  have hcount : attr.length - start = tail.length + 1 := by
    rw [← length_drop, hrest, length_cons]
  have hfirst : attr[start]? = some length := by
    rw [← Nat.add_zero start, ← getElem?_drop, hrest]
    rfl
  have htail : attr.drop (start + 1) = tail := by
    rw [← drop_drop, hrest, drop_one, tail_cons]
  obtain ⟨fuel, rfl⟩ : ∃ n, fuel = n + 1 := ⟨fuel - 1, by omega⟩
  have hin : ¬ prodAttrSize ≤ start := by omega
  simp only [quoteCurrencyLoop, if_neg hin, attrAt, hfirst, quoteCurrencyValue, ← getElem?_drop,
    htail, okOr, pure, Except.pure, bind, Except.bind, Nat.add_sub_cancel, failIf]
  by_cases hlength : length.toNat = 14
  · have hshort : prodAttrSize < start + 1 + 14 ↔ tail.length < 14 := by omega
    have hlong : ∀ n, prodAttrSize < start + 1 + 14 + 1 + n ↔ tail.length < 15 + n := by omega
    have hvalue : attr.drop (start + 1 + 14 + 1) = tail.drop 15 := by rw [← htail, drop_drop]
    simp only [hlength, true_and, hshort, hlong, hvalue]
    cases tail[14]? with
    | none => simp only [ite_self]
    | some n =>
      by_cases hout : 32 < n.toNat ∨ tail.length < 15 + n.toNat <;>
        simp only [hout, if_true, if_false]
  · simp only [hlength, false_and, if_false]
    cases tail[length.toNat]? <;> rfl

theorem At.pair (h : At attr fuel start bytes) (hpair : Pair bytes key value rest)
    (hkey : key ≠ quoteCurrencyKey) : ∃ fuel' start', At attr fuel' start' rest ∧
      quoteCurrencyLoop attr fuel start = quoteCurrencyLoop attr fuel' start' := by
  obtain ⟨length, n, hlength, hn, rfl⟩ := hpair
  have hfuel := h.fuel
  refine ⟨fuel - 1, start + 1 + length.toNat + 1 + n.toNat, ⟨h.size, ?_, by omega⟩, ?_⟩
  · rw [show start + 1 + length.toNat + 1 + n.toNat = start + (length.toNat + (n.toNat + 1) + 1)
      by omega, ← drop_drop, h.rest, drop_succ_cons, hlength, ← drop_drop, drop_left,
      drop_succ_cons, hn, drop_left]
  · have hquote : ¬ (length.toNat = 14 ∧ take 14 (key ++ n :: (value ++ rest)) =
        quoteCurrencyKey) := by
      rintro ⟨h14, heq⟩
      rw [← h14, hlength, take_left] at heq
      exact hkey heq
    rw [h.cons, if_neg (by simp; omega), hlength, getElem?_append_right (le_refl _), Nat.sub_self,
      getElem?_cons_zero, ← hlength]
    simp only [if_neg hquote]

theorem At.lists (h : At attr fuel start bytes) (hlists : Lists bytes value) :
    quoteCurrencyLoop attr fuel start = .ok (value ++ .replicate (32 - value.length) 0) := by
  induction hlists generalizing fuel start with
  | here hpair hvalue =>
    obtain ⟨length, n, hlength, hn, rfl⟩ := hpair
    have h14 : length.toNat = 14 := hlength
    rw [h.cons, if_neg (by simp [quoteCurrencyKey]), h14]
    simp [quoteCurrencyKey, hn]
    omega
  | later hpair hkey _ ih =>
    obtain ⟨_, _, hnext, hloop⟩ := h.pair hpair hkey
    exact hloop.trans (ih hnext)

theorem At.runsOut (h : At attr fuel start bytes) (hout : RunsOut bytes) :
    quoteCurrencyLoop attr fuel start = .error .panic := by
  induction hout generalizing fuel start with
  | here hle hshort => rw [h.cons, if_neg hshort, getElem?_eq_none hle]
  | later hpair hkey _ ih =>
    obtain ⟨_, _, hnext, hloop⟩ := h.pair hpair hkey
    exact hloop.trans (ih hnext)

theorem exists_pair {n : UInt8} (hget : tail[length.toNat]? = some n)
    (hfit : length.toNat + 1 + n.toNat ≤ tail.length) : ∃ value rest,
      Pair (length :: tail) (tail.take length.toNat) value rest ∧ value.length = n.toNat := by
  obtain ⟨hlt, heq⟩ := List.getElem?_eq_some_iff.mp hget
  have hvalue : ((tail.drop (length.toNat + 1)).take n.toNat).length = n.toNat := by
    rw [length_take, length_drop]
    omega
  refine ⟨_, (tail.drop (length.toNat + 1)).drop n.toNat, ⟨length, n, ?_, hvalue.symm, ?_⟩, hvalue⟩
  · rw [length_take]
    omega
  · rw [take_append_drop, ← heq, ← drop_eq_getElem_cons hlt, take_append_drop]

/-- What is left is an error. By induction on the number of bytes. -/
theorem At.cases (h : At attr fuel start bytes) : (∃ value, Lists bytes value) ∨ RunsOut bytes ∨
    quoteCurrencyLoop attr fuel start = .error invalidOracleConfig := by
  induction hcount : bytes.length using Nat.strong_induction_on generalizing fuel start bytes with
  | _ count ih =>
  cases bytes with
  | nil => exact .inr (.inr h.nil)
  | cons length tail =>
    by_cases hshort : length.toNat = 14 ∧ tail.length < 14
    · exact .inr (.inr (h.cons.trans (if_pos hshort)))
    cases hget : tail[length.toNat]? with
    | none => exact .inr (.inl (.here (List.getElem?_eq_none_iff.mp hget) hshort))
    | some n =>
      have hround := h.cons
      simp only [if_neg hshort, hget] at hround
      by_cases hkey : length.toNat = 14 ∧ tail.take 14 = quoteCurrencyKey
      · rw [if_pos hkey] at hround
        by_cases hout : 32 < n.toNat ∨ tail.length < 15 + n.toNat
        · exact .inr (.inr (hround.trans (if_pos hout)))
        · obtain ⟨value, _, hpair, hvalue⟩ := exists_pair hget (by omega)
          rw [hkey.1, hkey.2] at hpair
          exact .inl ⟨value, .here hpair (by omega)⟩
      by_cases hfit : length.toNat + 1 + n.toNat ≤ tail.length
      · obtain ⟨_, rest, hpair, -⟩ := exists_pair hget hfit
        have hne : tail.take length.toNat ≠ quoteCurrencyKey := by
          intro heq
          have h14 : length.toNat = 14 := by
            rw [← Nat.min_eq_left (show length.toNat ≤ tail.length by omega), ← length_take, heq]
            rfl
          exact hkey ⟨h14, h14 ▸ heq⟩
        have hless : rest.length < count := by
          obtain ⟨_, _, -, -, heq⟩ := hpair
          rw [← hcount, heq]
          simp
          omega
        obtain ⟨_, _, hnext, hloop⟩ := h.pair hpair hne
        rcases ih _ hless hnext rfl with ⟨value, hlists⟩ | hout | herror
        · exact .inl ⟨value, .later hpair hne hlists⟩
        · exact .inr (.inl (.later hpair hne hout))
        · exact .inr (.inr (hloop.trans herror))
      · rw [if_neg hkey] at hround
        have hbytes := congrArg List.length h.rest
        rw [length_drop, h.size, hcount] at hbytes
        rw [length_cons] at hcount
        have hend : At attr (fuel - 1) (start + 1 + length.toNat + 1 + n.toNat) [] :=
          ⟨h.size, drop_eq_nil_of_le (by rw [h.size]; omega), by omega⟩
        exact .inr (.inr (hround.trans hend.nil))

end Cursor

theorem Parses.not_panic {p : PythProduct} (h : Parses p) :
    getPythProductQuoteCurrency p ≠ .error .panic := by
  intro hpanic
  by_cases hexists : ∃ value, Lists p.attr value
  · obtain ⟨value, hvalue⟩ := hexists
    rw [h.1 value hvalue] at hpanic
    cases hpanic
  · rw [h.2 hexists] at hpanic
    cases hpanic

theorem at_start {p : PythProduct} (hsize : p.attr.length = prodAttrSize) :
    At p.attr prodAttrSize 0 p.attr := ⟨hsize, rfl, Nat.le_add_left ..⟩

/-- A product whose attributes are these bytes and zeros. -/
def productOf (bytes : List UInt8) : PythProduct :=
  ⟨0, 2, 2, .program, bytes ++ .replicate (prodAttrSize - bytes.length) 0⟩

end SolanaPrograms.Lending
