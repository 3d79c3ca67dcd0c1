import SolanaPrograms.Token.UiAmount

/-!
# Reading and printing amounts

The text that is printed for an amount is a decimal numeral, and it is read back as that amount.
The reader hands both halves of a text to the parser of integers as one digit string, so it reads
the decimal numerals, and in addition texts with a plus sign in front of their digits.
-/

namespace SolanaPrograms.Token

open Outcome SolanaPrograms.Runtime List Nat

/-! ## Digits -/

section Digits

variable {s ds : List Char} {v n : UInt64}

theorem le_ofDigitChars (ds : List Char) (v : ℕ) : v ≤ ofDigitChars 10 ds v := by
  induction ds generalizing v with
  | nil => exact Nat.le_refl v
  | cons c ds ih =>
    rw [ofDigitChars_cons]
    exact Nat.le_trans (by omega) (ih _)

theorem pushDigit_eq_some {c : Char} : pushDigit v c = some n ↔
    c.isDigit = true ∧ 10 * v.toNat + (c.toNat - '0'.toNat) = n.toNat := by
  unfold pushDigit
  split
  next hc =>
    dsimp only
    split
    next hlt =>
      simp only [Option.some.injEq, hc, true_and, ← UInt64.toNat_inj, UInt64.toNat_ofNat_of_lt' hlt]
      omega
    next hge =>
      have hn := n.toNat_lt
      simp only [reduceCtorEq, hc, true_and, false_iff]
      omega
  next hc => simp [hc]

theorem foldlM_pushDigit : ds.foldlM pushDigit v = some n ↔
    (∀ c ∈ ds, c.isDigit = true) ∧ ofDigitChars 10 ds v.toNat = n.toNat := by
  induction ds generalizing v with
  | nil => simp [UInt64.toNat_inj]
  | cons c ds ih =>
    simp only [foldlM_cons, Option.bind_eq_bind, Option.bind_eq_some_iff, pushDigit_eq_some, ih,
      forall_mem_cons, ofDigitChars_cons]
    constructor
    · rintro ⟨v', ⟨hc, hv'⟩, hds, hn⟩
      exact ⟨⟨hc, hds⟩, hv' ▸ hn⟩
    · rintro ⟨⟨hc, hds⟩, hn⟩
      -- no intermediate value is larger than the last one
      have hle := le_ofDigitChars ds (10 * v.toNat + (c.toNat - '0'.toNat))
      have hlt : 10 * v.toNat + (c.toNat - '0'.toNat) < 2 ^ 64 := by
        have := n.toNat_lt
        omega
      have hv' := UInt64.toNat_ofNat_of_lt' hlt
      exact ⟨.ofNat _, ⟨hc, hv'.symm⟩, hds, by rwa [hv']⟩

/-- The text is a digit string for the number. -/
def DigitsOf (ds : List Char) (n : UInt64) : Prop :=
  ds ≠ [] ∧ (∀ c ∈ ds, c.isDigit = true) ∧ ofDigitChars 10 ds 0 = n.toNat

theorem parseU64_eq_some : parseU64 s = some n ↔
    DigitsOf s n ∨ ∃ ds, s = '+' :: ds ∧ DigitsOf ds n := by
  unfold parseU64 DigitsOf
  split
  · simp
  · simp
  next ds hds => simp_all [foldlM_pushDigit, show '+'.isDigit = false from rfl]
  next hnil _ hplus => simp_all [foldlM_pushDigit]

end Digits

/-! ## Numerals -/

/-- The text before the point and the text behind it. -/
def Halves (s i f : List Char) : Prop :=
  '.' ∉ i ∧ '.' ∉ f ∧ (s = i ∧ f = [] ∨ s = i ++ '.' :: f)

/-- The two halves are a decimal numeral that is worth `n` raw units. -/
@[mk_iff] structure Numeral (i f : List Char) (decimals : UInt8) (n : UInt64) : Prop where
  digits : ∀ c ∈ i ++ f, c.isDigit = true
  nonempty : i ≠ [] ∨ ∃ c ∈ f, c ≠ '0'
  places : (trimEndMatches '0' f).length ≤ decimals.toNat
  value : n.toNat * 10 ^ f.length = ofDigitChars 10 (i ++ f) 0 * 10 ^ decimals.toNat

/-- What the two halves are worth with the zeros that are missing on the right. -/
def paddedText (i f : List Char) (decimals : UInt8) : List Char :=
  i ++ trimEndMatches '0' f ++ .replicate (decimals.toNat - (trimEndMatches '0' f).length) '0'

section Numerals

variable {s i f : List Char} {d : UInt8} {n : UInt64}

theorem halves_of_length (h : ¬ 2 < (s.splitOn '.').length) :
    Halves s ((s.splitOn '.').headD []) ((s.splitOn '.').tail.headD []) := by
  by_cases hs : '.' ∈ s
  · obtain ⟨i, r, rfl, hi⟩ := eq_append_cons_of_mem hs
    rw [splitOn_append_cons_self_of_not_mem hi] at h ⊢
    by_cases hr : '.' ∈ r
    · obtain ⟨f, r', rfl, hf⟩ := eq_append_cons_of_mem hr
      have hpos := length_pos_of_ne_nil (splitOn_ne_nil '.' r')
      rw [splitOn_append_cons_self_of_not_mem hf, length_cons, length_cons] at h
      omega
    · rw [splitOn_eq_singleton hr]
      exact ⟨hi, hr, .inr rfl⟩
  · rw [splitOn_eq_singleton hs]
    exact ⟨hs, not_mem_nil, .inl ⟨rfl, rfl⟩⟩

theorem Halves.splitOn (h : Halves s i f) : (s.splitOn '.').headD [] = i ∧
    (s.splitOn '.').tail.headD [] = f ∧ (s.splitOn '.').length ≤ 2 := by
  obtain ⟨hi, hf, ⟨rfl, rfl⟩ | rfl⟩ := h
  · simp [splitOn_eq_singleton hi]
  · simp [splitOn_append_cons_self_of_not_mem hi, splitOn_eq_singleton hf]

theorem exists_zeros (f : List Char) : ∃ k, f = trimEndMatches '0' f ++ .replicate k '0' := by
  refine ⟨(f.rtakeWhile (· = '0')).length, ?_⟩
  have hzeros : f.rtakeWhile (· = '0') = .replicate (f.rtakeWhile (· = '0')).length '0' :=
    eq_replicate_of_mem fun c hc => by simpa using mem_rtakeWhile_imp hc
  rw [trimEndMatches, ← hzeros, rdropWhile_append_rtakeWhile]

theorem ofDigitChars_zeros (ds : List Char) (k : ℕ) :
    ofDigitChars 10 (ds ++ .replicate k '0') 0 = ofDigitChars 10 ds 0 * 10 ^ k := by
  rw [ofDigitChars_append, ofDigitChars_replicate_zero, Nat.mul_comm]

theorem byteLength_eq (h : ∀ c ∈ s, c.toNat < 128) : byteLength s = s.length := by
  induction s with
  | nil => rfl
  | cons c s ih =>
    obtain ⟨hc, hs⟩ := forall_mem_cons.mp h
    have hsize : c.utf8Size = 1 := Char.utf8Size_eq_one_iff.mpr (by
      change c.toNat ≤ 127
      omega)
    have hrest := ih hs
    unfold byteLength at hrest ⊢
    rw [map_cons, sum_cons, hrest, hsize, length_cons, Nat.add_comm]

theorem isDigit_zeros (k : ℕ) : ∀ c ∈ List.replicate k '0', c.isDigit = true := by
  intro c hc
  rw [eq_of_mem_replicate hc]
  rfl

theorem numeral_iff_padded : Numeral i f d n ↔ (i ≠ [] ∨ trimEndMatches '0' f ≠ []) ∧
    (trimEndMatches '0' f).length ≤ d.toNat ∧ DigitsOf (paddedText i f d) n := by
  have hsome : (∃ c ∈ f, c ≠ '0') ↔ trimEndMatches '0' f ≠ [] := by simp [trimEndMatches]
  rw [numeral_iff, hsome]
  refine and_left_comm.trans (and_congr_right fun hne => ?_)
  refine and_left_comm.trans (and_congr_right fun hle => ?_)
  obtain ⟨k, hk⟩ := exists_zeros f
  obtain ⟨e, he⟩ := Nat.exists_eq_add_of_le hle
  unfold paddedText DigitsOf
  generalize trimEndMatches '0' f = f' at *
  subst hk
  have hvalue : n.toNat * 10 ^ (f' ++ replicate k '0').length =
      ofDigitChars 10 (i ++ (f' ++ replicate k '0')) 0 * 10 ^ d.toNat ↔
        ofDigitChars 10 (i ++ f' ++ replicate (d.toNat - f'.length) '0') 0 = n.toNat := by
    rw [← append_assoc, ofDigitChars_zeros, ofDigitChars_zeros, he, Nat.add_sub_cancel_left,
      length_append, length_replicate]
    have hpos : 0 < 10 ^ (f'.length + k) := Nat.pow_pos (by decide)
    rw [show ∀ v : ℕ, v * 10 ^ k * 10 ^ (f'.length + e) = v * 10 ^ e * 10 ^ (f'.length + k) from
      fun v => by ring, Nat.mul_left_inj hpos.ne', eq_comm]
  have hempty : i ++ f' ++ replicate (d.toNat - f'.length) '0' ≠ [] := by
    simp only [ne_eq, append_eq_nil_iff, not_and_or]
    exact .inl hne
  rw [hvalue, ← append_assoc, forall_mem_append, @forall_mem_append _ _ _ (replicate _ '0'),
    and_iff_left (isDigit_zeros _), and_iff_left (isDigit_zeros _), and_iff_right hempty]

theorem ascii_of_parse (h : parseU64 s = some n) : ∀ c ∈ s, c.toNat < 128 := by
  have hdigit (c : Char) (hc : c.isDigit = true) : c.toNat < 128 := by
    simp only [Char.isDigit, Bool.and_eq_true, decide_eq_true_eq] at hc
    have hle : c.toNat ≤ 57 := hc.2
    omega
  rcases parseU64_eq_some.mp h with ⟨-, hds, -⟩ | ⟨ds, rfl, -, hds, -⟩
  · exact fun c hc => hdigit c (hds c hc)
  · exact forall_mem_cons.mpr ⟨by decide, fun c hc => hdigit c (hds c hc)⟩

theorem Halves.tryUiAmountIntoAmount (h : Halves s i f) : tryUiAmountIntoAmount s d = .ok n ↔
    (i ≠ [] ∨ trimEndMatches '0' f ≠ []) ∧ (trimEndMatches '0' f).length ≤ d.toNat ∧
      parseU64 (paddedText i f d) = some n := by
  obtain ⟨hi, hf, hlen⟩ := h.splitOn
  have hbytes {k : ℕ} (hparse : parseU64 (i ++ trimEndMatches '0' f ++ replicate k '0') = some n) :
      byteLength (trimEndMatches '0' f) = (trimEndMatches '0' f).length :=
    byteLength_eq fun c hc => ascii_of_parse hparse c (by simp [hc])
  simp only [Token.tryUiAmountIntoAmount, checks, hi, hf, not_or, not_lt, hlen, true_and,
    not_and_or, and_assoc, paddedText]
  refine and_congr_right fun _ => ⟨?_, ?_⟩ <;> rintro ⟨hle, hparse⟩
  · rw [hbytes hparse] at hle hparse
    exact ⟨hle, hparse⟩
  · rw [hbytes hparse]
    exact ⟨hle, hparse⟩

/-- A numeral with a plus sign in front of its digits, on either side of the point. -/
def SignedNumeral (i f : List Char) (d : UInt8) (n : UInt64) : Prop :=
  (trimEndMatches '0' f).length ≤ d.toNat ∧ ∃ ds, paddedText i f d = '+' :: ds ∧ DigitsOf ds n

theorem tryUiAmountIntoAmount_eq_ok : tryUiAmountIntoAmount s d = .ok n ↔
    ∃ i f, Halves s i f ∧ (Numeral i f d n ∨ SignedNumeral i f d n) := by
  constructor
  · intro h
    have hlen : ¬ 2 < (s.splitOn '.').length := by
      simp only [tryUiAmountIntoAmount, checks, not_or] at h
      exact h.1.2.1
    have hhalves := halves_of_length hlen
    obtain ⟨hsome, hle, hparse⟩ := hhalves.tryUiAmountIntoAmount.mp h
    refine ⟨_, _, hhalves, ?_⟩
    rcases parseU64_eq_some.mp hparse with hdigits | hsigned
    · exact .inl (numeral_iff_padded.mpr ⟨hsome, hle, hdigits⟩)
    · exact .inr ⟨hle, hsigned⟩
  · rintro ⟨i, f, hhalves, hnumeral | ⟨hle, hsigned⟩⟩
    · obtain ⟨hsome, hle, hdigits⟩ := numeral_iff_padded.mp hnumeral
      exact hhalves.tryUiAmountIntoAmount.mpr ⟨hsome, hle, parseU64_eq_some.mpr (.inl hdigits)⟩
    · refine hhalves.tryUiAmountIntoAmount.mpr ⟨?_, hle, parseU64_eq_some.mpr (.inr hsigned)⟩
      by_contra hnone
      obtain ⟨ds, hds, -⟩ := hsigned
      rw [not_or, not_not, not_not] at hnone
      rw [paddedText, hnone.1, hnone.2, nil_append, nil_append] at hds
      exact absurd (eq_of_mem_replicate (hds ▸ mem_cons_self)) (by decide)

theorem Numeral.trim (h : Numeral i f d n) : Numeral i (trimEndMatches '0' f) d n := by
  have hidem : trimEndMatches '0' (trimEndMatches '0' f) = trimEndMatches '0' f :=
    rdropWhile_idempotent ..
  rw [numeral_iff_padded, paddedText] at h ⊢
  rwa [hidem]

theorem Numeral.halves (h : Numeral i f d n) :
    Halves (i ++ '.' :: f) i f ∧ (f = [] → Halves i i f) := by
  have hpoint : '.' ∉ i ++ f := fun hmem => absurd (h.digits _ hmem) (by decide)
  rw [mem_append, not_or] at hpoint
  exact ⟨⟨hpoint.1, hpoint.2, .inr rfl⟩, fun hf => ⟨hpoint.1, hpoint.2, .inl ⟨rfl, hf⟩⟩⟩

theorem Numeral.read {s : List Char} (h : Numeral i f d n) (hs : Halves s i f) :
    tryUiAmountIntoAmount s d = .ok n :=
  tryUiAmountIntoAmount_eq_ok.mpr ⟨i, f, hs, .inl h⟩

theorem numeral_of_digits {a : UInt64} (hdigits : ∀ c ∈ s, c.isDigit = true)
    (hvalue : ofDigitChars 10 s 0 = a.toNat) (hlen : d.toNat < s.length) :
    Numeral (s.take (s.length - d.toNat)) (s.drop (s.length - d.toNat)) d a := by
  have hf : (s.drop (s.length - d.toNat)).length = d.toNat := by
    rw [length_drop]
    omega
  refine ⟨by rwa [take_append_drop], .inl ?_, ?_, ?_⟩
  · rw [ne_eq, take_eq_nil_iff]
    rintro (h | rfl)
    · omega
    · simp at hlen
  · exact (IsPrefix.length_le <| rdropWhile_prefix _ _).trans hf.le
  · rw [take_append_drop, hf, hvalue]

theorem rdropWhile_append_cons {p : Char → Bool} {c : Char} (hc : ¬ p c) (l : List Char) :
    (l ++ c :: f).rdropWhile p = l ++ c :: f.rdropWhile p := by
  induction f using reverseRecOn with
  | nil => rw [rdropWhile_concat_neg _ _ _ hc, rdropWhile_nil]
  | append_singleton f x ih =>
    rw [← cons_append, ← append_assoc, rdropWhile_concat, rdropWhile_concat, ih]
    split
    · rfl
    · rw [append_assoc, cons_append]

/-- Dropping the point behind the zeros leaves the halves. -/
theorem Numeral.halves_trimmed (h : Numeral i f d n) :
    Halves (trimEndMatches '.' (trimEndMatches '0' (i ++ '.' :: f))) i (trimEndMatches '0' f) := by
  obtain ⟨hhalves, hwhole⟩ := h.trim.halves
  rw [trimEndMatches, trimEndMatches, rdropWhile_append_cons (by decide)]
  change Halves ((i ++ '.' :: trimEndMatches '0' f).rdropWhile _) _ _
  by_cases hnil : trimEndMatches '0' f = []
  · have hkeep : i.rdropWhile (· = '.') = i := rdropWhile_eq_self_iff.mpr fun hl hlast =>
      hhalves.1 (of_decide_eq_true hlast ▸ getLast_mem hl)
    rw [hnil, rdropWhile_concat_pos _ _ _ (by decide), hkeep]
    exact hnil ▸ hwhole hnil
  · rwa [rdropWhile_eq_self_iff.mpr fun hl hlast => ?_]
    rw [getLast_append_of_ne_nil _ (cons_ne_nil _ _), getLast_cons hnil, decide_eq_true_eq] at hlast
    exact hhalves.2.1 (hlast ▸ getLast_mem hnil)

/-- What is printed: a numeral, with its zeros or without them. -/
theorem amountToUiAmountString_numeral (a : UInt64) (d : UInt8) : ∃ i f, Numeral i f d a ∧
    Halves (amountToUiAmountString a d) i f ∧
      Halves (amountToUiAmountStringTrimmed a d) i (trimEndMatches '0' f) := by
  let digits := toDigits 10 a.toNat
  let s := replicate (d.toNat + 1 - digits.length) '0' ++ digits
  have hdigits : ∀ c ∈ s, c.isDigit = true := forall_mem_append.mpr ⟨isDigit_zeros _,
    fun c hc => isDigit_of_mem_toDigits (by decide) (by decide) hc⟩
  have hvalue : ofDigitChars 10 s 0 = a.toNat := by
    rw [ofDigitChars_append, ofDigitChars_replicate_zero, Nat.mul_zero,
      ofDigitChars_ten_toDigits]
  have hlen : d.toNat < s.length := by
    rw [length_append, length_replicate]
    omega
  have hnumeral := numeral_of_digits hdigits hvalue hlen
  refine ⟨_, _, hnumeral, ?_⟩
  unfold amountToUiAmountStringTrimmed
  by_cases hd : 0 < d
  · have hprinted : amountToUiAmountString a d =
        s.take (s.length - d.toNat) ++ '.' :: s.drop (s.length - d.toNat) := if_pos hd
    rw [hprinted, if_pos hd]
    exact ⟨hnumeral.halves.1, hnumeral.halves_trimmed⟩
  · have hprinted : amountToUiAmountString a d = digits := if_neg hd
    have hzero : ¬ 0 < d.toNat := hd
    have hs : s = digits := by
      have hpos : 0 < digits.length := length_toDigits_pos
      rw [show s = replicate (d.toNat + 1 - digits.length) '0' ++ digits from rfl,
        show d.toNat + 1 - digits.length = 0 by omega, replicate_zero, nil_append]
    have hf : s.drop (s.length - d.toNat) = [] := by
      rw [drop_eq_nil_iff]
      omega
    have hi : s.take (s.length - d.toNat) = digits := by
      rw [take_of_length_le (by omega), hs]
    rw [if_neg hd, hprinted, ← hi]
    have hwhole := hnumeral.halves.2 hf
    refine ⟨hwhole, ?_⟩
    rwa [hf] at hwhole ⊢

/-- **Printed amounts are read back.** -/
theorem ui_amount_round_trip (a : UInt64) (d : UInt8) :
    tryUiAmountIntoAmount (amountToUiAmountString a d) d = .ok a ∧
      tryUiAmountIntoAmount (amountToUiAmountStringTrimmed a d) d = .ok a := by
  obtain ⟨i, f, hnumeral, hprinted, htrimmed⟩ := amountToUiAmountString_numeral a d
  exact ⟨hnumeral.read hprinted, hnumeral.trim.read htrimmed⟩

/-- The text is read as the numbers it is a decimal numeral for, and as no others. -/
def ReadsNumerals (s : List Char) (d : UInt8) : Prop :=
  ∀ n, tryUiAmountIntoAmount s d = .ok n ↔ ∃ i f, Halves s i f ∧ Numeral i f d n

/-- **What is read as an amount.** Texts are read as decimal numerals, except for those that have a
plus sign in front of their digits: the parser of integers, to which both halves go as one text,
lets it through. -/
theorem readsNumerals_iff (s : List Char) (d : UInt8) :
    ReadsNumerals s d ↔ ¬ ∃ i f n, Halves s i f ∧ SignedNumeral i f d n := by
  constructor
  · rintro h ⟨i, f, n, hhalves, hsigned⟩
    obtain ⟨i', f', hhalves', hnumeral⟩ :=
      (h n).mp (tryUiAmountIntoAmount_eq_ok.mpr ⟨i, f, hhalves, .inr hsigned⟩)
    obtain ⟨rfl, rfl, -⟩ := hhalves.splitOn
    obtain ⟨rfl, rfl, -⟩ := hhalves'.splitOn
    obtain ⟨-, ds, hds, -⟩ := hsigned
    obtain ⟨-, -, -, hdigits, -⟩ := numeral_iff_padded.mp hnumeral
    rw [hds] at hdigits
    exact absurd (hdigits '+' mem_cons_self) (by decide)
  · intro h n
    rw [tryUiAmountIntoAmount_eq_ok]
    constructor
    · rintro ⟨i, f, hhalves, hnumeral | hsigned⟩
      · exact ⟨i, f, hhalves, hnumeral⟩
      · exact absurd ⟨i, f, n, hhalves, hsigned⟩ h
    · rintro ⟨i, f, hhalves, hnumeral⟩
      exact ⟨i, f, hhalves, .inl hnumeral⟩

/-- A plus sign behind the point. -/
theorem not_readsNumerals : ¬ ∀ s d, ReadsNumerals s d := by
  intro h
  obtain ⟨i, f, hhalves, hnumeral⟩ := (h ['.', '+', '5'] 2 5).mp (by decide +kernel)
  obtain ⟨-, rfl, -⟩ := hhalves.splitOn
  exact absurd (hnumeral.digits '+' (mem_append_right _ (by decide))) (by decide)

end Numerals
end SolanaPrograms.Token
