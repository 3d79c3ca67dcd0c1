import Mathlib

/-!
# Byte strings: little-endian numbers and fixed slices

Fixed layouts are read with `slice` (a range of a buffer) and written by concatenating
the fields. The slice lemmas compute a field of a concatenation from the lengths of
the pieces before it, so that a record codec is verified field by field.
-/

namespace SolanaPrograms.Bytes

open List Nat

/-! ## Little-endian numbers -/

/-- The `w` little-endian bytes of `n`, higher bits dropped. -/
def leBytes : Nat → Nat → List UInt8
  | 0, _ => []
  | w + 1, n => UInt8.ofNat n :: leBytes w (n / 256)

/-- The number with the given little-endian bytes. -/
def ofLe : List UInt8 → Nat
  | [] => 0
  | b :: bs => b.toNat + 256 * ofLe bs

@[simp] theorem length_leBytes (w n : Nat) : (leBytes w n).length = w := by
  induction w generalizing n with
  | zero => rfl
  | succ _ ih => simp [leBytes, ih]

theorem ofLe_leBytes (w n : Nat) : ofLe (leBytes w n) = n % 256 ^ w := by
  induction w generalizing n with
  | zero => simp [leBytes, ofLe, mod_one]
  | succ w ih =>
    have hpow : 256 ^ (w + 1) = 256 * 256 ^ w := pow_succ' 256 w
    rw [leBytes, ofLe, ih, UInt8.toNat_ofNat', hpow, mod_mul]

variable {n off len : Nat} {b a v : List UInt8}

theorem ofLe_leBytes_of_lt {w : Nat} (h : n < 256 ^ w) : ofLe (leBytes w n) = n := by
  rw [ofLe_leBytes, mod_eq_of_lt h]

theorem leBytes_ofLe (b : List UInt8) : leBytes b.length (ofLe b) = b := by
  induction b with
  | nil => rfl
  | cons x b ih =>
    have hlt := x.toNat_lt
    have hdiv : (x.toNat + 256 * ofLe b) / 256 = ofLe b := by omega
    have hmod : UInt8.ofNat (x.toNat + 256 * ofLe b) = x := by
      apply UInt8.toNat.inj
      rw [UInt8.toNat_ofNat']
      omega
    rw [length_cons, leBytes, ofLe, hdiv, hmod, ih]

theorem ofLe_lt (b : List UInt8) : ofLe b < 256 ^ b.length := by
  rw [← leBytes_ofLe b, ofLe_leBytes, length_leBytes]
  exact mod_lt _ (by positivity)

/-! ## Consecutive fields -/

/-- Cut a buffer into consecutive fields of the given widths. -/
def splitFields : List Nat → List UInt8 → List (List UInt8)
  | [], _ => []
  | w :: ws, b => b.take w :: splitFields ws (b.drop w)

theorem splitFields_flatten {ws : List Nat} {fields : List (List UInt8)}
    (h : fields.map length = ws) : splitFields ws fields.flatten = fields := by
  induction fields generalizing ws with
  | nil => subst h; rfl
  | cons _ _ ih =>
    subst h
    simp only [map_cons, splitFields, flatten_cons, take_left, drop_left]
    rw [ih rfl]

theorem flatten_splitFields (ws : List Nat) (h : b.length = ws.sum) :
    (splitFields ws b).flatten = b := by
  induction ws generalizing b with
  | nil => exact (length_eq_zero_iff.mp h).symm
  | cons w ws ih =>
    rw [sum_cons] at h
    rw [splitFields, flatten_cons, ih (by rw [length_drop]; omega), take_append_drop]

/-! ## Slices -/

def slice (b : List UInt8) (off len : Nat) : List UInt8 := (b.drop off).take len

theorem length_slice (h : off + len ≤ b.length) : (slice b off len).length = len := by
  simp only [slice, length_take, length_drop]
  omega

theorem slice_append_left (h : off + len ≤ a.length) :
    slice (a ++ b) off len = slice a off len := by
  simp only [slice]
  rw [drop_append_of_le_length (by omega),
    take_append_of_le_length (by simp only [length_drop]; omega)]

theorem slice_append_right (h : a.length ≤ off) :
    slice (a ++ b) off len = slice b (off - a.length) len := by
  simp only [slice]
  rw [drop_append, drop_eq_nil_of_le h, nil_append]

theorem slice_self (h : a.length = len) : slice a 0 len = a := by
  subst h
  simp [slice]

theorem slice_append_slice (b : List UInt8) (off m n : Nat) :
    slice b off m ++ slice b (off + m) n = slice b off (m + n) := by
  simp only [slice]
  rw [← drop_drop, take_add]

theorem slice_slice {o : Nat} (h : o + n ≤ len) :
    slice (slice b off len) o n = slice b (off + o) n := by
  simp only [slice]
  rw [drop_take, take_take, min_eq_left (by omega), drop_drop]

/-! ## Writing at an offset -/

def splice (b : List UInt8) (off : Nat) (v : List UInt8) : List UInt8 :=
  b.take off ++ v ++ b.drop (off + v.length)

theorem length_splice (h : off + v.length ≤ b.length) : (splice b off v).length = b.length := by
  simp only [splice, length_append, length_take, length_drop]
  omega

theorem slice_splice_same (h : off + v.length ≤ b.length) :
    slice (splice b off v) off v.length = v := by
  have hlen : (b.take off).length = off := by simp; omega
  rw [splice, append_assoc, slice_append_right (by omega), hlen, Nat.sub_self,
    slice_append_left (by omega), slice_self rfl]

theorem slice_splice_before {o : Nat} (h : off + v.length ≤ b.length) (ho : o + n ≤ off) :
    slice (splice b off v) o n = slice b o n := by
  have hlen : (b.take off).length = off := by simp; omega
  rw [splice, append_assoc, slice_append_left (by omega)]
  conv_rhs => rw [← take_append_drop off b]
  rw [slice_append_left (by omega)]

theorem splice_slice (h : off + len ≤ b.length) : splice b off (slice b off len) = b := by
  rw [splice, length_slice h, slice, append_assoc, ← drop_drop,
    take_append_drop, take_append_drop]

theorem splice_splice_append {u w : List UInt8} (h : off + u.length ≤ b.length) :
    splice (splice b off u) (off + u.length) w = splice b off (u ++ w) := by
  have hlen : (b.take off ++ u).length = off + u.length := by simp; omega
  rw [splice, splice, ← hlen, take_left, ← drop_drop, drop_left, drop_drop,
    splice, hlen, length_append, add_assoc]
  simp only [append_assoc]

/-- Writing the first bytes back as they are leaves only the write of the others. -/
theorem splice_slice_append {w : List UInt8} (h : off + n ≤ b.length) :
    splice b off (slice b off n ++ w) = splice b (off + n) w := by
  have hlen := length_slice h
  rw [← splice_splice_append (by omega), splice_slice h, hlen]

/-! ## Chunks -/

/-- At most `fuel` pieces of `n` bytes. -/
def chunksAux (n : Nat) : Nat → List UInt8 → List (List UInt8)
  | 0, _ => []
  | fuel + 1, b => if b = [] then [] else b.take n :: chunksAux n fuel (b.drop n)

def chunks (n : Nat) (b : List UInt8) : List (List UInt8) := chunksAux n b.length b

theorem flatten_chunksAux (hn : 0 < n) (fuel : Nat) (b : List UInt8) (h : b.length ≤ fuel) :
    (chunksAux n fuel b).flatten = b := by
  induction fuel generalizing b with
  | zero => simpa [chunksAux, eq_comm] using h
  | succ _ ih =>
    unfold chunksAux
    split_ifs with hb
    · simp [hb]
    · have hlen := length_pos_of_ne_nil hb
      rw [flatten_cons, ih _ (by simp only [length_drop]; omega), take_append_drop]

theorem flatten_chunks (hn : 0 < n) (b : List UInt8) : (chunks n b).flatten = b :=
  flatten_chunksAux hn _ b le_rfl

end SolanaPrograms.Bytes
