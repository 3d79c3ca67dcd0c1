import SolanaPrograms.Lib.Bytes
import SolanaPrograms.Lib.Outcome

/-!
# Readers of the front of a buffer

A reader takes what it understands from the front of a buffer and returns it with the rest. It is
the inverse of a writer when it reads back what was written and leaves what follows untouched
(`Reads`); readers in sequence are verified one after the other.
-/

namespace SolanaPrograms.Bytes

open Outcome List

variable {ε α β : Type} {write : α → List UInt8} {input : List UInt8} {n : Nat} {e e' : ε}

/-- A value from the front of a buffer, and the rest of the buffer. -/
abbrev Reader (ε α : Type) := List UInt8 → Except ε (α × List UInt8)

/-- `input.split_first().ok_or(e)`. -/
def readByte (e : ε) : Reader ε UInt8
  | [] => .error e
  | b :: rest => .ok (b, rest)

/-- The first `n` bytes, or the error `e` if there are not so many. -/
def readSlice (e : ε) (n : Nat) : Reader ε (List UInt8) := fun input =>
  if n ≤ input.length then .ok (input.take n, input.drop n) else .error e

/-- `read` reads back what `write` wrote and leaves what follows. -/
def Reads (read : Reader ε α) (write : α → List UInt8) : Prop :=
  ∀ a rest, read (write a ++ rest) = .ok (a, rest)

@[simp] theorem readByte_cons (e : ε) (b : UInt8) (rest : List UInt8) :
    readByte e (b :: rest) = .ok (b, rest) := rfl

theorem readSlice_append (e : ε) {v : List UInt8} (h : v.length = n)
    (rest : List UInt8) : readSlice e n (v ++ rest) = .ok (v, rest) := by
  subst h
  rw [readSlice, if_pos (by simp), take_left, drop_left]

/-- A value that ends the buffer. -/
theorem Reads.all {read : Reader ε α} (h : Reads read write) (a : α) :
    read (write a) = .ok (a, []) := by
  have := h a []
  rwa [append_nil] at this

/-- The values of a fixed-width writer are read by cutting off their width. -/
theorem Reads.of_slice (e : ε) {value : List UInt8 → α}
    (hlen : ∀ a, (write a).length = n) (hvalue : ∀ a, value (write a) = a) :
    Reads (fun input => do
      let (v, rest) ← readSlice e n input
      return (value v, rest)) write := by
  intro a rest
  simp only [readSlice_append e (hlen a), ok_bind, hvalue]
  rfl

/-! ## Short buffers -/

@[simp] theorem avoids_readByte : Avoids e (readByte e' input) ↔ (input = [] → e' ≠ e) := by
  cases input <;> simp [readByte]

@[simp] theorem avoids_readSlice :
    Avoids e (readSlice e' n input) ↔ (input.length < n → e' ≠ e) := by
  rw [readSlice, avoids_ite]
  simp

end SolanaPrograms.Bytes
