import Mathlib

/-!
# Guarded computations that may fail

A program that returns early on every failed check is a chain of binds in `Except`.
This file fixes the two forms of a check (`failIf` for an early return, `okOr` for an
optional value) and the equations that turn "the whole chain returned `.ok`" into the
list of facts the checks established, in program order.
-/

namespace SolanaPrograms.Outcome

variable {ε α β : Type}

/-- The early return `if c { return Err(e) }`. -/
def failIf (c : Prop) [Decidable c] (e : ε) : Except ε Unit :=
  if c then .error e else .ok ()

def okOr (o : Option α) (e : ε) : Except ε α :=
  match o with
  | some a => .ok a
  | none => .error e

variable {b : β} {f : α → Except ε β} {x : Except ε α}

theorem bind_eq_ok : (x >>= f) = .ok b ↔ ∃ a, x = .ok a ∧ f a = .ok b := by
  cases x with
  | error => simp [bind, Except.bind]
  | ok => simp [bind, Except.bind]

variable {a : α}

@[simp] theorem ok_bind : (.ok a >>= f) = f a := rfl

variable {e : ε} {c : Prop}

@[simp] theorem error_bind : ((.error e : Except ε α) >>= f) = .error e := rfl

@[simp] theorem pure_eq_ok {b : α} : (pure a : Except ε α) = .ok b ↔ a = b := by
  simp [pure, Except.pure]

@[simp] theorem failIf_eq_ok [Decidable c] {u : Unit} : failIf c e = .ok u ↔ ¬ c := by
  unfold failIf
  split <;> simp_all

@[simp] theorem okOr_eq_ok {o : Option α} : okOr o e = .ok a ↔ o = some a := by
  cases o <;> simp [okOr]

@[simp] theorem toOption_eq_some : x.toOption = some a ↔ x = .ok a := by
  cases x <;> simp [Except.toOption]

/-- A check followed by the rest of the program. -/
theorem failIf_bind_eq_ok [Decidable c] {f : Unit → Except ε β} :
    (failIf c e >>= f) = .ok b ↔ ¬ c ∧ f () = .ok b := by
  rw [bind_eq_ok]
  constructor
  · rintro ⟨u, hu, hf⟩
    exact ⟨failIf_eq_ok.mp hu, hf⟩
  · rintro ⟨hc, hf⟩
    exact ⟨(), failIf_eq_ok.mpr hc, hf⟩

/-- A required optional value followed by the rest of the program. -/
theorem okOr_bind_eq_ok {o : Option α} :
    (okOr o e >>= f) = .ok b ↔ ∃ a, o = some a ∧ f a = .ok b := by
  simp only [bind_eq_ok, okOr_eq_ok]

/-- What the steps of a chain that returned `.ok` established, as one set of rewrite rules. -/
theorem checks :
    (∀ {ε α β : Type} {x : Except ε α} {f : α → Except ε β} {b : β},
      (x >>= f) = .ok b ↔ ∃ a, x = .ok a ∧ f a = .ok b) ∧
    (∀ {ε α : Type} {a b : α}, (pure a : Except ε α) = .ok b ↔ a = b) ∧
    (∀ {ε : Type} {c : Prop} [Decidable c] {e : ε} {u : Unit}, failIf c e = .ok u ↔ ¬ c) ∧
    (∀ {ε α : Type} {o : Option α} {e : ε} {a : α}, okOr o e = .ok a ↔ o = some a) ∧
    (∀ {p : Prop}, (∃ _ : Unit, p) ↔ p) ∧
    (∀ {α β : Type} {p : α × β → Prop}, (∃ x, p x) ↔ ∃ a b, p (a, b)) ∧
    ∀ {α β : Type} {a a' : α} {b b' : β}, (a, b) = (a', b') ↔ a = a' ∧ b = b' :=
  ⟨bind_eq_ok, pure_eq_ok, failIf_eq_ok, okOr_eq_ok, exists_const Unit, Prod.exists,
    .of_eq (Prod.mk.injEq ..)⟩

/-! ## Errors that cannot occur -/

/-- The computation does not fail with `e`. -/
def Avoids (e : ε) (x : Except ε α) : Prop := x ≠ .error e

section Avoids

variable {e e' : ε}

variable {x : Except ε α}

theorem avoids_bind {f : α → Except ε β} :
    Avoids e (x >>= f) ↔ Avoids e x ∧ ∀ a, x = .ok a → Avoids e (f a) := by
  cases x with
  | error => simp [Avoids]
  | ok => simp [Avoids]

@[simp] theorem avoids_ok {a : α} : Avoids e (.ok a : Except ε α) := nofun

@[simp] theorem avoids_pure {a : α} : Avoids e (pure a : Except ε α) := nofun

@[simp] theorem avoids_map {f : α → β} : Avoids e (f <$> x) ↔ Avoids e x := by
  cases x <;> simp [Avoids, Functor.map, Except.map]

@[simp] theorem avoids_error : Avoids e (.error e' : Except ε α) ↔ e' ≠ e := by
  simp [Avoids]

@[simp] theorem avoids_failIf [Decidable c] : Avoids e (failIf c e') ↔ (c → e' ≠ e) := by
  unfold failIf
  split <;> simp_all

@[simp] theorem avoids_okOr {o : Option α} : Avoids e (okOr o e') ↔ (o = none → e' ≠ e) := by
  cases o <;> simp [okOr]

theorem avoids_ite [Decidable c] {y : Except ε α} :
    Avoids e (if c then x else y) ↔ (c → Avoids e x) ∧ (¬ c → Avoids e y) := by
  split <;> simp_all

end Avoids

end SolanaPrograms.Outcome
