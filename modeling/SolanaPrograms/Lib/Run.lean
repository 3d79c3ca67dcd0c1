import Mathlib

/-!
# Runs whose steps meet a condition

A run is a fold of a step function over a list of events. `Along` says that every event of a run
meets a condition in the state it finds; an invariant that such events keep then holds at the end
of the run.
-/

namespace SolanaPrograms

variable {σ ε : Type}

/-- Every event meets the condition `C` in the state it is applied to. -/
def Along (step : σ → ε → σ) (C : σ → ε → Prop) : σ → List ε → Prop
  | _, [] => True
  | s, e :: events => C s e ∧ Along step C (step s e) events

instance Along.decidable (step : σ → ε → σ) (C : σ → ε → Prop) [∀ s e, Decidable (C s e)] :
    ∀ s events, Decidable (Along step C s events)
  | _, [] => .isTrue trivial
  | s, e :: events =>
    have := Along.decidable step C (step s e) events
    inferInstanceAs (Decidable (_ ∧ _))

variable {step : σ → ε → σ} {C : σ → ε → Prop}

/-- A condition on the events alone can be added. -/
theorem Along.and {D : ε → Prop} {s : σ} {events : List ε} (h : Along step C s events)
    (hD : ∀ e ∈ events, D e) : Along step (fun s e => C s e ∧ D e) s events := by
  induction events generalizing s with
  | nil => trivial
  | cons _ _ ih =>
    rw [List.forall_mem_cons] at hD
    exact ⟨⟨h.1, hD.1⟩, ih h.2 hD.2⟩

/-- **Run.** An invariant that holds at the start holds at the end. -/
theorem Along.invariant {I : σ → Prop} (hstep : ∀ s e, C s e → I s → I (step s e)) {s : σ}
    {events : List ε} (h : Along step C s events) (hs : I s) : I (events.foldl step s) := by
  induction events generalizing s with
  | nil => exact hs
  | cons e _ ih => exact ih h.2 (hstep s e h.1 hs)

end SolanaPrograms
