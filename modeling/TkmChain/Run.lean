import Mathlib

/-!
# Runs

A state machine goes through a list of events. What every step keeps, as long as
it meets a condition in the state it is taken in, holds after a run whose steps all
meet the condition.
-/

namespace Run

variable {σ ε : Type} {step : σ → ε → σ} {meets : σ → ε → Bool} {I : σ → Prop} {s : σ} {events : List ε}

def all (step : σ → ε → σ) (meets : σ → ε → Bool) : σ → List ε → Bool
  | _, [] => true
  | s, e :: events => meets s e && all step meets (step s e) events

theorem all_iff : all step meets s events = true ↔
    ∀ pre e post, events = pre ++ e :: post → meets (pre.foldl step s) e = true := by
  induction events generalizing s with
  | nil => simp [all]
  | cons e events ih =>
    rw [all, Bool.and_eq_true, ih]
    constructor
    · rintro ⟨he, hall⟩ pre e' post heq
      cases pre with
      | nil =>
        cases heq
        exact he
      | cons e'' pre =>
        cases heq
        exact hall pre e' post rfl
    · intro h
      exact ⟨h [] e events rfl, fun pre e' post heq => h (e :: pre) e' post (congrArg (e :: ·) heq)⟩

theorem all_of_append (h : all step meets s (events ++ events') = true) :
    all step meets s events = true := by
  rw [all_iff] at h ⊢
  intro pre e post heq
  apply h pre e (post ++ events')
  rw [heq, List.append_assoc, List.cons_append]

theorem invariant (hstep : ∀ s e, I s → meets s e → I (step s e)) (hs : I s) (h : all step meets s events) :
    I (events.foldl step s) := by
  induction events generalizing s with
  | nil => exact hs
  | cons e events ih =>
    rw [all, Bool.and_eq_true] at h
    exact ih (hstep s e hs h.1) h.2

end Run
