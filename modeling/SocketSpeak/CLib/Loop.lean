import Mathlib.Tactic.Common

/-!
# Loops

A loop is a function `step` from the state at its head to the state when it is there again; it has
no result where the loop is left. `Terminates` says that this happens after finitely many
iterations.
-/

namespace CLib.Loop

variable {σ : Type*} (step : σ → Option σ)

/-- The state after `n` iterations, unless the loop is left before. -/
def after : Nat → σ → Option σ
  | 0, s => some s
  | n + 1, s => (step s).bind (after n)

/-- The loop is left after finitely many iterations. -/
def Terminates (s : σ) : Prop := ∃ n, after step n s = none

variable {step} {s s' : σ}

theorem terminates_of_none (h : step s = none) : Terminates step s := ⟨1, by rw [after, h]; rfl⟩

theorem terminates_step (h : step s = some s') : Terminates step s ↔ Terminates step s' := by
  constructor
  · rintro ⟨n, hn⟩
    cases n with
    | zero => cases hn
    | succ n => exact ⟨n, by rwa [after, h] at hn⟩
  · rintro ⟨n, hn⟩
    exact ⟨n + 1, by rwa [after, h]⟩

/-- A loop is not left as long as something holds at its head that keeps it going. -/
theorem not_terminates_of_invariant {I : σ → Prop} (hI : ∀ s, I s → ∃ s', step s = some s' ∧ I s')
    (h : I s) : ¬ Terminates step s := by
  rintro ⟨n, hn⟩
  induction n generalizing s with
  | zero => cases hn
  | succ n ih =>
    obtain ⟨s', hs, h'⟩ := hI s h
    rw [after, hs] at hn
    exact ih h' hn

end CLib.Loop
