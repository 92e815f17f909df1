import SocketSpeak.CLib.Sys

/-!
# Simulation

Two machines with the same errors. `Simulation` relates their states so that what one of them does
in a step the other one can do in some steps, none included; its errors are matched as far as they
are `Visible`. Then each run of the one has a run of the other with the same outcome.
-/

namespace CLib.Sys

variable {σ τ ε δ φ : Type*}

structure Simulation (step : σ → ε → Except φ σ) (step' : τ → δ → Except φ τ) (Visible : φ → Prop)
    (R : σ → τ → Prop) : Prop where
  ok : ∀ {s t e s'}, R s t → step s e = .ok s' → ∃ ds t', exec step' t ds = .ok t' ∧ R s' t'
  error : ∀ {s t e x}, R s t → step s e = .error x → Visible x → ∃ ds, exec step' t ds = .error x

variable {step : σ → ε → Except φ σ} {step' : τ → δ → Except φ τ} {Visible : φ → Prop}
  {R : σ → τ → Prop}

theorem exec_append_eq {s m : σ} {es : List ε} (h : exec step s es = .ok m) (es' : List ε) :
    exec step s (es ++ es') = exec step m es' := by
  induction es generalizing s with
  | nil => cases h; rfl
  | cons e es ih =>
    obtain ⟨n, hn, h⟩ := exec_cons_ok.mp h
    rw [List.cons_append, exec, hn]
    exact ih h

theorem exec_singleton (s : σ) (e : ε) : exec step s [e] = step s e := by
  rw [exec]
  cases step s e <;> rfl

namespace Simulation

/-- Whole runs are simulated. -/
theorem run (hsim : Simulation step step' Visible R) {s s' : σ} {t : τ} {es : List ε} (hR : R s t)
    (h : exec step s es = .ok s') : ∃ ds t', exec step' t ds = .ok t' ∧ R s' t' := by
  induction es generalizing s t with
  | nil => cases h; exact ⟨[], t, rfl, hR⟩
  | cons e es ih =>
    obtain ⟨m, hm, h⟩ := exec_cons_ok.mp h
    obtain ⟨ds, t₁, h₁, hR₁⟩ := hsim.ok hR hm
    obtain ⟨ds', t', h', hR'⟩ := ih hR₁ h
    exact ⟨ds ++ ds', t', exec_append h₁ h', hR'⟩

/-- So are those that end in an error. -/
theorem stops (hsim : Simulation step step' Visible R) {s : σ} {t : τ} {es : List ε} {x : φ}
    (hR : R s t) (hx : Visible x) (h : exec step s es = .error x) :
    ∃ ds, exec step' t ds = .error x := by
  induction es generalizing s t with
  | nil => cases h
  | cons e es ih =>
    rw [exec] at h
    cases hs : step s e with
    | error y =>
      rw [hs] at h
      cases h
      exact hsim.error hR hs hx
    | ok m =>
      rw [hs] at h
      obtain ⟨ds, t₁, h₁, hR₁⟩ := hsim.ok hR hs
      obtain ⟨ds', h'⟩ := ih hR₁ h
      exact ⟨ds ++ ds', by rw [exec_append_eq h₁, h']⟩

end Simulation

end CLib.Sys
