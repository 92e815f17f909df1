import Mathlib.Tactic.Common

/-!
# Runs of a state machine

A machine is a function `step` from a state and an event to the next state, or to a fault `φ`. A
run is the list of its events. A property of all runs is proved from what one step preserves
(`exec_invariant`), where each step may also be assumed to meet a condition on the event and on the
state it is taken in (`Meets`).
-/

namespace CLib

theorem bind_ok {φ : Type v} {α β : Type u} {x : Except φ α} {f : α → Except φ β} {b : β}
    (h : (x >>= f) = .ok b) : ∃ a, x = .ok a ∧ f a = .ok b := by
  cases x with
  | error e => cases h
  | ok a => exact ⟨a, rfl, h⟩

theorem bind_ok_iff {φ : Type v} {α β : Type u} {x : Except φ α} {f : α → Except φ β} :
    (∃ b, (x >>= f) = .ok b) ↔ ∃ a, x = .ok a ∧ ∃ b, f a = .ok b := by
  constructor
  · rintro ⟨b, h⟩
    obtain ⟨a, ha, h⟩ := bind_ok h
    exact ⟨a, ha, b, h⟩
  · rintro ⟨a, rfl, h⟩
    exact h

@[simp] theorem ok_bind {φ : Type v} {α β : Type u} (a : α) (f : α → Except φ β) :
    (Except.ok a >>= f) = f a := rfl

@[simp] theorem pure_eq_ok {φ : Type v} {α : Type u} (a : α) :
    (pure a : Except φ α) = .ok a := rfl

theorem ok_of_map {φ : Type v} {α : Type u} {β : Type w} {x : Except φ α} {f : α → β} {b : β}
    (h : x.map f = .ok b) : ∃ a, x = .ok a ∧ f a = b := by
  cases x with
  | error e => cases h
  | ok a => exact ⟨a, rfl, Except.ok.inj h⟩

theorem mapError_eq_ok {φ : Type v} {ψ : Type w} {α : Type u} {x : Except φ α} {f : φ → ψ} {a : α} :
    x.mapError f = .ok a ↔ x = .ok a := by
  cases x with
  | error e => exact iff_of_false (fun h => by cases h) fun h => by cases h
  | ok b => rw [Except.mapError, Except.ok.injEq, Except.ok.injEq]

/-- A result that is evaluated, and what is evaluated of it. -/
theorem exists_ok {φ : Type v} {α : Type u} {x : Except φ α} {P : α → Prop} (hok : x.isOk)
    (h : ∀ a ∈ x.toOption, P a) : ∃ a, x = .ok a ∧ P a := by
  cases x with
  | error e => cases hok
  | ok a => exact ⟨a, rfl, h a rfl⟩

/-- The result is not one of the faults `bad`. -/
def Avoids {φ : Type v} {α : Type u} (bad : φ → Prop) (x : Except φ α) : Prop :=
  ∀ f, x = .error f → ¬ bad f

section
variable {φ : Type v} {α β : Type u} {bad : φ → Prop}

theorem avoids_ok (a : α) : Avoids bad (.ok a) := fun _ h => by cases h

theorem avoids_error {f : φ} : Avoids bad (.error f : Except φ α) ↔ ¬ bad f :=
  ⟨fun h => h f rfl, fun h g hg => by cases hg; exact h⟩

theorem avoids_bind {x : Except φ α} {f : α → Except φ β} :
    Avoids bad (x >>= f) ↔ Avoids bad x ∧ ∀ a, x = .ok a → Avoids bad (f a) := by
  cases x with
  | error e =>
    constructor
    · exact fun h => ⟨avoids_error.mpr (h e rfl), fun _ h => by cases h⟩
    · exact fun h => avoids_error.mpr (avoids_error.mp h.1)
  | ok a =>
    constructor
    · exact fun h => ⟨avoids_ok a, fun _ ha => by cases ha; exact h⟩
    · exact fun h => h.2 a rfl

theorem avoids_map {x : Except φ α} {f : α → β} :
    Avoids bad (x >>= fun a => pure (f a)) ↔ Avoids bad x := by
  rw [avoids_bind]
  exact and_iff_left fun _ _ => avoids_ok _

theorem avoids_mapError {ψ : Type w} {x : Except ψ α} {f : ψ → φ} :
    Avoids bad (x.mapError f) ↔ Avoids (fun e => bad (f e)) x := by
  cases x with
  | error e =>
    rw [Except.mapError, avoids_error, avoids_error]
  | ok a => exact iff_of_true (avoids_ok a) (avoids_ok a)

end

namespace Sys

variable {σ ε φ : Type*} (step : σ → ε → Except φ σ)

/-- The state after the events, or the first fault. -/
def exec : σ → List ε → Except φ σ
  | s, [] => .ok s
  | s, e :: es =>
    match step s e with
    | .ok s' => exec s' es
    | .error f => .error f

/-- Every event of the run meets `C` in the state it is taken in. -/
def Meets (C : σ → ε → Prop) : σ → List ε → Prop
  | _, [] => True
  | s, e :: es =>
    C s e ∧ match step s e with
      | .ok s' => Meets C s' es
      | .error _ => True

instance Meets.decidable (C : σ → ε → Prop) [∀ s e, Decidable (C s e)] :
    ∀ s es, Decidable (Meets step C s es)
  | _, [] => .isTrue trivial
  | s, e :: es =>
    have : Decidable (match step s e with
        | .ok s' => Meets step C s' es
        | .error _ => True) :=
      match step s e with
      | .ok s' => Meets.decidable C s' es
      | .error _ => .isTrue trivial
    inferInstanceAs (Decidable (_ ∧ _))

variable {step} {C : σ → ε → Prop} {I : σ → Prop}

theorem exec_cons_ok {s s' : σ} {e : ε} {es : List ε} :
    exec step s (e :: es) = .ok s' ↔ ∃ m, step s e = .ok m ∧ exec step m es = .ok s' := by
  simp only [exec]
  split <;> simp_all

theorem exec_append {s m s' : σ} {es es' : List ε} (h : exec step s es = .ok m)
    (h' : exec step m es' = .ok s') : exec step s (es ++ es') = .ok s' := by
  induction es generalizing s with
  | nil => cases h; exact h'
  | cons e es ih =>
    obtain ⟨n, hn, h⟩ := exec_cons_ok.mp h
    exact exec_cons_ok.mpr ⟨n, hn, ih h⟩

theorem Meets.cons {s m : σ} {e : ε} {es : List ε} (h : Meets step C s (e :: es))
    (hm : step s e = .ok m) : C s e ∧ Meets step C m es := by
  simpa only [Meets, hm] using h

theorem meets_of_forall_mem {es : List ε} (h : ∀ e ∈ es, ∀ s, C s e) (s : σ) :
    Meets step C s es := by
  induction es generalizing s with
  | nil => trivial
  | cons e es ih =>
    refine ⟨h e List.mem_cons_self s, ?_⟩
    split
    · exact ih (fun e he => h e (List.mem_cons_of_mem _ he)) _
    · trivial

theorem meets_of_forall (h : ∀ s e, C s e) (s : σ) (es : List ε) : Meets step C s es :=
  meets_of_forall_mem (fun e _ s => h s e) s

/-- A run ends with the fault `f` if one of its steps does. -/
theorem exec_ne_error_iff {f : φ} {s : σ} {es : List ε} :
    exec step s es ≠ .error f ↔ Meets step (fun s e => step s e ≠ .error f) s es := by
  induction es generalizing s with
  | nil => exact iff_of_true nofun trivial
  | cons e es ih =>
    cases hs : step s e with
    | error g => simp [exec, Meets, hs]
    | ok s' => simpa [exec, Meets, hs] using ih

/-- What every step that meets `C` preserves holds after every run whose steps meet `C`. -/
theorem exec_invariant (hstep : ∀ s e s', I s → C s e → step s e = .ok s' → I s')
    {s s' : σ} {es : List ε} (hI : I s) (hC : Meets step C s es)
    (h : exec step s es = .ok s') : I s' := by
  induction es generalizing s with
  | nil => cases h; exact hI
  | cons e es ih =>
    obtain ⟨m, hm, h⟩ := exec_cons_ok.mp h
    obtain ⟨hc, hC⟩ := hC.cons hm
    exact ih (hstep s e m hI hc hm) hC h

/-- What each step keeps of a relation to an abstract machine, whole runs keep. -/
theorem exec_foldl {τ : Type*} {R : σ → τ → Prop} {abs : τ → ε → τ}
    (hstep : ∀ s t e s', R s t → step s e = .ok s' → R s' (abs t e)) {s s' : σ} {t : τ}
    {es : List ε} (hR : R s t) (h : exec step s es = .ok s') : R s' (es.foldl abs t) := by
  induction es generalizing s t with
  | nil => cases h; exact hR
  | cons e es ih =>
    obtain ⟨m, hm, h⟩ := exec_cons_ok.mp h
    exact ih (hstep s t e m hR hm) h

/-- Where a step is taken if and only if it meets `C`, a run comes to its end if and only if all of
its steps do. -/
theorem exec_ok_iff (hiff : ∀ s e, I s → ((∃ s', step s e = .ok s') ↔ C s e))
    (hstep : ∀ s e s', I s → step s e = .ok s' → I s') {s : σ} {es : List ε} (hI : I s) :
    (∃ s', exec step s es = .ok s') ↔ Meets step C s es := by
  induction es generalizing s with
  | nil => exact iff_of_true ⟨s, rfl⟩ trivial
  | cons e es ih =>
    have he := hiff s e hI
    cases hs : step s e with
    | error f =>
      simp only [hs, reduceCtorEq, exists_false, false_iff] at he
      simp [exec, Meets, hs, he]
    | ok s' =>
      have hc : C s e := he.mp ⟨s', hs⟩
      simpa [exec, Meets, hs, hc] using ih (hstep s e s' hI hs)

/-- What each step has that meets `C` and is taken where `I` holds, all steps have of a run whose
steps meet `C`. -/
theorem meets_of_invariant {P : σ → ε → Prop}
    (hstep : ∀ s e s', I s → C s e → step s e = .ok s' → I s') (hP : ∀ s e, I s → C s e → P s e)
    {s : σ} {es : List ε} (hI : I s) (hC : Meets step C s es) : Meets step P s es := by
  induction es generalizing s with
  | nil => trivial
  | cons e es ih =>
    refine ⟨hP s e hI hC.1, ?_⟩
    cases hs : step s e with
    | error => trivial
    | ok s' => exact ih (hstep s e s' hI hC.1 hs) (hC.cons hs).2

/-- Where `P` and `C` agree on each step, they agree on whole runs. -/
theorem meets_iff {G P : σ → ε → Prop} (hiff : ∀ s e, I s → G s e → (P s e ↔ C s e))
    (hstep : ∀ s e s', I s → G s e → C s e → step s e = .ok s' → I s') {s : σ} {es : List ε}
    (hI : I s) (hG : Meets step G s es) : Meets step P s es ↔ Meets step C s es := by
  induction es generalizing s with
  | nil => exact Iff.rfl
  | cons e es ih =>
    have he := hiff s e hI hG.1
    cases hs : step s e with
    | error f => simp only [Meets, hs, he]
    | ok s' =>
      have hG' := (hG.cons hs).2
      simp only [Meets, hs, he]
      exact and_congr_right fun hc => ih (hstep s e s' hI hG.1 hc hs) hG'

/-- What every step of a kind makes smaller ends each run of such steps. -/
theorem exists_stop {τ : Type*} {r : τ → τ → Prop} (hwf : WellFounded r) {μ : σ → τ}
    {R : ε → Prop}
    (hstep : ∀ s e s', I s → R e → step s e = .ok s' → I s' ∧ r (μ s') (μ s))
    (run : Nat → σ) (hI : I (run 0)) :
    ∃ i, ∀ e, R e → step (run i) e ≠ .ok (run (i + 1)) := by
  suffices h : ∀ t i, μ (run i) = t → I (run i) →
      ∃ i, ∀ e, R e → step (run i) e ≠ .ok (run (i + 1)) from h _ 0 rfl hI
  intro t
  induction t using hwf.induction with
  | h t ih =>
    rintro i rfl hI
    by_cases hstop : ∀ e, R e → step (run i) e ≠ .ok (run (i + 1))
    · exact ⟨i, hstop⟩
    · push Not at hstop
      obtain ⟨e, he, hs⟩ := hstop
      obtain ⟨hI', hlt⟩ := hstep _ e _ hI he hs
      exact ih _ hlt (i + 1) rfl hI'

end Sys

end CLib
