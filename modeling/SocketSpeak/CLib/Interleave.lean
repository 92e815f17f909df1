import Mathlib.Tactic.Common

/-!
# Interleavings of two lists

`Interleaves xs ys zs`: the list `zs` consists of `xs` and `ys`, each in its own order.
-/

namespace CLib

inductive Interleaves {α : Type*} : List α → List α → List α → Prop
  | nil : Interleaves [] [] []
  | left (x : α) {xs ys zs : List α} : Interleaves xs ys zs → Interleaves (x :: xs) ys (x :: zs)
  | right (y : α) {xs ys zs : List α} : Interleaves xs ys zs → Interleaves xs (y :: ys) (y :: zs)

namespace Interleaves
variable {α β : Type*} {x : α} {xs ys zs : List α}

theorem map (f : α → β) (h : Interleaves xs ys zs) :
    Interleaves (xs.map f) (ys.map f) (zs.map f) := by
  induction h with
  | nil => exact .nil
  | left _ _ ih => exact .left _ ih
  | right _ _ ih => exact .right _ ih

theorem swap (h : Interleaves xs ys zs) : Interleaves ys xs zs := by
  induction h with
  | nil => exact .nil
  | left _ _ ih => exact .right _ ih
  | right _ _ ih => exact .left _ ih

theorem length_eq (h : Interleaves xs ys zs) : zs.length = xs.length + ys.length := by
  induction h with
  | nil => rfl
  | left | right => simp only [List.length_cons]; omega

theorem mem_iff (h : Interleaves xs ys zs) : x ∈ zs ↔ x ∈ xs ∨ x ∈ ys := by
  induction h with
  | nil => simp
  | left _ _ ih => simp [ih, or_assoc]
  | right _ _ ih => simp [ih, or_left_comm]

/-- An element that only the first list has was taken from it. -/
theorem of_cons_left (h : Interleaves (x :: xs) ys (x :: zs)) (hx : x ∉ ys) :
    Interleaves xs ys zs := by
  cases h with
  | left _ h => exact h
  | right => exact absurd List.mem_cons_self hx

end Interleaves

end CLib
