import Mathlib.Algebra.GroupWithZero.Nat
import Mathlib.Data.List.Forall2

/-!
# Lists of which one entry changes

What replacing one entry of a list does to a sum over it and to a relation with another list, and
what there is in a list with a separator between its entries.
-/

namespace CLib

section
variable {α : Type*} {xs : List α} {f : α → Nat} {x y : α} {j : Nat}

theorem sum_map_set_lt (h : xs[j]? = some x) (hlt : f y < f x) :
    ((xs.set j y).map f).sum < (xs.map f).sum := by
  induction xs generalizing j with
  | nil => cases h
  | cons z zs ih =>
    cases j with
    | zero =>
      cases h
      exact Nat.add_lt_add_right hlt _
    | succ j => exact Nat.add_lt_add_left (ih h) _

end

section
variable {α β : Type*} {R : α → β → Prop} {l : List α} {l' : List β}

theorem getElem?_of_forall₂ (h : List.Forall₂ R l l') {j : Nat} {b : β} (hb : l'[j]? = some b) :
    ∃ a, l[j]? = some a ∧ R a b := by
  induction h generalizing j with
  | nil => cases hb
  | cons hab _ ih =>
    cases j with
    | zero =>
      cases hb
      exact ⟨_, rfl, hab⟩
    | succ j => exact ih hb

theorem forall₂_set (h : List.Forall₂ R l l') {a : α} {b : β} (hab : R a b) (j : Nat) :
    List.Forall₂ R (l.set j a) (l'.set j b) := by
  induction h generalizing j with
  | nil => exact .nil
  | cons hcd htail ih =>
    cases j with
    | zero => exact .cons hab htail
    | succ j => exact .cons hcd (ih j)

end

section
variable {α : Type*} {sep a : α}

theorem mem_of_mem_intersperse {l : List α} (h : a ∈ l.intersperse sep) : a = sep ∨ a ∈ l := by
  induction l with
  | nil => cases h
  | cons b l ih =>
    cases l with
    | nil => exact .inr h
    | cons d l =>
      rw [List.intersperse_cons_cons, List.mem_cons, List.mem_cons] at h
      rcases h with rfl | rfl | h
      · exact .inr List.mem_cons_self
      · exact .inl rfl
      · exact (ih h).imp_right (List.mem_cons_of_mem _)

end

end CLib
