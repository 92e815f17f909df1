import Mathlib.Tactic.Common
import Mathlib.Data.List.Perm.Basic

/-!
# Removal by moving the last entry

A table whose order does not matter is kept dense by moving its last entry into the place of the
one that is removed: `a[i] = a[n - 1]; n--`.
-/

namespace CLib
variable {α β : Type*} {l : List α} {a : α} {i j : Nat}

def swapRemove (l : List α) (i : Nat) : List α :=
  match l.getLast? with
  | some last => (l.set i last).dropLast
  | none => []

@[simp] theorem swapRemove_concat (l : List α) (a : α) (i : Nat) :
    swapRemove (l ++ [a]) i = if i < l.length then l.set i a else l := by
  simp only [swapRemove, List.getLast?_concat]
  split
  · rename_i h
    rw [List.set_append_left _ _ h, List.dropLast_concat]
  · rename_i h
    rw [List.set_append_right _ _ (Nat.not_lt.mp h)]
    cases i - l.length <;> simp

@[simp] theorem length_swapRemove : (swapRemove l i).length = l.length - 1 := by
  rcases List.eq_nil_or_concat l with rfl | ⟨l, a, rfl⟩
  · rfl
  · rw [List.concat_eq_append, swapRemove_concat]
    split <;> simp

theorem getElem?_swapRemove (h : j + 1 < l.length) :
    (swapRemove l i)[j]? = if j = i then l.getLast? else l[j]? := by
  rcases List.eq_nil_or_concat l with rfl | ⟨l, a, rfl⟩
  · simp at h
  · rw [List.concat_eq_append] at h ⊢
    have hj : j < l.length := by simpa using h
    rw [swapRemove_concat, List.getLast?_concat, List.getElem?_append_left hj]
    split
    · rw [List.getElem?_set]
      split <;> simp_all
      · omega
    · rename_i hi
      rw [if_neg (by omega)]

/-- The entries in front of it stay. -/
theorem take_swapRemove (h : i < l.length) : (swapRemove l i).take i = l.take i := by
  rcases List.eq_nil_or_concat l with rfl | ⟨l, a, rfl⟩
  · rfl
  · rw [List.concat_eq_append] at h ⊢
    have hi : i ≤ l.length := by simpa [Nat.lt_succ_iff] using h
    rw [swapRemove_concat, List.take_append_of_le_length hi]
    split
    · rw [List.take_set_of_le (Nat.le_refl i)]
    · rfl

theorem swapRemove_cons (hl : l ≠ []) : swapRemove (a :: l) (i + 1) = a :: swapRemove l i := by
  rcases List.eq_nil_or_concat l with rfl | ⟨l, b, rfl⟩
  · exact absurd rfl hl
  · rw [List.concat_eq_append, ← List.cons_append, swapRemove_concat, swapRemove_concat]
    simp only [List.length_cons, Nat.add_lt_add_iff_right]
    split <;> rfl

theorem map_swapRemove (f : α → β) (l : List α) (i : Nat) :
    (swapRemove l i).map f = swapRemove (l.map f) i := by
  rcases List.eq_nil_or_concat l with rfl | ⟨l, a, rfl⟩
  · rfl
  · rw [List.concat_eq_append, List.map_append, List.map_singleton, swapRemove_concat,
      swapRemove_concat, List.length_map]
    split <;> simp [List.map_set]

/-- Nothing but the entry is lost. -/
theorem perm_swapRemove (h : l[i]? = some a) : l.Perm (a :: swapRemove l i) := by
  rcases List.eq_nil_or_concat l with rfl | ⟨l, b, rfl⟩
  · simp at h
  · rw [List.concat_eq_append] at h ⊢
    rw [swapRemove_concat]
    split
    · rename_i hi
      rw [List.getElem?_append_left hi, List.getElem?_eq_getElem hi, Option.some.injEq] at h
      have hperm := List.set_perm_cons_eraseIdx hi b
      have hperm' := List.getElem_cons_eraseIdx_perm hi
      rw [h] at hperm'
      calc (l ++ [b]).Perm (b :: l) := List.perm_append_singleton _ _
        _ |>.Perm (b :: a :: l.eraseIdx i) := hperm'.symm.cons b
        _ |>.Perm (a :: b :: l.eraseIdx i) := List.Perm.swap _ _ _
        _ |>.Perm (a :: l.set i b) := hperm.symm.cons a
    · rename_i hi
      have hi' := (List.getElem?_eq_some_iff.mp h).1
      obtain rfl : i = l.length := by simp at hi'; omega
      simp at h
      rw [h]
      exact List.perm_append_singleton _ _

theorem mem_of_mem_swapRemove (h : a ∈ swapRemove l i) : a ∈ l := by
  rcases List.eq_nil_or_concat l with rfl | ⟨l, b, rfl⟩
  · exact h
  · rw [List.concat_eq_append] at h ⊢
    rw [swapRemove_concat] at h
    split at h
    · rcases List.mem_or_eq_of_mem_set h with h | rfl
      · exact List.mem_append_left _ h
      · simp
    · exact List.mem_append_left _ h

theorem mem_swapRemove (h : l.Nodup) (hi : i < l.length) :
    a ∈ swapRemove l i ↔ a ∈ l ∧ a ≠ l[i] := by
  have hperm := perm_swapRemove (List.getElem?_eq_getElem hi)
  have hnd := hperm.nodup_iff.mp h
  rw [hperm.mem_iff, List.mem_cons]
  constructor
  · intro hm
    refine ⟨.inr hm, ?_⟩
    rintro rfl
    exact (List.nodup_cons.mp hnd).1 hm
  · rintro ⟨hm | hm, hne⟩
    · exact absurd hm hne
    · exact hm

theorem nodup_swapRemove (h : l.Nodup) (hi : i < l.length) :
    (swapRemove l i).Nodup ∧ l[i] ∉ swapRemove l i := by
  have hnd := (perm_swapRemove (List.getElem?_eq_getElem hi)).nodup_iff.mp h
  rw [List.nodup_cons] at hnd
  exact hnd.symm

end CLib
