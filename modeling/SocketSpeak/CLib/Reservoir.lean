import Mathlib.Data.Fin.Tuple.Basic
import Mathlib.Data.Fintype.BigOperators
import Mathlib.Data.Nat.Factorial.Basic

/-!
# A reservoir of one element

The elements of a stream are looked at one by one, and the `k`-th takes the place of the one that is
kept if a number drawn below `k` is zero. Each of `n` elements is kept in the end by as many
sequences of numbers as any other (`card_kept`).
-/

namespace CLib

/-- The numbers that are drawn for a stream of `n` elements, one below `k + 1` for position `k`. -/
abbrev Residues (n : Nat) := (k : Fin n) → Fin (k + 1)

namespace Residues
variable {n : Nat}

/-- The numbers for all elements but the last. -/
def init (r : Residues (n + 1)) : Residues n := fun k => r k.castSucc

/-- The position of the element that is kept in the end. -/
def kept : {n : Nat} → Residues n → Option (Fin n)
  | 0, _ => none
  | _ + 1, r =>
    if (r (Fin.last _)).val = 0 then some (Fin.last _) else r.init.kept.map Fin.castSucc

/-- The first element is always taken, so one is kept. -/
theorem exists_kept (r : Residues (n + 1)) : ∃ j, r.kept = some j := by
  induction n with
  | zero => exact ⟨_, if_pos (Nat.lt_one_iff.mp (r (Fin.last 0)).isLt)⟩
  | succ n ih =>
    obtain ⟨j, hj⟩ := ih r.init
    rw [kept, hj]
    split
    · exact ⟨_, rfl⟩
    · exact ⟨_, rfl⟩

/-- The number for the last element, and the others. -/
def unsnoc : Residues (n + 1) ≃ Fin (n + 1) × Residues n :=
  (Fin.snocEquiv fun k : Fin (n + 1) => Fin (k + 1)).symm

theorem card_residues (n : Nat) : Fintype.card (Residues n) = n.factorial := by
  induction n with
  | zero => rfl
  | succ n ih =>
    rw [Fintype.card_congr unsnoc, Fintype.card_prod, ih, Fintype.card_fin, Nat.factorial_succ]

theorem kept_last_iff {r : Residues (n + 1)} :
    r.kept = some (Fin.last n) ↔ (r (Fin.last n)).val = 0 := by
  rw [kept]
  split
  · rename_i h
    exact iff_of_true rfl h
  · rename_i h
    refine iff_of_false (fun hk => ?_) h
    obtain ⟨j, -, hj⟩ := Option.map_eq_some_iff.mp hk
    exact Fin.castSucc_ne_last j hj

theorem kept_castSucc_iff {r : Residues (n + 1)} {j : Fin n} :
    r.kept = some j.castSucc ↔ (r (Fin.last n)).val ≠ 0 ∧ r.init.kept = some j := by
  rw [kept]
  split
  · rename_i h
    refine iff_of_false (fun hk => ?_) fun hk => hk.1 h
    exact Fin.castSucc_ne_last j (Option.some.inj hk).symm
  · rename_i h
    rw [and_iff_right h]
    constructor
    · intro hk
      obtain ⟨i, hi, hij⟩ := Option.map_eq_some_iff.mp hk
      rw [hi, Fin.castSucc_injective n hij]
    · intro hk
      rw [hk]
      rfl

/-- The sequences of which the last number is in `A` and the others are in `B`. -/
theorem card_filter_unsnoc {P : Residues (n + 1) → Prop} [DecidablePred P]
    (A : Finset (Fin (n + 1))) (B : Finset (Residues n))
    (h : ∀ r, P r ↔ r (Fin.last n) ∈ A ∧ r.init ∈ B) :
    (Finset.univ.filter P).card = A.card * B.card := by
  rw [← Finset.card_product]
  refine Finset.card_bijective unsnoc unsnoc.bijective fun r => ?_
  rw [Finset.mem_filter, Finset.mem_product, h]
  exact and_iff_right (Finset.mem_univ r)

/-- Each element is kept for `(n - 1)!` of the sequences: the last one for those that end with a
zero, and of the others as many as for one element less, each followed by a number that is none. -/
theorem card_kept_eq (j : Fin n) :
    (Finset.univ.filter fun r : Residues n => r.kept = some j).card = (n - 1).factorial := by
  induction n with
  | zero => exact j.elim0
  | succ n ih =>
    cases j using Fin.lastCases with
    | last =>
      rw [card_filter_unsnoc {0} Finset.univ fun r => by
        rw [kept_last_iff, Finset.mem_singleton, Fin.ext_iff]
        exact (and_iff_left (Finset.mem_univ _)).symm]
      rw [Finset.card_singleton, Finset.card_univ, card_residues, Nat.one_mul]
      rfl
    | cast j =>
      obtain ⟨m, rfl⟩ : ∃ m, n = m + 1 := Nat.exists_eq_succ_of_ne_zero (Fin.pos j).ne'
      rw [card_filter_unsnoc ({0}ᶜ) (Finset.univ.filter fun r => r.kept = some j) fun r => by
        rw [kept_castSucc_iff, Finset.mem_compl, Finset.mem_singleton, Fin.ext_iff,
          Finset.mem_filter]
        exact and_congr_right fun _ => (and_iff_right (Finset.mem_univ _)).symm]
      rw [ih, Finset.card_compl, Finset.card_singleton, Fintype.card_fin]
      exact (Nat.factorial_succ m).symm

/-- **Uniformity**: of the `n!` sequences, each element is kept for `n! / n`. -/
theorem card_kept (j : Fin n) :
    (Finset.univ.filter fun r : Residues n => r.kept = some j).card = n.factorial / n := by
  obtain ⟨m, rfl⟩ : ∃ m, n = m + 1 := Nat.exists_eq_succ_of_ne_zero (Fin.pos j).ne'
  rw [card_kept_eq, Nat.factorial_succ, Nat.mul_div_cancel_left _ (Nat.succ_pos m)]
  rfl

end Residues

end CLib
