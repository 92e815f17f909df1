import SocketSpeak.CLib.Sys
import Mathlib.Data.List.Nodup
import Mathlib.Logic.Function.Basic

/-!
# Singly linked lists

Cells on the heap, each with a pointer to the next one. `Linked` says which cells a pointer leads to
and that they are different ones; the rules say what a program may do with them, and that it leaves
all other cells alone. A loop is given a number of iterations, which the length of the list bounds.
-/

namespace CLib

/-- A cell; a pointer is the address of a cell, or `none` for `NULL`. -/
structure Cell (α : Type*) where
  val : α
  next : Option Nat

/-- The cells that are allocated, by their addresses. -/
abbrev Cells (α : Type*) := Nat → Option (Cell α)

inductive MemFault where
  /-- There is no cell at the address: it has never been allocated, or it has been freed. -/
  | noCell (a : Nat)
  /-- A loop has not come to its end in the iterations that it is given. -/
  | endless
  deriving DecidableEq

namespace Cells
variable {α : Type*}

def load (h : Cells α) (a : Nat) : Except MemFault (Cell α) :=
  match h a with
  | some c => .ok c
  | none => .error (.noCell a)

def store (h : Cells α) (a : Nat) (c : Cell α) : Except MemFault (Cells α) :=
  match h a with
  | some _ => .ok (Function.update h a (some c))
  | none => .error (.noCell a)

def free (h : Cells α) (a : Nat) : Except MemFault (Cells α) :=
  match h a with
  | some _ => .ok (Function.update h a none)
  | none => .error (.noCell a)

/-- The first cell from `p` on whose value satisfies `P`, with its address and the one before. -/
def seek (h : Cells α) (P : α → Bool) :
    Nat → Option Nat → Option Nat → Except MemFault (Option (Option Nat × Nat × Cell α))
  | _, _, none => .ok none
  | 0, _, some _ => .error .endless
  | n + 1, previous, some a =>
    match h.load a with
    | .error f => .error f
    | .ok c => if P c.val then .ok (some (previous, a, c)) else seek h P n (some a) c.next

/-- The values from `p` on. -/
def values (h : Cells α) : Nat → Option Nat → Except MemFault (List α)
  | _, none => .ok []
  | 0, some _ => .error .endless
  | n + 1, some a =>
    match h.load a with
    | .error f => .error f
    | .ok c => (values h n c.next).map (c.val :: ·)

/-- All cells from `p` on are freed. -/
def freeAll : Nat → Cells α → Option Nat → Except MemFault (Cells α)
  | _, h, none => .ok h
  | 0, _, some _ => .error .endless
  | n + 1, h, some a =>
    match h.load a with
    | .error f => .error f
    | .ok c =>
      match h.free a with
      | .error f => .error f
      | .ok h => freeAll n h c.next

end Cells

/-- The pointer `p` leads through the cells `l`, each with its address, to `q`. -/
inductive Chain {α : Type*} (h : Cells α) : Option Nat → List (Nat × α) → Option Nat → Prop
  | nil (p : Option Nat) : Chain h p [] p
  | cons {a : Nat} {v : α} {next q : Option Nat} {l : List (Nat × α)} :
    h a = some ⟨v, next⟩ → Chain h next l q → Chain h (some a) ((a, v) :: l) q

/-- The list that begins at `p`. -/
structure Linked {α : Type*} (h : Cells α) (p : Option Nat) (l : List (Nat × α)) : Prop where
  chain : Chain h p l none
  nodup : (l.map Prod.fst).Nodup

variable {α : Type*} {h h' : Cells α} {p q : Option Nat} {l l₁ l₂ : List (Nat × α)} {a : Nat}
  {v : α}

namespace Chain

theorem congr (hl : Chain h p l q) (heq : ∀ a ∈ l.map Prod.fst, h' a = h a) : Chain h' p l q := by
  induction hl with
  | nil => exact .nil _
  | cons ha _ ih =>
    refine .cons ?_ (ih fun b hb => heq b (List.mem_cons_of_mem _ hb))
    rw [heq _ List.mem_cons_self, ha]

/-- The cells that are not in the list can change. -/
theorem update (hl : Chain h p l q) (ha : a ∉ l.map Prod.fst) (c : Option (Cell α)) :
    Chain (Function.update h a c) p l q :=
  hl.congr fun _ hb => Function.update_of_ne (ne_of_mem_of_not_mem hb ha) ..

theorem append_iff : Chain h p (l₁ ++ l₂) q ↔ ∃ m, Chain h p l₁ m ∧ Chain h m l₂ q := by
  induction l₁ generalizing p with
  | nil =>
    constructor
    · exact fun h => ⟨p, .nil p, h⟩
    · rintro ⟨m, hm, h⟩
      cases hm
      exact h
  | cons x l₁ ih =>
    constructor
    · intro h
      cases h with
      | cons ha h =>
        obtain ⟨m, h₁, h₂⟩ := ih.mp h
        exact ⟨m, .cons ha h₁, h₂⟩
    · rintro ⟨m, h₁, h₂⟩
      cases h₁ with
      | cons ha h₁ => exact .cons ha (ih.mpr ⟨m, h₁, h₂⟩)

theorem isSome (hl : Chain h p l q) (ha : a ∈ l.map Prod.fst) : (h a).isSome := by
  induction hl with
  | nil => cases ha
  | cons hb _ ih =>
    rcases List.mem_cons.mp ha with rfl | ha
    · rw [hb]
      rfl
    · exact ih ha

theorem not_mem (hl : Chain h p l q) (ha : h a = none) : a ∉ l.map Prod.fst := by
  intro hm
  have hsome := hl.isSome hm
  rw [ha] at hsome
  cases hsome

theorem values_eq (hl : Chain h p l none) {n : Nat} (hn : l.length ≤ n) :
    h.values n p = .ok (l.map Prod.snd) := by
  induction l generalizing p n with
  | nil =>
    cases hl
    cases n <;> rfl
  | cons x l ih =>
    cases hl with
    | cons ha hl =>
      cases n with
      | zero => cases hn
      | succ n =>
        simp only [Cells.values, Cells.load, ha, ih hl (Nat.le_of_succ_le_succ hn)]
        rfl

theorem seek_none (hl : Chain h p l none) {P : α → Bool} (hP : ∀ x ∈ l, ¬ P x.2) {n : Nat}
    (hn : l.length ≤ n) (previous : Option Nat) : h.seek P n previous p = .ok none := by
  induction l generalizing p n previous with
  | nil =>
    cases hl
    cases n <;> rfl
  | cons x l ih =>
    cases hl with
    | cons ha hl =>
      cases n with
      | zero => cases hn
      | succ n =>
        have hx := hP _ List.mem_cons_self
        simp only [Cells.seek, Cells.load, ha, if_neg hx]
        exact ih hl (fun y hy => hP y (List.mem_cons_of_mem _ hy)) (Nat.le_of_succ_le_succ hn) _

theorem seek_some {next : Option Nat} (hl : Chain h p l₁ (some a)) (ha : h a = some ⟨v, next⟩)
    {P : α → Bool} (hP : ∀ x ∈ l₁, ¬ P x.2) (hv : P v) {n : Nat} (hn : l₁.length < n)
    (previous : Option Nat) :
    h.seek P n previous p =
      .ok (some (((l₁.getLast?).map Prod.fst).or previous, a, ⟨v, next⟩)) := by
  induction l₁ generalizing p n previous with
  | nil =>
    cases hl
    cases n with
    | zero => cases hn
    | succ n => simp only [Cells.seek, Cells.load, ha, if_pos hv]; rfl
  | cons x l ih =>
    cases hl with
    | cons hb hl =>
      cases n with
      | zero => cases hn
      | succ n =>
        have hx := hP _ List.mem_cons_self
        simp only [Cells.seek, Cells.load, hb, if_neg hx]
        rw [ih hl (fun y hy => hP y (List.mem_cons_of_mem _ hy)) (Nat.lt_of_succ_lt_succ hn)]
        rw [List.getLast?_cons]
        cases l.getLast? <;> rfl

end Chain

namespace Linked

theorem null (h : Cells α) : Linked h none [] := ⟨.nil none, List.nodup_nil⟩

/-- A new cell in front. -/
theorem push (hl : Linked h p l) (ha : h a = none) (v : α) :
    Linked (Function.update h a (some ⟨v, p⟩)) (some a) ((a, v) :: l) := by
  have hnot := hl.chain.not_mem ha
  exact ⟨.cons (Function.update_self ..) (hl.chain.update hnot _),
    List.nodup_cons.mpr ⟨hnot, hl.nodup⟩⟩

/-- The first cell is taken out and freed. -/
theorem pop (hl : Linked h p ((a, v) :: l)) : ∃ next, h a = some ⟨v, next⟩ ∧ p = some a ∧
    Linked (Function.update h a none) next l := by
  obtain ⟨hnot, hnd⟩ := List.nodup_cons.mp hl.nodup
  cases hl.chain with
  | cons ha hchain => exact ⟨_, ha, rfl, hchain.update hnot _, hnd⟩

/-- A cell is taken out behind the cell `b` and freed. -/
theorem unlink {b : Nat} {w : α} (hl : Linked h p (l₁ ++ (b, w) :: (a, v) :: l₂)) :
    ∃ next, h b = some ⟨w, some a⟩ ∧ h a = some ⟨v, next⟩ ∧ a ≠ b ∧
      Linked (Function.update (Function.update h b (some ⟨w, next⟩)) a none) p
        (l₁ ++ (b, w) :: l₂) := by
  obtain ⟨m, h₁, h₂⟩ := Chain.append_iff.mp hl.chain
  cases h₂ with
  | cons hb h₂ =>
    cases h₂ with
    | cons ha h₂ =>
      have hnd := hl.nodup
      simp only [List.map_append, List.map_cons, List.nodup_append, List.nodup_cons,
        List.mem_cons, not_or] at hnd
      obtain ⟨hnd₁, ⟨⟨hba, hb₂⟩, ha₂, hnd₂⟩, hdisj⟩ := hnd
      have hb₁ : b ∉ l₁.map Prod.fst := fun hm => hdisj b hm b (.inl rfl) rfl
      have ha₁ : a ∉ l₁.map Prod.fst := fun hm => hdisj a hm a (.inr (.inl rfl)) rfl
      refine ⟨_, hb, ha, Ne.symm hba, Chain.append_iff.mpr ⟨_, (h₁.update hb₁ _).update ha₁ _,
        .cons ?_ ((h₂.update hb₂ _).update ha₂ _)⟩, ?_⟩
      · rw [Function.update_of_ne hba, Function.update_self]
      · simp only [List.map_append, List.map_cons, List.nodup_append, List.nodup_cons,
          List.mem_cons]
        refine ⟨hnd₁, ⟨hb₂, hnd₂⟩, ?_⟩
        rintro x hx y (rfl | hy)
        · exact hdisj x hx y (.inl rfl)
        · exact hdisj x hx y (.inr (.inr hy))

/-- All cells of the list are freed, and no other one. -/
theorem freeAll_eq (hl : Linked h p l) {n : Nat} (hn : l.length ≤ n) : Cells.freeAll n h p =
    .ok fun a => if a ∈ l.map Prod.fst then none else h a := by
  induction l generalizing h p n with
  | nil =>
    cases hl.chain
    cases n <;> rfl
  | cons x l ih =>
    obtain ⟨a, v⟩ := x
    obtain ⟨next, ha, rfl, hl'⟩ := hl.pop
    cases n with
    | zero => cases hn
    | succ n =>
      simp only [Cells.freeAll, Cells.load, Cells.free, ha]
      rw [ih hl' (Nat.le_of_succ_le_succ hn)]
      congr
      funext b
      rw [List.map_cons, Function.update_apply]
      by_cases hb : b = a
      · rw [if_pos hb, ite_self, if_pos (List.mem_cons.mpr (.inl hb))]
      · have hiff : b ∈ a :: l.map Prod.fst ↔ b ∈ l.map Prod.fst :=
          List.mem_cons.trans (or_iff_right hb)
        rw [if_neg hb]
        exact (if_congr hiff rfl rfl).symm

end Linked

end CLib
