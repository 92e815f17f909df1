import Mathlib.Data.List.Nodup

/-!
# A log and its readers

The entries of a log carry who appended them. A reader joins at some length of the log and may leave
at another one; it is due what the others append in between, each entry with its number in the log.
A reader that is given a copy of the log when it joins, and follows it from there on, misses nothing
(`Follows.mem`). Readers that have taken some of what they are due, from its beginning on, have
taken the entries that they share in the same order (`same_order`).
-/

namespace CLib.Sequencer

variable {ι μ : Type*} [DecidableEq ι] {me me' : ι} {i i' j j' : Nat} {log : List (ι × μ)}

/-- The entries that others have made, from the length `i` of the log to the length `j`. -/
def due (me : ι) (i j : Nat) (log : List (ι × μ)) : List (Nat × μ) :=
  (((log.zipIdx.take j).drop i).filter fun e => e.1.1 ≠ me).map fun e => (e.2, e.1.2)

/-- Who joins is due nothing yet. -/
theorem due_joined (me : ι) (log : List (ι × μ)) : due me log.length log.length log = [] := by
  rw [due, List.drop_eq_nil_of_le (List.length_take_le _ _)]
  rfl

/-- A new entry is due to everyone but who made it. -/
theorem due_concat (hi : i ≤ log.length) (e : ι × μ) :
    due me i (log ++ [e]).length (log ++ [e]) =
      due me i log.length log ++ if e.1 ≠ me then [(log.length, e.2)] else [] := by
  have hlen : log.zipIdx.length = log.length := List.length_zipIdx
  have hall : (log ++ [e]).zipIdx.take (log ++ [e]).length = log.zipIdx ++ [(e, log.length)] := by
    rw [List.take_of_length_le (Nat.le_of_eq List.length_zipIdx), List.zipIdx_append]
    simp
  have hold : log.zipIdx.take log.length = log.zipIdx := List.take_of_length_le (Nat.le_of_eq hlen)
  rw [due, due, hall, hold, List.drop_append_of_le_length (by rw [hlen]; exact hi),
    List.filter_append, List.map_append]
  by_cases he : e.1 = me
  · simp [he]
  · simp [he]

/-- Who has left is due no more. -/
theorem due_left (hj : j ≤ log.length) (l : List (ι × μ)) :
    due me i j (log ++ l) = due me i j log := by
  rw [due, due, List.zipIdx_append, List.take_append_of_le_length]
  rw [List.length_zipIdx]
  exact hj

/-! ## Following the log -/

/-- What a reader has got and what is on the way to it are the views of the entries that it is due
since the length `i` of the log. -/
structure Follows {β : Type*} (view : μ → β) (me : ι) (i : Nat) (log : List (ι × μ))
    (got way : List β) : Prop where
  le : i ≤ log.length
  eq : got ++ way = (due me i log.length log).map fun e => view e.2

section
variable {β : Type*} {view : μ → β} {got way way' : List β}

theorem follows_join (me : ι) (log : List (ι × μ)) : Follows view me log.length log [] [] :=
  ⟨Nat.le_refl _, by rw [due_joined]; rfl⟩

/-- An entry is made, and sent to everyone but who made it. -/
theorem Follows.concat (h : Follows view me i log got way) {e : ι × μ}
    (hway : way' = if e.1 ≠ me then [view e.2] else []) :
    Follows view me i (log ++ [e]) got (way ++ way') := by
  refine ⟨?_, ?_⟩
  · rw [List.length_append]
    exact Nat.le_add_right_of_le h.le
  · rw [due_concat h.le, List.map_append, ← h.eq, List.append_assoc, hway]
    split <;> rfl

/-- The reader takes the first of what is on the way. -/
theorem Follows.take (h : Follows view me i log got (way ++ way')) :
    Follows view me i log (got ++ way) way' :=
  ⟨h.le, by rw [List.append_assoc, h.eq]⟩

/-- No later entry of another one is missed. -/
theorem Follows.mem (h : Follows view me i log got way) {k : Nat} {e : ι × μ}
    (he : log[k]? = some e) (hk : i ≤ k) (hme : e.1 ≠ me) : view e.2 ∈ got ++ way := by
  rw [h.eq, due, List.take_of_length_le (Nat.le_of_eq List.length_zipIdx), List.map_map]
  have hzip : log.zipIdx[k]? = some (e, k) := by simp [he]
  have hdrop : (e, k) ∈ log.zipIdx.drop i := by
    apply List.mem_of_getElem? (i := k - i)
    rw [List.getElem?_drop, Nat.add_sub_cancel' hk, hzip]
  exact List.mem_map.mpr ⟨(e, k), List.mem_filter.mpr ⟨hdrop, by simpa using hme⟩, rfl⟩

end

/-! ## The order of what is taken -/

section
variable {α : Type*} [BEq α] [LawfulBEq α] {xs ys l : List α}

theorem filter_mem_of_sublist (hl : l.Nodup) (h : xs.Sublist l) : l.filter (· ∈ xs) = xs := by
  have hsub : xs.Sublist (l.filter (· ∈ xs)) := by
    have hxs : xs.filter (· ∈ xs) = xs := List.filter_eq_self.mpr (by simp)
    simpa only [hxs] using h.filter (· ∈ xs)
  have hperm : xs.Perm (l.filter (· ∈ xs)) := by
    apply (List.perm_ext_iff_of_nodup (hl.sublist h) (hl.filter _)).mpr
    intro a
    simpa using fun ha => h.subset ha
  exact (hsub.eq_of_length hperm.length_eq).symm

/-- Two sublists of a list without duplicates have what they share in the same order. -/
theorem filter_mem_comm (hl : l.Nodup) (hx : xs.Sublist l) (hy : ys.Sublist l) :
    xs.filter (· ∈ ys) = ys.filter (· ∈ xs) := by
  calc xs.filter (· ∈ ys) = (l.filter (· ∈ xs)).filter (· ∈ ys) := by
        rw [filter_mem_of_sublist hl hx]
    _ = (l.filter (· ∈ ys)).filter (· ∈ xs) := by
        rw [List.filter_filter, List.filter_filter]
        exact List.filter_congr fun a _ => Bool.and_comm _ _
    _ = ys.filter (· ∈ xs) := by rw [filter_mem_of_sublist hl hy]

end

/-- The entries with their numbers, without who made them. -/
def numbered (log : List (ι × μ)) : List (Nat × μ) := log.zipIdx.map fun e => (e.2, e.1.2)

omit [DecidableEq ι] in
theorem nodup_numbered (log : List (ι × μ)) : (numbered log).Nodup := by
  apply List.Nodup.of_map Prod.fst
  have hfst : (numbered log).map Prod.fst = log.zipIdx.map Prod.snd := by
    rw [numbered, List.map_map]
    rfl
  rw [hfst, List.zipIdx_map_snd]
  exact List.nodup_range'

theorem due_sublist : (due me i j log).Sublist (numbered log) :=
  (List.filter_sublist.trans ((List.drop_sublist _ _).trans (List.take_sublist _ _))).map _

/-- **Readers agree on the order** of the entries that both of them have taken. -/
theorem same_order [BEq μ] [LawfulBEq μ] {xs ys : List (Nat × μ)} (hx : xs <+: due me i j log)
    (hy : ys <+: due me' i' j' log) : xs.filter (· ∈ ys) = ys.filter (· ∈ xs) :=
  filter_mem_comm (nodup_numbered log) (hx.sublist.trans due_sublist)
    (hy.sublist.trans due_sublist)

end CLib.Sequencer
