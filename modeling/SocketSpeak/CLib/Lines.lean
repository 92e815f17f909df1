import SocketSpeak.CLib.Stdio

/-!
# The lines of a file

What a loop of `fgets` reads is a way to cut the file into pieces (`flatten_fgetsAll`). Where the
file is at the end of a line, so is a piece, so what is appended later is read by itself
(`fgetsAll_append`); a line is read in one piece if it fits the buffer, with its newline and the
NUL behind it.
-/

namespace CLib

variable {n : Nat} {a b : Bytes}

/-- The text is empty or ends in a newline. -/
def Terminated (b : Bytes) : Prop := ∀ c ∈ b.getLast?, c = NEWLINE

theorem terminated_nil : Terminated [] := fun _ h => by cases h

theorem terminated_concat (b : Bytes) : Terminated (b ++ [NEWLINE]) := by
  intro c hc
  rw [List.getLast?_concat] at hc
  exact (Option.mem_some_iff.mp hc).symm

theorem Terminated.append (ha : Terminated a) (hb : Terminated b) : Terminated (a ++ b) := by
  intro c hc
  rw [List.getLast?_append] at hc
  cases hlast : b.getLast? with
  | none => rw [hlast] at hc; exact ha c hc
  | some d => rw [hlast] at hc; exact hb c (by rw [hlast]; exact hc)

theorem Terminated.drop (h : Terminated a) (k : Nat) : Terminated (a.drop k) := by
  intro c hc
  rw [List.getLast?_drop] at hc
  split at hc
  · cases hc
  · exact h c hc

theorem Terminated.flatten {bs : List Bytes} (h : ∀ b ∈ bs, Terminated b) :
    Terminated bs.flatten := by
  induction bs with
  | nil => exact terminated_nil
  | cons b bs ih =>
    exact (h b List.mem_cons_self).append (ih fun b hb => h b (List.mem_cons_of_mem _ hb))

theorem Terminated.newline_mem (h : Terminated a) (hne : a ≠ []) : NEWLINE ∈ a := by
  have hlast := List.getLast?_eq_some_getLast hne
  rw [← h _ hlast]
  exact List.getLast_mem hne

/-! ## One call -/

theorem takeLine_append (h : NEWLINE ∈ a) : takeLine (a ++ b) = takeLine a := by
  induction a with
  | nil => cases h
  | cons c a ih =>
    simp only [List.cons_append, takeLine]
    split
    · rfl
    · rename_i hc
      rw [ih ((List.mem_cons.mp h).resolve_left (Ne.symm hc))]

theorem isPrefix_takeLine (a : Bytes) : takeLine a <+: a := by
  induction a with
  | nil => exact List.nil_prefix
  | cons c a ih =>
    rw [takeLine]
    split
    · exact List.cons_prefix_cons.mpr ⟨rfl, List.nil_prefix⟩
    · exact List.cons_prefix_cons.mpr ⟨rfl, ih⟩

theorem takeLine_ne_nil (h : a ≠ []) : takeLine a ≠ [] := by
  cases a with
  | nil => exact absurd rfl h
  | cons c a => rw [takeLine]; split <;> simp

theorem takeLine_line (h : NEWLINE ∉ a) (b : Bytes) :
    takeLine (a ++ NEWLINE :: b) = a ++ [NEWLINE] := by
  induction a with
  | nil => simp [takeLine]
  | cons c a ih =>
    have hc : c ≠ NEWLINE := fun hc => h (by simp [hc])
    rw [List.cons_append, takeLine, if_neg hc, ih fun hm => h (List.mem_cons_of_mem _ hm),
      List.cons_append]

/-- The piece that the next `fgets` reads. -/
def piece (n : Nat) (inp : Bytes) : Bytes := (takeLine inp).take (n - 1)

theorem piece_ne_nil (hn : 1 < n) (h : a ≠ []) : piece n a ≠ [] := by
  have hne := takeLine_ne_nil h
  intro he
  rw [piece, List.take_eq_nil_iff] at he
  rcases he with he | he
  · omega
  · exact hne he

theorem isPrefix_piece (n : Nat) (a : Bytes) : piece n a <+: a :=
  (List.take_prefix _ _).trans (isPrefix_takeLine a)

theorem piece_append_drop (n : Nat) (a : Bytes) : piece n a ++ a.drop (piece n a).length = a := by
  have htake : piece n a = a.take (piece n a).length :=
    List.prefix_iff_eq_take.mp (isPrefix_piece n a)
  conv_lhs => lhs; rw [htake]
  exact List.take_append_drop _ _

theorem piece_append (h : NEWLINE ∈ a) (b : Bytes) : piece n (a ++ b) = piece n a := by
  rw [piece, takeLine_append h, piece]

/-- A line that fits is read as it is. -/
theorem piece_line (h : NEWLINE ∉ a) (hlen : a.length + 1 < n) (b : Bytes) :
    piece n (a ++ NEWLINE :: b) = a ++ [NEWLINE] := by
  rw [piece, takeLine_line h, List.take_of_length_le]
  rw [List.length_append, List.length_singleton]
  omega

/-- A line that does not fit is read without its newline. -/
theorem piece_long (h : NEWLINE ∉ a) (hlen : a.length + 1 = n) (b : Bytes) :
    piece n (a ++ NEWLINE :: b) = a := by
  rw [piece, takeLine_line h, List.take_append_of_le_length (by omega),
    List.take_of_length_le (by omega)]

/-! ## All calls -/

theorem fgets_eq (h : a ≠ []) : fgets n a = some (piece n a, a.drop (piece n a).length) := by
  rw [fgets, if_neg h]
  rfl

theorem fgetsLoop_nil (n fuel : Nat) : fgetsLoop n fuel [] = [] := by
  cases fuel <;> rfl

/-- The fuel does not run out. -/
theorem fgetsLoop_eq (hn : 1 < n) {fuel : Nat} (hfuel : a.length ≤ fuel) :
    fgetsLoop n fuel a = fgetsAll n a := by
  induction fuel using Nat.strongRecOn generalizing a with
  | ind fuel ih =>
    by_cases ha : a = []
    · subst ha
      rw [fgetsLoop_nil, fgetsAll, fgetsLoop_nil]
    · have hlen : 0 < a.length := List.length_pos_iff.mpr ha
      have hpiece : 0 < (piece n a).length := List.length_pos_iff.mpr (piece_ne_nil hn ha)
      have hdrop := List.length_drop (l := a) (i := (piece n a).length)
      obtain ⟨k, rfl⟩ : ∃ k, fuel = k + 1 := ⟨fuel - 1, by omega⟩
      obtain ⟨m, hm⟩ : ∃ m, a.length = m + 1 := ⟨a.length - 1, by omega⟩
      rw [fgetsAll, hm, fgetsLoop, fgetsLoop, fgets_eq ha]
      dsimp only
      rw [ih k (by omega) (by omega)]
      by_cases hmk : m < k + 1
      · rw [ih m hmk (by omega)]
      · omega

theorem fgetsAll_nil (n : Nat) : fgetsAll n [] = [] := rfl

theorem fgetsAll_of_ne (hn : 1 < n) (h : a ≠ []) :
    fgetsAll n a = piece n a :: fgetsAll n (a.drop (piece n a).length) := by
  have hpiece : 0 < (piece n a).length := List.length_pos_iff.mpr (piece_ne_nil hn h)
  have hlen : 0 < a.length := List.length_pos_iff.mpr h
  obtain ⟨m, hm⟩ : ∃ m, a.length = m + 1 := ⟨a.length - 1, by omega⟩
  rw [fgetsAll, hm, fgetsLoop, fgets_eq h]
  dsimp only
  rw [fgetsLoop_eq hn (by rw [List.length_drop]; omega)]

/-- The induction over the pieces of a file. -/
theorem pieces_induction (hn : 1 < n) {P : Bytes → Prop} (nil : P [])
    (step : ∀ a, a ≠ [] → P (a.drop (piece n a).length) → P a) (a : Bytes) : P a := by
  induction hlen : a.length using Nat.strongRecOn generalizing a with
  | ind len ih =>
    by_cases ha : a = []
    · subst ha
      exact nil
    · have hpiece : 0 < (piece n a).length := List.length_pos_iff.mpr (piece_ne_nil hn ha)
      have hpos : 0 < a.length := List.length_pos_iff.mpr ha
      refine step a ha (ih _ ?_ _ rfl)
      rw [List.length_drop]
      omega

theorem flatten_fgetsAll (hn : 1 < n) (a : Bytes) : (fgetsAll n a).flatten = a := by
  induction a using pieces_induction hn with
  | nil => rfl
  | step a ha ih => rw [fgetsAll_of_ne hn ha, List.flatten_cons, ih, piece_append_drop]

/-- Each piece leaves room for its NUL. -/
theorem length_lt_of_mem_fgetsAll (hn : 1 < n) {l : Bytes} (hl : l ∈ fgetsAll n a) :
    l.length < n := by
  induction a using pieces_induction hn with
  | nil => cases hl
  | step a ha ih =>
    rw [fgetsAll_of_ne hn ha, List.mem_cons] at hl
    rcases hl with rfl | hl
    · have hle : (piece n a).length ≤ n - 1 := List.length_take_le _ _
      omega
    · exact ih hl

/-- What follows the end of a line is read by itself. -/
theorem fgetsAll_append (hn : 1 < n) (ha : Terminated a) (b : Bytes) :
    fgetsAll n (a ++ b) = fgetsAll n a ++ fgetsAll n b := by
  induction a using pieces_induction hn with
  | nil => rfl
  | step a hne ih =>
    have hpiece := piece_append (n := n) (ha.newline_mem hne) b
    have hle : (piece n a).length ≤ a.length := (isPrefix_piece n a).length_le
    rw [fgetsAll_of_ne hn (by simp [hne]), hpiece, List.drop_append_of_le_length hle,
      ih (ha.drop _), fgetsAll_of_ne hn hne, List.cons_append]

theorem fgetsAll_line (hn : 1 < n) (h : NEWLINE ∉ a) (hlen : a.length + 1 < n) :
    fgetsAll n (a ++ [NEWLINE]) = [a ++ [NEWLINE]] := by
  rw [fgetsAll_of_ne hn (by simp), piece_line h hlen, List.drop_length, fgetsAll_nil]

/-- The newline of a line that does not fit is a piece of its own. -/
theorem fgetsAll_long (hn : 1 < n) (h : NEWLINE ∉ a) (hlen : a.length + 1 = n) :
    fgetsAll n (a ++ [NEWLINE]) = [a, [NEWLINE]] := by
  have hlast : fgetsAll n [NEWLINE] = [[NEWLINE]] := by
    by_cases h2 : n = 2
    · subst h2; rfl
    · exact fgetsAll_line hn List.not_mem_nil (by simp; omega)
  rw [fgetsAll_of_ne hn (by simp), piece_long h hlen, List.drop_left, hlast]

theorem fgetsAll_flatten (hn : 1 < n) {bs : List Bytes} (h : ∀ b ∈ bs, Terminated b) :
    fgetsAll n bs.flatten = bs.flatMap (fgetsAll n) := by
  induction bs with
  | nil => rfl
  | cons b bs ih =>
    rw [List.flatten_cons, fgetsAll_append hn (h b List.mem_cons_self), List.flatMap_cons,
      ih fun b hb => h b (List.mem_cons_of_mem _ hb)]

/-! ## Whole lines -/

/-- The lines of a text, each with its newline; the last one may lack it. -/
def splitLines : Bytes → List Bytes
  | [] => []
  | c :: a =>
    if c = NEWLINE then [c] :: splitLines a
    else
      match splitLines a with
      | [] => [[c]]
      | l :: ls => (c :: l) :: ls

/-- The line without its newline. -/
def chomp (line : Bytes) : Bytes :=
  if line.getLast? = some NEWLINE then line.dropLast else line

theorem splitLines_of_ne (h : a ≠ []) :
    splitLines a = takeLine a :: splitLines (a.drop (takeLine a).length) := by
  induction a with
  | nil => exact absurd rfl h
  | cons c a ih =>
    rw [splitLines, takeLine]
    split
    · rfl
    · rw [List.length_cons, List.drop_succ_cons]
      cases a with
      | nil => rfl
      | cons d a => rw [ih (List.cons_ne_nil _ _)]

/-- Lines that fit are read one by one. -/
theorem fgetsAll_eq_splitLines (hn : 1 < n) (h : ∀ l ∈ splitLines a, l.length < n) :
    fgetsAll n a = splitLines a := by
  induction a using pieces_induction hn with
  | nil => rfl
  | step a hne ih =>
    rw [splitLines_of_ne hne, List.forall_mem_cons] at h
    have hpiece : piece n a = takeLine a := List.take_of_length_le (Nat.le_sub_one_of_lt h.1)
    rw [hpiece] at ih
    rw [fgetsAll_of_ne hn hne, splitLines_of_ne hne, hpiece, ih h.2]

/-- The first piece of a line that is too long, and the rest of the line. -/
theorem fgetsAll_cut (hn : 1 < n) (h : NEWLINE ∉ a) (hlen : n ≤ a.length + 1) :
    fgetsAll n (a ++ [NEWLINE]) = a.take (n - 1) :: fgetsAll n (a.drop (n - 1) ++ [NEWLINE]) := by
  have hpiece : piece n (a ++ [NEWLINE]) = a.take (n - 1) := by
    rw [piece, takeLine_line h, List.take_append_of_le_length (by omega)]
  rw [fgetsAll_of_ne hn (by simp), hpiece, List.length_take, Nat.min_eq_left (by omega),
    List.drop_append_of_le_length (by omega)]

/-! ## The pieces of a line -/

/-- The line from where each of its pieces begins. -/
def cuts (n : Nat) (line : Bytes) : List Bytes :=
  (List.range (line.length / (n - 1) + 1)).map fun k => line.drop ((n - 1) * k)

theorem cuts_of_lt (h : a.length + 1 < n) : cuts n a = [a] := by
  rw [cuts, Nat.div_eq_of_lt (Nat.lt_sub_of_add_lt h)]
  rfl

theorem cuts_of_le (hn : 1 < n) (h : n ≤ a.length + 1) :
    cuts n a = a :: cuts n (a.drop (n - 1)) := by
  have hdiv : a.length / (n - 1) = (a.length - (n - 1)) / (n - 1) + 1 :=
    Nat.div_eq_sub_div (by omega) (by omega)
  rw [cuts, hdiv, List.range_succ_eq_map, List.map_cons, List.map_map, cuts, List.length_drop]
  refine congrArg (a :: ·) (List.map_congr_left fun k _ => ?_)
  rw [Function.comp_apply, List.drop_drop, Nat.mul_succ, Nat.add_comm]

theorem length_cuts (n : Nat) (a : Bytes) : (cuts n a).length = a.length / (n - 1) + 1 := by
  rw [cuts, List.length_map, List.length_range]

/-- One piece is read at each of the cuts. -/
theorem fgetsAll_eq_cuts (hn : 1 < n) (h : NEWLINE ∉ a) :
    fgetsAll n (a ++ [NEWLINE]) = (cuts n a).map fun t => piece n (t ++ [NEWLINE]) := by
  induction hlen : a.length using Nat.strongRecOn generalizing a with
  | ind len ih =>
    by_cases hfits : a.length + 1 < n
    · rw [cuts_of_lt hfits, fgetsAll_line hn h hfits, List.map_singleton, piece_line h hfits []]
    · have hcut : n ≤ a.length + 1 := Nat.not_lt.mp hfits
      have hdrop : NEWLINE ∉ a.drop (n - 1) := fun hm => h (List.mem_of_mem_drop hm)
      have hpiece : piece n (a ++ [NEWLINE]) = a.take (n - 1) := by
        rw [piece, takeLine_line h, List.take_append_of_le_length (by omega)]
      rw [fgetsAll_cut hn h hcut, cuts_of_le hn hcut, List.map_cons, hpiece,
        ih _ (by rw [List.length_drop]; omega) hdrop rfl]

theorem newline_notMem_cuts {t : Bytes} (h : NEWLINE ∉ a) (ht : t ∈ cuts n a) : NEWLINE ∉ t := by
  obtain ⟨k, -, rfl⟩ := List.mem_map.mp ht
  exact fun hm => h (List.mem_of_mem_drop hm)

end CLib
