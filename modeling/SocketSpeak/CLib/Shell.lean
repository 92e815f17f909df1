import SocketSpeak.CLib.Stdio

/-!
# Command lines

What `sh` makes of a command line in which it has nothing to interpret: the words between the
blanks. A line in which it finds a metacharacter has no words here, whatever it does then.
-/

namespace CLib

def SPACE : UInt8 := 0x20

def isblank (c : UInt8) : Bool := c = SPACE || c = 0x09

/-- The characters that the shell interprets wherever they stand: the newline, the quotes, and those
of expansions, of patterns and of commands. -/
def metacharacters : Bytes :=
  [0x0A, 0x22, 0x24, 0x26, 0x27, 0x28, 0x29, 0x2A, 0x3B, 0x3C, 0x3E, 0x3F, 0x5B, 0x5C, 0x60, 0x7C]

/-- The characters that the shell interprets at the beginning of a word, `~` and `#`. -/
def initialMetacharacters : Bytes := [0x7E, 0x23]

/-- The words of a command line, unless the shell has something to interpret. -/
def shellWords (line : Bytes) : Option (List Bytes) :=
  let words := (line.splitOnP isblank).filter (· ≠ [])
  if (∃ c ∈ line, c ∈ metacharacters) ∨
    ∃ word ∈ words, ∃ c ∈ word.head?, c ∈ initialMetacharacters then none
  else some words

/-- A byte that is part of a word, and nothing else. -/
def IsPlain (c : UInt8) : Prop := isblank c = false ∧ c ∉ metacharacters

instance (c : UInt8) : Decidable (IsPlain c) := inferInstanceAs (Decidable (_ ∧ _))

theorem isPlain_of_isalnum {c : UInt8} : isalnum c = true → IsPlain c :=
  forall_byte (P := fun c => isalnum c = true → IsPlain c) (by decide +kernel) c

/-- The shell takes the string for one word, as it stands. -/
structure IsWord (s : Bytes) : Prop where
  ne_nil : s ≠ []
  plain : ∀ c ∈ s, IsPlain c
  start : ∀ c ∈ s.head?, c ∉ initialMetacharacters

variable {s word rest : Bytes}

theorem isWord_append {t : Bytes} (h : s ≠ []) :
    IsWord (s ++ t) ↔ IsWord s ∧ ∀ c ∈ t, IsPlain c := by
  have hhead : (s ++ t).head? = s.head? := by
    cases s with
    | nil => exact absurd rfl h
    | cons => rfl
  constructor
  · intro hw
    have hplain := List.forall_mem_append.mp hw.plain
    exact ⟨⟨h, hplain.1, hhead ▸ hw.start⟩, hplain.2⟩
  · intro ⟨hs, ht⟩
    exact ⟨fun h0 => h (List.append_eq_nil_iff.mp h0).1,
      List.forall_mem_append.mpr ⟨hs.plain, ht⟩, hhead.symm ▸ hs.start⟩

theorem not_mem_of_splitOnP {p : UInt8 → Bool} (h : word ∈ s.splitOnP p) {c : UInt8}
    (hc : c ∈ word) : p c = false := by
  induction s generalizing word with
  | nil =>
    rw [List.splitOnP_nil, List.mem_singleton] at h
    rw [h] at hc
    cases hc
  | cons a s ih =>
    rw [List.splitOnP_cons_eq_if_modifyHead] at h
    split at h
    · rcases List.mem_cons.mp h with rfl | h
      · cases hc
      · exact ih h hc
    · rename_i ha
      obtain ⟨w, ws, hws⟩ := List.exists_cons_of_ne_nil (List.splitOnP_ne_nil p s)
      rw [hws, List.modifyHead_cons, List.mem_cons] at h
      rcases h with rfl | h
      · rcases List.mem_cons.mp hc with rfl | hc
        · exact Bool.not_eq_true _ ▸ ha
        · exact ih (hws ▸ List.mem_cons_self) hc
      · exact ih (hws ▸ List.mem_cons_of_mem _ h) hc

/-- One word in front of a command line. -/
theorem shellWords_append (hw : IsWord word) :
    shellWords (word ++ SPACE :: rest) = (shellWords rest).map (word :: ·) := by
  have hsplit : ((word ++ SPACE :: rest).splitOnP isblank).filter (· ≠ []) =
      word :: (rest.splitOnP isblank).filter (· ≠ []) := by
    rw [List.splitOnP_append_cons _ _ rfl, List.filter_append,
      List.splitOnP_eq_singleton fun c hc => (hw.plain c hc).1]
    simp [hw.ne_nil]
  have hmeta : (∃ c ∈ word ++ SPACE :: rest, c ∈ metacharacters) ↔
      ∃ c ∈ rest, c ∈ metacharacters := by
    constructor
    · rintro ⟨c, hc, hm⟩
      rcases List.mem_append.mp hc with hc | hc
      · exact absurd hm (hw.plain c hc).2
      · rcases List.mem_cons.mp hc with rfl | hc
        · exact absurd hm (by decide)
        · exact ⟨c, hc, hm⟩
    · rintro ⟨c, hc, hm⟩
      exact ⟨c, List.mem_append_right _ (List.mem_cons_of_mem _ hc), hm⟩
  have hstart : ¬ ∃ c ∈ word.head?, c ∈ initialMetacharacters := fun ⟨c, hc, hm⟩ => hw.start c hc hm
  simp only [shellWords, hsplit, hmeta, List.mem_cons, exists_eq_or_imp, hstart, false_or]
  split <;> rfl

theorem shellWords_eq_singleton : shellWords s = some [s] ↔ IsWord s := by
  constructor
  · intro h
    unfold shellWords at h
    dsimp only at h
    split at h
    · cases h
    · rename_i hnot
      obtain ⟨hmeta, hstart⟩ := not_or.mp hnot
      have hmem : s ∈ (s.splitOnP isblank).filter (· ≠ []) := by
        rw [Option.some.inj h]
        exact List.mem_singleton_self s
      obtain ⟨hsplit, hne⟩ := List.mem_filter.mp hmem
      refine ⟨of_decide_eq_true hne, fun c hc => ⟨not_mem_of_splitOnP hsplit hc, ?_⟩, ?_⟩
      · exact fun hm => hmeta ⟨c, hc, hm⟩
      · exact fun c hc hm => hstart ⟨s, hmem, c, hc, hm⟩
  · intro h
    have hsplit : (s.splitOnP isblank).filter (· ≠ []) = [s] := by
      rw [List.splitOnP_eq_singleton fun c hc => (h.plain c hc).1]
      simp [h.ne_nil]
    unfold shellWords
    simp only [hsplit]
    refine if_neg ?_
    rintro (⟨c, hc, hm⟩ | ⟨w, hw, c, hc, hm⟩)
    · exact (h.plain c hc).2 hm
    · rw [List.mem_singleton.mp hw] at hc
      exact h.start c hc hm

end CLib
