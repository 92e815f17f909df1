import SocketSpeak.CLib.Bytes

/-!
# Blocks from the allocator

A block of `n` bytes is a `CharArray n`. What a program has stored in it is a text with its NUL at
the beginning (`HasText`): there may be anything behind them, and where the text itself has a NUL,
the C string of the block is only a part of it.
-/

namespace CLib

/-- What the allocator has for a request of `n` bytes: no block, or one with something in its
memory. As a function of `n` it answers like any allocator where no size is asked for twice. -/
abbrev Heap := Nat → Option (Nat → UInt8)

/-- `malloc(n)` -/
def malloc (heap : Heap) (n : Nat) : Option (CharArray n) :=
  (heap n).map fun memory => ⟨(List.range n).map memory, by simp⟩

/-- `realloc(a, n)`. For `n = 0` this frees the block and there is no other one. -/
def realloc (heap : Heap) (a : CharArray m) (n : Nat) : Option (CharArray n) :=
  if n = 0 then none
  else (heap n).map fun memory =>
    ⟨(List.range n).map fun i => if i < m then a.get i else memory i, by simp⟩

theorem isSome_malloc {heap : Heap} : (malloc heap n).isSome ↔ (heap n).isSome := by
  rw [malloc, Option.isSome_map]

theorem isSome_realloc {heap : Heap} {a : CharArray m} :
    (realloc heap a n).isSome ↔ n ≠ 0 ∧ (heap n).isSome := by
  unfold realloc
  split
  · rename_i h
    simp [h]
  · rename_i h
    rw [Option.isSome_map, and_iff_right h]

/-- A block that grows keeps what is in it. -/
theorem isPrefix_realloc {heap : Heap} {a : CharArray m} {b : CharArray n} (hle : m ≤ n)
    (h : realloc heap a n = some b) : a.data <+: b.data := by
  unfold realloc at h
  split at h
  · cases h
  · obtain ⟨memory, -, rfl⟩ := Option.map_eq_some_iff.mp h
    refine List.prefix_iff_getElem.mpr ⟨by simpa [a.size_eq] using hle, fun i hi => ?_⟩
    have hm : i < m := a.size_eq ▸ hi
    simp [hm, CharArray.get, List.getD_eq_getElem?_getD, hi]

namespace CharArray

/-- The text is at the beginning of the block, with a NUL behind it. -/
def HasText (a : CharArray n) (text : Bytes) : Prop := text ++ [0] <+: a.data

variable {a : CharArray n} {text : Bytes}

theorem HasText.length_lt (h : a.HasText text) : text.length < n := by
  have hle := h.length_le
  rwa [List.length_append, List.length_singleton, a.size_eq] at hle

theorem HasText.toStr (h : a.HasText text) : a.toStr = cstr text := by
  obtain ⟨rest, hrest⟩ := h
  rw [CharArray.toStr, ← hrest, List.append_assoc, List.singleton_append, cstr_append_zero]

theorem HasText.realloc {heap : Heap} {b : CharArray n} {a : CharArray m} (h : a.HasText text)
    (hle : m ≤ n) (hb : realloc heap a n = some b) : b.HasText text :=
  List.IsPrefix.trans h (isPrefix_realloc hle hb)

/-- `a[0] = '\0'` -/
theorem hasText_nil (a : CharArray n) (hn : 0 < n) : (a.set 0 0).HasText [] := by
  obtain ⟨data, rfl⟩ := a
  cases data with
  | nil => exact absurd hn (Nat.lt_irrefl 0)
  | cons c rest => exact ⟨rest, rfl⟩

/-- A byte is stored over the NUL, and a NUL behind it. -/
theorem HasText.append (h : a.HasText text) (hlt : text.length + 1 < n) (c : UInt8) :
    ((a.set text.length c).set (text.length + 1) 0).HasText (text ++ [c]) := by
  obtain ⟨data, rfl⟩ := a
  obtain ⟨rest, rfl⟩ := h
  cases rest with
  | nil => simp at hlt
  | cons d rest => exact ⟨rest, by simp [set]⟩

/-- A NUL is stored over the last byte. -/
theorem HasText.dropLast (h : a.HasText text) (hne : text ≠ []) :
    (a.set (text.length - 1) 0).HasText text.dropLast := by
  obtain ⟨data, rfl⟩ := a
  obtain ⟨rest, rfl⟩ := h
  obtain ⟨text, c, rfl⟩ := (List.eq_nil_or_concat text).resolve_left hne
  exact ⟨0 :: rest, by simp [set]⟩

end CharArray

end CLib
