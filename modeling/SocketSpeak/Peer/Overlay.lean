import SocketSpeak.CLib.Heap
import SocketSpeak.CLib.Sys
import SocketSpeak.Peer.Stickers

/-!
# The sticker editor

`read_multiline_overlay` with the block of memory that it types into. The block is doubled when
there is no room for one more byte and the NUL, and a key that deletes makes the text shorter and
leaves the block as it is. What the editor prints is left out.
-/

namespace SocketSpeak
open CLib

/-! ## The text -/

/-- What a key does to the text. -/
def edit (text : Bytes) (c : UInt8) : Bytes :=
  if c = 0x7F ∨ c = 0x08 then text.dropLast else text ++ [c]

/-- What has been typed when ESC is pressed or the input ends. -/
def editedText (keys : Bytes) : Bytes := (keys.takeWhile (· ≠ ESCAPE)).foldl edit []

theorem foldl_edit_of_typed {typed : Bytes} (h : ∀ c ∈ typed, ¬ (c = 0x7F ∨ c = 0x08))
    (text : Bytes) : typed.foldl edit text = text ++ typed := by
  induction typed generalizing text with
  | nil => rw [List.foldl_nil, List.append_nil]
  | cons c typed ih =>
    rw [List.forall_mem_cons] at h
    rw [List.foldl_cons, ih h.2, edit, if_neg h.1, List.append_assoc, List.singleton_append]

/-- Keys that neither delete nor end the text are the text. -/
theorem editedText_of_typed {typed : Bytes}
    (h : ∀ c ∈ typed, c ≠ ESCAPE ∧ ¬ (c = 0x7F ∨ c = 0x08)) : editedText typed = typed := by
  have hall : typed.takeWhile (· ≠ ESCAPE) = typed := by
    rw [List.takeWhile_eq_self_iff]
    exact fun c hc => by simpa using (h c hc).1
  rw [editedText, hall, foldl_edit_of_typed fun c hc => (h c hc).2, List.nil_append]

theorem overlayLoop_eq_foldl (text keys : Bytes) :
    overlayLoop text keys = (keys.takeWhile (· ≠ ESCAPE)).foldl edit text := by
  induction keys generalizing text with
  | nil => rfl
  | cons c keys ih =>
    by_cases hesc : c = ESCAPE
    · simp [overlayLoop, hesc]
    · rw [overlayLoop, if_neg hesc, List.takeWhile_cons_of_pos (by simpa using hesc),
        List.foldl_cons, ← ih, edit]
      split <;> rfl

theorem readMultilineOverlay_eq (keys : Bytes) :
    readMultilineOverlay keys = cstr (editedText keys) := by
  rw [readMultilineOverlay, overlayLoop_eq_foldl, editedText]

/-! ## The buffer -/

/-- What a `size_t` has of a number. -/
def sizeT (n : Nat) : Nat := n % 2 ^ 64

/-- The locals of `read_multiline_overlay`. -/
structure Editor where
  bufSize : Nat
  totalLen : Nat
  buffer : CharArray bufSize

/-- How the function is left before its end. -/
inductive Leave where
  /-- `return NULL` -/
  | null
  | fault (f : Fault)
  deriving DecidableEq

namespace Editor

/-- `buffer[i] = c` -/
def store (e : Editor) (i : Nat) (c : UInt8) : Except Leave Editor :=
  if i < e.bufSize then .ok { e with buffer := e.buffer.set i c }
  else .error (.fault .bufferOverflow)

/-- The editor before the first key. -/
def start (heap : Heap) : Except Leave Editor :=
  match malloc heap 1024 with
  | none => .error .null
  | some buffer => store ⟨1024, 0, buffer⟩ 0 0

/-- The part of the loop that grows the buffer if needed. -/
def grow (heap : Heap) (e : Editor) : Option Editor :=
  if e.bufSize < sizeT (e.totalLen + 2) then
    (realloc heap e.buffer (sizeT (e.bufSize * 2))).map fun newBuf => ⟨_, e.totalLen, newBuf⟩
  else some e

/-- The body of the loop, for a key that is not ESC. -/
def key (heap : Heap) (e : Editor) (c : UInt8) : Except Leave Editor :=
  if c = 0x7F ∨ c = 0x08 then
    if 0 < e.totalLen then
      store { e with totalLen := e.totalLen - 1 } (e.totalLen - 1) 0
    else .ok e
  else
    match e.grow heap with
    | none => .error .null
    | some e => do
      let e ← e.store e.totalLen c
      let e := { e with totalLen := e.totalLen + 1 }
      e.store e.totalLen 0

/-- The loop, with the keys that are pressed until the input ends. -/
def loop (heap : Heap) (e : Editor) : Bytes → Except Leave Editor
  | [] => .ok e
  | c :: keys =>
    if c = ESCAPE then .ok e
    else do
      let e ← e.key heap c
      loop heap e keys

/-- `read_multiline_overlay()`: what is in the block that it returns. -/
def readMultilineOverlay (heap : Heap) (keys : Bytes) : Except Leave Bytes := do
  let e ← start heap
  let e ← e.loop heap keys
  return e.buffer.data

/-- What the key needs of the allocator, it gets. -/
def Reallocs (heap : Heap) (e : Editor) (c : UInt8) : Prop :=
  (c = 0x7F ∨ c = 0x08) ∨ (e.grow heap).isSome

/-- No `malloc` or `realloc` fails before ESC is pressed or the input ends. -/
def Allocates (heap : Heap) (keys : Bytes) : Prop :=
  ∃ e, start heap = .ok e ∧
    Sys.Meets (key heap) (Reallocs heap) e (keys.takeWhile (· ≠ ESCAPE))

/-- The buffer has the text, and there are as many bytes of it as a power of two. -/
structure Represents (e : Editor) (text : Bytes) : Prop where
  buffer : e.buffer.HasText text
  totalLen : e.totalLen = text.length
  bufSize : ∃ k < 64, e.bufSize = 2 ^ k

variable {heap : Heap} {e e' : Editor} {text keys : Bytes} {c : UInt8}

theorem loop_eq_exec (e : Editor) (keys : Bytes) :
    e.loop heap keys = Sys.exec (key heap) e (keys.takeWhile (· ≠ ESCAPE)) := by
  induction keys generalizing e with
  | nil => rfl
  | cons c keys ih =>
    by_cases hesc : c = ESCAPE
    · simp [loop, hesc, Sys.exec]
    · rw [loop, if_neg hesc, List.takeWhile_cons_of_pos (by simpa using hesc), Sys.exec]
      cases e.key heap c with
      | error => rfl
      | ok e' => exact ih e'

theorem store_of_lt {i : Nat} (h : i < e.bufSize) :
    e.store i c = .ok { e with buffer := e.buffer.set i c } := if_pos h

namespace Represents

theorem lt_bufSize (h : e.Represents text) : text.length < e.bufSize := h.buffer.length_lt

/-- The sum in the growth test does not wrap around. -/
theorem sizeT_totalLen (h : e.Represents text) : sizeT (e.totalLen + 2) = text.length + 2 := by
  obtain ⟨k, hk, hsize⟩ := h.bufSize
  have hlt := h.lt_bufSize
  have hpow : 2 ^ k ≤ 2 ^ 63 := Nat.pow_le_pow_right (by omega) (by omega)
  rw [h.totalLen, sizeT]
  omega

end Represents

theorem sizeT_two_pow {k : Nat} (hk : k < 64) : sizeT (2 ^ k) = 2 ^ k :=
  Nat.mod_eq_of_lt (Nat.pow_lt_pow_right (by omega) hk)

/-- Doubling comes to zero when it leaves the range of a `size_t`. -/
theorem succ_lt_of_sizeT_ne {k : Nat} (hk : k < 64) (hne : sizeT (2 ^ (k + 1)) ≠ 0) :
    k + 1 < 64 := by
  by_contra hlast
  obtain rfl : k = 63 := by omega
  exact hne rfl

theorem grow_of_le (h : e.Represents text) (hle : text.length + 2 ≤ e.bufSize) :
    e.grow heap = some e := by
  rw [grow, h.sizeT_totalLen, if_neg (by omega)]

/-- There is room for one more byte and the NUL afterwards. -/
theorem represents_of_grow (h : e.Represents text) (hg : e.grow heap = some e') :
    e'.Represents text ∧ text.length + 2 ≤ e'.bufSize := by
  have hlt := h.lt_bufSize
  unfold grow at hg
  rw [h.sizeT_totalLen] at hg
  split at hg
  · obtain ⟨newBuf, hnew, rfl⟩ := Option.map_eq_some_iff.mp hg
    obtain ⟨k, hk, hsize⟩ := h.bufSize
    have hpow : e.bufSize * 2 = 2 ^ (k + 1) := by rw [hsize, Nat.pow_succ]
    have hne := (isSome_realloc.mp (Option.isSome_of_eq_some hnew)).1
    have hk' : k + 1 < 64 := succ_lt_of_sizeT_ne hk (hpow ▸ hne)
    have hdouble : sizeT (e.bufSize * 2) = e.bufSize * 2 := by rw [hpow, sizeT_two_pow hk']
    have hbuffer := h.buffer.realloc (by omega) hnew
    refine ⟨⟨hbuffer, h.totalLen, k + 1, hk', hdouble.trans hpow⟩, ?_⟩
    dsimp only
    omega
  · cases hg
    exact ⟨h, by omega⟩

/-! ## One key -/

theorem represents_start (heap : Heap) : start heap = .error .null ∨
    ∃ e, start heap = .ok e ∧ e.Represents [] := by
  unfold start
  cases malloc heap 1024 with
  | none => exact .inl rfl
  | some buffer =>
    have h : 0 < 1024 := by omega
    exact .inr ⟨_, store_of_lt h, buffer.hasText_nil h, rfl, 10, by omega, rfl⟩

/-- A key that deletes. -/
theorem key_delete (h : e.Represents text) (hc : c = 0x7F ∨ c = 0x08) :
    ∃ e', e.key heap c = .ok e' ∧ e'.Represents text.dropLast := by
  have hlt := h.lt_bufSize
  rw [key, if_pos hc, h.totalLen]
  split
  · rename_i hpos
    have hne : text ≠ [] := List.length_pos_iff.mp hpos
    have hbuffer := h.buffer.dropLast hne
    refine ⟨_, store_of_lt (by dsimp only; omega), hbuffer, ?_, h.bufSize⟩
    rw [List.length_dropLast]
  · rename_i hpos
    obtain rfl : text = [] := List.length_eq_zero_iff.mp (by omega)
    exact ⟨e, rfl, h⟩

/-- Any other key, where the buffer is large enough or grows. -/
theorem key_append (h : e.Represents text) (hc : ¬ (c = 0x7F ∨ c = 0x08))
    (hg : e.grow heap = some e') :
    ∃ e'', e.key heap c = .ok e'' ∧ e''.Represents (text ++ [c]) := by
  obtain ⟨h', hroom⟩ := represents_of_grow h hg
  rw [key, if_neg hc, hg]
  simp only [h'.totalLen, store_of_lt h'.lt_bufSize, ok_bind]
  have hbuffer := h'.buffer.append (by omega) c
  refine ⟨_, store_of_lt (by dsimp only; omega), hbuffer, ?_, h'.bufSize⟩
  rw [List.length_append, List.length_singleton]

/-- A key does to the buffer what it does to the text, or the allocator has no block for it. -/
theorem key_spec (h : e.Represents text) (c : UInt8) :
    (¬ Reallocs heap e c ∧ e.key heap c = .error .null) ∨
      Reallocs heap e c ∧ ∃ e', e.key heap c = .ok e' ∧ e'.Represents (edit text c) := by
  by_cases hc : c = 0x7F ∨ c = 0x08
  · rw [edit, if_pos hc]
    exact .inr ⟨.inl hc, key_delete h hc⟩
  · rw [edit, if_neg hc]
    cases hg : e.grow heap with
    | none =>
      refine .inl ⟨fun hr => ?_, by rw [key, if_neg hc, hg]⟩
      simpa [hg] using hr.resolve_left hc
    | some e' => exact .inr ⟨.inr (hg ▸ rfl), key_append h hc hg⟩

theorem key_ok_iff (h : e.Represents text) :
    (∃ e', e.key heap c = .ok e') ↔ Reallocs heap e c := by
  obtain ⟨hr, hkey⟩ | ⟨hr, e', hkey, -⟩ := key_spec h c
  · exact iff_of_false (by simp [hkey]) hr
  · exact iff_of_true ⟨e', hkey⟩ hr

theorem represents_of_key (h : e.Represents text) (hk : e.key heap c = .ok e') :
    e'.Represents (edit text c) := by
  obtain ⟨-, hkey⟩ | ⟨-, e'', hkey, h'⟩ := key_spec h c
  · cases hkey.symm.trans hk
  · cases hkey.symm.trans hk
    exact h'

/-- Every store is inside of the buffer. -/
theorem key_ne_fault (h : e.Represents text) (f : Fault) : e.key heap c ≠ .error (.fault f) := by
  intro hf
  obtain ⟨-, hkey⟩ | ⟨-, e', hkey, -⟩ := key_spec h c <;> cases hkey.symm.trans hf

/-! ## All keys -/

theorem represents_of_loop (h : e.Represents text) (hl : e.loop heap keys = .ok e') :
    e'.Represents ((keys.takeWhile (· ≠ ESCAPE)).foldl edit text) := by
  rw [loop_eq_exec] at hl
  refine Sys.exec_foldl (fun e text c e' h hk => ?_) h hl
  exact represents_of_key h hk

/-- The loop comes to its end if and only if the allocator has a block each time. -/
theorem loop_ok_iff (h : e.Represents text) : (∃ e', e.loop heap keys = .ok e') ↔
    Sys.Meets (key heap) (Reallocs heap) e (keys.takeWhile (· ≠ ESCAPE)) := by
  rw [loop_eq_exec]
  refine Sys.exec_ok_iff (I := fun e => ∃ text, e.Represents text) ?_ ?_ ⟨text, h⟩
  · rintro e c ⟨text, h⟩
    exact key_ok_iff h
  · rintro e c e' ⟨text, h⟩ hk
    exact ⟨_, represents_of_key h hk⟩

theorem loop_ne_fault (h : e.Represents text) (f : Fault) :
    e.loop heap keys ≠ .error (.fault f) := by
  rw [loop_eq_exec, Sys.exec_ne_error_iff]
  refine Sys.meets_of_invariant (I := fun e => ∃ text, e.Represents text) (C := fun _ _ => True)
    ?_ ?_ ⟨text, h⟩ (Sys.meets_of_forall (fun _ _ => trivial) _ _)
  · rintro e c e' ⟨text, h⟩ - hk
    exact ⟨_, represents_of_key h hk⟩
  · rintro e c ⟨text, h⟩ -
    exact key_ne_fault h f

/-- Whatever the allocator answers, no store is past the end of the buffer. -/
theorem ne_fault (heap : Heap) (keys : Bytes) (f : Fault) :
    readMultilineOverlay heap keys ≠ .error (.fault f) := by
  obtain hnull | ⟨e, hstart, h⟩ := represents_start heap
  · rw [readMultilineOverlay, hnull]
    exact nofun
  · rw [readMultilineOverlay, hstart, ok_bind]
    cases hl : e.loop heap keys with
    | ok e' => exact nofun
    | error g =>
      rintro hg
      cases hg
      exact loop_ne_fault h f hl

/-- A block is returned if and only if the allocator has one each time. -/
theorem ok_iff_allocates :
    (∃ block, readMultilineOverlay heap keys = .ok block) ↔ Allocates heap keys := by
  obtain hnull | ⟨e, hstart, h⟩ := represents_start heap
  · simp [readMultilineOverlay, Allocates, hnull, bind, Except.bind]
  · simp only [readMultilineOverlay, Allocates, hstart, ok_bind, Except.ok.injEq, exists_eq_left',
      bind_ok_iff, ← loop_ok_iff h, pure_eq_ok, exists_eq', and_true]

/-- The block begins with the text and a NUL, and its string is the text as far as that goes. -/
theorem block_of_ok {block : Bytes} (h : readMultilineOverlay heap keys = .ok block) :
    editedText keys ++ [0] <+: block ∧ cstr block = cstr (editedText keys) := by
  obtain hnull | ⟨e, hstart, hrep⟩ := represents_start heap
  · rw [readMultilineOverlay, hnull] at h
    cases h
  · rw [readMultilineOverlay, hstart, ok_bind] at h
    obtain ⟨e', hl, h⟩ := bind_ok h
    cases h
    have htext := (represents_of_loop hrep hl).buffer
    exact ⟨htext, htext.toStr⟩

/-! ## Memory for every size -/

theorem length_edit_le (text : Bytes) (c : UInt8) : (edit text c).length ≤ text.length + 1 := by
  rw [edit]
  split
  · rw [List.length_dropLast]
    omega
  · rw [List.length_append, List.length_singleton]

/-- Half of what a `size_t` can count is more than the text needs. -/
theorem isSome_grow (hgrants : ∀ n, 0 < n → (heap n).isSome) (h : e.Represents text)
    (hlen : text.length + 1 < 2 ^ 63) : (e.grow heap).isSome := by
  by_cases hle : text.length + 2 ≤ e.bufSize
  · rw [grow_of_le h hle]
    rfl
  · obtain ⟨k, hk, hsize⟩ := h.bufSize
    have hk' : k + 1 < 64 := by
      have hpow : 2 ^ k < 2 ^ 63 := by omega
      have := (Nat.pow_lt_pow_iff_right (by omega)).mp hpow
      omega
    have hdouble : sizeT (e.bufSize * 2) = 2 ^ (k + 1) := by
      rw [hsize, ← Nat.pow_succ, sizeT_two_pow hk']
    have hpos : 0 < sizeT (e.bufSize * 2) := hdouble ▸ Nat.two_pow_pos _
    rw [grow, h.sizeT_totalLen, if_pos (by omega), Option.isSome_map, isSome_realloc]
    exact ⟨by omega, hgrants _ hpos⟩

theorem meets_of_grants (hgrants : ∀ n, 0 < n → (heap n).isSome) (h : e.Represents text)
    (hlen : text.length + keys.length < 2 ^ 63) :
    Sys.Meets (key heap) (Reallocs heap) e keys := by
  induction keys generalizing e text with
  | nil => trivial
  | cons c keys ih =>
    rw [List.length_cons] at hlen
    have hr : Reallocs heap e c := .inr (isSome_grow hgrants h (by omega))
    obtain ⟨e', hkey⟩ := (key_ok_iff h).mpr hr
    have hedit := length_edit_le text c
    refine ⟨hr, ?_⟩
    rw [hkey]
    exact ih (represents_of_key h hkey) (by omega)

/-- An allocator with a block of every size is enough for fewer than `2 ^ 63` keys. -/
theorem allocates_of_grants (hgrants : ∀ n, 0 < n → (heap n).isSome)
    (hlen : keys.length < 2 ^ 63) : Allocates heap keys := by
  obtain hnull | ⟨e, hstart, h⟩ := represents_start heap
  · have hsome := isSome_malloc.mpr (hgrants 1024 (by omega))
    unfold start at hnull
    split at hnull
    · rename_i hnone
      simp [hnone] at hsome
    · cases (store_of_lt (by dsimp only; omega)).symm.trans hnull
  · have hle := (List.takeWhile_prefix (· ≠ ESCAPE) (l := keys)).length_le
    refine ⟨e, hstart, meets_of_grants hgrants h ?_⟩
    rw [List.length_nil]
    omega

end Editor

/-- The string of the block is the one that `create_sticker` goes on with. -/
theorem cstr_block {heap : Heap} {keys block : Bytes}
    (h : Editor.readMultilineOverlay heap keys = .ok block) :
    cstr block = readMultilineOverlay keys := by
  rw [(Editor.block_of_ok h).2, readMultilineOverlay_eq]

/-- No store is past the end of the buffer. Where the allocator has a block each time, the one that
is returned begins with the text and a NUL, and it is the string of the block unless a NUL has been
typed. -/
theorem readMultilineOverlay_editedText (heap : Heap) (keys : Bytes) :
    (∀ f, Editor.readMultilineOverlay heap keys ≠ .error (.fault f)) ∧
      (Editor.Allocates heap keys → ∃ block,
        Editor.readMultilineOverlay heap keys = .ok block ∧ editedText keys ++ [0] <+: block ∧
        (NulFree (editedText keys) → cstr block = editedText keys)) := by
  refine ⟨Editor.ne_fault heap keys, fun halloc => ?_⟩
  obtain ⟨block, hblock⟩ := Editor.ok_iff_allocates.mpr halloc
  refine ⟨block, hblock, (Editor.block_of_ok hblock).1, fun hfree => ?_⟩
  rw [cstr_block hblock, readMultilineOverlay_eq, hfree.cstr_eq]

/-- The first text for which the buffer is too small. -/
theorem readMultilineOverlay_editedText_grown : ∃ block,
    Editor.readMultilineOverlay (fun _ => some fun _ => 0xAA) (List.replicate 1024 0x41) =
      .ok block ∧
    List.replicate 1024 0x41 ++ [0] <+: block ∧ cstr block = List.replicate 1024 0x41 := by
  have halloc : Editor.Allocates (fun _ => some fun _ => 0xAA) (List.replicate 1024 0x41) :=
    Editor.allocates_of_grants (fun _ _ => rfl) (by rw [List.length_replicate]; omega)
  have htext : editedText (List.replicate 1024 0x41) = List.replicate 1024 0x41 := by
    refine editedText_of_typed fun c hc => ?_
    rw [List.eq_of_mem_replicate hc]
    decide
  obtain ⟨block, hblock, hpre, hstr⟩ := (readMultilineOverlay_editedText _ _).2 halloc
  rw [htext] at hpre hstr
  refine ⟨block, hblock, hpre, hstr fun h => ?_⟩
  exact absurd (List.eq_of_mem_replicate h) (by decide)

end SocketSpeak
