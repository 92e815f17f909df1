import SocketSpeak.CLib.Loop
import SocketSpeak.Peer.StickerFile

/-!
# What a catalogue file holds

The two loops of `load_stickers`, with all the room that the strings need. The test of the inner
loop looks at the line in the buffer, which stays there at the end of the file. So what the loops do
is decided by `Holds`: the stickers that the lines of the file hold, and whether the last one is
left open. `terminates_iff` is about the loops themselves; what they do to the array that they write
to is in `Capacity`.
-/

namespace SocketSpeak
open CLib Loop

/-- A sticker as the string functions put it together, whatever room there is for it. -/
structure Sticker where
  name : Bytes
  text : Bytes
  deriving DecidableEq

/-- `load_stickers` at the head of one of its loops: of the outer one, before its `fgets`, or of the
inner one, with the sticker that is put together and the line in the buffer. `stickers` are those
that are done, and `lines` is what is left of the file. -/
inductive Loader where
  | outer (stickers : List Sticker) (lines : List Bytes)
  | inner (stickers : List Sticker) (sticker : Sticker) (line : Bytes) (lines : List Bytes)

/-- One iteration of the loop that `load_stickers` is in. -/
def Loader.step : Loader → Option Loader
  | .outer _ [] => none
  | .outer done (line :: ls) =>
    if line = STICKER_TAG then
      let (line, ls) := nextLine line ls
      let name := cutLine line
      let (line, ls) := nextLine name ls
      some (.inner done ⟨name, []⟩ line ls)
    else some (.outer done ls)
  | .inner done s line ls =>
    if IsEndTag line then some (.outer (done ++ [s]) ls)
    else
      let (next, ls) := nextLine line ls
      some (.inner done { s with text := s.text ++ cstr line } next ls)

/-- The lines of a text, without a line that ends it. -/
def IsText (text : List Bytes) : Prop := ∀ l ∈ text, ¬ IsEndTag l

/-- What `strcat` makes of the lines of a text. -/
def joined (text : List Bytes) : Bytes := (text.map cstr).flatten

/-- What the lines of a file hold: the stickers that are closed, and what there is of a last one
that is not, with the line that is in the buffer at the end of the file. -/
inductive Holds : List Bytes → List Sticker → Option (Sticker × Bytes) → Prop
  | nil : Holds [] [] none
  | skip {line ls stickers last} : line ≠ STICKER_TAG → Holds ls stickers last →
    Holds (line :: ls) stickers last
  | closed {name text tag ls stickers last} : IsText text → IsEndTag tag →
    Holds ls stickers last →
    Holds (STICKER_TAG :: name :: (text ++ tag :: ls)) (⟨cutLine name, joined text⟩ :: stickers)
      last
  /-- At the end of the file the name is taken for the line that ends the text. -/
  | closedByName {name} : IsEndTag (cutLine name) →
    Holds [STICKER_TAG, name] [⟨cutLine name, []⟩] none
  | openTag : Holds [STICKER_TAG] [] (some (⟨cutLine STICKER_TAG, []⟩, cutLine STICKER_TAG))
  | openName {name} : ¬ IsEndTag (cutLine name) →
    Holds [STICKER_TAG, name] [] (some (⟨cutLine name, []⟩, cutLine name))
  | openText {name text line} : IsText text → ¬ IsEndTag line →
    Holds (STICKER_TAG :: name :: (text ++ [line])) []
      (some (⟨cutLine name, joined text⟩, line))

section
variable {ls text : List Bytes} {stickers : List Sticker} {last : Option (Sticker × Bytes)}
  {line : Bytes}

/-- The text ends at the first line that ends it, if there is one. -/
theorem exists_text (ls : List Bytes) :
    IsText ls ∨ ∃ text tag rest, ls = text ++ tag :: rest ∧ IsText text ∧ IsEndTag tag := by
  induction ls with
  | nil => exact .inl fun _ h => absurd h List.not_mem_nil
  | cons l ls ih =>
    by_cases hl : IsEndTag l
    · exact .inr ⟨[], l, ls, rfl, fun _ h => absurd h List.not_mem_nil, hl⟩
    rcases ih with h | ⟨text, tag, rest, rfl, htext, htag⟩
    · exact .inl (List.forall_mem_cons.mpr ⟨hl, h⟩)
    · exact .inr ⟨l :: text, tag, rest, rfl, List.forall_mem_cons.mpr ⟨hl, htext⟩, htag⟩

/-- Every file holds something. -/
theorem exists_holds (ls : List Bytes) : ∃ stickers last, Holds ls stickers last := by
  induction hlen : ls.length using Nat.strongRecOn generalizing ls with
  | ind n ih =>
    subst hlen
    cases ls with
    | nil => exact ⟨_, _, .nil⟩
    | cons line ls =>
      by_cases htag : line = STICKER_TAG
      · subst htag
        cases ls with
        | nil => exact ⟨_, _, .openTag⟩
        | cons name ls =>
          rcases exists_text ls with htext | ⟨text, tag, rest, rfl, htext, htag⟩
          · rcases List.eq_nil_or_concat ls with rfl | ⟨text, l, rfl⟩
            · by_cases hname : IsEndTag (cutLine name)
              · exact ⟨_, _, .closedByName hname⟩
              · exact ⟨_, _, .openName hname⟩
            · rw [List.concat_eq_append] at htext ⊢
              exact ⟨_, _, .openText (fun l hl => htext l (List.mem_append_left _ hl))
                (htext l (by simp))⟩
          · obtain ⟨stickers, last, hrest⟩ := ih rest.length (by simp; omega) rest rfl
            exact ⟨_, _, .closed htext htag hrest⟩
      · obtain ⟨stickers, last, h⟩ := ih ls.length (by simp) ls rfl
        exact ⟨stickers, last, .skip htag h⟩

/-! ## The loops -/

namespace Loader
variable {done : List Sticker} {s : Sticker}

theorem step_skip (h : line ≠ STICKER_TAG) :
    step (.outer done (line :: ls)) = some (.outer done ls) := by
  rw [step, if_neg h]

theorem step_tag (ls : List Bytes) : step (.outer done (STICKER_TAG :: ls)) =
    some (.inner done ⟨cutLine (nextLine STICKER_TAG ls).1, []⟩
      (nextLine (cutLine (nextLine STICKER_TAG ls).1) (nextLine STICKER_TAG ls).2).1
      (nextLine (cutLine (nextLine STICKER_TAG ls).1) (nextLine STICKER_TAG ls).2).2) := by
  rw [step, if_pos rfl]

theorem step_end (h : IsEndTag line) :
    step (.inner done s line ls) = some (.outer (done ++ [s]) ls) := by
  rw [step, if_pos h]

theorem step_inner (h : ¬ IsEndTag line) : step (.inner done s line ls) =
    some (.inner done { s with text := s.text ++ cstr line } (nextLine line ls).1
      (nextLine line ls).2) := by
  rw [step, if_neg h]

/-- At the end of the file the line stays, and so does what the test of the loop says. -/
theorem not_terminates_open (h : ¬ IsEndTag line) : ¬ Terminates step (.inner done s line []) := by
  apply not_terminates_of_invariant (I := fun l => ∃ s, l = .inner done s line [])
  · rintro _ ⟨s, rfl⟩
    exact ⟨_, step_inner h, _, rfl⟩
  · exact ⟨s, rfl⟩

/-- The inner loop runs through the lines of the text. -/
theorem terminates_text (h : IsText text) (l : Bytes) (ls : List Bytes) :
    Terminates step (.inner done s (nextLine line (text ++ l :: ls)).1
      (nextLine line (text ++ l :: ls)).2) ↔
    Terminates step (.inner done { s with text := s.text ++ joined text } l ls) := by
  induction text generalizing s line with
  | nil => simp [nextLine, joined]
  | cons k text ih =>
    obtain ⟨hk, htext⟩ := List.forall_mem_cons.mp h
    rw [List.cons_append, nextLine, terminates_step (step_inner hk), ih htext]
    simp [joined]

/-- The loops end if no sticker of the file is left open. -/
theorem terminates_iff (h : Holds ls stickers last) :
    Terminates step (.outer done ls) ↔ last = none := by
  induction h generalizing done with
  | nil => exact iff_of_true (terminates_of_none rfl) rfl
  | skip hne _ ih => exact (terminates_step (step_skip hne)).trans ih
  | closed htext htag _ ih =>
    rw [terminates_step (step_tag _)]
    exact (terminates_text htext ..).trans ((terminates_step (step_end htag)).trans ih)
  | closedByName hname =>
    rw [terminates_step (step_tag _)]
    exact iff_of_true ((terminates_step (step_end hname)).mpr (terminates_of_none rfl)) rfl
  | openTag =>
    rw [terminates_step (step_tag _)]
    exact iff_of_false (not_terminates_open (by decide)) (Option.some_ne_none _)
  | openName hname =>
    rw [terminates_step (step_tag _)]
    exact iff_of_false (not_terminates_open hname) (Option.some_ne_none _)
  | openText htext hline =>
    rw [terminates_step (step_tag _)]
    refine iff_of_false (fun h => ?_) (Option.some_ne_none _)
    exact not_terminates_open hline ((terminates_text htext ..).mp h)

end Loader

/-- The loops of `load_stickers`, for what there is in the file. -/
def loadLoops (content : Bytes) : Loader := .outer [] (stickerLines content)

/-- `load_stickers` terminates if and only if every sticker in the file is closed. -/
theorem load_stickers_ends_iff (content : Bytes) : Terminates Loader.step (loadLoops content) ↔
    ∃ stickers, Holds (stickerLines content) stickers none := by
  constructor
  · intro h
    obtain ⟨stickers, last, hold⟩ := exists_holds (stickerLines content)
    obtain rfl := (Loader.terminates_iff hold).mp h
    exact ⟨stickers, hold⟩
  · rintro ⟨stickers, hold⟩
    exact (Loader.terminates_iff hold).mpr rfl

/-- A file that is cut off after the name of its first sticker. -/
theorem load_stickers_endless : ¬ Terminates Loader.step (loadLoops (str "<STICKER>\ncat\n")) := by
  intro h
  have hlines : stickerLines (str "<STICKER>\ncat\n") = [STICKER_TAG, str "cat\n"] := by
    decide +kernel
  have hopen : Holds (stickerLines (str "<STICKER>\ncat\n")) []
      (some (⟨str "cat", []⟩, str "cat")) := hlines ▸ .openName (by decide)
  cases (Loader.terminates_iff hopen).mp h

end

end SocketSpeak
