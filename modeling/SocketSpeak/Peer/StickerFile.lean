import SocketSpeak.Peer.Stickers

/-!
# What is read of a catalogue file

The loop of `load_stickers` over the lines of a file that `save_sticker` has appended to. `Loads` is
the loop without its fuel; `loads_more` follows it to the end of what the file held before, and
`loads_record` through the first record that is new. The text that is read there is never the one
that was written: with the newline that `save_sticker` puts after the text, no line that ends it can
stand right behind the text (`text_ne`).
-/

namespace SocketSpeak
open CLib

def STICKER_TAG : Bytes := str "<STICKER>\n"

/-- `load_stickers` reads the lines and ends with this catalogue. -/
inductive Loads : Catalogue → List Bytes → Catalogue → Prop
  | done {c} : Loads c [] c
  | skip {c line ls c'} : line ≠ STICKER_TAG → Loads c ls c' → Loads c (line :: ls) c'
  | entry {c ls ls' c'} {s : c.Slot} : loadEntry c STICKER_TAG ls = .ok (s, ls') →
    Loads s.count ls' c' → Loads c (STICKER_TAG :: ls) c'

section
variable {c c' : Catalogue} {s s' : c.Slot} {line : Bytes} {ls rest : List Bytes}
  {e : StickerEntry}

/-! ## The text of a sticker -/

/-- The text is what stands before the first line that ends it. -/
theorem loadText_ok (h : loadText s line ls = .ok (s', rest)) : ∃ ps tag,
    line :: ls = ps ++ tag :: rest ∧ IsEndTag tag ∧ (∀ p ∈ ps, ¬ IsEndTag p) ∧
      s'.entry.sticker.toStr = s.entry.sticker.toStr ++ (ps.map cstr).flatten := by
  induction ls generalizing s line with
  | nil =>
    rw [loadText] at h
    split at h
    · rename_i htag
      cases h
      exact ⟨[], line, rfl, htag, fun _ hp => absurd hp List.not_mem_nil, by simp⟩
    · cases h
  | cons l ls ih =>
    rw [loadText] at h
    split at h
    · rename_i htag
      cases h
      exact ⟨[], line, rfl, htag, fun _ hp => absurd hp List.not_mem_nil, by simp⟩
    · rename_i hno
      obtain ⟨s₁, hs₁, h⟩ := bind_ok h
      obtain ⟨ps, tag, heq, htag, hps, hstr⟩ := ih h
      refine ⟨line :: ps, tag, by rw [heq, List.cons_append], htag, ?_, ?_⟩
      · intro p hp
        rcases List.mem_cons.mp hp with rfl | hp
        · exact hno
        · exact hps p hp
      · rw [hstr, (Catalogue.Slot.catSticker_ok (ok_of_orOverflow hs₁)).2, List.map_cons,
          List.flatten_cons, List.append_assoc]

theorem loadText_append (h : loadText s line ls = .ok (s', rest)) (more : List Bytes) :
    loadText s line (ls ++ more) = .ok (s', rest ++ more) := by
  induction ls generalizing s line with
  | nil =>
    rw [loadText] at h
    split at h
    · rename_i htag
      cases h
      cases more with
      | nil => exact if_pos htag
      | cons l more => exact if_pos htag
    · cases h
  | cons l ls ih =>
    rw [loadText] at h
    split at h
    · rename_i htag
      cases h
      exact if_pos htag
    · rename_i hno
      obtain ⟨s₁, hs₁, h⟩ := bind_ok h
      rw [List.cons_append, loadText, if_neg hno, hs₁]
      exact ih h

theorem length_of_loadText (h : loadText s line ls = .ok (s', rest)) : rest.length ≤ ls.length := by
  obtain ⟨ps, tag, heq, -⟩ := loadText_ok h
  have hlen := congrArg List.length heq
  simp only [List.length_cons, List.length_append] at hlen
  omega

theorem nextLine_length (line : Bytes) (ls : List Bytes) :
    (nextLine line ls).2.length ≤ ls.length := by
  cases ls with
  | nil => exact Nat.le_refl _
  | cons l ls => exact Nat.le_succ _

/-- The name is copied, and then the text is read. -/
theorem loadEntry_ok (h : loadEntry c line ls = .ok (s, rest)) : ∃ s₀ s₁ : c.Slot,
    c.slot = some s₀ ∧ s₀.copyName (cutLine (nextLine line ls).1) = some s₁ ∧
    loadText s₁ (nextLine (cutLine (nextLine line ls).1) (nextLine line ls).2).1
      (nextLine (cutLine (nextLine line ls).1) (nextLine line ls).2).2 = .ok (s, rest) := by
  obtain ⟨s₀, hslot, h⟩ := bind_ok h
  obtain ⟨s₁, hname, h⟩ := bind_ok h
  exact ⟨s₀, s₁, ok_of_orOverflow hslot, ok_of_orOverflow hname, h⟩

theorem length_of_loadEntry (h : loadEntry c line ls = .ok (s, rest)) :
    rest.length ≤ ls.length := by
  obtain ⟨_, _, -, -, htext⟩ := loadEntry_ok h
  exact Nat.le_trans (length_of_loadText htext)
    (Nat.le_trans (nextLine_length _ _) (nextLine_length _ _))

/-- The fuel of the loop does not run out. -/
theorem loads_of_loadLoop {fuel : Nat} (hfuel : ls.length ≤ fuel)
    (h : loadLoop fuel c ls = .ok c') : Loads c ls c' := by
  induction fuel generalizing c ls with
  | zero =>
    obtain rfl := List.length_eq_zero_iff.mp (Nat.le_zero.mp hfuel)
    cases h
    exact .done
  | succ fuel ih =>
    cases ls with
    | nil =>
      cases h
      exact .done
    | cons line ls =>
      rw [loadLoop] at h
      split at h
      · rename_i htag
        obtain rfl : line = STICKER_TAG := htag
        obtain ⟨⟨s, ls'⟩, he, h⟩ := bind_ok h
        have hlen := length_of_loadEntry he
        exact .entry he (ih (Nat.le_trans hlen (Nat.le_of_succ_le_succ hfuel)) h)
      · rename_i hno
        exact .skip hno (ih (Nat.le_of_succ_le_succ hfuel) h)

theorem loads_of_loadContent {content : Bytes} (h : loadContent c content = .ok c') :
    Loads c (stickerLines content) c' := loads_of_loadLoop (Nat.le_refl _) h

/-- What has been read stays. -/
theorem Loads.isPrefix (h : Loads c ls c') : c.entries <+: c'.entries := by
  induction h with
  | done => exact List.prefix_refl _
  | skip _ _ ih => exact ih
  | entry _ _ ih => exact (List.prefix_append _ _).trans ih

/-! ## More of the file -/

theorem not_isEndTag_tag : ¬ IsEndTag STICKER_TAG := by decide

/-- A text that begins with a line that does not end it. -/
theorem ne_nil_of_loadText (hno : ¬ IsEndTag line) (hline : cstr line ≠ [])
    (h : loadText s line ls = .ok (s', rest)) : s'.entry.sticker.toStr ≠ [] := by
  obtain ⟨ps, tag, heq, htag, -, hstr⟩ := loadText_ok h
  cases ps with
  | nil =>
    cases heq
    exact absurd htag hno
  | cons p ps =>
    cases heq
    rw [hstr, List.map_cons, List.flatten_cons]
    intro hnil
    exact hline (List.append_eq_nil_iff.mp (List.append_eq_nil_iff.mp hnil).2).1

/-- What is read of a sticker does not change when the file grows. The only exception is a sticker
without a text that the file ended in, where its name ends the text. -/
theorem loadEntry_append {ls rest : List Bytes}
    (h : loadEntry c STICKER_TAG ls = .ok (s, rest)) (more : List Bytes) :
    loadEntry c STICKER_TAG (ls ++ STICKER_TAG :: more) = .ok (s, rest ++ STICKER_TAG :: more) ∨
      rest = [] ∧ s.entry.sticker.toStr = [] ∧ ∀ s' rest',
        loadEntry c STICKER_TAG (ls ++ STICKER_TAG :: more) = .ok (s', rest') →
          s'.entry.sticker.toStr ≠ [] := by
  obtain ⟨s₀, s₁, hslot, hname, htext⟩ := loadEntry_ok h
  have hempty : s₁.entry.sticker.toStr = [] := by
    rw [(Catalogue.Slot.copyName_ok hname).2, Catalogue.sticker_of_slot hslot, StrBuf.toStr_empty]
  cases ls with
  | nil =>
    -- the name is that of the tag, which does not end the text
    cases htext
  | cons l ls =>
    cases ls with
    | nil =>
      obtain ⟨ps, tag, heq, htag, -, hstr⟩ := loadText_ok htext
      have hps : ps = [] ∧ rest = [] := by
        cases ps with
        | nil => cases heq; exact ⟨rfl, rfl⟩
        | cons p ps => simp [nextLine] at heq
      refine .inr ⟨hps.2, by rw [hstr, hempty, hps.1]; rfl, fun s' rest' h' => ?_⟩
      obtain ⟨_, _, -, -, htext'⟩ := loadEntry_ok h'
      exact ne_nil_of_loadText not_isEndTag_tag (by decide) htext'
    | cons l' ls =>
      left
      have happend := loadText_append htext (STICKER_TAG :: more)
      unfold loadEntry
      dsimp only [List.cons_append, nextLine] at hname happend ⊢
      rw [hslot, orOverflow, ok_bind]
      change (orOverflow (s₀.copyName (cutLine l)) >>= _) = _
      rw [hname, orOverflow, ok_bind]
      exact happend

/-- Two catalogues whose entries begin alike, but for one text. -/
def DifferAt (es es' : List StickerEntry) : Prop :=
  ∃ before e e', before ++ [e] <+: es ∧ before ++ [e'] <+: es' ∧ e.sticker ≠ e'.sticker

theorem DifferAt.ne {es es' : List StickerEntry} (h : DifferAt es es') : es ≠ es' := by
  obtain ⟨before, e, e', he, he', hne⟩ := h
  rintro rfl
  have hlen : (before ++ [e]).length = (before ++ [e']).length := by
    rw [List.length_append, List.length_append]
    rfl
  have heq := (List.prefix_of_prefix_length_le he he' (Nat.le_of_eq hlen)).eq_of_length hlen
  rw [List.append_cancel_left_eq, List.cons.injEq] at heq
  exact hne (congrArg StickerEntry.sticker heq.1)

/-- A file that ends in a record is read on from there, when more records follow. -/
theorem loads_more {c₀ : Catalogue} {more : List Bytes} (h : Loads c ls c₀)
    (h' : Loads c (ls ++ STICKER_TAG :: more) c') :
    Loads c₀ (STICKER_TAG :: more) c' ∨ DifferAt c₀.entries c'.entries := by
  induction h with
  | done => exact .inl h'
  | skip hno _ ih =>
    cases h' with
    | skip _ h' => exact ih h'
    | entry => exact absurd rfl hno
  | @entry c ls rest c₀ s hs h₀ ih =>
    cases h' with
    | skip hno => exact absurd rfl hno
    | @entry _ _ rest' _ s' hs' h' =>
      change loadEntry c STICKER_TAG (ls ++ STICKER_TAG :: more) = _ at hs'
      rcases loadEntry_append hs more with happend | ⟨rfl, hnil, hne⟩
      · rw [happend] at hs'
        cases hs'
        exact ih h'
      · right
        cases h₀
        refine ⟨c.entries, s.entry, s'.entry, List.prefix_refl _, h'.isPrefix, ?_⟩
        intro heq
        exact hne s' rest' hs' (heq ▸ hnil)

/-! ## A record -/

/-- What can be typed for the name of a sticker. -/
structure IsName (name : Bytes) : Prop where
  nulFree : NulFree name
  newline : NEWLINE ∉ name
  length_lt : name.length < MAX_NAME_LEN

theorem map_cstr_fgetsAll {n : Nat} (hn : 1 < n) {b : Bytes} (h : NulFree b) :
    (fgetsAll n b).map cstr = fgetsAll n b := by
  have hpiece : ∀ piece ∈ fgetsAll n b, cstr piece = piece := by
    refine fun piece hp => NulFree.cstr_eq fun h0 => h ?_
    rw [← flatten_fgetsAll hn b]
    exact List.mem_flatten_of_mem hp h0
  exact (List.map_congr_left hpiece).trans (List.map_id' _)

/-- The lines of a record, and of what follows it. -/
theorem stickerLines_record {name text : Bytes} (hname : IsName name) (htext : NulFree text)
    (rest : Bytes) : stickerLines (stickerRecord name text ++ rest) =
      STICKER_TAG :: (name ++ [NEWLINE]) ::
        (fgetsAll 512 (text ++ [NEWLINE]) ++ str "</STICKER>\n" :: stickerLines rest) := by
  have heq : stickerRecord name text ++ rest = (str "<STICKER>" ++ [NEWLINE]) ++
      ((name ++ [NEWLINE]) ++ ((text ++ [NEWLINE]) ++
        ((str "</STICKER>" ++ [NEWLINE]) ++ rest))) := by
    simp [stickerRecord, str, NEWLINE]
  have hlen : name.length + 1 < 512 :=
    Nat.lt_of_le_of_lt (Nat.succ_le_of_lt hname.length_lt) (by decide)
  have hline : cstr (name ++ [NEWLINE]) = name ++ [NEWLINE] :=
    (nulFree_append hname.nulFree (by decide)).cstr_eq
  have hbody : (fgetsAll 512 (text ++ [NEWLINE])).map cstr = fgetsAll 512 (text ++ [NEWLINE]) :=
    map_cstr_fgetsAll (by decide) (nulFree_append htext (by decide))
  have hend : fgetsAll 512 (str "</STICKER>" ++ [NEWLINE]) = [str "</STICKER>" ++ [NEWLINE]] :=
    fgetsAll_line (by decide) (by decide) (by decide)
  rw [stickerLines, heq, fgetsAll_append (by decide) (terminated_concat _),
    fgetsAll_line (by decide) (by decide) (by decide),
    fgetsAll_append (by decide) (terminated_concat _), fgetsAll_line (by decide) hname.newline hlen,
    fgetsAll_append (by decide) (terminated_concat _),
    fgetsAll_append (by decide) (terminated_concat _), hend]
  simp only [List.map_append, List.map_cons, List.map_nil, hline, hbody]
  rfl

/-- The text that is read of a record is not the text that was written. -/
theorem text_ne {text q : Bytes} {qs more rest : List Bytes}
    (hq : q :: qs = fgetsAll 512 (text ++ [NEWLINE]) ++ str "</STICKER>\n" :: more)
    (htext : NulFree text) (hs : s.entry.sticker.toStr = [])
    (h : loadText s q qs = .ok (s', rest)) : s'.entry.sticker.toStr ≠ text := by
  obtain ⟨ps, tag, heq, htag, hps, hstr⟩ := loadText_ok h
  rw [hs, List.nil_append] at hstr
  have hflat : (fgetsAll 512 (text ++ [NEWLINE])).flatten = text ++ [NEWLINE] :=
    flatten_fgetsAll (by decide) _
  have hcstr : (fgetsAll 512 (text ++ [NEWLINE])).map cstr = fgetsAll 512 (text ++ [NEWLINE]) :=
    map_cstr_fgetsAll (by decide) (nulFree_append htext (by decide))
  generalize fgetsAll 512 (text ++ [NEWLINE]) = body at hq hflat hcstr
  rw [hq] at heq
  -- the line that ends the text is in the body, or right behind it
  rcases List.append_eq_append_iff.mp heq with ⟨as, rfl, has⟩ | ⟨us, rfl, hus⟩
  · cases as with
    | nil =>
      rw [List.append_nil, hcstr, hflat] at hstr
      rw [hstr]
      simp
    | cons a as =>
      cases has
      exact absurd (.inl rfl) (hps _ (by simp))
  · intro htextEq
    rw [List.map_append] at hcstr
    have hps' := List.append_inj_left hcstr (List.length_map _)
    rw [hps'] at hstr
    rw [List.flatten_append, ← hstr, htextEq] at hflat
    have hline : us.flatten = [NEWLINE] := List.append_cancel_left hflat
    cases us with
    | nil => cases hline
    | cons u us =>
      cases hus
      rcases htag with rfl | rfl <;> cases hline

/-- The first record that follows is read with another text. -/
theorem loads_record {name text rest : Bytes} (hname : IsName name) (htext : NulFree text)
    (h : Loads c (stickerLines (stickerRecord name text ++ rest)) c') :
    ∃ e, c.entries ++ [e] <+: c'.entries ∧ e.sticker.toStr ≠ text := by
  rw [stickerLines_record hname htext] at h
  cases h with
  | skip hno => exact absurd rfl hno
  | @entry _ _ ls' _ s hs h' =>
    refine ⟨s.entry, h'.isPrefix, ?_⟩
    obtain ⟨q, qs, hq⟩ := List.exists_cons_of_ne_nil (l := fgetsAll 512 (text ++ [NEWLINE]) ++
      str "</STICKER>\n" :: stickerLines rest) (by simp)
    rw [hq] at hs
    obtain ⟨s₀, s₁, hslot, hcopy, hload⟩ := loadEntry_ok hs
    refine text_ne hq.symm htext ?_ hload
    rw [(Catalogue.Slot.copyName_ok hcopy).2, Catalogue.sticker_of_slot hslot, StrBuf.toStr_empty]

/-- A catalogue with a sticker that has been saved to the file is not what is read of the file. -/
theorem not_loaded {content name rest : Bytes} {c₀ : Catalogue} {new : List StickerEntry}
    (hterm : Terminated content) (hname : IsName name)
    (h : loadContent c content = .ok c₀)
    (h' : loadContent c (content ++ (stickerRecord name e.sticker.toStr ++ rest)) = .ok c') :
    c'.entries ≠ c₀.entries ++ e :: new := by
  have hloads := loads_of_loadContent h'
  rw [stickerLines, fgetsAll_append (by decide) hterm, List.map_append] at hloads
  change Loads c (stickerLines content ++ stickerLines (_ ++ rest)) c' at hloads
  rw [stickerLines_record hname e.sticker.nulFree] at hloads
  have hdiffer : DifferAt (c₀.entries ++ e :: new) c'.entries := by
    rcases loads_more (loads_of_loadContent h) hloads with hrecord | hdiffer
    · rw [← stickerLines_record hname e.sticker.nulFree] at hrecord
      obtain ⟨e', he', hne⟩ := loads_record hname e.sticker.nulFree hrecord
      refine ⟨c₀.entries, e, e', ?_, he', fun heq => hne (heq ▸ rfl)⟩
      exact ⟨new, by simp⟩
    · obtain ⟨before, d, d', hd, hd', hne⟩ := hdiffer
      exact ⟨before, d, d', hd.trans (List.prefix_append _ _), hd', hne⟩
  exact hdiffer.ne.symm

end

end SocketSpeak
