import SocketSpeak.Peer.UserDirectory
import SocketSpeak.Peer.StickerLoop

/-!
# Room for the stickers

`load_stickers` and `create_sticker` write to `sticker_array` without a look at its sizes.
`capacity_iff` says which loads and which new stickers keep within the array, over any sequence of
them; `entries_of_stickerSend` that a sticker command is such a sequence.
-/

namespace SocketSpeak
open CLib Sys

/-- The sticker fits into a `StickerEntry`. -/
structure Sticker.Fits (s : Sticker) : Prop where
  name : strlen s.name < MAX_NAME_LEN
  text : strlen s.text < MAX_STICKER_LEN

/-- There is room behind `n` stickers for what a file holds. A sticker that is left open needs a
slot as well, and what is in the buffer at the end of the file is appended to it for ever. -/
structure Room (n : Nat) (stickers : List Sticker) (last : Option (Sticker × Bytes)) : Prop where
  fits : ∀ s ∈ stickers, s.Fits
  count : n + stickers.length ≤ MAX_STICKERS
  last : ∀ x ∈ last, n + stickers.length < MAX_STICKERS ∧ x.1.Fits ∧ x.2 = []

section
variable {n fuel : Nat} {c c' : Catalogue} {s : c.Slot} {sticker : Sticker}
  {ls text : List Bytes} {stickers : List Sticker} {last : Option (Sticker × Bytes)}
  {line name : Bytes}

theorem room_nil (h : n ≤ MAX_STICKERS) : Room n [] none :=
  ⟨fun _ hs => absurd hs List.not_mem_nil, h, fun _ hx => by cases hx⟩

theorem room_cons : Room n (sticker :: stickers) last ↔
    sticker.Fits ∧ n < MAX_STICKERS ∧ Room (n + 1) stickers last := by
  constructor
  · rintro ⟨hfits, hcount, hlast⟩
    have hlen : n + (sticker :: stickers).length = n + 1 + stickers.length := by
      rw [List.length_cons]
      omega
    rw [hlen] at hcount hlast
    exact ⟨hfits _ List.mem_cons_self, by omega,
      fun s hs => hfits s (List.mem_cons_of_mem _ hs), hcount, hlast⟩
  · rintro ⟨hsticker, -, hfits, hcount, hlast⟩
    have hlen : n + 1 + stickers.length = n + (sticker :: stickers).length := by
      rw [List.length_cons]
      omega
    rw [hlen] at hcount hlast
    exact ⟨List.forall_mem_cons.mpr ⟨hsticker, hfits⟩, hcount, hlast⟩

theorem room_open : Room n [] (some (sticker, line)) ↔
    n < MAX_STICKERS ∧ sticker.Fits ∧ line = [] := by
  constructor
  · exact fun hroom => hroom.last _ rfl
  · intro h
    refine ⟨fun _ hs => absurd hs List.not_mem_nil, Nat.le_of_lt h.1, fun x hx => ?_⟩
    cases hx
    exact h

/-! ## One sticker of a file -/

theorem loadText_end (h : IsEndTag line) : loadText s line ls = .ok (s, ls) := by
  cases ls <;> exact if_pos h

theorem loadText_line (h : ¬ IsEndTag line) (hne : ls ≠ []) : loadText s line ls =
    orOverflow (s.catSticker line) >>= fun s =>
      loadText s (nextLine line ls).1 (nextLine line ls).2 := by
  cases ls with
  | nil => exact absurd rfl hne
  | cons l ls => exact if_neg h

/-- The text before a line is put together as if it were appended in one piece. -/
theorem loadText_text (h : IsText text) (l : Bytes) (ls : List Bytes) :
    loadText s (nextLine line (text ++ l :: ls)).1 (nextLine line (text ++ l :: ls)).2 =
      orOverflow (s.catSticker (joined text)) >>= fun s => loadText s l ls := by
  induction text generalizing s line with
  | nil => rw [joined, List.map_nil, List.flatten_nil, Catalogue.Slot.catSticker_nil]; rfl
  | cons k text ih =>
    obtain ⟨hk, htext⟩ := List.forall_mem_cons.mp h
    have hne : text ++ l :: ls ≠ [] := by simp
    rw [List.cons_append, nextLine, loadText_line hk hne]
    simp only [ih htext]
    rw [← bind_assoc, orOverflow_bind, Catalogue.Slot.catSticker_append]
    rfl

theorem loadEntry_name (name : Bytes) (ls : List Bytes) : loadEntry c STICKER_TAG (name :: ls) =
    orOverflow c.slot >>= fun s => orOverflow (s.copyName (cutLine name)) >>= fun s =>
      loadText s (nextLine (cutLine name) ls).1 (nextLine (cutLine name) ls).2 := rfl

theorem loadText_open (h : ¬ IsEndTag line) : loadText s line [] =
    .error (if line = [] then .endless else .fault .bufferOverflow) := if_neg h

/-! ## A whole file -/

theorem loadLoop_tag (fuel : Nat) (c : Catalogue) (ls : List Bytes) :
    loadLoop (fuel + 1) c (STICKER_TAG :: ls) = loadEntry c STICKER_TAG ls >>= fun x =>
      loadLoop fuel x.1.count x.2 := if_pos rfl

theorem loadLoop_skip (fuel : Nat) (c : Catalogue) (h : line ≠ STICKER_TAG) (ls : List Bytes) :
    loadLoop (fuel + 1) c (line :: ls) = loadLoop fuel c ls := if_neg h

/-- What is written of a sticker to its slot: its name, and what there is of its text. -/
def writeSticker (c : Catalogue) (s : Sticker) : Except Halt c.Slot := do
  let slot ← orOverflow c.slot
  let slot ← orOverflow (slot.copyName s.name)
  orOverflow (slot.catSticker s.text)

/-- The slot is there, and the sticker fits into it. -/
theorem noOverflow_write {α : Type} {f : c.Slot → Except Halt α} {P : Prop}
    (hf : ∀ s, NoOverflow (f s) ↔ P) : NoOverflow (writeSticker c sticker >>= f) ↔
      c.entries.length < MAX_STICKERS ∧ sticker.Fits ∧ P := by
  simp only [writeSticker, bind_assoc, noOverflow_bind, hf]
  have hempty : ∀ {s₀ s : c.Slot}, c.slot = some s₀ → s₀.copyName sticker.name = some s →
      s.entry.sticker.toStr = [] := by
    intro s₀ s hslot hname
    rw [(Catalogue.Slot.copyName_ok hname).2, Catalogue.sticker_of_slot hslot, StrBuf.toStr_empty]
  constructor
  · rintro ⟨s₀, hslot, s₁, hname, s, htext, hP⟩
    have hlt := Catalogue.Slot.exists_catSticker.mp ⟨s, htext⟩
    rw [hempty hslot hname, List.length_nil, Nat.zero_add] at hlt
    exact ⟨s₀.inArray, ⟨Catalogue.Slot.exists_copyName.mp ⟨s₁, hname⟩, hlt⟩, hP⟩
  · rintro ⟨hfree, ⟨hname, htext⟩, hP⟩
    obtain ⟨s₀, hslot⟩ := Catalogue.exists_slot.mpr hfree
    obtain ⟨s₁, hname⟩ := Catalogue.Slot.exists_copyName (s := s₀).mpr hname
    have hlt : s₁.entry.sticker.toStr.length + strlen sticker.text < MAX_STICKER_LEN := by
      rwa [hempty hslot hname, List.length_nil, Nat.zero_add]
    obtain ⟨s, hs⟩ := Catalogue.Slot.exists_catSticker.mpr hlt
    exact ⟨s₀, hslot, s₁, hname, s, hs, hP⟩

theorem loadEntry_text (h : IsText text) (line : Bytes) (ls : List Bytes) :
    loadEntry c STICKER_TAG (name :: (text ++ line :: ls)) =
      writeSticker c ⟨cutLine name, joined text⟩ >>= fun s => loadText s line ls := by
  simp only [loadEntry_name, loadText_text h, writeSticker, bind_assoc]

theorem loadEntry_nameOnly (name : Bytes) : loadEntry c STICKER_TAG [name] =
    writeSticker c ⟨cutLine name, []⟩ >>= fun s => loadText s (cutLine name) [] := by
  simp only [loadEntry_name, writeSticker, bind_assoc, Catalogue.Slot.catSticker_nil]
  rfl

theorem loadEntry_nil : loadEntry c STICKER_TAG [] =
    writeSticker c ⟨cutLine STICKER_TAG, []⟩ >>= fun s => loadText s (cutLine STICKER_TAG) [] :=
  loadEntry_nameOnly STICKER_TAG

/-- A sticker that is left open has its slot, and nothing may be appended to it any more. -/
theorem noOverflow_open (hline : ¬ IsEndTag line) (hentry : loadEntry c STICKER_TAG ls =
      writeSticker c sticker >>= fun s => loadText s line []) :
    NoOverflow (loadLoop (fuel + 1) c (STICKER_TAG :: ls)) ↔
      Room c.entries.length [] (some (sticker, line)) := by
  rw [room_open, loadLoop_tag, hentry, bind_assoc]
  apply noOverflow_write
  intro s
  rw [loadText_open hline]
  by_cases h : line = []
  · exact iff_of_true (by rw [if_pos h]; exact nofun) h
  · exact iff_of_false (fun hno => hno (by rw [if_neg h]; rfl)) h

/-- A sticker that is closed, and the rest of the file. -/
theorem noOverflow_closed {rest : List Bytes} (htag : IsEndTag line)
    (hentry : loadEntry c STICKER_TAG ls = writeSticker c sticker >>= fun s =>
      loadText s line rest)
    (ih : ∀ c', NoOverflow (loadLoop fuel c' rest) ↔ Room c'.entries.length stickers last) :
    NoOverflow (loadLoop (fuel + 1) c (STICKER_TAG :: ls)) ↔
      Room c.entries.length (sticker :: stickers) last := by
  rw [room_cons, and_left_comm, loadLoop_tag, hentry, bind_assoc]
  apply noOverflow_write
  intro s
  rw [loadText_end htag, ok_bind, ih, Catalogue.Slot.entries_count, List.length_append,
    List.length_singleton]

theorem exists_succ_of_length_le {a : Bytes} (h : (a :: ls).length ≤ fuel) :
    ∃ k, fuel = k + 1 ∧ ls.length ≤ k := by
  cases fuel with
  | zero => cases h
  | succ k => exact ⟨k, rfl, Nat.le_of_succ_le_succ h⟩

/-- What a file holds is loaded without an overflow if and only if there is room for it. -/
theorem noOverflow_load (h : Holds ls stickers last) (hfuel : ls.length ≤ fuel) :
    NoOverflow (loadLoop fuel c ls) ↔ Room c.entries.length stickers last := by
  induction h generalizing c fuel with
  | nil =>
    have hok : loadLoop fuel c [] = .ok c := by cases fuel <;> rfl
    exact iff_of_true (hok ▸ noOverflow_ok c) (room_nil c.length_le)
  | skip hne _ ih =>
    obtain ⟨k, rfl, hk⟩ := exists_succ_of_length_le hfuel
    rw [loadLoop_skip k c hne]
    exact ih hk
  | closed htext htag _ ih =>
    obtain ⟨k, rfl, hk⟩ := exists_succ_of_length_le hfuel
    refine noOverflow_closed htag (loadEntry_text htext _ _) fun c' => ih ?_
    rw [List.length_cons, List.length_append, List.length_cons] at hk
    omega
  | closedByName hname =>
    obtain ⟨k, rfl, -⟩ := exists_succ_of_length_le hfuel
    refine noOverflow_closed hname (loadEntry_nameOnly _) fun c' => ?_
    have hok : loadLoop k c' [] = .ok c' := by cases k <;> rfl
    exact iff_of_true (hok ▸ noOverflow_ok c') (room_nil c'.length_le)
  | openTag =>
    obtain ⟨k, rfl, -⟩ := exists_succ_of_length_le hfuel
    exact noOverflow_open (by decide) loadEntry_nil
  | openName hname =>
    obtain ⟨k, rfl, -⟩ := exists_succ_of_length_le hfuel
    exact noOverflow_open hname (loadEntry_nameOnly _)
  | openText htext hline =>
    obtain ⟨k, rfl, -⟩ := exists_succ_of_length_le hfuel
    exact noOverflow_open hline (loadEntry_text htext _ _)

/-- A sticker of the array, as it is read back. -/
def StickerEntry.toSticker (e : StickerEntry) : Sticker := ⟨e.name.toStr, e.sticker.toStr⟩

theorem toSticker_of_write (h : writeSticker c sticker = .ok s) :
    s.entry.toSticker = ⟨cstr sticker.name, cstr sticker.text⟩ := by
  obtain ⟨s₀, hslot, h⟩ := bind_ok h
  obtain ⟨s₁, hname, h⟩ := bind_ok h
  obtain ⟨hname, hempty⟩ := Catalogue.Slot.copyName_ok (ok_of_orOverflow hname)
  obtain ⟨hsame, htext⟩ := Catalogue.Slot.catSticker_ok (ok_of_orOverflow h)
  rw [hempty, Catalogue.sticker_of_slot (ok_of_orOverflow hslot), StrBuf.toStr_empty,
    List.nil_append] at htext
  rw [StickerEntry.toSticker, hsame, StrBuf.toStr_of_ofStr? hname, htext]

theorem not_ok_open {rest : List Bytes} (hline : ¬ IsEndTag line)
    (hentry : loadEntry c STICKER_TAG ls = writeSticker c sticker >>= fun s =>
      loadText s line []) : loadEntry c STICKER_TAG ls ≠ .ok (s, rest) := by
  intro h
  rw [hentry] at h
  obtain ⟨s, -, h⟩ := bind_ok h
  rw [loadText_open hline] at h
  cases h

theorem toSticker_of_loadEntry {rest rest' : List Bytes} (htag : IsEndTag line)
    (hentry : loadEntry c STICKER_TAG ls = writeSticker c sticker >>= fun s =>
      loadText s line rest)
    (h : loadEntry c STICKER_TAG ls = .ok (s, rest')) :
    s.entry.toSticker = ⟨cstr sticker.name, cstr sticker.text⟩ ∧ rest' = rest := by
  rw [hentry] at h
  obtain ⟨s, hs, h⟩ := bind_ok h
  rw [loadText_end htag] at h
  cases h
  exact ⟨toSticker_of_write hs, rfl⟩

/-- What is loaded of a file is what it holds, and nothing of it is left open. -/
theorem holds_of_loads (hload : Loads c ls c') (h : Holds ls stickers last) : last = none ∧
    c'.entries.map StickerEntry.toSticker = c.entries.map StickerEntry.toSticker ++
      stickers.map fun s => ⟨cstr s.name, cstr s.text⟩ := by
  induction hload generalizing stickers last with
  | done =>
    cases h
    exact ⟨rfl, by simp⟩
  | skip hne _ ih =>
    cases h with
    | skip _ h => exact ih h
    | _ => exact absurd rfl hne
  | @entry c ls ls' c' s hentry _ ih =>
    have hadd : ∀ {sticker : Sticker} {stickers},
        s.entry.toSticker = ⟨cstr sticker.name, cstr sticker.text⟩ →
        c'.entries.map StickerEntry.toSticker = s.count.entries.map StickerEntry.toSticker ++
          stickers.map (fun s => ⟨cstr s.name, cstr s.text⟩) →
        c'.entries.map StickerEntry.toSticker = c.entries.map StickerEntry.toSticker ++
          (sticker :: stickers).map fun s => ⟨cstr s.name, cstr s.text⟩ := by
      intro sticker stickers he hrest
      rw [hrest, Catalogue.Slot.entries_count]
      simp [he]
    cases h with
    | skip hne _ => exact absurd rfl hne
    | closed htext htag h =>
      obtain ⟨he, rfl⟩ := toSticker_of_loadEntry htag (loadEntry_text htext _ _) hentry
      obtain ⟨hlast, hrest⟩ := ih h
      exact ⟨hlast, hadd he hrest⟩
    | closedByName hname =>
      obtain ⟨he, rfl⟩ := toSticker_of_loadEntry hname (loadEntry_nameOnly _) hentry
      obtain ⟨hlast, hrest⟩ := ih .nil
      exact ⟨hlast, hadd he hrest⟩
    | openTag => exact absurd hentry (not_ok_open (by decide) loadEntry_nil)
    | openName hname => exact absurd hentry (not_ok_open hname (loadEntry_nameOnly _))
    | openText htext hline => exact absurd hentry (not_ok_open hline (loadEntry_text htext _ _))

/-- Where the array is loaded, the loops have ended. -/
theorem terminates_of_loadContent {content : Bytes} (h : loadContent c content = .ok c') :
    Loop.Terminates Loader.step (loadLoops content) := by
  obtain ⟨stickers, last, hold⟩ := exists_holds (stickerLines content)
  exact (Loader.terminates_iff hold).mpr (holds_of_loads (loads_of_loadContent h) hold).1

end

/-! ## Loads and new stickers -/

/-- What a sticker command may do to `sticker_array`. -/
inductive StickerOp where
  /-- `load_stickers`, for what there is in the file -/
  | load (content : Bytes)
  /-- `create_sticker`, with the keys that are pressed in the editor -/
  | create (keys name : Bytes)

namespace Catalogue
variable {c c' : Catalogue} {k k' : Disk} {env : FileEnv} {keys name line : Bytes}

/-- What `create_sticker` does to the array. -/
def create (c : Catalogue) (keys name : Bytes) : Except Halt Catalogue :=
  match c.getSticker name with
  | some _ => .ok c
  | none => do
    let slot ← orOverflow c.slot
    let slot ← orOverflow (slot.copySticker (readMultilineOverlay keys))
    let slot ← orOverflow (slot.copyName name)
    return slot.count

def perform (c : Catalogue) : StickerOp → Except Halt Catalogue
  | .load content => loadContent c content
  | .create keys name => c.create keys name

/-- There is room for what the operation puts into the array. -/
def HasRoom (c : Catalogue) : StickerOp → Prop
  | .load content => ∃ stickers last, Holds (stickerLines content) stickers last ∧
      Room c.entries.length stickers last
  | .create keys name => (c.getSticker name).isSome ∨
      Sticker.Fits ⟨name, readMultilineOverlay keys⟩ ∧ c.entries.length < MAX_STICKERS

theorem create_of_createSticker (h : createSticker c k env keys name = .ok (line, c', k')) :
    c.create keys name = .ok c' := by
  unfold createSticker at h
  unfold create
  cases hfound : c.getSticker name with
  | some sticker =>
    rw [hfound] at h
    cases h
    rfl
  | none =>
    rw [hfound] at h
    obtain ⟨s₀, hslot, h⟩ := bind_ok h
    obtain ⟨s₁, hsticker, h⟩ := bind_ok h
    obtain ⟨s, hname, h⟩ := bind_ok h
    obtain ⟨k₁, -, h⟩ := bind_ok h
    cases h
    simp only [hslot, hsticker, hname, ok_bind]
    rfl

theorem noOverflow_create : NoOverflow (c.create keys name) ↔ c.HasRoom (.create keys name) := by
  unfold create HasRoom
  split
  · rename_i hfound
    exact iff_of_true (noOverflow_ok c) (.inl (hfound ▸ rfl))
  · rename_i hnone
    simp only [noOverflow_bind, hnone, Option.isSome_none, Bool.false_eq_true, false_or]
    constructor
    · rintro ⟨s₀, -, s₁, hsticker, s, hname, -⟩
      exact ⟨⟨Slot.exists_copyName.mp ⟨s, hname⟩, Slot.exists_copySticker.mp ⟨s₁, hsticker⟩⟩,
        s₀.inArray⟩
    · rintro ⟨⟨hname, htext⟩, hfree⟩
      obtain ⟨s₀, hslot⟩ := exists_slot.mpr hfree
      obtain ⟨s₁, hsticker⟩ := Slot.exists_copySticker (s := s₀).mpr htext
      obtain ⟨s, hname⟩ := Slot.exists_copyName (s := s₁).mpr hname
      exact ⟨s₀, hslot, s₁, hsticker, s, hname, noOverflow_ok _⟩

theorem noOverflow_perform {op : StickerOp} : NoOverflow (c.perform op) ↔ c.HasRoom op := by
  cases op with
  | load content =>
    constructor
    · intro h
      obtain ⟨stickers, last, hold⟩ := exists_holds (stickerLines content)
      exact ⟨stickers, last, hold, (noOverflow_load hold (Nat.le_refl _)).mp h⟩
    · rintro ⟨stickers, last, hold, hroom⟩
      exact (noOverflow_load hold (Nat.le_refl _)).mpr hroom
  | create keys name => exact noOverflow_create

/-- The flag does not matter for a new sticker. -/
theorem create_congr {c₁ : Catalogue} (hentries : c₁.entries = c.entries)
    (h : c.create keys name = .ok c') :
    ∃ c₂, c₁.create keys name = .ok c₂ ∧ c₂.entries = c'.entries := by
  have hget : c₁.getSticker name = c.getSticker name := by rw [getSticker, hentries, getSticker]
  unfold create at h ⊢
  rw [hget]
  split at h
  · cases h
    exact ⟨c₁, rfl, hentries⟩
  · obtain ⟨s₀, -, h⟩ := bind_ok h
    obtain ⟨s₁, hsticker, h⟩ := bind_ok h
    obtain ⟨s, hname, h⟩ := bind_ok h
    cases h
    have hsticker := ok_of_orOverflow hsticker
    have hname := ok_of_orOverflow hname
    obtain ⟨t₀, ht₀⟩ := exists_slot (c := c₁).mpr (hentries ▸ s₀.inArray)
    obtain ⟨t₁, ht₁⟩ := Slot.exists_copySticker (s := t₀).mpr
      (Slot.exists_copySticker.mp ⟨s₁, hsticker⟩)
    obtain ⟨t, ht⟩ := Slot.exists_copyName (s := t₁).mpr (Slot.exists_copyName.mp ⟨s, hname⟩)
    have hsame : t.entry = s.entry := by
      have hn := (Slot.copyName_ok ht).1.symm.trans (Slot.copyName_ok hname).1
      have hs := (Slot.copySticker_ok ht₁).1.symm.trans (Slot.copySticker_ok hsticker).1
      apply StickerEntry.ext (Option.some.inj hn)
      rw [(Slot.copyName_ok ht).2, (Slot.copyName_ok hname).2, Option.some.inj hs]
    refine ⟨t.count, ?_, ?_⟩
    · simp only [ht₀, ht₁, ht, orOverflow, ok_bind]
      rfl
    · rw [Slot.entries_count, Slot.entries_count, hentries, hsame]

/-- Over any sequence of loads and new stickers: nothing is written outside of the array, or of a
field of it, if and only if there is room for each at its turn. -/
theorem capacity_iff (c : Catalogue) (ops : List StickerOp) :
    Meets perform (fun c op => NoOverflow (c.perform op)) c ops ↔ Meets perform HasRoom c ops :=
  meets_iff (I := fun _ => True) (G := fun _ _ => True) (fun _ _ _ _ => noOverflow_perform)
    (fun _ _ _ _ _ _ _ => trivial) trivial (meets_of_forall (fun _ _ => trivial) _ _)

end Catalogue

/-! ## A sticker command -/

/-- The sticker that a command creates. -/
def createOps (keys args : Bytes) : List StickerOp :=
  match strtok (str " ") args with
  | none => []
  | some (command, rest) =>
    if command = str "create" then
      match strtok (str " ") rest with
      | none => []
      | some (name, _) => [.create keys name]
    else []

namespace Chatter
variable {p p' : Chatter} {env : ChatEnv} {code : UInt8} {args : Bytes} {r : CommandResult}

theorem loadOps_of_ensureLoaded {c c' : Catalogue} {k k' : Disk} {env : FileEnv}
    (h : ensureLoaded c k env = .ok (c', k')) : ∃ content : Option Bytes, ∃ c₁,
      (c.historyLoaded = true → content = none) ∧ c₁.entries = c'.entries ∧
      exec Catalogue.perform c (content.map StickerOp.load).toList = .ok c₁ := by
  unfold ensureLoaded at h
  split at h
  · cases h
    exact ⟨none, c, fun _ => rfl, rfl, rfl⟩
  · rename_i hnot
    obtain ⟨⟨c₁, k₁⟩, hload, h⟩ := bind_ok h
    cases h
    obtain ⟨d, -, hload⟩ := bind_ok hload
    obtain ⟨b, -, hload⟩ := bind_ok hload
    dsimp only at hload
    split at hload
    · cases hload
      exact ⟨none, c, fun _ => rfl, rfl, rfl⟩
    · rename_i files _
      obtain ⟨c₂, hc₂, hload⟩ := bind_ok hload
      cases hload
      exact ⟨files.content b.toStr, c₁, fun hl => absurd hl hnot, rfl,
        exec_cons_ok.mpr ⟨c₁, hc₂, rfl⟩⟩

theorem stickers_of_withStickerName {rest : Bytes} {c : Catalogue}
    {f : Bytes → Except Halt (CommandResult × Chatter)} (h : withStickerName rest p f = .ok (r, p'))
    (hp : p.stickers = c) (hf : ∀ name, f name = .ok (r, p') → p'.stickers = c) :
    p'.stickers = c := by
  unfold withStickerName at h
  split at h
  · cases h
    exact hp
  · exact hf _ h

/-- A sticker command does to the array what there is to load, if it is the first one, and the
sticker that it creates. -/
theorem entries_of_stickerSend (h : stickerSend env code args p = .ok (r, p')) :
    ∃ content : Option Bytes, ∃ c, (p.stickers.historyLoaded = true → content = none) ∧
      c.entries = p'.stickers.entries ∧ exec Catalogue.perform p.stickers
        ((content.map StickerOp.load).toList ++ createOps env.keys args) = .ok c := by
  obtain ⟨⟨c₀, k₀⟩, hload, h⟩ := bind_ok h
  obtain ⟨content, c₁, hfirst, hentries, hrun⟩ := loadOps_of_ensureLoaded hload
  suffices hops : ∃ c, c.entries = p'.stickers.entries ∧
      exec Catalogue.perform c₁ (createOps env.keys args) = .ok c by
    obtain ⟨c, hc, hcreate⟩ := hops
    exact ⟨content, c, hfirst, hc, exec_append hrun hcreate⟩
  have hstay : p'.stickers = c₀ → c₁.entries = p'.stickers.entries :=
    fun hp => hentries.trans (hp ▸ rfl)
  dsimp only at h
  rw [createOps]
  cases htok : strtok (str " ") args with
  | none =>
    rw [htok] at h
    cases h
    exact ⟨c₁, hentries, rfl⟩
  | some x =>
    obtain ⟨command, rest⟩ := x
    rw [htok] at h
    dsimp only at h ⊢
    by_cases hcreate : command = str "create"
    · rw [if_pos hcreate] at h ⊢
      rw [withStickerName] at h
      cases hname : strtok (str " ") rest with
      | none =>
        rw [hname] at h
        cases h
        exact ⟨c₁, hentries, rfl⟩
      | some x =>
        rw [hname] at h
        obtain ⟨⟨line, c', k'⟩, hnew, h⟩ := bind_ok h
        cases h
        obtain ⟨c, hc, hsame⟩ := Catalogue.create_congr hentries
          (Catalogue.create_of_createSticker hnew)
        exact ⟨c, hsame, exec_cons_ok.mpr ⟨c, hc, rfl⟩⟩
    · rw [if_neg hcreate] at h ⊢
      refine ⟨c₁, hstay ?_, rfl⟩
      split at h
      · refine stickers_of_withStickerName h rfl fun name h => ?_
        split at h
        · cases h
          rfl
        split at h
        · cases h
          exact stickers_lmpSend ..
        split at h
        · cases h
        · cases h
          exact (stickers_historyAppend ..).trans (stickers_lmpSend ..)
      split at h
      · cases h
        rfl
      split at h
      · refine stickers_of_withStickerName h rfl fun name h => ?_
        split at h <;> cases h
        rfl
      · cases h
        rfl

/-- A name that the command line has room for, and `sticker_array` has not. -/
theorem overflow_long_name : ∃ p, main (str "/home/ann") none (fun _ => none) = .ok p ∧
    (p.typed { ChatEnv.allOk with keys := [ESCAPE] }
      (str "/sticker create " ++ List.replicate 32 0x61 ++ [NEWLINE])).map (fun _ => ()) =
        .error (.fault .bufferOverflow) ∧
    ¬ NoOverflow (p.stickers.perform (.create [ESCAPE] (List.replicate 32 0x61))) := by
  obtain ⟨p, hp, hst, hrun⟩ := exists_ok (x := main (str "/home/ann") none fun _ => none)
    (P := fun p => p.stickers = .init ∧
      (p.typed { ChatEnv.allOk with keys := [ESCAPE] }
        (str "/sticker create " ++ List.replicate 32 0x61 ++ [NEWLINE])).map (fun _ => ()) =
          .error (.fault .bufferOverflow)) rfl (by decide +kernel)
  have hfull : ¬ Catalogue.init.HasRoom (.create [ESCAPE] (List.replicate 32 0x61)) := by
    rintro (h | ⟨h, -⟩)
    · exact absurd h (by decide)
    · exact absurd h.name (by decide)
  rw [← hst, ← Catalogue.noOverflow_perform] at hfull
  exact ⟨p, hp, hrun, hfull⟩

end Chatter

end SocketSpeak
