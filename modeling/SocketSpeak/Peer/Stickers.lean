import SocketSpeak.Group.User
import SocketSpeak.Peer.Directory

/-!
# The sticker catalogue

`load_stickers`, `save_sticker`, `get_sticker` and `create_sticker`. `load_stickers` puts the name
of the catalogue file together in the static of the directory manager, and `save_sticker` takes what
is there for that name.
-/

namespace SocketSpeak
open CLib

def MAX_STICKERS : Nat := 64
def ESCAPE : UInt8 := 27

theorem maxNameLen_pos : 0 < MAX_NAME_LEN := by decide

@[ext] structure StickerEntry where
  name : StrBuf MAX_NAME_LEN
  sticker : StrBuf MAX_STICKER_LEN
  deriving DecidableEq

/-- The statics of `sticker_commands.c`; `entries` are the first `sticker_count` ones of
`sticker_array`. The others are zero. -/
structure Catalogue where
  entries : List StickerEntry
  historyLoaded : Bool
  length_le : entries.length ≤ MAX_STICKERS
  deriving DecidableEq

namespace Catalogue

/-- The statics when the program starts. -/
def init : Catalogue := ⟨[], false, Nat.zero_le _⟩

/-- `sticker_array[sticker_count]` with what has been written to it. It is inside of the array. -/
structure Slot (c : Catalogue) where
  entry : StickerEntry
  inArray : c.entries.length < MAX_STICKERS

/-- The slot as it is at first. With `MAX_STICKERS` stickers there is none: what is written to it is
written past the end of the array. -/
def slot (c : Catalogue) : Option c.Slot :=
  if h : c.entries.length < MAX_STICKERS then
    some ⟨⟨.empty maxNameLen_pos, .empty maxStickerLen_pos⟩, h⟩
  else none

namespace Slot
variable {c : Catalogue}

/-- `strcpy(sticker_array[sticker_count].name, name)` -/
def copyName (s : c.Slot) (name : Bytes) : Option c.Slot :=
  (StrBuf.ofStr? _ name).map fun name => { s with entry := { s.entry with name } }

/-- `strcpy(sticker_array[sticker_count].sticker, sticker)` -/
def copySticker (s : c.Slot) (sticker : Bytes) : Option c.Slot :=
  (StrBuf.ofStr? _ sticker).map fun sticker => { s with entry := { s.entry with sticker } }

/-- `strcat(sticker_array[sticker_count].sticker, line)` -/
def catSticker (s : c.Slot) (line : Bytes) : Option c.Slot :=
  (s.entry.sticker.strcat line).map fun sticker => { s with entry := { s.entry with sticker } }

/-- `sticker_count++` -/
def count (s : c.Slot) : Catalogue where
  entries := c.entries ++ [s.entry]
  historyLoaded := c.historyLoaded
  length_le := by
    rw [List.length_append]
    exact s.inArray

end Slot

/-- `get_sticker(name)` -/
def getSticker (c : Catalogue) (name : Bytes) : Option (StrBuf MAX_STICKER_LEN) :=
  (c.entries.find? fun e => e.name.toStr = name).map StickerEntry.sticker

end Catalogue

/-! ## Writing -/

/-- The loop of `read_multiline_overlay`, with the rest of the keys that are pressed. -/
def overlayLoop (buffer : Bytes) : Bytes → Bytes
  | [] => buffer
  | c :: keys =>
    if c = ESCAPE then buffer
    else if c = 0x7F ∨ c = 0x08 then overlayLoop buffer.dropLast keys
    else overlayLoop (buffer ++ [c]) keys

/-- `read_multiline_overlay()`; the screen of the editor is left out of what is printed. -/
def readMultilineOverlay (keys : Bytes) : Bytes := cstr (overlayLoop [] keys)

/-- What `save_sticker` writes. -/
def stickerRecord (name sticker : Bytes) : Bytes :=
  str "<STICKER>\n" ++ name ++ str "\n" ++ sticker ++ str "\n</STICKER>\n"

/-- `save_sticker(entry)` -/
def saveSticker (k : Disk) (env : FileEnv) (entry : StickerEntry) : Except Halt Disk := do
  let directory ← k.directory.getUserDirectory env
  let saveFile := directory.userDirectory.toStr
  match k.files.fopen (env.opens saveFile) saveFile .append with
  | none => return { k with directory }
  | some files =>
    return ⟨directory, files.fprint saveFile (stickerRecord entry.name.toStr entry.sticker.toStr)⟩

/-- `create_sticker(name)`, with what it prints. -/
def createSticker (c : Catalogue) (k : Disk) (env : FileEnv) (keys name : Bytes) :
    Except Halt (Bytes × Catalogue × Disk) :=
  match c.getSticker name with
  | some _ => .ok (str "There is already a sticker with name " ++ name ++ str "!\n", c, k)
  | none => do
    let slot ← orOverflow c.slot
    let slot ← orOverflow (slot.copySticker (readMultilineOverlay keys))
    let slot ← orOverflow (slot.copyName name)
    let k ← saveSticker k env slot.entry
    return (str "Sticker " ++ name ++ str " created!\n", slot.count, k)

namespace Catalogue
variable {c : Catalogue} {s s' : c.Slot} {src : Bytes}

theorem exists_slot : (∃ s, c.slot = some s) ↔ c.entries.length < MAX_STICKERS := by
  unfold slot
  split
  · rename_i h
    exact iff_of_true ⟨_, rfl⟩ h
  · rename_i h
    exact iff_of_false (by simp) h

theorem sticker_of_slot (h : c.slot = some s) : s.entry.sticker = .empty maxStickerLen_pos := by
  unfold slot at h
  split at h <;> cases h
  rfl

@[simp] theorem Slot.entries_count : s.count.entries = c.entries ++ [s.entry] := rfl

theorem Slot.copyName_ok (h : s.copyName src = some s') :
    StrBuf.ofStr? MAX_NAME_LEN src = some s'.entry.name ∧ s'.entry.sticker = s.entry.sticker := by
  obtain ⟨b, hb, rfl⟩ := Option.map_eq_some_iff.mp h
  exact ⟨hb, rfl⟩

theorem Slot.copySticker_ok (h : s.copySticker src = some s') :
    StrBuf.ofStr? MAX_STICKER_LEN src = some s'.entry.sticker ∧ s'.entry.name = s.entry.name := by
  obtain ⟨b, hb, rfl⟩ := Option.map_eq_some_iff.mp h
  exact ⟨hb, rfl⟩

theorem Slot.exists_copyName : (∃ s', s.copyName src = some s') ↔ strlen src < MAX_NAME_LEN := by
  rw [← StrBuf.exists_ofStr?, copyName]
  cases StrBuf.ofStr? MAX_NAME_LEN src <;> simp

theorem Slot.exists_copySticker :
    (∃ s', s.copySticker src = some s') ↔ strlen src < MAX_STICKER_LEN := by
  rw [← StrBuf.exists_ofStr?, copySticker]
  cases StrBuf.ofStr? MAX_STICKER_LEN src <;> simp

theorem Slot.exists_catSticker : (∃ s', s.catSticker src = some s') ↔
    s.entry.sticker.toStr.length + strlen src < MAX_STICKER_LEN := by
  rw [← StrBuf.exists_strcat, catSticker]
  cases s.entry.sticker.strcat src <;> simp

theorem Slot.catSticker_ok (h : s.catSticker src = some s') : s'.entry.name = s.entry.name ∧
    s'.entry.sticker.toStr = s.entry.sticker.toStr ++ cstr src := by
  obtain ⟨b, hb, rfl⟩ := Option.map_eq_some_iff.mp h
  exact ⟨rfl, StrBuf.toStr_of_strcat hb⟩

theorem Slot.catSticker_nil : s.catSticker [] = some s := by
  rw [catSticker, StrBuf.strcat_nil]
  rfl

theorem Slot.catSticker_append (a b : Bytes) :
    (s.catSticker a).bind (·.catSticker b) = s.catSticker (cstr a ++ b) := by
  simp only [catSticker, ← StrBuf.strcat_append]
  cases s.entry.sticker.strcat a <;> rfl

end Catalogue

/-- There is a sticker of the name, or one is added and saved. -/
theorem createSticker_ok {c c' : Catalogue} {k k' : Disk} {env : FileEnv} {keys name line : Bytes}
    (h : createSticker c k env keys name = .ok (line, c', k')) :
    ((c.getSticker name).isSome ∧ c' = c ∧ k' = k) ∨ ∃ e, c.getSticker name = none ∧
      e.name.toStr = cstr name ∧
      (c'.entries = c.entries ++ [e] ∧ c'.historyLoaded = c.historyLoaded) ∧
      saveSticker k env e = .ok k' := by
  unfold createSticker at h
  split at h
  · rename_i sticker hfound
    cases h
    exact .inl ⟨hfound ▸ rfl, rfl, rfl⟩
  · rename_i hnone
    obtain ⟨s₀, -, h⟩ := bind_ok h
    obtain ⟨s₁, -, h⟩ := bind_ok h
    obtain ⟨s, hname, h⟩ := bind_ok h
    obtain ⟨k₁, hsave, h⟩ := bind_ok h
    cases h
    have hstr := StrBuf.toStr_of_ofStr? (Catalogue.Slot.copyName_ok (ok_of_orOverflow hname)).1
    exact .inr ⟨s.entry, hnone, hstr, ⟨rfl, rfl⟩, hsave⟩

/-! ## Reading -/

/-- A call of `fgets` whose result nobody looks at: at the end of the file `line` stays. -/
def nextLine (line : Bytes) : List Bytes → Bytes × List Bytes
  | [] => (line, [])
  | l :: ls => (l, ls)

/-- `line[strcspn(line, "\r\n")] = '\0'` -/
def cutLine (line : Bytes) : Bytes := line.takeWhile (· ∉ str "\r\n")

/-- A line that ends the text of a sticker. -/
def IsEndTag (line : Bytes) : Prop := line = str "</STICKER>\n" ∨ line = str "</STICKER>"

instance (line : Bytes) : Decidable (IsEndTag line) := inferInstanceAs (Decidable (_ ∨ _))

/-- The loop that reads the text of a sticker into its slot; `line` is what has been read, and the
list what is left of the file. At the end of the file the same line is appended for ever. -/
def loadText {c : Catalogue} (slot : c.Slot) (line : Bytes) :
    List Bytes → Except Halt (c.Slot × List Bytes)
  | [] =>
    if IsEndTag line then .ok (slot, [])
    else .error (if line = [] then .endless else .fault .bufferOverflow)
  | l :: ls =>
    if IsEndTag line then .ok (slot, l :: ls)
    else do
      let slot ← orOverflow (slot.catSticker line)
      loadText slot l ls

/-- The lines after a `<STICKER>`, which go into the slot as they are read: the slot when the text
has come to its end, and the lines that are left. -/
def loadEntry (c : Catalogue) (line : Bytes) (ls : List Bytes) :
    Except Halt (c.Slot × List Bytes) := do
  let (line, ls) := nextLine line ls
  let line := cutLine line
  let slot ← orOverflow c.slot
  let slot ← orOverflow (slot.copyName line)
  let (line, ls) := nextLine line ls
  loadText slot line ls

/-- The outer loop of `load_stickers`. Each round takes a line. -/
def loadLoop : Nat → Catalogue → List Bytes → Except Halt Catalogue
  | fuel + 1, c, line :: ls =>
    if line = str "<STICKER>\n" then do
      let (slot, ls) ← loadEntry c line ls
      loadLoop fuel slot.count ls
    else loadLoop fuel c ls
  | _, c, _ => .ok c

/-- The lines that `fgets(line, 512, fp)` brings, as strings. -/
def stickerLines (content : Bytes) : List Bytes := (fgetsAll 512 content).map cstr

/-- What `load_stickers` makes of the contents of the file. -/
def loadContent (c : Catalogue) (content : Bytes) : Except Halt Catalogue :=
  loadLoop (stickerLines content).length c (stickerLines content)

/-- `load_stickers()` -/
def loadStickers (c : Catalogue) (k : Disk) (env : FileEnv) : Except Halt (Catalogue × Disk) := do
  let directory ← k.directory.getUserDirectory env
  let userDirectory ← orOverflow (directory.userDirectory.strcat (str "saved_stickers.txt"))
  let directory := { directory with userDirectory }
  let saveFile := userDirectory.toStr
  match k.files.fopen (env.opens saveFile) saveFile .read with
  | none => return (c, { k with directory })
  | some files =>
    let c ← loadContent c (files.content saveFile)
    return (c, ⟨directory, files⟩)

/-- What `sticker_send` does first. -/
def ensureLoaded (c : Catalogue) (k : Disk) (env : FileEnv) : Except Halt (Catalogue × Disk) :=
  if c.historyLoaded then .ok (c, k)
  else do
    let (c, k) ← loadStickers c k env
    return ({ c with historyLoaded := true }, k)

end SocketSpeak
