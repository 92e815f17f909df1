import SocketSpeak.Peer.StickerFile
import SocketSpeak.Peer.UserDirectory

/-!
# The catalogue after a restart

Sessions in which stickers are created, one after the other and with the same files. What
`load_stickers` finds at the start of the next session is what `sticker_array` held at the end of
the last one if and only if no sticker has been created in it (`catalogue_round_trip`).
-/

namespace SocketSpeak
open CLib Sys

/-- A command `/sticker create`, with the keys that are pressed in the editor. -/
structure Create where
  name : Bytes
  keys : Bytes
  name_ne_nil : name ≠ []
  nonspace : ∀ c ∈ name, isspace c = false
  nulFree : NulFree name

/-- The file that `save_sticker` writes. -/
def catalogueFile (home username : Option Bytes) : Bytes :=
  (getRootDirectory home).toStr ++ (username.map cstr).getD (str "default") ++ str "/" ++
    str "saved_stickers.txt"

namespace Chatter
variable {p p' : Chatter} {home username : Option Bytes} {files files' : Files}
  {cmd : Create} {cmds : List Create}

/-- `sticker_send`, where every call succeeds. -/
def create (p : Chatter) (cmd : Create) : Except Halt Chatter :=
  (stickerSend { ChatEnv.allOk with keys := cmd.keys } LMP_STICKERS
    (str "create " ++ cmd.name) p).map Prod.snd

/-- A session of nothing but these commands, and the files that it leaves. -/
def session (home username : Option Bytes) (files : Files) (cmds : List Create) :
    Except Halt Files := do
  let p ← main home username files
  let p ← exec create p cmds
  return p.files

/-- What `load_stickers` reads in a new session. -/
def reload (home username : Option Bytes) (files : Files) : Except Halt (List StickerEntry) := do
  let p ← main home username files
  let (c, _) ← loadStickers p.stickers p.toDisk ChatEnv.allOk.toFileEnv
  return c.entries

/-- There is a sticker of this name. -/
def Named (es : List StickerEntry) (cmd : Create) : Prop := ∃ e ∈ es, e.name.toStr = cmd.name

/-- The file that the session starts with has all of the stickers, so none is created. A session
without commands does not even read it. -/
def CreatesNothing (home username : Option Bytes) (files : Files) (cmds : List Create) : Prop :=
  ∃ es, reload home username files = .ok es ∧ (∀ cmd ∈ cmds, Named es cmd) ∧ (cmds = [] → es = [])

/-! ## One command -/

theorem create_ok (h : p.create cmd = .ok p') : ∃ c k line c' k',
    ensureLoaded p.stickers p.toDisk ChatEnv.allOk.toFileEnv = .ok (c, k) ∧
      createSticker c k ChatEnv.allOk.toFileEnv cmd.keys cmd.name = .ok (line, c', k') ∧
      p'.stickers = c' ∧ p'.toDisk = k' := by
  have hspace : ∀ c ∈ cmd.name, c ∉ str " " := by
    intro c hc hmem
    rw [List.mem_singleton.mp hmem] at hc
    exact absurd (cmd.nonspace _ hc) (by decide)
  unfold create at h
  cases hsend : stickerSend { ChatEnv.allOk with keys := cmd.keys } LMP_STICKERS
      (str "create " ++ cmd.name) p with
  | error e => rw [hsend] at h; cases h
  | ok x =>
    rw [hsend] at h
    cases h
    obtain ⟨⟨c, k⟩, hload, hsend⟩ := bind_ok hsend
    have hargs : strtok (str " ") (str "create" ++ 0x20 :: cmd.name) =
        some (str "create", cmd.name) := strtok_word (by decide) (by decide +kernel) (by decide)
    change strtok (str " ") (str "create " ++ cmd.name) = _ at hargs
    rw [hargs] at hsend
    dsimp only at hsend
    rw [if_pos rfl, withStickerName, strtok_last cmd.name_ne_nil hspace] at hsend
    obtain ⟨⟨line, c', k'⟩, hcreate, hsend⟩ := bind_ok hsend
    cases hsend
    exact ⟨c, k, line, c', k', hload, hcreate, rfl, rfl⟩

theorem content_of_saveSticker {k k' : Disk} {env : FileEnv} {e : StickerEntry}
    (henv : ∀ path, env.opens path = true) (h : saveSticker k env e = .ok k') :
    k'.files.content k.directory.shown =
      k.files.content k.directory.shown ++ stickerRecord e.name.toStr e.sticker.toStr := by
  obtain ⟨d, hd, h⟩ := bind_ok h
  rw [← Directory.userDirectory_of_get hd]
  dsimp only at h
  split at h
  · rename_i hclosed
    rw [Files.fopen, if_pos (henv _)] at hclosed
    cases hclosed
  · rename_i files hfiles
    cases h
    rw [Files.content_fprint, Files.content_of_fopen_append hfiles]

theorem named_iff {c : Catalogue} : (c.getSticker cmd.name).isSome ↔ Named c.entries cmd := by
  rw [Catalogue.getSticker, Option.isSome_map, List.find?_isSome]
  exact exists_congr fun e => and_congr_right fun _ => decide_eq_true_iff

/-- The name is that of a sticker already, or a sticker is added to the array and to the file. -/
theorem entries_of_create {path : Bytes} (hl : p.stickers.historyLoaded = true)
    (hpath : p.directory.shown = path) (h : p.create cmd = .ok p') :
    p'.stickers.historyLoaded = true ∧ p'.directory.shown = path ∧
      ((Named p.stickers.entries cmd ∧ p'.stickers = p.stickers ∧ p'.files = p.files) ∨
        ¬ Named p.stickers.entries cmd ∧ ∃ e, IsName e.name.toStr ∧
          p'.stickers.entries = p.stickers.entries ++ [e] ∧ p'.files.content path =
            p.files.content path ++ stickerRecord e.name.toStr e.sticker.toStr) := by
  obtain ⟨c, k, line, c', k', hload, hcreate, rfl, rfl⟩ := create_ok h
  rw [ensureLoaded, if_pos hl] at hload
  cases hload
  obtain ⟨hloaded, hshown⟩ := shown_of_createSticker hcreate
  refine ⟨hloaded.trans hl, hshown.trans hpath, ?_⟩
  rcases createSticker_ok hcreate with ⟨hsome, hc, hk⟩ | ⟨e, hnone, hname, hpush, hsave⟩
  · exact .inl ⟨named_iff.mp hsome, hc, congrArg Disk.files hk⟩
  · refine .inr ⟨fun hn => ?_, e, ⟨e.name.nulFree, ?_, e.name.length_lt⟩,
      hpush.1, ?_⟩
    · have hsome := named_iff.mpr hn
      rw [hnone] at hsome
      cases hsome
    · rw [hname, cmd.nulFree.cstr_eq]
      exact fun hnl => absurd (cmd.nonspace _ hnl) (by decide)
    · exact hpath ▸ content_of_saveSticker (fun _ => rfl) hsave

/-! ## A session -/

/-- The stickers that a session adds are the ones that it saves. -/
theorem entries_of_session {path : Bytes} (hl : p.stickers.historyLoaded = true)
    (hpath : p.directory.shown = path) (h : exec create p cmds = .ok p') : ∃ new,
      p'.stickers.entries = p.stickers.entries ++ new ∧ (∀ e ∈ new, IsName e.name.toStr) ∧
      p'.files.content path = p.files.content path ++
        (new.map fun e => stickerRecord e.name.toStr e.sticker.toStr).flatten ∧
      (new = [] ↔ ∀ cmd ∈ cmds, Named p.stickers.entries cmd) := by
  induction cmds generalizing p with
  | nil =>
    cases h
    exact ⟨[], by simp, by simp, by simp, by simp⟩
  | cons cmd cmds ih =>
    obtain ⟨q, hq, h⟩ := exec_cons_ok.mp h
    obtain ⟨hl', hpath', ⟨hn, hst, hfiles⟩ | ⟨hn, e, hname, hentries, hcontent⟩⟩ :=
      entries_of_create hl hpath hq
    · obtain ⟨new, h₁, h₂, h₃, h₄⟩ := ih hl' hpath' h
      rw [hst] at h₁ h₄
      rw [hfiles] at h₃
      exact ⟨new, h₁, h₂, h₃, by rw [h₄, List.forall_mem_cons, and_iff_right hn]⟩
    · obtain ⟨new, h₁, h₂, h₃, -⟩ := ih hl' hpath' h
      refine ⟨e :: new, by rw [h₁, hentries, List.append_assoc]; rfl, ?_, ?_, ?_⟩
      · exact List.forall_mem_cons.mpr ⟨hname, h₂⟩
      · rw [h₃, hcontent, List.append_assoc, List.map_cons, List.flatten_cons]
      · exact iff_of_false (List.cons_ne_nil _ _) fun hall => hn (hall cmd List.mem_cons_self)

/-! ## The next session -/

/-- A file that does not exist is read like an empty one. -/
theorem loadStickers_eq {c : Catalogue} {k : Disk} {env : FileEnv} {d : Directory} {b : StrBuf 512}
    (henv : ∀ path, env.opens path = true) (hget : k.directory.getUserDirectory env = .ok d)
    (hb : orOverflow (d.userDirectory.strcat (str "saved_stickers.txt")) = .ok b) :
    loadStickers c k env = (loadContent c (k.files.content b.toStr)).map fun c =>
      (c, ⟨{ d with userDirectory := b }, k.files⟩) := by
  unfold loadStickers
  rw [hget, ok_bind, hb, ok_bind]
  dsimp only
  split
  · rename_i hclosed
    have hempty : k.files.content b.toStr = [] := by
      cases hfile : k.files b.toStr with
      | none => rw [Files.content, hfile, Option.getD_none]
      | some content =>
        rw [Files.fopen, if_pos ⟨henv _, hfile ▸ rfl⟩] at hclosed
        cases hclosed
    rw [hempty]
    rfl
  · rename_i files hfiles
    obtain rfl := Files.eq_of_fopen_read hfiles
    cases loadContent c (k.files.content b.toStr) <;> rfl

/-- Where the catalogue can be read once, it is the contents of the file that decide. -/
theorem reload_eq {es : List StickerEntry} (h : reload home username files = .ok es)
    (files' : Files) : reload home username files' =
      (loadContent .init (files'.content (catalogueFile home username))).map Catalogue.entries := by
  obtain ⟨p, hp, h⟩ := bind_ok h
  obtain ⟨d, hd, hp⟩ := bind_ok hp
  cases hp
  obtain ⟨⟨c, k⟩, hload, -⟩ := bind_ok h
  obtain ⟨d', hget, hload⟩ := bind_ok hload
  obtain ⟨b, hb, -⟩ := bind_ok hload
  have hpath : b.toStr = catalogueFile home username := by
    rw [StrBuf.toStr_of_strcat (ok_of_orOverflow hb), Directory.userDirectory_of_get hget,
      Directory.shown_of_flagHandler hd]
    rfl
  obtain ⟨q, hq, rfl, rfl, hst⟩ : ∃ q, main home username files' = .ok q ∧ q.directory = d ∧
      q.files = files' ∧ q.stickers = .init := by
    rw [main, hd]
    exact ⟨_, rfl, rfl, rfl, rfl⟩
  rw [← hpath, reload, hq, ok_bind, hst, loadStickers_eq (k := q.toDisk) (fun _ => rfl) hget hb]
  cases loadContent .init (q.files.content b.toStr) <;> rfl

/-- What the first command of a session reads, the next session would read from the same files. -/
theorem reload_of_ensureLoaded {c : Catalogue} {k : Disk}
    (hp : main home username files = .ok p)
    (h : ensureLoaded p.stickers p.toDisk ChatEnv.allOk.toFileEnv = .ok (c, k)) :
    reload home username files = .ok c.entries ∧ c.historyLoaded = true ∧
      k.directory.shown = catalogueFile home username ∧ k.files = files := by
  obtain ⟨hflag, hst⟩ := main_ok hp
  have hfiles : p.files = files := by
    obtain ⟨d, -, hp⟩ := bind_ok hp
    cases hp
    rfl
  have hstart : DirectoryIs ((getRootDirectory home).toStr ++
      (username.map cstr).getD (str "default") ++ str "/") p.stickers p.toDisk := by
    rw [hst]
    exact Directory.shown_of_flagHandler hflag
  have hdir := hstart.load h
  have hloaded := loaded_of_ensureLoaded h
  rw [DirectoryIs, if_pos hloaded] at hdir
  rw [ensureLoaded, hst, if_neg (by decide)] at h
  obtain ⟨⟨c₁, k₁⟩, hload, h⟩ := bind_ok h
  cases h
  refine ⟨?_, hloaded, hdir, (files_of_loadStickers hload).trans hfiles⟩
  rw [reload, hp, ok_bind, hst, hload]
  rfl

theorem create_of_load {c : Catalogue} {k : Disk}
    (h : ensureLoaded p.stickers p.toDisk ChatEnv.allOk.toFileEnv = .ok (c, k)) :
    p.create cmd = { p with stickers := c, toDisk := k }.create cmd := by
  have hagain : ensureLoaded c k ChatEnv.allOk.toFileEnv = .ok (c, k) :=
    if_pos (loaded_of_ensureLoaded h)
  unfold create stickerSend
  dsimp only
  rw [h, ok_bind, hagain, ok_bind]

/-- What a session with commands does to the catalogue and to its file. -/
theorem session_ok (hp : main home username files = .ok p) (h : exec create p cmds = .ok p')
    (hne : cmds ≠ []) : ∃ es new, reload home username files = .ok es ∧
      p'.stickers.entries = es ++ new ∧ (∀ e ∈ new, IsName e.name.toStr) ∧
      p'.files.content (catalogueFile home username) =
        files.content (catalogueFile home username) ++
        (new.map fun e => stickerRecord e.name.toStr e.sticker.toStr).flatten ∧
      (new = [] ↔ ∀ cmd ∈ cmds, Named es cmd) := by
  cases cmds with
  | nil => exact absurd rfl hne
  | cons cmd cmds =>
    obtain ⟨q, hq, -⟩ := exec_cons_ok.mp h
    obtain ⟨c, k, -, -, -, hload, -⟩ := create_ok hq
    obtain ⟨hes, hloaded, hshown, hfiles⟩ := reload_of_ensureLoaded hp hload
    have hrun : exec create { p with stickers := c, toDisk := k } (cmd :: cmds) = .ok p' := by
      rw [exec, ← create_of_load hload]
      exact h
    obtain ⟨new, h₁, h₂, h₃, h₄⟩ := entries_of_session hloaded hshown hrun
    exact ⟨c.entries, new, hes, h₁, h₂, hfiles ▸ h₃, h₄⟩

theorem terminated_records (es : List StickerEntry) :
    Terminated (es.map fun e => stickerRecord e.name.toStr e.sticker.toStr).flatten := by
  apply Terminated.flatten
  intro b hb
  obtain ⟨e, -, rfl⟩ := List.mem_map.mp hb
  have hend : stickerRecord e.name.toStr e.sticker.toStr =
      str "<STICKER>\n" ++ e.name.toStr ++ str "\n" ++ e.sticker.toStr ++ str "\n</STICKER>" ++
        [NEWLINE] := by
    rw [List.append_assoc _ (str "\n</STICKER>")]
    rfl
  exact hend ▸ terminated_concat _

/-- Sessions leave the file at the end of a line. -/
theorem terminated_of_sessions {earlier : List (List Create)}
    (h0 : Terminated (files.content (catalogueFile home username)))
    (h : exec (session home username) files earlier = .ok files') :
    Terminated (files'.content (catalogueFile home username)) := by
  refine exec_invariant (C := fun _ _ => True)
    (I := fun files : Files => Terminated (files.content (catalogueFile home username)))
    (fun files cmds files' hI _ h => ?_) h0 (meets_of_forall (fun _ _ => trivial) _ _) h
  obtain ⟨p, hp, h⟩ := bind_ok h
  obtain ⟨p', hp', h⟩ := bind_ok h
  cases h
  by_cases hne : cmds = []
  · subst hne
    cases hp'
    obtain ⟨d, -, hp⟩ := bind_ok hp
    cases hp
    exact hI
  · obtain ⟨es, new, -, -, -, hcontent, -⟩ := session_ok hp hp' hne
    rw [hcontent]
    exact hI.append (terminated_records new)

/-- After any number of sessions, the next session reads the catalogue that a session has in memory
at its end if and only if no sticker is created in it. -/
theorem catalogue_round_trip {files₀ : Files} {earlier : List (List Create)}
    (h0 : files₀.content (catalogueFile home username) = [])
    (hearlier : exec (session home username) files₀ earlier = .ok files)
    (hp : main home username files = .ok p) (h : exec create p cmds = .ok p') :
    reload home username p'.files = .ok p'.stickers.entries ↔
      CreatesNothing home username files cmds := by
  have hterm := terminated_of_sessions (h0 ▸ terminated_nil) hearlier
  by_cases hne : cmds = []
  · subst hne
    cases h
    obtain ⟨d, -, hp⟩ := bind_ok hp
    cases hp
    constructor
    · exact fun h => ⟨[], h, fun _ hcmd => absurd hcmd List.not_mem_nil, fun _ => rfl⟩
    · rintro ⟨es, hes, -, hnil⟩
      rw [hes, hnil rfl]
      rfl
  · obtain ⟨es, new, hes, hentries, hnames, hcontent, hnew⟩ := session_ok hp h hne
    have hread := reload_eq hes p'.files
    rw [hcontent] at hread
    have hbefore := reload_eq hes files
    rw [hes] at hbefore
    constructor
    · intro hsame
      refine ⟨es, hes, hnew.mp ?_, fun hnil => absurd hnil hne⟩
      cases new with
      | nil => rfl
      | cons e new =>
        obtain ⟨c₀, hc₀, rfl⟩ := ok_of_map hbefore.symm
        obtain ⟨c', hc', hentries'⟩ := ok_of_map (hread.symm.trans hsame)
        rw [List.map_cons, List.flatten_cons] at hc'
        rw [hentries] at hentries'
        exact absurd hentries' (not_loaded hterm (hnames e List.mem_cons_self) hc₀ hc')
    · rintro ⟨es', hes', hall, -⟩
      rw [hes] at hes'
      cases hes'
      obtain rfl := hnew.mpr hall
      rw [hread, hentries, List.append_nil]
      rw [List.map_nil, List.flatten_nil, List.append_nil]
      exact hbefore.symm

/-! ## A session with one sticker -/

/-- `/sticker create cat`, and a text with no newline in it. -/
def createCat : Create :=
  ⟨str "cat", str "=^.^=" ++ [ESCAPE], by decide, by decide +kernel, by decide⟩

theorem catalogue_round_trip_cat : ∃ p p', main (str "/home/ann") none (fun _ => none) = .ok p ∧
    exec create p [createCat] = .ok p' ∧
    reload (str "/home/ann") none p'.files ≠ .ok p'.stickers.entries := by
  obtain ⟨p, hp, hok⟩ := exists_ok (x := main (str "/home/ann") none fun _ => none)
    (P := fun p => (exec create p [createCat]).isOk) rfl (by decide +kernel)
  obtain ⟨p', hp', -⟩ := exists_ok (P := fun _ => True) hok fun _ _ => trivial
  refine ⟨p, p', hp, hp', fun hsame => ?_⟩
  have hearlier : exec (session (str "/home/ann") none) (fun _ => none) [] =
    .ok fun _ => none := rfl
  obtain ⟨es, hes, hall, -⟩ := (catalogue_round_trip rfl hearlier hp hp').mp hsame
  have hnone : reload (str "/home/ann") none (fun _ => none) = .ok [] := by decide +kernel
  rw [hnone] at hes
  cases hes
  obtain ⟨e, he, -⟩ := hall createCat List.mem_cons_self
  exact absurd he List.not_mem_nil

/-- The sticker that is read after a restart has a newline more. -/
theorem sticker_after_restart : ∃ p p', main (str "/home/ann") none (fun _ => none) = .ok p ∧
    exec create p [createCat] = .ok p' ∧
    p'.stickers.entries.map (fun e => (e.name.toStr, e.sticker.toStr)) =
      [(str "cat", str "=^.^=")] ∧
    (reload (str "/home/ann") none p'.files).map
      (List.map fun e => (e.name.toStr, e.sticker.toStr)) = .ok [(str "cat", str "=^.^=\n")] ∧
    reload (str "/home/ann") none p'.files ≠ .ok p'.stickers.entries := by
  obtain ⟨p, hp, hok, hrun⟩ := exists_ok (x := main (str "/home/ann") none fun _ => none)
    (P := fun p => (exec create p [createCat]).isOk ∧ ∀ p' ∈ (exec create p [createCat]).toOption,
      p'.stickers.entries.map (fun e => (e.name.toStr, e.sticker.toStr)) =
          [(str "cat", str "=^.^=")] ∧
        (reload (str "/home/ann") none p'.files).map
          (List.map fun e => (e.name.toStr, e.sticker.toStr)) = .ok [(str "cat", str "=^.^=\n")] ∧
        reload (str "/home/ann") none p'.files ≠ .ok p'.stickers.entries)
    rfl (by decide +kernel)
  obtain ⟨p', hp', hresult⟩ := exists_ok hok hrun
  exact ⟨p, p', hp, hp', hresult⟩

end Chatter

end SocketSpeak
