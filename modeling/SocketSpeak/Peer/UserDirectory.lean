import SocketSpeak.Peer.Acts

/-!
# Who changes the user directory

`get_user_directory` returns the address of the static that it also reads, so a caller can change
what the next caller is given. One of them does: the first sticker command of a process leaves the
name of the catalogue file there (`DirectoryIs`), for all that is opened later. `opened_of_run` is
about the runs in which no sticker command is given.
-/

namespace SocketSpeak
open CLib Sys

/-- The user directory of a user. -/
def userDir (home username : Option Bytes) : Bytes :=
  (getRootDirectory home).toStr ++ (username.map cstr).getD (str "default") ++ str "/"

namespace Directory
variable {d d' : Directory} {env : FileEnv}

/-- What `set_user_directory` puts together. -/
def path (d : Directory) : Bytes := (getRootDirectory d.home).toStr ++ d.pusername.toStr

/-- What `get_user_directory` returns. -/
def shown (d : Directory) : Bytes :=
  if d.userDirectory.toStr = [] then d.path else d.userDirectory.toStr

theorem getRootDirectory_ne_nil (home : Option Bytes) : (getRootDirectory home).toStr ≠ [] := by
  unfold getRootDirectory
  dsimp only
  split
  · rename_i hhome
    apply StrBuf.toStr_strncat_ne_nil
    apply StrBuf.toStr_strncat_ne_nil
    intro hnil
    have hcut := (List.append_eq_nil_iff.mp hnil).2
    rcases List.take_eq_nil_iff.mp hcut with h0 | h0
    · cases h0
    · cases home with
      | none => exact hhome.2 rfl
      | some home =>
        have h0 : cstr (cstr home) = [] := h0
        rw [(cstr_nulFree home).cstr_eq] at h0
        exact hhome.2 h0
  · decide +kernel

theorem shown_of_ne (h : d.userDirectory.toStr ≠ []) : d.shown = d.userDirectory.toStr := if_neg h

theorem shown_ne_nil (d : Directory) : d.shown ≠ [] := by
  unfold shown
  split
  · exact fun h => getRootDirectory_ne_nil _ (List.append_eq_nil_iff.mp h).1
  · assumption

theorem userDirectory_of_set (h : d.setUserDirectory = .ok d') :
    d'.userDirectory.toStr = d.path := by
  obtain ⟨b, hb, h⟩ := bind_ok h
  cases h
  have hstr := StrBuf.toStr_of_strcat (ok_of_orOverflow hb)
  rw [hstr, path, d.pusername.nulFree.cstr_eq]

theorem userDirectory_of_init (h : d.initUserDirectory env = .ok d') :
    d'.userDirectory = d.userDirectory := by
  unfold initUserDirectory at h
  split at h
  · cases h
    rfl
  · obtain ⟨-, -, h⟩ := bind_ok h
    cases h
    rfl

theorem userDirectory_of_get (h : d.getUserDirectory env = .ok d') :
    d'.userDirectory.toStr = d.shown := by
  unfold getUserDirectory at h
  split at h
  · rename_i hnil
    obtain ⟨d₁, h₁, h⟩ := bind_ok h
    rw [userDirectory_of_init h, userDirectory_of_set h₁, shown, if_pos hnil]
  · rename_i hne
    rw [userDirectory_of_init h, shown_of_ne hne]

/-- `get_user_directory` does not change what it returns. -/
theorem shown_of_get (h : d.getUserDirectory env = .ok d') : d'.shown = d.shown := by
  have hstr := userDirectory_of_get h
  rw [shown_of_ne (hstr ▸ d.shown_ne_nil), hstr]

/-- The root directory, the username and a slash. -/
theorem shown_of_flagHandler {home username : Option Bytes}
    (h : flagHandler home username = .ok d) : d.shown = userDir home username := by
  rw [userDir]
  cases username with
  | none =>
    cases h
    rw [List.append_assoc]
    rfl
  | some username =>
    obtain ⟨b, hb, h⟩ := bind_ok h
    obtain ⟨b', hb', h⟩ := bind_ok h
    have hstr := userDirectory_of_set h
    have hpath : d.userDirectory.toStr =
        (getRootDirectory home).toStr ++ cstr username ++ str "/" := by
      rw [hstr, path, List.append_assoc]
      rw [StrBuf.toStr_of_strcat (ok_of_orOverflow hb'),
        StrBuf.toStr_of_ofStr? (ok_of_orOverflow hb)]
      rfl
    have hne : d.userDirectory.toStr ≠ [] := by
      rw [hpath, List.append_assoc]
      exact fun h => getRootDirectory_ne_nil _ (List.append_eq_nil_iff.mp h).1
    rw [shown_of_ne hne, hpath]
    rfl

end Directory

/-! ## The callers -/

namespace Disk
variable {k k' : Disk} {env : FileEnv} {filename text : Bytes} {mode : OpenMode}

/-- The file is opened in the user directory, or it is not. -/
theorem openFile_cases {file : Option Bytes} (h : k.openFile env filename mode = .ok (file, k')) :
    ∃ d path, k.directory.getUserDirectory env = .ok d ∧
      path = k.directory.shown ++ cstr filename ∧
      (k.files.fopen (env.opens path) path mode = none ∧ file = none ∧
          k' = { k with directory := d } ∨
        ∃ files, k.files.fopen (env.opens path) path mode = some files ∧ file = some path ∧
          k' = ⟨d, files⟩) := by
  obtain ⟨d, hd, h⟩ := bind_ok h
  obtain ⟨filepath, hpath, h⟩ := bind_ok h
  have hstr := StrBuf.toStr_of_strcat (ok_of_orOverflow hpath)
  rw [Directory.userDirectory_of_get hd] at hstr
  refine ⟨d, filepath.toStr, hd, hstr, ?_⟩
  split at h
  · rename_i hfiles
    cases h
    exact .inl ⟨hfiles, rfl, rfl⟩
  · rename_i files hfiles
    cases h
    exact .inr ⟨files, hfiles, rfl, rfl⟩

theorem openFile_ok {file : Option Bytes} (h : k.openFile env filename mode = .ok (file, k')) :
    k'.directory.shown = k.directory.shown ∧ ∀ path ∈ file,
      path = k.directory.shown ++ cstr filename ∧
        k.files.fopen (env.opens path) path mode = some k'.files := by
  obtain ⟨d, path, hd, hpath, ⟨-, rfl, rfl⟩ | ⟨files, hfiles, rfl, rfl⟩⟩ := openFile_cases h
  · exact ⟨Directory.shown_of_get hd, nofun⟩
  · refine ⟨Directory.shown_of_get hd, fun path hp => ?_⟩
    cases hp
    exact ⟨hpath, hfiles⟩

theorem files_of_openFile_read {file : Option Bytes}
    (h : k.openFile env filename .read = .ok (file, k')) : k'.files = k.files := by
  obtain ⟨d, path, -, -, ⟨-, -, rfl⟩ | ⟨files, hfiles, -, rfl⟩⟩ := openFile_cases h
  · rfl
  · exact Files.eq_of_fopen_read hfiles

theorem shown_of_save {r : Int} (h : k.save env filename text = .ok (r, k')) :
    k'.directory.shown = k.directory.shown := by
  obtain ⟨⟨file, k₁⟩, hopen, h⟩ := bind_ok h
  have hshown := (openFile_ok hopen).1
  cases file <;> cases h <;> exact hshown

end Disk

theorem shown_of_getUid {k k' : Disk} {env : FileEnv} {rand : Nat}
    {uid : CharArray (UID_LENGTH + 1)} (h : getUid k env rand = .ok (uid, k')) :
    k'.directory.shown = k.directory.shown := by
  obtain ⟨⟨file, k₁⟩, hopen, h⟩ := bind_ok h
  have hshown := (Disk.openFile_ok hopen).1
  dsimp only at h
  split at h
  · cases h
    exact hshown
  · obtain ⟨⟨r, k₂⟩, hsave, h⟩ := bind_ok h
    dsimp only at h
    split at h
    · cases h
    · cases h
      exact (Disk.shown_of_save hsave).trans hshown

theorem shown_of_saveSticker {k k' : Disk} {env : FileEnv} {e : StickerEntry}
    (h : saveSticker k env e = .ok k') : k'.directory.shown = k.directory.shown := by
  obtain ⟨d, hd, h⟩ := bind_ok h
  dsimp only at h
  split at h <;> cases h <;> exact Directory.shown_of_get hd

theorem shown_of_createSticker {c c' : Catalogue} {k k' : Disk} {env : FileEnv}
    {keys name line : Bytes} (h : createSticker c k env keys name = .ok (line, c', k')) :
    c'.historyLoaded = c.historyLoaded ∧ k'.directory.shown = k.directory.shown := by
  rcases createSticker_ok h with ⟨-, rfl, rfl⟩ | ⟨e, -, -, hpush, hsave⟩
  · exact ⟨rfl, rfl⟩
  · exact ⟨hpush.2, shown_of_saveSticker hsave⟩

/-- Loading changes the static that it has just been given. -/
theorem shown_of_loadStickers {c c' : Catalogue} {k k' : Disk} {env : FileEnv}
    (h : loadStickers c k env = .ok (c', k')) :
    k'.directory.shown = k.directory.shown ++ str "saved_stickers.txt" := by
  obtain ⟨d, hd, h⟩ := bind_ok h
  obtain ⟨b, hb, h⟩ := bind_ok h
  have hstr : b.toStr = k.directory.shown ++ str "saved_stickers.txt" := by
    rw [StrBuf.toStr_of_strcat (ok_of_orOverflow hb), Directory.userDirectory_of_get hd]
    rfl
  have hne : b.toStr ≠ [] := fun hnil =>
    k.directory.shown_ne_nil (List.append_eq_nil_iff.mp (hstr ▸ hnil)).1
  dsimp only at h
  split at h
  · cases h
    exact (Directory.shown_of_ne hne).trans hstr
  · obtain ⟨c₁, -, h⟩ := bind_ok h
    cases h
    exact (Directory.shown_of_ne hne).trans hstr

theorem files_of_loadStickers {c c' : Catalogue} {k k' : Disk} {env : FileEnv}
    (h : loadStickers c k env = .ok (c', k')) : k'.files = k.files := by
  obtain ⟨d, -, h⟩ := bind_ok h
  obtain ⟨b, -, h⟩ := bind_ok h
  dsimp only at h
  split at h
  · cases h
    rfl
  · rename_i files hfiles
    obtain ⟨c₁, -, h⟩ := bind_ok h
    cases h
    exact Files.eq_of_fopen_read hfiles

theorem files_of_ensureLoaded {c c' : Catalogue} {k k' : Disk} {env : FileEnv}
    (h : ensureLoaded c k env = .ok (c', k')) : k'.files = k.files := by
  unfold ensureLoaded at h
  split at h
  · cases h
    rfl
  · obtain ⟨⟨c₁, k₁⟩, hload, h⟩ := bind_ok h
    cases h
    exact files_of_loadStickers hload

/-- What `get_user_directory` returns in a process whose user directory is `dir`. -/
def DirectoryIs (dir : Bytes) (c : Catalogue) (k : Disk) : Prop :=
  k.directory.shown = if c.historyLoaded then dir ++ str "saved_stickers.txt" else dir

theorem DirectoryIs.load {dir : Bytes} {c c' : Catalogue} {k k' : Disk} {env : FileEnv}
    (hd : DirectoryIs dir c k) (h : ensureLoaded c k env = .ok (c', k')) :
    DirectoryIs dir c' k' := by
  have hloaded := Chatter.loaded_of_ensureLoaded h
  unfold ensureLoaded at h
  split at h
  · cases h
    exact hd
  · rename_i hnot
    obtain ⟨⟨c₁, k₁⟩, hload, h⟩ := bind_ok h
    cases h
    rw [DirectoryIs, if_neg hnot] at hd
    rw [DirectoryIs, shown_of_loadStickers hload, hd, if_pos hloaded]

namespace Chatter
variable {p p' : Chatter} {env : ChatEnv} {dir : Bytes} {S : UInt8 → Bytes → Prop} {L : Prop}

theorem files_historyAppend (p : Chatter) (env : ChatEnv) (speaker message : Bytes) :
    ∃ files, (p.historyAppend env speaker message).2 = { p with files := files } := by
  unfold historyAppend
  split
  · exact ⟨_, rfl⟩
  · split
    · exact ⟨_, rfl⟩
    · exact ⟨_, rfl⟩

theorem up_lmpSend (p : Chatter) (env : ChatEnv) (type : UInt8) (payload : Bytes) :
    ∃ up, (p.lmpSend env type payload).2 = { p with up := up } := by
  unfold lmpSend
  split
  · exact ⟨_, rfl⟩
  · exact ⟨_, rfl⟩

section
variable (p : Chatter) (env : ChatEnv) (type : UInt8) (payload speaker message : Bytes)

@[simp] theorem stickers_lmpSend : (p.lmpSend env type payload).2.stickers = p.stickers := by
  obtain ⟨up, hup⟩ := p.up_lmpSend env type payload
  rw [hup]

@[simp] theorem toDisk_lmpSend : (p.lmpSend env type payload).2.toDisk = p.toDisk := by
  obtain ⟨up, hup⟩ := p.up_lmpSend env type payload
  rw [hup]

@[simp] theorem stickers_historyAppend :
    (p.historyAppend env speaker message).2.stickers = p.stickers := by
  obtain ⟨files, hfiles⟩ := p.files_historyAppend env speaker message
  rw [hfiles]

@[simp] theorem directory_historyAppend :
    (p.historyAppend env speaker message).2.directory = p.directory := by
  obtain ⟨files, hfiles⟩ := p.files_historyAppend env speaker message
  rw [hfiles]

@[simp] theorem up_historyAppend : (p.historyAppend env speaker message).2.up = p.up := by
  obtain ⟨files, hfiles⟩ := p.files_historyAppend env speaker message
  rw [hfiles]

end

theorem Acts.directoryIs (h : Acts S L p p') (hd : DirectoryIs dir p.stickers p.toDisk) :
    DirectoryIs dir p'.stickers p'.toDisk := by
  induction h with
  | done => exact hd
  | user _ _ _ ih | nick _ ih => exact ih
  | send _ _ ih => rwa [stickers_lmpSend, toDisk_lmpSend]
  | append _ ih => rwa [DirectoryIs, stickers_historyAppend, directory_historyAppend]
  | save _ _ hk ih => exact (Disk.shown_of_save hk).trans ih
  | create _ _ hc ih =>
    obtain ⟨hloaded, hshown⟩ := shown_of_createSticker hc
    exact hshown.trans (ih.trans (by rw [hloaded]))
  | load _ _ hl ih => exact ih.load hl

theorem Acts.loaded_eq (h : Acts S False p p') :
    p'.stickers.historyLoaded = p.stickers.historyLoaded := by
  induction h with
  | done => rfl
  | user _ _ _ ih | nick _ ih | save _ _ _ ih => exact ih
  | send _ _ ih => rwa [stickers_lmpSend]
  | append _ ih => rwa [stickers_historyAppend]
  | create _ _ hc ih => exact (shown_of_createSticker hc).1.trans ih
  | load _ hl => exact hl.elim

/-! ### The handshake -/

/-- The history lies in the directory of the peer, in the user directory. -/
theorem historyPrepare_ok (h : p.historyPrepare env = .ok p') :
    ∃ d peerDir historyPath, p' = { p with directory := d, peerDir, historyPath } ∧
      d.shown = p.directory.shown ∧ (p.peerUid.toStr ≠ [] → historyPath.toStr =
        p.directory.shown ++ str "peers/" ++ p.peerUid.toStr ++ str "/history.txt") := by
  unfold historyPrepare at h
  dsimp only at h
  split at h
  · rename_i hnil
    cases h
    exact ⟨_, _, _, rfl, rfl, fun hne => absurd hnil hne⟩
  · obtain ⟨d, hd, h⟩ := bind_ok h
    obtain ⟨b₁, h₁, h⟩ := bind_ok h
    obtain ⟨b₂, h₂, h⟩ := bind_ok h
    obtain ⟨-, -, h⟩ := bind_ok h
    obtain ⟨b₃, h₃, h⟩ := bind_ok h
    obtain ⟨b₄, h₄, h⟩ := bind_ok h
    obtain ⟨-, -, h⟩ := bind_ok h
    obtain ⟨b₅, h₅, h⟩ := bind_ok h
    cases h
    refine ⟨_, _, _, rfl, Directory.shown_of_get hd, fun _ => ?_⟩
    have huid : cstr p.peerUid.toStr = p.peerUid.toStr := NulFree.cstr_eq (cstr_nulFree _)
    rw [StrBuf.toStr_of_strcat (ok_of_orOverflow h₅), StrBuf.toStr_of_strcat (ok_of_orOverflow h₄),
      StrBuf.toStr_of_strcat (ok_of_orOverflow h₃), StrBuf.toStr_of_strcat (ok_of_orOverflow h₂),
      StrBuf.toStr_of_ofStr? (ok_of_orOverflow h₁), d.userDirectory.nulFree.cstr_eq,
      Directory.userDirectory_of_get hd, huid, List.append_assoc _ (cstr (str "/"))]
    rfl

theorem loadPeerNick_ok {uid : Bytes} {i : Int} (h : p.loadPeerNick env uid = .ok (i, p')) :
    ∃ k nick, p' = { p with toDisk := k, peerNick := nick } ∧
      k.directory.shown = p.directory.shown ∧ k.files = p.files := by
  obtain ⟨name, -, h⟩ := bind_ok h
  obtain ⟨⟨file, k⟩, hopen, h⟩ := bind_ok h
  have hshown := (Disk.openFile_ok hopen).1
  have hfiles := Disk.files_of_openFile_read hopen
  cases file with
  | none =>
    cases h
    exact ⟨k, p.peerNick, rfl, hshown, hfiles⟩
  | some path =>
    obtain ⟨nick, -, h⟩ := bind_ok h
    cases h
    exact ⟨k, nick, rfl, hshown, hfiles⟩

theorem historyLoad_eq (p : Chatter) (env : ChatEnv) :
    ∃ stdout, p.historyLoad env = { p with stdout := stdout } := by
  have hfold : ∀ (ls : List Bytes) (p : Chatter), ∃ stdout,
      ls.foldl print p = { p with stdout := stdout } := by
    intro ls
    induction ls with
    | nil => exact fun p => ⟨_, rfl⟩
    | cons l ls ih => exact fun p => (ih (p.print l)).imp fun _ h => h
  unfold historyLoad
  split
  · exact ⟨_, rfl⟩
  · split
    · exact ⟨_, rfl⟩
    · exact hfold _ _

/-- All that the frame with the uid of the peer does. -/
theorem uidRecv_ok {code : UInt8} {buf : Bytes} {len : Nat} {r : CommandResult}
    (h : uidRecv env code buf len p = .ok (r, p')) : ∃ peerUid q k nick stdout,
      peerUid = .ofBytes _ (buf.take (min len 8) ++ 0 :: p.peerUid.data.drop (min len 8 + 1)) ∧
      historyPrepare { p with peerUid } env = .ok q ∧
      k.directory.shown = q.directory.shown ∧ k.files = q.files ∧
      p' = { q with
        toDisk := k, peerNick := nick, stdout, historyLoaded := true, peerUidReady := true } := by
  obtain ⟨q, hq, h⟩ := bind_ok h
  obtain ⟨⟨i, q₁⟩, hq₁, h⟩ := bind_ok h
  obtain ⟨k, nick, rfl, hshown, hfiles⟩ := loadPeerNick_ok hq₁
  dsimp only at h
  split at h
  · rename_i hloaded
    cases h
    exact ⟨_, q, k, nick, q.stdout, rfl, hq, hshown, hfiles, by rw [hloaded]⟩
  · obtain ⟨stdout, hload⟩ := historyLoad_eq { q with toDisk := k, peerNick := nick } env
    rw [hload] at h
    cases h
    exact ⟨_, q, k, nick, stdout, rfl, hq, hshown, hfiles, rfl⟩

theorem directoryIs_of_uid {f : Frame} {buf : Bytes} (hf : f.type = LMP_UID)
    (h : p.receive env f buf = .ok p') (hd : DirectoryIs dir p.stickers p.toDisk) :
    DirectoryIs dir p'.stickers p'.toDisk ∧ p'.stickers = p.stickers := by
  obtain ⟨r, h⟩ := uidRecv_of_receive hf h
  obtain ⟨peerUid, q, k, nick, stdout, -, hq, hshown, -, rfl⟩ := uidRecv_ok h
  obtain ⟨d, peerDir, historyPath, rfl, hprep, -⟩ := historyPrepare_ok hq
  exact ⟨(hshown.trans hprep).trans hd, rfl⟩

theorem directoryIs_of_chatLoop {rand : Nat} (h : p.chatLoop env rand = .ok p')
    (hd : DirectoryIs dir p.stickers p.toDisk) :
    DirectoryIs dir p'.stickers p'.toDisk ∧ p'.stickers = p.stickers := by
  obtain ⟨⟨file, k⟩, hopen, h⟩ := bind_ok h
  obtain ⟨nick, -, h⟩ := bind_ok h
  obtain ⟨⟨uid, k'⟩, huid, h⟩ := bind_ok h
  cases h
  exact ⟨((shown_of_getUid huid).trans (Disk.openFile_ok hopen).1).trans hd, rfl⟩

end Chatter

/-! ## Runs -/

/-- An operation of the process that does not set the username. -/
inductive ClientOp where
  | getUserDirectory (env : FileEnv)
  | openFile (env : FileEnv) (filename : Bytes) (mode : OpenMode)
  /-- `chat_loop` starts. -/
  | chat (env : ChatEnv) (rand : Nat)
  /-- The main thread reads what is typed. -/
  | typed (env : ChatEnv) (stdin : Bytes)
  /-- The receiver receives a frame. -/
  | received (env : ChatEnv) (f : Frame) (buf : Bytes)

namespace Chatter
variable {p p' : Chatter} {op : ClientOp} {dir : Bytes}

def perform (p : Chatter) : ClientOp → Except Halt Chatter
  | .getUserDirectory env => do
    let directory ← p.directory.getUserDirectory env
    return { p with directory }
  | .openFile env filename mode => do
    let (_, k) ← p.toDisk.openFile env filename mode
    return { p with toDisk := k }
  | .chat env rand => p.chatLoop env rand
  | .typed env stdin =>
    match readLine stdin with
    | none => .ok p
    | some line => p.typed env line
  | .received env f buf => p.receive env f buf

/-- The operation is a sticker command, and the first one of the process. -/
def FirstSticker (p : Chatter) : ClientOp → Prop
  | .typed _ stdin => (∃ line ∈ readLine stdin, IsSticker line) ∧ p.stickers.historyLoaded = false
  | _ => False

instance (p : Chatter) : (op : ClientOp) → Decidable (p.FirstSticker op)
  | .typed _ stdin => inferInstanceAs (Decidable ((∃ line ∈ readLine stdin, IsSticker line) ∧ _))
  | .getUserDirectory _ | .openFile .. | .chat .. | .received .. => .isFalse id

/-- `get_user_directory` returns `dir`, and the files that are opened lie there. -/
structure InDirectory (p : Chatter) (dir : Bytes) : Prop where
  get : ∀ {env d}, p.directory.getUserDirectory env = .ok d → d.userDirectory.toStr = dir
  opened : ∀ {env filename mode path k},
    p.toDisk.openFile env filename mode = .ok (some path, k) → path = dir ++ cstr filename

theorem directoryIs_of_perform (h : p.perform op = .ok p')
    (hd : DirectoryIs dir p.stickers p.toDisk) : DirectoryIs dir p'.stickers p'.toDisk ∧
      (¬ p.FirstSticker op → p.stickers.historyLoaded = false →
        p'.stickers.historyLoaded = false) := by
  cases op with
  | getUserDirectory env =>
    obtain ⟨d, hget, h⟩ := bind_ok h
    cases h
    exact ⟨(Directory.shown_of_get hget).trans hd, fun _ hl => hl⟩
  | openFile env filename mode =>
    obtain ⟨⟨file, k⟩, hopen, h⟩ := bind_ok h
    cases h
    exact ⟨(Disk.openFile_ok hopen).1.trans hd, fun _ hl => hl⟩
  | chat env rand =>
    obtain ⟨hd, hst⟩ := directoryIs_of_chatLoop h hd
    exact ⟨hd, fun _ hl => hst ▸ hl⟩
  | typed env stdin =>
    rw [perform] at h
    split at h
    · cases h
      exact ⟨hd, fun _ hl => hl⟩
    rename_i line hline
    have hacts := acts_of_typed (length_lt_of_readLine hline) h
    refine ⟨hacts.directoryIs hd, fun hnot hl => ?_⟩
    have hno : ¬ IsSticker line := fun hst => hnot ⟨⟨line, hline, hst⟩, hl⟩
    exact (hacts.mono (fun _ _ h => h) hno).loaded_eq.trans hl
  | received env f buf =>
    by_cases hf : f.type = LMP_UID
    · obtain ⟨hd, hst⟩ := directoryIs_of_uid hf h hd
      exact ⟨hd, fun _ hl => hst ▸ hl⟩
    · have hacts := acts_of_receive hf h
      exact ⟨hacts.directoryIs hd, fun _ hl => hacts.loaded_eq.trans hl⟩

theorem inDirectory_of_shown (h : p.directory.shown = dir) : p.InDirectory dir where
  get hget := (Directory.userDirectory_of_get hget).trans h
  opened hopen := by
    rw [((Disk.openFile_ok hopen).2 _ rfl).1]
    exact congrArg (· ++ _) h

/-- In a run in which no sticker command is given, `get_user_directory` returns the root directory
and the username from the beginning to the end. -/
theorem inDirectory_of_run {home username : Option Bytes} {ops : List ClientOp}
    (h0 : Directory.flagHandler home username = .ok p.directory) (hl : p.stickers = .init)
    (hops : Meets perform (fun p op => ¬ p.FirstSticker op) p ops)
    (h : exec perform p ops = .ok p') : p'.InDirectory
      ((getRootDirectory home).toStr ++ (username.map cstr).getD (str "default") ++ str "/") := by
  have hstart : DirectoryIs ((getRootDirectory home).toStr ++
      (username.map cstr).getD (str "default") ++ str "/") p.stickers p.toDisk := by
    rw [hl]
    exact Directory.shown_of_flagHandler h0
  have hend := exec_invariant (I := fun p : Chatter => DirectoryIs _ p.stickers p.toDisk ∧
      p.stickers.historyLoaded = false) (fun p op p' hI hno h => by
    obtain ⟨hd, hkeep⟩ := directoryIs_of_perform h hI.1
    exact ⟨hd, hkeep hno hI.2⟩) ⟨hstart, by rw [hl]; rfl⟩ hops h
  apply inDirectory_of_shown
  rw [hend.1, hend.2]
  rfl

theorem inDirectory_of_run_nick :
    let ops : List ClientOp := [.chat .allOk 7, .received .allOk ⟨LMP_UID, 0, str "B0000001"⟩ [],
      .typed .allOk (str "/nick ann\n"), .received .allOk ⟨LMP_NICK, 0, str "bob"⟩ []]
    ∃ p p', Chatter.main (str "/home/ann") (str "ann") (fun _ => none) = .ok p ∧
      exec perform p ops = .ok p' ∧ p'.InDirectory (str "/home/ann/lmp/ann/") := by
  intro ops
  obtain ⟨p, hp, hok, hops⟩ :=
    exists_ok (x := Chatter.main (str "/home/ann") (str "ann") fun _ => none)
      (P := fun p => (exec perform p ops).isOk ∧
        Meets perform (fun p op => ¬ p.FirstSticker op) p ops)
      rfl (by decide +kernel)
  obtain ⟨p', hp', -⟩ := exists_ok (P := fun _ => True) hok fun _ _ => trivial
  obtain ⟨hdirectory, hstickers⟩ := main_ok hp
  have hdir : (getRootDirectory (str "/home/ann")).toStr ++
      ((some (str "ann")).map cstr).getD (str "default") ++ str "/" = str "/home/ann/lmp/ann/" := by
    decide +kernel
  exact ⟨p, p', hp, hp', hdir ▸ inDirectory_of_run hdirectory hstickers hops hp'⟩

/-- Whatever is done in the process, `get_user_directory` returns that, or the catalogue file once
there has been a sticker command. -/
theorem directoryIs_of_run {ops : List ClientOp} (hd : DirectoryIs dir p.stickers p.toDisk)
    (h : exec perform p ops = .ok p') : DirectoryIs dir p'.stickers p'.toDisk :=
  exec_invariant (C := fun _ _ => True)
    (I := fun p : Chatter => DirectoryIs dir p.stickers p.toDisk)
    (fun _ _ _ hI _ h => (directoryIs_of_perform h hI).1) hd
    (meets_of_forall (fun _ _ => trivial) _ _) h

/-- `/sticker list` is enough. -/
theorem outside_after_list : ∃ p p', Chatter.main (str "/home/ann") none (fun _ => none) = .ok p ∧
    exec perform p [.typed .allOk (str "/sticker list\n")] = .ok p' ∧
    ¬ p'.InDirectory (str "/home/ann/lmp/default/") := by
  let ops : List ClientOp := [.typed .allOk (str "/sticker list\n")]
  obtain ⟨p, hp, hok, hrun⟩ :=
    exists_ok (x := Chatter.main (str "/home/ann") none fun _ => none)
      (P := fun p => (exec perform p ops).isOk ∧ ∀ p' ∈ (exec perform p ops).toOption,
        p'.directory.userDirectory.toStr = str "/home/ann/lmp/default/saved_stickers.txt" ∧
          p'.directory.madeDirectory = true)
      rfl (by decide +kernel)
  obtain ⟨p', hp', hdir, hmade⟩ := exists_ok hok hrun
  have hget : p'.directory.getUserDirectory ⟨fun _ => true, fun _ => true⟩ = .ok p'.directory := by
    rw [Directory.getUserDirectory, if_neg (by rw [hdir]; decide)]
    exact if_pos hmade
  refine ⟨p, p', hp, hp', fun h => ?_⟩
  have hshown := h.get hget
  rw [hdir] at hshown
  exact absurd hshown (by decide)

end Chatter

end SocketSpeak
