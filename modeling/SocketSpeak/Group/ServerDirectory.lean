import SocketSpeak.Peer.Names

/-!
# The directory of the group server

`init_group_server_directory` and `init_group_server`, which share `make_directory` and its flag
with the functions of the user directory. Paths are put together by all of them, in buffers of 256
and 512 bytes; `paths_fit_iff` says in which runs they fit.
-/

namespace SocketSpeak
open CLib Sys

def GROUP_HISTORY_FILE : Bytes := str "history.txt"

/-- The path that `init_group_server_directory` puts together. -/
def groupServerPath (home : Option Bytes) (uid : Bytes) : Bytes :=
  (getRootDirectory home).toStr ++ str "/server/" ++ cstr uid

theorem length_groupServerPath (home : Option Bytes) (uid : Bytes) :
    (groupServerPath home uid).length =
      (getRootDirectory home).toStr.length + 8 + strlen uid := by
  rw [groupServerPath, List.length_append, List.length_append]
  rfl

theorem nulFree_groupServerPath {home : Option Bytes} {uid : Bytes} :
    NulFree (groupServerPath home uid) :=
  nulFree_append (nulFree_append (getRootDirectory home).nulFree (by decide)) (cstr_nulFree uid)

namespace Directory

/-- `init_group_server_directory(uid, group_dir, group_dir_size)`; `make_directory` sets the flag
that the user directory has. -/
def initGroupServerDirectory (d : Directory) (env : FileEnv) (uid : Bytes) (groupDirSize : Nat) :
    Except Halt (StrBuf groupDirSize × Directory) := do
  if (getRootDirectory d.home).toStr.length + 8 + strlen uid + 1 > groupDirSize then .error .exit
  else
    let groupDir ← orOverflow (StrBuf.ofStr? groupDirSize (groupServerPath d.home uid))
    mkdirP env groupDir.toStr
    return (groupDir, { d with madeDirectory := true })

/-- The paths for which `get_user_directory` has `mkdir -p` run. -/
def mkdirs (d : Directory) : List Bytes := if d.Made then [] else [d.shown]

end Directory

/-- The statics of `directory_manager.c` and `group_server.c`, the files, and the paths for which
`mkdir -p` has been run, the last one first. -/
structure Dirs extends Disk where
  groupDir : StrBuf 512
  historyFilePath : StrBuf 512
  made : List Bytes

/-- A call of one of the functions that build paths. -/
inductive DirOp where
  | setProgramUsername (username : Bytes)
  | getUserDirectory (env : FileEnv)
  | openFile (env : FileEnv) (filename : Bytes) (mode : OpenMode)
  | initGroupServerDirectory (env : FileEnv) (uid : Bytes) (groupDirSize : Nat)
  | initGroupServer (env : FileEnv) (uid : Bytes)

namespace Dirs

/-- The statics when the program starts. -/
def init (home : Option Bytes) (files : Files) : Dirs where
  directory := .init home
  files := files
  groupDir := .empty pathSize_pos
  historyFilePath := .empty pathSize_pos
  made := []

/-- The path of the history in the directory of the group, unless it is too long. -/
def setHistoryPath (s : Dirs) (groupDir : StrBuf 512) : Except Halt Dirs := do
  if groupDir.toStr.length + GROUP_HISTORY_FILE.length ≥ 512 then
    return { s with groupDir, historyFilePath := .empty pathSize_pos }
  else
    let historyFilePath ← orOverflow (StrBuf.ofStr? 512 (groupDir.toStr ++ GROUP_HISTORY_FILE))
    return { s with groupDir, historyFilePath }

/-- `init_group_server(group_UID)` -/
def initGroupServer (s : Dirs) (env : FileEnv) (groupUID : Bytes) : Except Halt Dirs := do
  let (groupDir, directory) ← s.directory.initGroupServerDirectory env groupUID 512
  let s := { s with directory, made := groupDir.toStr :: s.made }
  let groupDir ← if groupDir.toStr.getLast? ≠ some 0x2F then orOverflow (groupDir.strcat (str "/"))
    else .ok groupDir
  s.setHistoryPath groupDir

def perform (s : Dirs) : DirOp → Except Halt Dirs
  | .setProgramUsername username => do
    let directory ← s.directory.setProgramUsername username
    return { s with directory }
  | .getUserDirectory env => do
    let directory ← s.directory.getUserDirectory env
    return { s with directory, made := s.directory.mkdirs ++ s.made }
  | .openFile env filename mode => do
    let (_, k) ← s.toDisk.openFile env filename mode
    return { s with toDisk := k, made := s.directory.mkdirs ++ s.made }
  | .initGroupServerDirectory env uid groupDirSize => do
    let (groupDir, directory) ← s.directory.initGroupServerDirectory env uid groupDirSize
    return { s with directory, made := groupDir.toStr :: s.made }
  | .initGroupServer env uid => s.initGroupServer env uid

end Dirs

/-! ## Which of them overflow -/

theorem noOverflow_mkdirP {env : FileEnv} {path : Bytes} :
    NoOverflow (mkdirP env path) ↔ (str "mkdir -p ").length + path.length < 512 := by
  rw [mkdirP, noOverflow_ite]
  refine and_iff_left ?_
  split
  · exact noOverflow_ok ()
  · intro h
    cases h

theorem strlen_toStr {n : Nat} (b : StrBuf n) : strlen b.toStr = b.toStr.length := by
  rw [strlen, b.nulFree.cstr_eq]

namespace Directory
variable {d d' : Directory} {env : FileEnv} {uid : Bytes} {size : Nat}

theorem noOverflow_set : NoOverflow d.setUserDirectory ↔ d.path.length < 512 := by
  rw [setUserDirectory, noOverflow_bind, path, List.length_append, ← strlen_toStr d.pusername,
    ← StrBuf.exists_strcat]
  exact exists_congr fun _ => and_iff_left (noOverflow_ok _)

theorem noOverflow_init : NoOverflow (d.initUserDirectory env) ↔
    d.madeDirectory = true ∨ (str "mkdir -p ").length + d.userDirectory.toStr.length < 512 := by
  unfold initUserDirectory
  split
  · rename_i hmade
    exact iff_of_true (noOverflow_ok _) (.inl hmade)
  · rename_i hmade
    rw [noOverflow_seq, noOverflow_mkdirP, or_iff_right hmade]
    exact and_iff_left fun _ _ => noOverflow_ok _

/-- What `set_user_directory` leaves. -/
theorem set_ok (h : d.setUserDirectory = .ok d') :
    d' = { d with userDirectory := d'.userDirectory, madeDirectory := false } ∧
      d'.userDirectory.toStr = d.path := by
  refine ⟨?_, userDirectory_of_set h⟩
  obtain ⟨b, -, h⟩ := bind_ok h
  cases h
  rfl

theorem completes_set : Completes d.setUserDirectory :=
  completes_bind (completes_orOverflow _) fun _ => completes_ok _

/-- The command is longer than the path of the user directory. -/
theorem noOverflow_get : NoOverflow (d.getUserDirectory env) ↔
    d.Made ∨ (str "mkdir -p ").length + d.shown.length < 512 := by
  unfold getUserDirectory
  split
  · rename_i hnil
    have hnot : ¬ d.Made := fun hm => hm.1 hnil
    rw [noOverflow_seq, noOverflow_set, or_iff_right hnot, shown, if_pos hnil]
    have hnext {d₁ : Directory} (h₁ : d.setUserDirectory = .ok d₁) :
        NoOverflow (d₁.initUserDirectory env) ↔
          (str "mkdir -p ").length + d.path.length < 512 := by
      obtain ⟨heq, hpath⟩ := set_ok h₁
      have hmade : d₁.madeDirectory ≠ true := by rw [heq]; exact Bool.false_ne_true
      rw [noOverflow_init, or_iff_right hmade, hpath]
    constructor
    · rintro ⟨hset, hinit⟩
      obtain ⟨d₁, h₁⟩ := completes_set (noOverflow_set.mpr hset)
      exact (hnext h₁).mp (hinit d₁ h₁)
    · intro hfits
      exact ⟨Nat.lt_of_le_of_lt (Nat.le_add_left _ _) hfits, fun _ h₁ => (hnext h₁).mpr hfits⟩
  · rename_i hne
    change NoOverflow (d.initUserDirectory env) ↔ _
    rw [noOverflow_init, shown_of_ne hne, Made, and_iff_right hne]

/-- It returns if the command does not fail. -/
theorem exists_get_iff (hfits : d.Made ∨ (str "mkdir -p ").length + d.shown.length < 512) :
    (∃ d', d.getUserDirectory env = .ok d') ↔ d.Made ∨ env.mkdirOk d.shown = true := by
  by_cases hmade : d.Made
  · exact iff_of_true ⟨d, getUserDirectory_of_made hmade env⟩ (.inl hmade)
  · obtain ⟨d', -, hget⟩ := getUserDirectory_of_fits (hfits.resolve_left hmade)
    rw [hget]
    split
    · rename_i hok
      exact iff_of_true ⟨d', rfl⟩ hok
    · rename_i hno
      exact iff_of_false nofun hno

/-- `mkdir -p` is run for the paths in `mkdirs`, and for no others. -/
theorem passes_get_iff {path : Bytes}
    (hfits : d.Made ∨ (str "mkdir -p ").length + d.shown.length < 512) :
    Passes d.getUserDirectory path ↔ path ∈ d.mkdirs := by
  by_cases hmade : d.Made
  · rw [mkdirs, if_pos hmade]
    refine iff_of_false ?_ List.not_mem_nil
    rintro ⟨opens, h⟩
    rw [getUserDirectory_of_made hmade] at h
    cases h
  · obtain ⟨d', -, hget⟩ := getUserDirectory_of_fits (hfits.resolve_left hmade)
    rw [mkdirs, if_neg hmade, List.mem_singleton]
    constructor
    · rintro ⟨opens, h⟩
      by_contra hne
      rw [hget, if_pos (.inr (decide_eq_true (Ne.symm hne)))] at h
      cases h
    · intro hpath
      refine ⟨fun _ => true, ?_⟩
      rw [hget, if_neg]
      rw [hpath, decide_eq_true_eq]
      exact fun h => h.elim hmade fun hne => hne rfl

/-- The longest username leaves room for its slash and its NUL. -/
theorem noOverflow_setProgramUsername {username : Bytes} :
    NoOverflow (d.setProgramUsername username) ↔ strlen username + 1 < 256 ∧
      (getRootDirectory d.home).toStr.length + (strlen username + 1) < 512 := by
  have hslash : strlen (str "/") = 1 := by decide
  have hname {b : StrBuf 256} (hb : StrBuf.ofStr? 256 username = some b) :
      b.toStr.length = strlen username := by
    rw [StrBuf.toStr_of_ofStr? hb, strlen]
  have hpath {b c : StrBuf 256} (hb : StrBuf.ofStr? 256 username = some b)
      (hc : b.strcat (str "/") = some c) : path { d with pusername := c } =
        (getRootDirectory d.home).toStr ++ (cstr username ++ str "/") := by
    rw [path, StrBuf.toStr_of_strcat hc, StrBuf.toStr_of_ofStr? hb]
    rfl
  rw [setProgramUsername, noOverflow_bind]
  simp only [noOverflow_bind, noOverflow_set]
  constructor
  · rintro ⟨b, hb, c, hc, hset⟩
    have hfits := StrBuf.exists_strcat.mp ⟨c, hc⟩
    rw [hname hb, hslash] at hfits
    rw [hpath hb hc, List.length_append, List.length_append] at hset
    exact ⟨hfits, hset⟩
  · rintro ⟨hfits, hset⟩
    obtain ⟨b, hb⟩ := StrBuf.exists_ofStr?.mpr (Nat.lt_of_succ_lt hfits)
    obtain ⟨c, hc⟩ : ∃ c, b.strcat (str "/") = some c :=
      StrBuf.exists_strcat.mpr (by rwa [hname hb, hslash])
    refine ⟨b, hb, c, hc, ?_⟩
    rw [hpath hb hc, List.length_append, List.length_append]
    exact hset

/-- The check leaves the command out of account. -/
theorem noOverflow_initGroupServerDirectory :
    NoOverflow (d.initGroupServerDirectory env uid size) ↔
      size ≤ (groupServerPath d.home uid).length ∨
        (str "mkdir -p ").length + (groupServerPath d.home uid).length < 512 := by
  have hlen := length_groupServerPath d.home uid
  unfold initGroupServerDirectory
  split
  · rename_i hlong
    exact iff_of_true nofun (.inl (by omega))
  · rename_i hfits
    have hshort : (groupServerPath d.home uid).length < size := by omega
    obtain ⟨b, hb, hstr⟩ := StrBuf.ofStr?_of_fits nulFree_groupServerPath hshort
    rw [or_iff_right (Nat.not_le.mpr hshort), hb, ← hstr]
    change NoOverflow (mkdirP env b.toStr >>= fun _ => _) ↔ _
    rw [noOverflow_seq, noOverflow_mkdirP]
    exact and_iff_left fun _ _ => noOverflow_ok _

/-- All that `init_group_server_directory` does. -/
theorem initGroupServerDirectory_ok {groupDir : StrBuf size}
    (h : d.initGroupServerDirectory env uid size = .ok (groupDir, d')) :
    groupDir.toStr = groupServerPath d.home uid ∧ d' = { d with madeDirectory := true } ∧
      (str "mkdir -p ").length + (groupServerPath d.home uid).length < 512 ∧
      env.mkdirOk (groupServerPath d.home uid) = true := by
  unfold initGroupServerDirectory at h
  split at h
  · cases h
  · obtain ⟨b, hb, h⟩ := bind_ok h
    obtain ⟨x, hx, h⟩ := bind_ok h
    cases h
    have hstr : groupDir.toStr = groupServerPath d.home uid := by
      rw [StrBuf.toStr_of_ofStr? (ok_of_orOverflow hb), nulFree_groupServerPath.cstr_eq]
    have hfits := fits_of_mkdirP hx
    rw [mkdirP_of_fits hfits] at hx
    refine ⟨hstr, rfl, hstr ▸ hfits, hstr ▸ ?_⟩
    by_contra hno
    rw [if_neg hno] at hx
    cases hx

/-- It returns if the path fits and the command does not fail. -/
theorem exists_initGroupServerDirectory (hsize : (groupServerPath d.home uid).length < size)
    (hfits : (str "mkdir -p ").length + (groupServerPath d.home uid).length < 512)
    (hok : env.mkdirOk (groupServerPath d.home uid) = true) :
    ∃ groupDir : StrBuf size, groupDir.toStr = groupServerPath d.home uid ∧
      d.initGroupServerDirectory env uid size =
        .ok (groupDir, { d with madeDirectory := true }) := by
  obtain ⟨b, hb, hstr⟩ := StrBuf.ofStr?_of_fits nulFree_groupServerPath hsize
  rw [length_groupServerPath] at hsize
  have hmkdir : mkdirP env b.toStr = .ok () := by
    rw [hstr, mkdirP_of_fits hfits, if_pos hok]
  have hroom : ¬ (getRootDirectory d.home).toStr.length + 8 + strlen uid + 1 > size := by omega
  refine ⟨b, hstr, ?_⟩
  rw [initGroupServerDirectory, if_neg hroom, hb]
  change (mkdirP env b.toStr >>= fun _ => _) = _
  rw [hmkdir]
  rfl

end Directory

namespace Dirs
variable {s s' : Dirs} {env : FileEnv} {uid filename : Bytes} {mode : OpenMode}

/-- The check of the length is enough for the history. -/
theorem exists_setHistoryPath (s : Dirs) (groupDir : StrBuf 512) :
    ∃ historyFilePath, s.setHistoryPath groupDir = .ok { s with groupDir, historyFilePath } := by
  unfold setHistoryPath
  split
  · exact ⟨_, rfl⟩
  · rename_i hfits
    have hnul : NulFree (groupDir.toStr ++ GROUP_HISTORY_FILE) :=
      nulFree_append groupDir.nulFree (by decide)
    obtain ⟨b, hb, -⟩ := StrBuf.ofStr?_of_fits (n := 512) hnul
      (by rw [List.length_append]; exact Nat.not_le.mp hfits)
    rw [hb]
    exact ⟨b, rfl⟩

/-- Behind the command there is room for the slash as well. -/
theorem initGroupServer_of_ok {groupDir : StrBuf 512} {directory : Directory}
    (h : s.directory.initGroupServerDirectory env uid 512 = .ok (groupDir, directory)) :
    ∃ g historyFilePath, s.initGroupServer env uid = .ok
      { s with directory, made := groupDir.toStr :: s.made, groupDir := g, historyFilePath } := by
  obtain ⟨hstr, -, hfits, -⟩ := Directory.initGroupServerDirectory_ok h
  have hcommand : (str "mkdir -p ").length = 9 := rfl
  have hslash : strlen (str "/") = 1 := by decide
  rw [initGroupServer, h, ok_bind]
  dsimp only
  split
  · obtain ⟨g, hg⟩ : ∃ g, groupDir.strcat (str "/") = some g :=
      StrBuf.exists_strcat.mpr (by rw [hstr, hslash]; omega)
    rw [hg]
    exact ⟨g, exists_setHistoryPath _ g⟩
  · exact ⟨groupDir, exists_setHistoryPath _ groupDir⟩

theorem noOverflow_initGroupServer : NoOverflow (s.initGroupServer env uid) ↔
    512 ≤ (groupServerPath s.directory.home uid).length ∨
      (str "mkdir -p ").length + (groupServerPath s.directory.home uid).length < 512 := by
  have hdirectory : NoOverflow (s.directory.initGroupServerDirectory env uid 512) ↔ _ :=
    Directory.noOverflow_initGroupServerDirectory
  rw [← hdirectory]
  cases hinit : s.directory.initGroupServerDirectory env uid 512 with
  | error f =>
    have herror : s.initGroupServer env uid = .error f := by
      rw [initGroupServer, hinit]
      rfl
    rw [herror]
    exact not_congr ⟨fun h => by cases h; rfl, fun h => by cases h; rfl⟩
  | ok r =>
    obtain ⟨g, historyFilePath, hok⟩ := initGroupServer_of_ok hinit
    rw [hok]
    exact iff_of_true (noOverflow_ok _) (noOverflow_ok _)

theorem noOverflow_openFile : NoOverflow (s.toDisk.openFile env filename mode) ↔
    (s.directory.Made ∨ (str "mkdir -p ").length + s.directory.shown.length < 512) ∧
      (s.directory.Made ∨ env.mkdirOk s.directory.shown →
        s.directory.shown.length + strlen filename < 512) := by
  rw [Disk.openFile, noOverflow_seq, Directory.noOverflow_get]
  refine and_congr_right fun hfits => ?_
  rw [← Directory.exists_get_iff hfits, forall_exists_index]
  refine forall₂_congr fun d hd => ?_
  rw [noOverflow_bind, ← Directory.userDirectory_of_get hd, ← StrBuf.exists_strcat]
  refine exists_congr fun filepath => and_iff_left ?_
  split <;> exact noOverflow_ok _

/-- What the lengths of the paths must be. -/
def Fits (s : Dirs) : DirOp → Prop
  | .setProgramUsername username => strlen username + 1 < 256 ∧
    (getRootDirectory s.directory.home).toStr.length + (strlen username + 1) < 512
  | .getUserDirectory _ =>
    s.directory.Made ∨ (str "mkdir -p ").length + s.directory.shown.length < 512
  | .openFile env filename _ =>
    (s.directory.Made ∨ (str "mkdir -p ").length + s.directory.shown.length < 512) ∧
      (s.directory.Made ∨ env.mkdirOk s.directory.shown →
        s.directory.shown.length + strlen filename < 512)
  | .initGroupServerDirectory _ uid groupDirSize =>
    groupDirSize ≤ (groupServerPath s.directory.home uid).length ∨
      (str "mkdir -p ").length + (groupServerPath s.directory.home uid).length < 512
  | .initGroupServer _ uid => 512 ≤ (groupServerPath s.directory.home uid).length ∨
      (str "mkdir -p ").length + (groupServerPath s.directory.home uid).length < 512

theorem noOverflow_perform (s : Dirs) (op : DirOp) :
    NoOverflow (s.perform op) ↔ s.Fits op := by
  cases op with
  | setProgramUsername username =>
    rw [perform, noOverflow_seq, Directory.noOverflow_setProgramUsername]
    exact and_iff_left fun _ _ => noOverflow_ok _
  | getUserDirectory env =>
    rw [perform, noOverflow_seq, Directory.noOverflow_get]
    exact and_iff_left fun _ _ => noOverflow_ok _
  | openFile env filename mode =>
    rw [perform, noOverflow_seq, noOverflow_openFile]
    exact and_iff_left fun _ _ => noOverflow_ok _
  | initGroupServerDirectory env uid groupDirSize =>
    rw [perform, noOverflow_seq, Directory.noOverflow_initGroupServerDirectory]
    exact and_iff_left fun _ _ => noOverflow_ok _
  | initGroupServer env uid => exact noOverflow_initGroupServer

/-- **Path construction stays within its buffers** in exactly these runs. -/
theorem paths_fit_iff (home : Option Bytes) (files : Files) (ops : List DirOp) :
    NoOverflow (exec perform (init home files) ops) ↔ Meets perform Fits (init home files) ops := by
  have hiff : Meets perform (fun s op => NoOverflow (s.perform op)) (init home files) ops ↔
      Meets perform Fits (init home files) ops := by
    simp only [noOverflow_perform]
  exact exec_ne_error_iff.trans hiff

/-- A username that has no room for its NUL, and a uid that passes the check where the command has
no room for its NUL. -/
theorem overflow_at_255 :
    let s := init (str "/home/ann") fun _ => none
    let env : FileEnv := ⟨fun _ => true, fun _ => true⟩
    ¬ NoOverflow (exec perform s [.setProgramUsername (List.replicate 255 0x61)]) ∧
      ¬ NoOverflow (exec perform s [.initGroupServer env (List.replicate 481 0x61)]) := by
  intro s env
  have hfits {op : DirOp} (h : NoOverflow (exec perform s [op])) : s.Fits op :=
    (noOverflow_perform s op).mp (exec_ne_error_iff.mp h).1
  refine ⟨fun h => ?_, fun h => ?_⟩
  · exact absurd (hfits h).1 (by decide +kernel)
  · rcases hfits h with hlong | hshort
    · exact absurd hlong (by decide +kernel)
    · exact absurd hshort (by decide +kernel)

end Dirs

end SocketSpeak
