import SocketSpeak.Group.ServerDirectory

/-!
# The user directory exists

The flag of `make_directory` says that the user directory has been made, and it is set when the
directory of the group server has. `created_iff` says in which runs `get_user_directory` returns a
directory that is there all the same.
-/

namespace SocketSpeak
open CLib Sys

/-- One of the commands has made the directory, or found it. -/
def Created (cwd made : List Bytes) (path : Bytes) : Prop :=
  ∃ p ∈ made, shellWords (str "mkdir -p " ++ p) = some [str "mkdir", str "-p", p] ∧
    resolve cwd path ∈ visited cwd p

instance (cwd made : List Bytes) (path : Bytes) : Decidable (Created cwd made path) :=
  inferInstanceAs (Decidable (∃ p ∈ made, _ ∧ _))

/-- The name in the path is of letters and digits. -/
def DirOp.Named : DirOp → Prop
  | .setProgramUsername name | .initGroupServerDirectory _ name _ | .initGroupServer _ name =>
    ∀ c ∈ cstr name, isalnum c = true
  | .getUserDirectory _ | .openFile .. => True

instance : (op : DirOp) → Decidable op.Named
  | .setProgramUsername name | .initGroupServerDirectory _ name _ | .initGroupServer _ name =>
    inferInstanceAs (Decidable (∀ c ∈ cstr name, isalnum c = true))
  | .getUserDirectory _ | .openFile .. => .isTrue trivial

namespace Dirs

/-- What `get_user_directory` returns next is there. -/
def Safe (cwd : List Bytes) (s : Dirs) : Prop :=
  ∀ env s', s.perform (.getUserDirectory env) = .ok s' →
    Created cwd s'.made s'.directory.userDirectory.toStr

/-- Where the directory of the group is made, the user directory is not set, or it is there. -/
def KeepsFor (cwd : List Bytes) (s : Dirs) (env : FileEnv) (uid : Bytes) : Prop :=
  (str "mkdir -p ").length + (groupServerPath s.directory.home uid).length < 512 →
    env.mkdirOk (groupServerPath s.directory.home uid) = true →
      s.directory.userDirectory.toStr = [] ∨
        Created cwd (groupServerPath s.directory.home uid :: s.made)
          s.directory.userDirectory.toStr

instance (cwd : List Bytes) (s : Dirs) (env : FileEnv) (uid : Bytes) :
    Decidable (s.KeepsFor cwd env uid) := inferInstanceAs (Decidable (_ → _ → _ ∨ _))

def Keeps (cwd : List Bytes) (s : Dirs) : DirOp → Prop
  | .initGroupServerDirectory env uid groupDirSize =>
    (groupServerPath s.directory.home uid).length < groupDirSize → s.KeepsFor cwd env uid
  | .initGroupServer env uid => s.KeepsFor cwd env uid
  | .setProgramUsername _ | .getUserDirectory _ | .openFile .. => True

instance (cwd : List Bytes) (s : Dirs) : (op : DirOp) → Decidable (s.Keeps cwd op)
  | .initGroupServerDirectory _ _ _ => inferInstanceAs (Decidable (_ → KeepsFor ..))
  | .initGroupServer env uid => inferInstanceAs (Decidable (s.KeepsFor cwd env uid))
  | .setProgramUsername _ | .getUserDirectory _ | .openFile .. => .isTrue trivial

end Dirs

/-! ## What the functions of the user directory do -/

namespace Directory
variable {d d' : Directory} {env : FileEnv}

/-- What `get_user_directory` changes. -/
theorem get_ok (h : d.getUserDirectory env = .ok d') :
    d' = { d with userDirectory := d'.userDirectory, madeDirectory := true } := by
  have hmade := (made_of_get h).2
  have hinit {d : Directory} (h : d.initUserDirectory env = .ok d') :
      d' = { d with madeDirectory := d'.madeDirectory } := by
    unfold initUserDirectory at h
    split at h
    · cases h
      rfl
    · obtain ⟨-, -, h⟩ := bind_ok h
      cases h
      rfl
  unfold getUserDirectory at h
  split at h
  · obtain ⟨d₁, h₁, h⟩ := bind_ok h
    rw [← hmade, hinit h, (set_ok h₁).1]
  · rw [← hmade, hinit h]

/-- What `set_program_username` changes. -/
theorem setProgramUsername_ok {username : Bytes} (h : d.setProgramUsername username = .ok d') :
    d'.home = d.home ∧ d'.madeDirectory = false ∧
      d'.path = (getRootDirectory d.home).toStr ++ (cstr username ++ str "/") ∧
      d'.userDirectory.toStr = d'.path := by
  obtain ⟨b, hb, h⟩ := bind_ok h
  obtain ⟨c, hc, h⟩ := bind_ok h
  obtain ⟨heq, hpath⟩ := set_ok h
  have hstr : c.toStr = cstr username ++ str "/" := by
    rw [StrBuf.toStr_of_strcat (ok_of_orOverflow hc), StrBuf.toStr_of_ofStr? (ok_of_orOverflow hb)]
    rfl
  rw [heq]
  exact ⟨rfl, rfl, congrArg ((getRootDirectory d.home).toStr ++ ·) hstr, hpath⟩

end Directory

/-! ## The invariant -/

section
variable {cwd made : List Bytes} {path : Bytes} {d d' : Directory} {env : FileEnv}

theorem created_of_mem (hp : path ∈ made) (hw : IsWord path) : Created cwd made path :=
  ⟨path, hp, shellWords_mkdir.mpr hw, resolve_mem_visited cwd path⟩

theorem Created.mono (h : Created cwd made path) {made' : List Bytes}
    (hsub : ∀ p ∈ made, p ∈ made') : Created cwd made' path :=
  h.imp fun p hp => ⟨hsub p hp.1, hp.2⟩

/-- The paths are words, and the flag is right about the user directory. -/
structure DirInv (cwd made : List Bytes) (d : Directory) : Prop where
  path : IsWord d.path
  word : d.userDirectory.toStr ≠ [] → IsWord d.userDirectory.toStr
  made : d.Made → Created cwd made d.userDirectory.toStr

theorem DirInv.shown (h : DirInv cwd made d) : IsWord d.shown := by
  unfold Directory.shown
  split
  · exact h.path
  · rename_i hne
    exact h.word hne

theorem DirInv.get (h : DirInv cwd made d) (hget : d.getUserDirectory env = .ok d') :
    DirInv cwd (d.mkdirs ++ made) d' := by
  have hstr := Directory.userDirectory_of_get hget
  have hpath : d'.path = d.path := by
    rw [Directory.get_ok hget]
    rfl
  refine ⟨hpath ▸ h.path, fun _ => hstr ▸ h.shown, fun _ => ?_⟩
  rw [hstr]
  by_cases hmade : d.Made
  · rw [Directory.shown_of_ne hmade.1]
    exact (h.made hmade).mono fun p hp => List.mem_append_right _ hp
  · refine created_of_mem (List.mem_append_left _ ?_) h.shown
    rw [Directory.mkdirs, if_neg hmade]
    exact List.mem_singleton_self _

theorem DirInv.set {username : Bytes} (h : DirInv cwd made d)
    (hname : ∀ c ∈ cstr username, isalnum c = true)
    (hset : d.setProgramUsername username = .ok d') : DirInv cwd made d' := by
  obtain ⟨-, hflag, hpath, hstr⟩ := Directory.setProgramUsername_ok hset
  have hne := Directory.getRootDirectory_ne_nil d.home
  have hslash : ∀ c ∈ str "/", IsPlain c := by decide +kernel
  have hword : IsWord d'.path := by
    rw [hpath, isWord_append hne, List.forall_mem_append]
    exact ⟨((isWord_append hne).mp h.path).1, fun c hc => isPlain_of_isalnum (hname c hc), hslash⟩
  exact ⟨hword, fun _ => hstr ▸ hword, fun hm => by cases hflag.symm.trans hm.2⟩

/-- The flag is set for another directory. -/
theorem DirInv.group {p : Bytes} (h : DirInv cwd made d) (hkeeps : d.userDirectory.toStr = [] ∨
    Created cwd (p :: made) d.userDirectory.toStr) :
    DirInv cwd (p :: made) { d with madeDirectory := true } :=
  ⟨h.path, h.word, fun hm => hkeeps.resolve_left hm.1⟩

namespace Dirs
variable {s s' : Dirs} {op : DirOp} {uid : Bytes}

theorem initGroupServer_ok (h : s.initGroupServer env uid = .ok s') : ∃ groupDir : StrBuf 512,
    s.directory.initGroupServerDirectory env uid 512 = .ok (groupDir, s'.directory) ∧
      s'.made = groupDir.toStr :: s.made := by
  obtain ⟨⟨groupDir, directory⟩, hinit, -⟩ := bind_ok h
  obtain ⟨g, historyFilePath, hok⟩ := initGroupServer_of_ok hinit
  cases h.symm.trans hok
  exact ⟨groupDir, hinit, rfl⟩

theorem inv_of_perform (h : DirInv cwd s.made s.directory) (hname : op.Named)
    (hkeeps : s.Keeps cwd op) (hs : s.perform op = .ok s') :
    DirInv cwd s'.made s'.directory := by
  cases op with
  | setProgramUsername username =>
    obtain ⟨d, hd, hs⟩ := bind_ok hs
    cases hs
    exact h.set hname hd
  | getUserDirectory env =>
    obtain ⟨d, hd, hs⟩ := bind_ok hs
    cases hs
    exact h.get hd
  | openFile env filename mode =>
    obtain ⟨⟨file, k⟩, hopen, hs⟩ := bind_ok hs
    obtain ⟨d, path, hd, -, ⟨-, -, rfl⟩ | ⟨files, -, -, rfl⟩⟩ := Disk.openFile_cases hopen
    · cases hs
      exact h.get hd
    · cases hs
      exact h.get hd
  | initGroupServerDirectory env uid groupDirSize =>
    obtain ⟨⟨groupDir, d⟩, hinit, hs⟩ := bind_ok hs
    obtain ⟨hstr, rfl, hfits, hok⟩ := Directory.initGroupServerDirectory_ok hinit
    cases hs
    dsimp only
    rw [hstr]
    exact h.group (hkeeps (hstr ▸ groupDir.length_lt) hfits hok)
  | initGroupServer env uid =>
    obtain ⟨groupDir, hinit, hmade⟩ := initGroupServer_ok hs
    obtain ⟨hstr, hd, hfits, hok⟩ := Directory.initGroupServerDirectory_ok hinit
    rw [hmade, hd, hstr]
    exact h.group (hkeeps hfits hok)

theorem safe_of_inv (h : DirInv cwd s.made s.directory) : s.Safe cwd := by
  intro env s' hs
  obtain ⟨d, hd, hs⟩ := bind_ok hs
  cases hs
  exact (h.get hd).made (Directory.made_of_get hd)

/-- If the flag is wrong about the user directory, `get_user_directory` believes it. -/
theorem keeps_of_safe {p : Bytes} (hd : s'.directory = { s.directory with madeDirectory := true })
    (hmade : s'.made = p :: s.made) (hsafe : s'.Safe cwd) :
    s.directory.userDirectory.toStr = [] ∨
      Created cwd (p :: s.made) s.directory.userDirectory.toStr := by
  by_cases hnil : s.directory.userDirectory.toStr = []
  · exact .inl hnil
  · have hm : s'.directory.Made := hd ▸ ⟨hnil, rfl⟩
    let env : FileEnv := ⟨fun _ => true, fun _ => true⟩
    have hget : s'.perform (.getUserDirectory env) = .ok s' := by
      rw [perform, Directory.getUserDirectory_of_made hm, Directory.mkdirs, if_pos hm]
      rfl
    have hcreated := hsafe env s' hget
    rw [hmade, hd] at hcreated
    exact .inr hcreated

theorem safe_iff (h : DirInv cwd s.made s.directory) (hname : op.Named) :
    (∀ s', s.perform op = .ok s' → s'.Safe cwd) ↔ s.Keeps cwd op := by
  constructor
  · intro hsafe
    cases op with
    | setProgramUsername | getUserDirectory | openFile => trivial
    | initGroupServerDirectory env uid groupDirSize =>
      intro hsize hfits hok
      obtain ⟨groupDir, hstr, hinit⟩ :=
        Directory.exists_initGroupServerDirectory hsize hfits hok
      rw [← hstr]
      refine keeps_of_safe rfl rfl (hsafe { s with
        directory := { s.directory with madeDirectory := true },
        made := groupDir.toStr :: s.made } ?_)
      rw [perform, hinit]
      rfl
    | initGroupServer env uid =>
      intro hfits hok
      have hsize := Nat.lt_of_le_of_lt (Nat.le_add_left _ _) hfits
      obtain ⟨groupDir, hstr, hinit⟩ :=
        Directory.exists_initGroupServerDirectory hsize hfits hok
      obtain ⟨g, historyFilePath, hs⟩ := initGroupServer_of_ok hinit
      rw [← hstr]
      exact keeps_of_safe rfl rfl (hsafe _ hs)
  · intro hkeeps s' hs
    exact safe_of_inv (inv_of_perform h hname hkeeps hs)

/-! ## Main result -/

/-- **The directory that `get_user_directory` returns exists** in all states of a run if and only if
the user directory is not waiting to be made when that of the group server is. -/
theorem created_iff (cwd : List Bytes) (home : Option Bytes) (files : Files) (ops : List DirOp)
    (hhome : IsWord (getRootDirectory home).toStr) (hops : ∀ op ∈ ops, op.Named) :
    (init home files).Safe cwd ∧
      (Meets perform (fun s op => ∀ s', s.perform op = .ok s' → s'.Safe cwd) (init home files) ops ↔
        Meets perform (Keeps cwd) (init home files) ops) := by
  have hne := Directory.getRootDirectory_ne_nil home
  have hdefault : ∀ c ∈ str "default/", IsPlain c := by decide +kernel
  have hinit : DirInv cwd (init home files).made (init home files).directory :=
    ⟨(isWord_append hne).mpr ⟨hhome, hdefault⟩, fun h => absurd rfl h, fun h => absurd rfl h.1⟩
  refine ⟨safe_of_inv hinit, ?_⟩
  exact meets_iff (I := fun s : Dirs => DirInv cwd s.made s.directory) (G := fun _ op => op.Named)
    (fun s op h hname => safe_iff h hname)
    (fun s op s' h hname hkeeps hs => inv_of_perform h hname hkeeps hs) hinit
    (meets_of_forall_mem (fun op hop _ => hops op hop) _)

/-- A server with a user directory that it has made before. -/
theorem created_iff_server :
    let env : FileEnv := ⟨fun _ => true, fun _ => true⟩
    let ops : List DirOp := [.initGroupServer env (str "12345678"),
      .setProgramUsername (str "ann"), .openFile env (str "uid.txt") .write,
      .initGroupServerDirectory env (str "12345679") 512, .getUserDirectory env]
    let s := init (str "/home/ann") fun _ => none
    Meets perform (fun s op => ∀ s', s.perform op = .ok s' → s'.Safe []) s ops := by
  intro env ops s
  have hhome : IsWord (getRootDirectory (str "/home/ann")).toStr :=
    ⟨by decide +kernel, by decide +kernel, by decide +kernel⟩
  have hops : ∀ op ∈ ops, op.Named := by decide +kernel
  exact (created_iff [] (str "/home/ann") (fun _ => none) ops hhome hops).2.mpr (by decide +kernel)

/-- The flag of the group directory makes the user directory seem to exist. -/
theorem not_created_ann :
    let env : FileEnv := ⟨fun _ => true, fun _ => true⟩
    let ops : List DirOp := [.setProgramUsername (str "ann"),
      .initGroupServerDirectory env (str "12345678") 512, .getUserDirectory env]
    ∃ s, exec perform (init (str "/home/ann") fun _ => none) ops = .ok s ∧
      s.directory.userDirectory.toStr = str "/home/ann/lmp/ann/" ∧
      ¬ Created [] s.made (str "/home/ann/lmp/ann/") :=
  exists_ok rfl (by decide +kernel)

end Dirs

end

end SocketSpeak
