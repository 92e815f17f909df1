import SocketSpeak.CLib.Path
import SocketSpeak.CLib.Shell
import SocketSpeak.Peer.UserDirectory

/-!
# Names in paths and in command lines

The username and the uid of a peer become part of a path as they come, and the path becomes part of
a command line. `commands_iff` says for which of them the shell is given `mkdir -p` with that path
for its only word, and the directory lies where it should.
-/

namespace SocketSpeak
open CLib Sys

/-- The nickname that `main` of `gclient` takes for the username. Where there is nothing to read,
`nickname` is left as it was. -/
def promptNickname (nickname : CharArray NICKNAME_MAX_LEN) (stdin : Bytes) : Bytes :=
  let line := match fgets NICKNAME_MAX_LEN stdin with
    | none => nickname.toStr
    | some (line, _) => cstr line
  let line := line.takeWhile (· ≠ NEWLINE)
  if line = [] then str "test_user" else line

/-- Where the username comes from; `flag_handler` does not take an empty one. -/
inductive NameSource where
  | default
  | flag (username : Bytes) (h : cstr username ≠ [])
  | prompt (nickname : CharArray NICKNAME_MAX_LEN) (stdin : Bytes)

namespace NameSource

/-- What `set_program_username` is called with, if it is called. -/
def username : NameSource → Option Bytes
  | default => none
  | flag username _ => some username
  | prompt nickname stdin => some (promptNickname nickname stdin)

def name (source : NameSource) : Bytes := (source.username.map cstr).getD (str "default")

/-- The user directory, as a path. -/
def userDirectory (home : Option Bytes) (source : NameSource) : Bytes :=
  (getRootDirectory home).toStr ++ source.name ++ str "/"

/-- The username is set, and the user directory is asked for the first time. -/
def start (home : Option Bytes) (source : NameSource) (env : FileEnv) : Except Halt Directory := do
  let d ← Directory.flagHandler home source.username
  d.getUserDirectory env

end NameSource

/-- `mkdir -p path` is passed to the shell: where no other command fails than this one, the process
exits. -/
def Passes {α : Type} (f : FileEnv → Except Halt α) (path : Bytes) : Prop :=
  ∃ opens, f ⟨fun q => q ≠ path, opens⟩ = .error .exit

section
variable (cwd : List Bytes) (home : Option Bytes) (source : NameSource)

/-- Each command line fits into its buffer, names the path as one word, and makes a directory below
the root directory. -/
structure Contained {α : Type} (f : FileEnv → Except Halt α) : Prop where
  fits : ∀ env, NoOverflow (f env)
  words : ∀ path, Passes f path →
    shellWords (str "mkdir -p " ++ path) = some [str "mkdir", str "-p", path]
  below : ∀ path, Passes f path → ∃ rest, rest ≠ [] ∧
    resolve cwd path = resolve cwd (getRootDirectory home).toStr ++ rest

/-- The user directory is contained, and it is the one that files are opened in. -/
structure OwnContained : Prop extends Contained cwd home (source.start home) where
  opened : ∀ {env d}, source.start home env = .ok d →
    Passes (source.start home) d.userDirectory.toStr

/-- The username is a name, or a path, that leads below the root directory. -/
structure NameOk : Prop where
  short : source.name.length + 1 < 256
  fits : (str "mkdir -p ").length + (source.userDirectory home).length < 512
  word : IsWord (source.userDirectory home)
  below : ∃ rest, rest ≠ [] ∧ walk (resolve cwd (getRootDirectory home).toStr)
    (components source.name) = resolve cwd (getRootDirectory home).toStr ++ rest

end

namespace Chatter

/-- `lmp_history_prepare`, for the answers of the operating system. -/
def prepares (p : Chatter) (env : FileEnv) : Except Halt Chatter :=
  p.historyPrepare { ChatEnv.allOk with toFileEnv := env }

/-- The context when `uid_recv` calls `lmp_history_prepare`. -/
def takeUid (p : Chatter) (r : Received) : Chatter :=
  { p with peerUid :=
      .ofBytes _ (r.buf.take (min r.len 8) ++ 0 :: p.peerUid.data.drop (min r.len 8 + 1)) }

theorem uidRecv_eq {env : ChatEnv} {code : UInt8} {r : Received} {p : Chatter} :
    uidRecv env code r.buf r.len p = (p.takeUid r).historyPrepare env >>= fun p => do
      let (_, p) ← p.loadPeerNick env p.peerUid.toStr
      let p := if p.historyLoaded then p else { p.historyLoad env with historyLoaded := true }
      return (.success, { p with peerUidReady := true }) := rfl

/-- The directory of the peer is contained, it lies in `peers`, and the history is in it. -/
structure PeerContained (cwd : List Bytes) (home : Option Bytes) (source : NameSource)
    (p : Chatter) : Prop extends Contained cwd home p.prepares where
  child : ∀ path, Passes p.prepares path → path = source.userDirectory home ∨
    path = source.userDirectory home ++ str "peers/" ∨
    ∃ name, resolve cwd path =
      resolve cwd (source.userDirectory home ++ str "peers/") ++ [name]
  opened : ∀ {env q}, p.prepares env = .ok q → p.peerUid.toStr ≠ [] →
    Passes p.prepares q.peerDir.toStr ∧
      q.historyPath.toStr = q.peerDir.toStr ++ str "history.txt"

/-- The uid that a peer sends is the name of a directory in `peers`, as far as it is looked at. No
sticker command has been given before. -/
structure PeerOk (home : Option Bytes) (source : NameSource) (p : Chatter) (uid : Bytes) :
    Prop where
  unloaded : p.stickers.historyLoaded = false
  fits : (source.userDirectory home ++ str "peers/" ++ uid ++ str "/history.txt").length < 256
  plain : ∀ c ∈ uid, IsPlain c
  child : ∃ name, descend [] (components uid) = some [name]

end Chatter

/-! ## The shell and the tree -/

theorem shellWords_mkdir {path : Bytes} :
    shellWords (str "mkdir -p " ++ path) = some [str "mkdir", str "-p", path] ↔ IsWord path := by
  have hmkdir : IsWord (str "mkdir") := ⟨by decide, by decide +kernel, by decide +kernel⟩
  have hp : IsWord (str "-p") := ⟨by decide, by decide +kernel, by decide +kernel⟩
  have hline : str "mkdir -p " ++ path = str "mkdir" ++ SPACE :: (str "-p" ++ SPACE :: path) := rfl
  rw [hline, shellWords_append hmkdir, shellWords_append hp, ← shellWords_eq_singleton]
  cases shellWords path <;> simp

theorem getRootDirectory_slash {home : Option Bytes}
    (h : (getRootDirectory home).toStr.length + 1 < 512) :
    ∃ a, a ≠ [] ∧ (getRootDirectory home).toStr = a ++ [SLASH] := by
  unfold getRootDirectory at h ⊢
  dsimp only at h ⊢
  split at h
  · rename_i hhome
    have hcut : cstr (ROOT_DIRECTORY.drop 2) = str "lmp" ++ [SLASH] := by decide +kernel
    rw [if_pos hhome, StrBuf.toStr_strncat_of_lt h, hcut, ← List.append_assoc]
    exact ⟨_, List.append_ne_nil_of_right_ne_nil _ (by decide), rfl⟩
  · rename_i hhome
    rw [if_neg hhome]
    exact ⟨str "~/lmp", by decide, by decide +kernel⟩

section
variable {cwd : List Bytes} {home : Option Bytes} {source : NameSource}

theorem length_root_lt (h : (str "mkdir -p ").length + (source.userDirectory home).length < 512) :
    (getRootDirectory home).toStr.length + 1 < 512 := by
  rw [NameSource.userDirectory, List.length_append, List.length_append] at h
  have hlen : (str "mkdir -p ").length = 9 := rfl
  omega

theorem resolve_userDirectory
    (h : (str "mkdir -p ").length + (source.userDirectory home).length < 512) :
    resolve cwd (source.userDirectory home) =
      walk (resolve cwd (getRootDirectory home).toStr) (components source.name) := by
  obtain ⟨a, ha, hroot⟩ := getRootDirectory_slash (length_root_lt h)
  have hslash : str "/" = [SLASH] := rfl
  rw [NameSource.userDirectory, hroot, hslash, resolve_slash _ (by simp), List.append_assoc,
    List.singleton_append, resolve_append cwd ha, resolve_slash cwd ha]

/-- What lies in the user directory. -/
theorem resolve_in_userDirectory {top : Bytes} (htop : IsEntryName top) (path : Bytes) :
    resolve cwd (source.userDirectory home ++ top ++ str "/" ++ path) =
      walk (resolve cwd (source.userDirectory home) ++ [top]) (components path) := by
  have hne : (getRootDirectory home).toStr ++ source.name ≠ [] :=
    List.append_ne_nil_of_left_ne_nil (Directory.getRootDirectory_ne_nil home) _
  have hslash : str "/" = [SLASH] := rfl
  have hpath : source.userDirectory home ++ top ++ str "/" ++ path =
      (getRootDirectory home).toStr ++ source.name ++ SLASH :: top ++ SLASH :: path := by
    simp [NameSource.userDirectory, hslash]
  have hdir : resolve cwd (source.userDirectory home) =
      resolve cwd ((getRootDirectory home).toStr ++ source.name) := by
    rw [NameSource.userDirectory, hslash, resolve_slash cwd hne]
  rw [hpath, resolve_entry cwd hne htop, hdir]

theorem isName_peers : IsEntryName (str "peers") := ⟨by decide, by decide, by decide, by decide⟩

theorem resolve_peers : resolve cwd (source.userDirectory home ++ str "peers/") =
    resolve cwd (source.userDirectory home) ++ [str "peers"] := by
  have h : resolve cwd (source.userDirectory home ++ str "peers" ++ str "/" ++ []) =
      walk (resolve cwd (source.userDirectory home) ++ [str "peers"]) (components []) :=
    resolve_in_userDirectory isName_peers []
  rw [List.append_nil, List.append_assoc] at h
  exact h

end

/-! ## What the functions do -/

theorem mkdirP_of_fits {env : FileEnv} {path : Bytes}
    (h : (str "mkdir -p ").length + path.length < 512) :
    mkdirP env path = if env.mkdirOk path then .ok () else .error .exit := by
  rw [mkdirP, if_neg (Nat.not_le.mpr h)]

theorem fits_of_mkdirP {env : FileEnv} {path : Bytes} {x : Unit} (h : mkdirP env path = .ok x) :
    (str "mkdir -p ").length + path.length < 512 := by
  unfold mkdirP at h
  split at h
  · cases h
  · rename_i hfits
    exact Nat.not_le.mp hfits

/-- The only fault that a computation may end with is an overflow. -/
def Completes {α : Type} (x : Except Halt α) : Prop := NoOverflow x → ∃ a, x = .ok a

theorem completes_orOverflow {α : Type} (x : Option α) : Completes (orOverflow x) := by
  intro h
  cases x with
  | none => exact absurd rfl h
  | some a => exact ⟨a, rfl⟩

theorem completes_mkdirP {env : FileEnv} {path : Bytes} (h : env.mkdirOk path = true) :
    Completes (mkdirP env path) := by
  intro hno
  unfold mkdirP at hno ⊢
  split at hno
  · exact absurd rfl hno
  · rename_i hfits
    rw [if_neg hfits, h]
    exact ⟨(), rfl⟩

theorem completes_ok {α : Type} (a : α) : Completes (.ok a) := fun _ => ⟨a, rfl⟩

theorem completes_bind {α β : Type} {x : Except Halt α} {f : α → Except Halt β}
    (hx : Completes x) (hf : ∀ a, Completes (f a)) : Completes (x >>= f) := by
  intro h
  obtain ⟨a, rfl⟩ := hx (by
    rintro rfl
    exact h rfl)
  exact hf a h

namespace Directory
variable {d : Directory} {env : FileEnv}

/-- `get_user_directory` has nothing to do. -/
def Made (d : Directory) : Prop := d.userDirectory.toStr ≠ [] ∧ d.madeDirectory = true

instance (d : Directory) : Decidable d.Made := inferInstanceAs (Decidable (_ ∧ _))

theorem getUserDirectory_of_made (h : d.Made) (env : FileEnv) :
    d.getUserDirectory env = .ok d := by
  rw [getUserDirectory, if_neg h.1]
  exact if_pos h.2

theorem made_of_init {d' : Directory} (h : d.initUserDirectory env = .ok d') :
    d'.madeDirectory = true := by
  unfold initUserDirectory at h
  split at h
  · rename_i hmade
    cases h
    exact hmade
  · obtain ⟨-, -, h⟩ := bind_ok h
    cases h
    rfl

theorem made_of_get {d' : Directory} (h : d.getUserDirectory env = .ok d') : d'.Made := by
  refine ⟨userDirectory_of_get h ▸ d.shown_ne_nil, ?_⟩
  unfold getUserDirectory at h
  split at h
  · obtain ⟨d₁, -, h⟩ := bind_ok h
    exact made_of_init h
  · exact made_of_init h

theorem getUserDirectory_of_fits (h : (str "mkdir -p ").length + d.shown.length < 512) :
    ∃ d', d'.userDirectory.toStr = d.shown ∧ ∀ env, d.getUserDirectory env =
      if d.Made ∨ env.mkdirOk d.shown then .ok d' else .error .exit := by
  have hmkdir (env : FileEnv) {path : Bytes} (hpath : path = d.shown) (d' : Directory) :
      (mkdirP env path >>= fun _ => .ok d') =
        if env.mkdirOk d.shown then .ok d' else .error .exit := by
    rw [hpath, mkdirP_of_fits h]
    split <;> rfl
  by_cases hnil : d.userDirectory.toStr = []
  · have hnot : ¬ d.Made := fun hm => hm.1 hnil
    have hshown : d.shown = d.path := if_pos hnil
    have hfits : ((getRootDirectory d.home).toStr ++ d.pusername.toStr).length < 512 := by
      rw [hshown] at h
      exact Nat.lt_of_le_of_lt (Nat.le_add_left _ _) h
    obtain ⟨b, hb, hstr⟩ := StrBuf.strcat_of_fits _ d.pusername.nulFree hfits
    rw [← path, ← hshown] at hstr
    refine ⟨{ d with userDirectory := b, madeDirectory := true }, hstr, fun env => ?_⟩
    rw [getUserDirectory, if_pos hnil, setUserDirectory, hb]
    exact (hmkdir env hstr _).trans (by simp only [hnot, false_or])
  · have hshown : d.shown = d.userDirectory.toStr := if_neg hnil
    refine ⟨{ d with madeDirectory := true }, hshown.symm, fun env => ?_⟩
    have hget : d.getUserDirectory env = d.initUserDirectory env := by
      rw [getUserDirectory, if_neg hnil]
      rfl
    rw [hget]
    unfold initUserDirectory
    by_cases hmade : d.madeDirectory = true
    · have hm : d.Made := ⟨hnil, hmade⟩
      rw [if_pos hmade, if_pos (.inl hm), ← hmade]
    · have hnot : ¬ d.Made := fun hm => hmade hm.2
      rw [if_neg hmade]
      exact (hmkdir env hshown.symm _).trans (by simp only [hnot, false_or])

theorem completes_getUserDirectory (henv : ∀ path, env.mkdirOk path = true) :
    Completes (d.getUserDirectory env) := by
  have hinit (d : Directory) : Completes (d.initUserDirectory env) := by
    unfold initUserDirectory
    split
    · exact completes_ok _
    · exact completes_bind (completes_mkdirP (henv _)) fun _ => completes_ok _
  unfold getUserDirectory
  split
  · exact completes_bind (completes_bind (completes_orOverflow _) fun _ => completes_ok _) hinit
  · exact hinit d

theorem fits_of_initUserDirectory {d' : Directory} (hmade : d.madeDirectory ≠ true)
    (h : d.initUserDirectory env = .ok d') :
    (str "mkdir -p ").length + d.userDirectory.toStr.length < 512 := by
  unfold initUserDirectory at h
  rw [if_neg hmade] at h
  obtain ⟨x, hx, -⟩ := bind_ok h
  exact fits_of_mkdirP hx

theorem fits_of_getUserDirectory {d' : Directory} (hmade : ¬ d.Made)
    (h : d.getUserDirectory env = .ok d') :
    (str "mkdir -p ").length + d.shown.length < 512 := by
  unfold getUserDirectory at h
  split at h
  · rename_i hnil
    obtain ⟨d₁, h₁, h⟩ := bind_ok h
    have hnot : d₁.madeDirectory ≠ true := by
      obtain ⟨b, -, h₁⟩ := bind_ok h₁
      cases h₁
      nofun
    have hfits := fits_of_initUserDirectory hnot h
    rw [userDirectory_of_set h₁] at hfits
    rwa [shown, if_pos hnil]
  · rename_i hne
    rw [shown_of_ne hne]
    exact fits_of_initUserDirectory (fun hm => hmade ⟨hne, hm⟩) h

theorem completes_flagHandler {home username : Option Bytes} :
    Completes (flagHandler home username) := by
  cases username with
  | none => exact completes_ok _
  | some username =>
    refine completes_bind (completes_orOverflow _) fun b => ?_
    refine completes_bind (completes_orOverflow _) fun b' => ?_
    exact completes_bind (completes_orOverflow _) fun _ => completes_ok _

/-- The username that is set leaves a directory that is not made yet. -/
theorem flagHandler_ok {home username : Option Bytes} (h : flagHandler home username = .ok d) :
    ¬ d.Made ∧ ((username.map cstr).getD (str "default")).length + 1 < 256 := by
  cases username with
  | none =>
    cases h
    exact ⟨fun hm => hm.1 rfl, by decide⟩
  | some username =>
    obtain ⟨b, hb, h⟩ := bind_ok h
    obtain ⟨b', hb', h⟩ := bind_ok h
    obtain ⟨b'', -, h⟩ := bind_ok h
    cases h
    refine ⟨fun hm => (by cases hm.2), ?_⟩
    have hlen := b'.length_lt
    rw [StrBuf.toStr_of_strcat (ok_of_orOverflow hb'), List.length_append,
      StrBuf.toStr_of_ofStr? (ok_of_orOverflow hb)] at hlen
    exact hlen

theorem exists_flagHandler {home username : Option Bytes}
    (hname : ((username.map cstr).getD (str "default")).length + 1 < 256)
    (hdir : ((getRootDirectory home).toStr ++ (username.map cstr).getD (str "default") ++
      str "/").length < 512) : ∃ d, flagHandler home username = .ok d := by
  cases username with
  | none => exact ⟨_, rfl⟩
  | some username =>
    obtain ⟨b, hb⟩ : ∃ b, StrBuf.ofStr? 256 username = some b :=
      StrBuf.exists_ofStr?.mpr (Nat.lt_of_succ_lt hname)
    have hstr : b.toStr = cstr username := StrBuf.toStr_of_ofStr? hb
    obtain ⟨b', hb', hstr'⟩ := b.strcat_of_fits (show NulFree (str "/") by decide)
      (by rw [hstr, List.length_append]; exact hname)
    rw [hstr] at hstr'
    obtain ⟨b'', hb'', -⟩ := StrBuf.strcat_of_fits (getRootDirectory home) b'.nulFree
      (by rw [hstr', ← List.append_assoc]; exact hdir)
    have hset : (init home).setProgramUsername username = .ok
        { init home with pusername := b', userDirectory := b'', madeDirectory := false } := by
      rw [setProgramUsername, hb]
      change (orOverflow (b.strcat (str "/")) >>= fun pusername =>
        setUserDirectory { init home with pusername }) = _
      rw [hb']
      change (orOverflow ((getRootDirectory home).strcat b'.toStr) >>= fun userDirectory =>
        pure _) = _
      rw [hb'']
      rfl
    exact ⟨_, hset⟩

end Directory

/-! ## The user directory -/

section
variable {cwd : List Bytes} {home : Option Bytes} {source : NameSource}

/-- What fits is made with one command. -/
theorem start_of_fits (hname : source.name.length + 1 < 256)
    (hdir : (str "mkdir -p ").length + (source.userDirectory home).length < 512) :
    ∃ d, d.userDirectory.toStr = source.userDirectory home ∧ ∀ env, source.start home env =
      if env.mkdirOk (source.userDirectory home) then .ok d else .error .exit := by
  obtain ⟨d, hd⟩ : ∃ d, Directory.flagHandler home source.username = .ok d :=
    Directory.exists_flagHandler hname (Nat.lt_of_le_of_lt (Nat.le_add_left _ _) hdir)
  have hshown : d.shown = source.userDirectory home := Directory.shown_of_flagHandler hd
  obtain ⟨d', hstr, hget⟩ := Directory.getUserDirectory_of_fits (hshown ▸ hdir)
  refine ⟨d', hstr.trans hshown, fun env => ?_⟩
  have hnot := (Directory.flagHandler_ok hd).1
  rw [NameSource.start, hd, ok_bind, hget, hshown]
  simp only [hnot, false_or]

theorem fits_of_start (h : ∀ env, NoOverflow (source.start home env)) :
    source.name.length + 1 < 256 ∧
      (str "mkdir -p ").length + (source.userDirectory home).length < 512 := by
  let env : FileEnv := ⟨fun _ => true, fun _ => true⟩
  have hcompletes : Completes (source.start home env) :=
    completes_bind Directory.completes_flagHandler fun _ =>
      Directory.completes_getUserDirectory fun _ => rfl
  obtain ⟨d', hd'⟩ := hcompletes (h env)
  obtain ⟨d, hd, hget⟩ := bind_ok hd'
  obtain ⟨hnot, hname⟩ := Directory.flagHandler_ok hd
  have hfits := Directory.fits_of_getUserDirectory hnot hget
  rw [Directory.shown_of_flagHandler hd] at hfits
  exact ⟨hname, hfits⟩

theorem passes_start (hname : source.name.length + 1 < 256)
    (hdir : (str "mkdir -p ").length + (source.userDirectory home).length < 512) {path : Bytes} :
    Passes (source.start home) path ↔ path = source.userDirectory home := by
  obtain ⟨d, -, hstart⟩ := start_of_fits hname hdir
  constructor
  · intro ⟨opens, h⟩
    rw [hstart] at h
    by_cases hpath : source.userDirectory home = path
    · exact hpath.symm
    · rw [if_pos (decide_eq_true hpath)] at h
      cases h
  · intro hpath
    refine ⟨fun _ => true, ?_⟩
    rw [hstart, if_neg]
    rw [hpath, decide_eq_true_eq]
    exact fun h => h rfl

theorem ownContained_iff : OwnContained cwd home source ↔ NameOk cwd home source := by
  constructor
  · intro h
    obtain ⟨hname, hdir⟩ := fits_of_start h.fits
    have hpass := (passes_start hname hdir).mpr rfl
    refine ⟨hname, hdir, shellWords_mkdir.mp (h.words _ hpass), ?_⟩
    rw [← resolve_userDirectory hdir]
    exact h.below _ hpass
  · intro h
    obtain ⟨d, hd, hstart⟩ := start_of_fits h.short h.fits
    have hpass {path : Bytes} :
        Passes (source.start home) path ↔ path = source.userDirectory home :=
      passes_start h.short h.fits
    refine ⟨⟨fun env => ?_, fun path hp => ?_, fun path hp => ?_⟩, fun {env d'} hok => ?_⟩
    · rw [hstart]
      split
      · exact noOverflow_ok _
      · nofun
    · rw [hpass.mp hp]
      exact shellWords_mkdir.mpr h.word
    · rw [hpass.mp hp, resolve_userDirectory h.fits]
      exact h.below
    · rw [hstart] at hok
      split at hok
      · cases hok
        exact hpass.mpr hd
      · cases hok

end

/-! ## The directory of a peer -/

namespace Chatter
variable {p : Chatter}

/-- `p.peerDir` after `lmp_history_prepare` -/
def peerDirectory (p : Chatter) : Bytes :=
  p.directory.shown ++ str "peers/" ++ p.peerUid.toStr ++ str "/"

theorem prepares_of_fits (huid : p.peerUid.toStr ≠ [])
    (h : (p.peerDirectory ++ str "history.txt").length < 256) :
    ∃ q : Chatter, q.peerDir.toStr = p.peerDirectory ∧
      q.historyPath.toStr = p.peerDirectory ++ str "history.txt" ∧
      ∀ env, p.prepares env = if (p.directory.Made ∨ env.mkdirOk p.directory.shown) ∧
          env.mkdirOk (p.directory.shown ++ str "peers/") ∧ env.mkdirOk p.peerDirectory then .ok q
        else .error .exit := by
  have hlen := h
  have hmkdir : (str "mkdir -p ").length = 9 := rfl
  have huid' : NulFree p.peerUid.toStr := cstr_nulFree _
  simp only [peerDirectory, List.length_append] at hlen
  obtain ⟨d, hd, hget⟩ := Directory.getUserDirectory_of_fits (d := p.directory) (by omega)
  obtain ⟨b₁, h₁, e₁⟩ := StrBuf.ofStr?_of_fits (n := 256) d.userDirectory.nulFree
    (by rw [hd]; omega)
  rw [hd] at e₁
  obtain ⟨b₂, h₂, e₂⟩ := b₁.strcat_of_fits (show NulFree (str "peers/") by decide)
    (by rw [e₁, List.length_append]; omega)
  rw [e₁] at e₂
  obtain ⟨b₃, h₃, e₃⟩ := b₂.strcat_of_fits huid' (by
    rw [e₂, List.length_append, List.length_append]; omega)
  rw [e₂] at e₃
  obtain ⟨b₄, h₄, e₄⟩ := b₃.strcat_of_fits (show NulFree (str "/") by decide) (by
    rw [e₃, List.length_append, List.length_append, List.length_append]; omega)
  rw [e₃, ← peerDirectory] at e₄
  obtain ⟨b₅, h₅, e₅⟩ := b₄.strcat_of_fits (show NulFree (str "history.txt") by decide)
    (e₄.symm ▸ h)
  rw [e₄] at e₅
  refine ⟨{ p with directory := d, peerDir := b₄, historyPath := b₅ }, e₄, e₅, fun env => ?_⟩
  have hpeersOk : mkdirP env b₂.toStr =
      if env.mkdirOk (p.directory.shown ++ str "peers/") then .ok () else .error .exit := by
    rw [← e₂]
    exact mkdirP_of_fits (by rw [e₂, List.length_append]; omega)
  have hpeerOk : mkdirP env b₄.toStr =
      if env.mkdirOk p.peerDirectory then .ok () else .error .exit := by
    rw [← e₄]
    refine mkdirP_of_fits ?_
    rw [e₄]
    rw [List.length_append] at h
    omega
  unfold prepares historyPrepare
  dsimp only
  rw [if_neg huid, hget]
  by_cases hown : p.directory.Made ∨ env.mkdirOk p.directory.shown = true
  · rw [if_pos hown, ok_bind, h₁]
    simp only [orOverflow, ok_bind, h₂, hpeersOk]
    by_cases hpeers : env.mkdirOk (p.directory.shown ++ str "peers/") = true
    · rw [if_pos hpeers]
      simp only [ok_bind, h₃, h₄, hpeerOk]
      by_cases hpeer : env.mkdirOk p.peerDirectory = true
      · rw [if_pos hpeer, if_pos ⟨hown, hpeers, hpeer⟩]
        simp only [ok_bind, h₅, pure_eq_ok]
      · rw [if_neg hpeer, if_neg fun h => hpeer h.2.2]
        rfl
    · rw [if_neg hpeers, if_neg fun h => hpeers h.2.1]
      rfl
  · rw [if_neg hown, if_neg fun h => hown h.1]
    rfl

theorem fits_of_prepares (huid : p.peerUid.toStr ≠ []) (h : ∀ env, NoOverflow (p.prepares env)) :
    (p.peerDirectory ++ str "history.txt").length < 256 := by
  let env : FileEnv := ⟨fun _ => true, fun _ => true⟩
  have hcompletes : Completes (p.prepares env) := by
    unfold prepares historyPrepare
    dsimp only
    rw [if_neg huid]
    refine completes_bind (Directory.completes_getUserDirectory fun _ => rfl) fun d => ?_
    refine completes_bind (completes_orOverflow _) fun b₁ => ?_
    refine completes_bind (completes_orOverflow _) fun b₂ => ?_
    refine completes_bind (completes_mkdirP rfl) fun _ => ?_
    refine completes_bind (completes_orOverflow _) fun b₃ => ?_
    refine completes_bind (completes_orOverflow _) fun b₄ => ?_
    refine completes_bind (completes_mkdirP rfl) fun _ => ?_
    exact completes_bind (completes_orOverflow _) fun _ => completes_ok _
  obtain ⟨q, hq⟩ := hcompletes (h env)
  obtain ⟨d, peerDir, historyPath, rfl, -, hpath⟩ := historyPrepare_ok hq
  have hlen := historyPath.length_lt
  rw [hpath huid] at hlen
  rw [peerDirectory, List.append_assoc _ (str "/")]
  exact hlen

/-- Without a uid no directory is made. -/
theorem prepares_of_nil (huid : p.peerUid.toStr = []) : ∃ q, ∀ env, p.prepares env = .ok q := by
  refine ⟨{ p with peerDir := .empty (by decide), historyPath := .empty (by decide) }, ?_⟩
  intro env
  unfold prepares historyPrepare
  dsimp only
  rw [if_pos huid]
  rfl

theorem passes_prepares (huid : p.peerUid.toStr ≠ [])
    (h : (p.peerDirectory ++ str "history.txt").length < 256) {path : Bytes} :
    Passes p.prepares path ↔ (path = p.directory.shown ∧ ¬ p.directory.Made) ∨
      path = p.directory.shown ++ str "peers/" ∨ path = p.peerDirectory := by
  obtain ⟨q, -, -, hprep⟩ := prepares_of_fits huid h
  constructor
  · intro ⟨opens, hexit⟩
    rw [hprep] at hexit
    split at hexit
    · cases hexit
    · rename_i hnot
      simp only [ne_eq, decide_eq_true_eq] at hnot
      by_cases hown : path = p.directory.shown
      · by_cases hmade : p.directory.Made
        · refine .inr ?_
          by_contra hne
          obtain ⟨hpeers, hpeer⟩ := not_or.mp hne
          exact hnot ⟨.inl hmade, fun h => hpeers h.symm, fun h => hpeer h.symm⟩
        · exact .inl ⟨hown, hmade⟩
      · refine .inr ?_
        by_contra hne
        obtain ⟨hpeers, hpeer⟩ := not_or.mp hne
        exact hnot ⟨.inr fun h => hown h.symm, fun h => hpeers h.symm, fun h => hpeer h.symm⟩
  · intro hpath
    refine ⟨fun _ => true, ?_⟩
    rw [hprep, if_neg]
    simp only [ne_eq, decide_eq_true_eq]
    rintro ⟨hown, hpeers, hpeer⟩
    rcases hpath with ⟨hpath, hnot⟩ | hpath | hpath
    · exact hown.elim hnot fun h => h hpath.symm
    · exact hpeers hpath.symm
    · exact hpeer hpath.symm

section
variable {cwd : List Bytes} {home : Option Bytes} {source : NameSource}

/-- What follows `get_user_directory` in the path of a peer is one component and the uid. -/
theorem resolve_peerDirectory {top : Bytes} (htop : IsEntryName top)
    (hshown : p.directory.shown ++ str "peers/" = source.userDirectory home ++ top ++ str "/") :
    resolve cwd p.peerDirectory =
      walk (resolve cwd (source.userDirectory home) ++ [top]) (components p.peerUid.toStr) := by
  have hslash : str "/" = [SLASH] := rfl
  rw [peerDirectory, hshown, List.append_assoc, resolve_in_userDirectory htop, hslash, walk_slash]

theorem shown_peers (hd : DirectoryIs (source.userDirectory home) p.stickers p.toDisk) :
    ∃ top, IsEntryName top ∧
      p.directory.shown ++ str "peers/" = source.userDirectory home ++ top ++ str "/" ∧
      (top = str "peers" ↔ p.stickers.historyLoaded = false) := by
  unfold DirectoryIs at hd
  split at hd
  · rename_i hloaded
    refine ⟨str "saved_stickers.txtpeers", ⟨by decide, by decide, by decide, by decide⟩, ?_, ?_⟩
    · rw [hd, List.append_assoc, List.append_assoc]
      rfl
    · rw [hloaded]
      exact iff_of_false (by decide) nofun
  · rename_i hunloaded
    refine ⟨str "peers", isName_peers, ?_, iff_of_true rfl (by simpa using hunloaded)⟩
    rw [hd, List.append_assoc]
    rfl

theorem contained_of_peerOk (hname : NameOk cwd home source)
    (hshown : p.directory.shown = source.userDirectory home) (huid : p.peerUid.toStr ≠ [])
    (h : PeerOk home source p p.peerUid.toStr) : PeerContained cwd home source p := by
  have hfits : (p.peerDirectory ++ str "history.txt").length < 256 := by
    rw [peerDirectory, hshown, List.append_assoc _ (str "/")]
    exact h.fits
  obtain ⟨q, hdir, hpath, hprep⟩ := prepares_of_fits huid hfits
  have hpass {path : Bytes} : Passes p.prepares path ↔
      (path = p.directory.shown ∧ ¬ p.directory.Made) ∨
        path = p.directory.shown ++ str "peers/" ∨ path = p.peerDirectory :=
    passes_prepares huid hfits
  have hpeers : IsWord (source.userDirectory home ++ str "peers/") :=
    (isWord_append hname.word.ne_nil).mpr ⟨hname.word, by decide +kernel⟩
  have hpeer : IsWord p.peerDirectory := by
    rw [peerDirectory, hshown]
    refine (isWord_append (List.append_ne_nil_of_right_ne_nil _ huid)).mpr ⟨?_, by decide +kernel⟩
    exact (isWord_append hpeers.ne_nil).mpr ⟨hpeers, h.plain⟩
  obtain ⟨rest, hrest, hbelow⟩ := hname.below
  rw [← resolve_userDirectory hname.fits] at hbelow
  obtain ⟨name, hchild⟩ := h.child
  have hresolve : resolve cwd p.peerDirectory =
      resolve cwd (source.userDirectory home ++ str "peers/") ++ [name] := by
    have htop : p.directory.shown ++ str "peers/" =
        source.userDirectory home ++ str "peers" ++ str "/" := by
      rw [hshown, List.append_assoc]
      rfl
    rw [resolve_peerDirectory isName_peers htop, resolve_peers, ← walk_of_descend hchild,
      List.append_nil]
  refine ⟨⟨fun env => ?_, fun path hp => ?_, fun path hp => ?_⟩, fun path hp => ?_,
    fun {env q'} hq _ => ?_⟩
  · rw [hprep]
    split
    · exact noOverflow_ok _
    · nofun
  · rw [shellWords_mkdir]
    rcases hpass.mp hp with ⟨rfl, -⟩ | rfl | rfl
    · exact hshown ▸ hname.word
    · exact hshown ▸ hpeers
    · exact hpeer
  · rcases hpass.mp hp with ⟨rfl, -⟩ | rfl | rfl
    · exact ⟨rest, hrest, by rw [hshown, hbelow]⟩
    · refine ⟨rest ++ [str "peers"], by simp, ?_⟩
      rw [hshown, resolve_peers, hbelow, List.append_assoc]
    · refine ⟨rest ++ [str "peers"] ++ [name], by simp, ?_⟩
      rw [hresolve, resolve_peers, hbelow, List.append_assoc, List.append_assoc, List.append_assoc]
  · rcases hpass.mp hp with ⟨rfl, -⟩ | rfl | rfl
    · exact .inl hshown
    · exact .inr (.inl (hshown ▸ rfl))
    · exact .inr (.inr ⟨name, hresolve⟩)
  · rw [hprep] at hq
    split at hq
    · cases hq
      exact ⟨hdir ▸ hpass.mpr (.inr (.inr rfl)), hdir.symm ▸ hpath⟩
    · cases hq

theorem peerOk_of_contained (hd : DirectoryIs (source.userDirectory home) p.stickers p.toDisk)
    (huid : p.peerUid.toStr ≠ []) (hlen : p.peerUid.toStr.length ≤ 8)
    (h : PeerContained cwd home source p) : PeerOk home source p p.peerUid.toStr := by
  have hfits := fits_of_prepares huid h.fits
  have hpass := (passes_prepares huid hfits).mpr (.inr (.inr rfl))
  obtain ⟨top, htop, hshown, hpeers⟩ := shown_peers hd
  have hlonger : (source.userDirectory home ++ str "peers/").length < p.peerDirectory.length := by
    have hpos := List.length_pos_iff.mpr huid
    have hlower : (source.userDirectory home).length ≤ p.directory.shown.length := by
      unfold DirectoryIs at hd
      rw [hd]
      split
      · rw [List.length_append]
        omega
      · exact Nat.le_refl _
    simp only [peerDirectory, List.length_append]
    omega
  have hchild : ∃ name, resolve cwd p.peerDirectory =
      resolve cwd (source.userDirectory home ++ str "peers/") ++ [name] := by
    rcases h.child _ hpass with heq | heq | hchild
    · rw [heq, List.length_append] at hlonger
      omega
    · rw [heq] at hlonger
      omega
    · exact hchild
  obtain ⟨name, hchild⟩ := hchild
  rw [resolve_peerDirectory htop hshown, resolve_peers, List.append_assoc] at hchild
  obtain ⟨rfl, hdescend⟩ := eq_of_walk_child (Nat.lt_succ_of_le hlen) hchild
  have hunloaded := hpeers.mp rfl
  have hword : IsWord p.peerDirectory := shellWords_mkdir.mp (h.words _ hpass)
  unfold DirectoryIs at hd
  rw [hunloaded] at hd
  refine ⟨hunloaded, ?_, fun c hc => hword.plain c ?_, name, hdescend⟩
  · rw [peerDirectory, hd, List.append_assoc _ (str "/")] at hfits
    exact hfits
  · exact List.mem_append_left _ (List.mem_append_right _ hc)

theorem peerContained_iff (hname : NameOk cwd home source)
    (hd : DirectoryIs (source.userDirectory home) p.stickers p.toDisk)
    (hlen : p.peerUid.toStr.length ≤ 8) : PeerContained cwd home source p ↔
      p.peerUid.toStr = [] ∨ PeerOk home source p p.peerUid.toStr := by
  constructor
  · intro h
    by_cases huid : p.peerUid.toStr = []
    · exact .inl huid
    · exact .inr (peerOk_of_contained hd huid hlen h)
  · rintro (huid | h)
    · obtain ⟨q, hq⟩ := prepares_of_nil huid
      have hnot (path : Bytes) : ¬ Passes p.prepares path := by
        intro ⟨opens, hexit⟩
        rw [hq] at hexit
        cases hexit
      refine ⟨⟨fun env => ?_, fun path hp => absurd hp (hnot path),
        fun path hp => absurd hp (hnot path)⟩, fun path hp => absurd hp (hnot path),
        fun _ hne => absurd huid hne⟩
      rw [hq]
      exact noOverflow_ok q
    · by_cases huid : p.peerUid.toStr = []
      · obtain ⟨name, hchild⟩ := h.child
        rw [huid] at hchild
        have hnone : descend [] (components []) = some [] := by decide
        cases hnone.symm.trans hchild
      · unfold DirectoryIs at hd
        rw [h.unloaded] at hd
        exact contained_of_peerOk hname hd huid h

/-- The uid that a frame brings is looked at as far as eight bytes. -/
theorem peerUid_takeUid (p : Chatter) (f : Frame) (buf : Bytes) :
    (p.takeUid (f.received buf).received).peerUid.toStr = cstr (f.payload.take 8) := by
  have hlen : (f.received buf).received.len = f.payload.length := rfl
  have htake : (f.received buf).received.buf.take (min f.payload.length 8) =
      f.payload.take 8 := by
    rw [← hlen, Nat.min_comm, ← List.take_take, take_len_received]
  rw [takeUid]
  dsimp only
  rw [hlen, htake]
  exact CharArray.toStr_ofBytes_zero (Nat.lt_succ_of_le (List.length_take_le _ _)) _

theorem directoryIs_of_main {files : Files} {p₀ : Chatter} {ops : List ClientOp}
    (h₀ : main home source.username files = .ok p₀) (h : exec perform p₀ ops = .ok p) :
    DirectoryIs (source.userDirectory home) p.stickers p.toDisk := by
  obtain ⟨hdirectory, hstickers⟩ := main_ok h₀
  refine directoryIs_of_run ?_ h
  rw [DirectoryIs, hstickers]
  exact Directory.shown_of_flagHandler hdirectory

end

/-- The commands are what they should be, for the username alone and for the uid that is received
after any run, exactly for names that the shell and the path do not take for anything else. -/
theorem commands_iff (cwd : List Bytes) (home : Option Bytes) (source : NameSource) :
    (OwnContained cwd home source ↔ NameOk cwd home source) ∧
    ∀ {files p₀ ops p}, main home source.username files = .ok p₀ →
      exec perform p₀ ops = .ok p → ∀ (f : Frame) (buf : Bytes),
        (OwnContained cwd home source ∧
            PeerContained cwd home source (p.takeUid (f.received buf).received) ↔
          NameOk cwd home source ∧ (cstr (f.payload.take 8) = [] ∨
            PeerOk home source p (cstr (f.payload.take 8)))) := by
  refine ⟨ownContained_iff, fun {files p₀ ops p} h₀ h f buf => ?_⟩
  rw [ownContained_iff]
  apply and_congr_right
  intro hname
  have huid := p.peerUid_takeUid f buf
  have hlen : (p.takeUid (f.received buf).received).peerUid.toStr.length ≤ 8 := by
    rw [huid]
    exact Nat.le_trans (List.takeWhile_prefix _).length_le (List.length_take_le _ _)
  have hd : DirectoryIs (source.userDirectory home) p.stickers p.toDisk := directoryIs_of_main h₀ h
  have hiff := peerContained_iff (p := p.takeUid (f.received buf).received) hname hd hlen
  rw [huid] at hiff
  refine hiff.trans (or_congr_right ?_)
  exact ⟨fun h => ⟨h.unloaded, h.fits, h.plain, h.child⟩,
    fun h => ⟨h.unloaded, h.fits, h.plain, h.child⟩⟩

/-- A peer with a uid as `load_uid` makes them. -/
theorem commands_iff_cat : ∃ p₀ p, main (str "/home/ann") none (fun _ => none) = .ok p₀ ∧
    exec perform p₀ [.chat .allOk 7] = .ok p ∧ OwnContained [] (str "/home/ann") .default ∧
    PeerContained [] (str "/home/ann") .default
      (p.takeUid (Frame.received ⟨LMP_UID, 0, str "B0000001"⟩ []).received) := by
  obtain ⟨p₀, h₀, hok, hrun⟩ := exists_ok (x := main (str "/home/ann") none fun _ => none)
    (P := fun p₀ => (exec perform p₀ [.chat .allOk 7]).isOk ∧
      ∀ p ∈ (exec perform p₀ [.chat .allOk 7]).toOption, p.stickers.historyLoaded = false)
    rfl (by decide +kernel)
  obtain ⟨p, h, hloaded⟩ := exists_ok hok hrun
  have hname : NameOk [] (str "/home/ann") .default :=
    ⟨by decide, by decide +kernel, ⟨by decide +kernel, by decide +kernel, by decide +kernel⟩,
      [str "default"], by decide, by decide +kernel⟩
  have hpeer : PeerOk (str "/home/ann") .default p (cstr ((str "B0000001").take 8)) :=
    ⟨hloaded, by decide +kernel, by decide +kernel, str "B0000001", by decide +kernel⟩
  exact ⟨p₀, p, h₀, h, ((commands_iff [] (str "/home/ann") .default).2 h₀ h
    ⟨LMP_UID, 0, str "B0000001"⟩ []).mpr ⟨hname, .inr hpeer⟩⟩

/-- A peer whose uid is a command. -/
theorem command_of_uid : ∃ p₀ p, main (str "/home/ann") none (fun _ => none) = .ok p₀ ∧
    exec perform p₀ [.chat .allOk 7] = .ok p ∧
    ¬ PeerContained [] (str "/home/ann") .default
      (p.takeUid (Frame.received ⟨LMP_UID, 0, str ";reboot"⟩ []).received) := by
  obtain ⟨p₀, h₀, hok, -⟩ := exists_ok (x := main (str "/home/ann") none fun _ => none)
    (P := fun p₀ => (exec perform p₀ [.chat .allOk 7]).isOk ∧ True) rfl (by decide +kernel)
  obtain ⟨p, h, -⟩ := exists_ok (P := fun _ => True) hok fun _ _ => trivial
  refine ⟨p₀, p, h₀, h, fun hcontained => ?_⟩
  have huid := p.peerUid_takeUid ⟨LMP_UID, 0, str ";reboot"⟩ []
  have hstr : cstr ((str ";reboot").take 8) = str ";reboot" := by decide
  have hd : DirectoryIs (NameSource.userDirectory (str "/home/ann") .default) p.stickers p.toDisk :=
    directoryIs_of_main h₀ h
  have hok := peerOk_of_contained (p := p.takeUid _) hd (by rw [huid, hstr]; decide)
    (by rw [huid, hstr]; decide) hcontained
  have hplain := hok.plain 0x3B (by rw [huid, hstr]; decide)
  exact absurd hplain (by decide)

end Chatter

end SocketSpeak
