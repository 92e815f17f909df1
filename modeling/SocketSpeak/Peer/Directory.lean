import SocketSpeak.CLib.Files
import SocketSpeak.CLib.StrBuf
import SocketSpeak.CLib.Sys
import SocketSpeak.Group.Table

/-!
# The user directory

`directory_manager.c`, whose functions share the static `user_directory`, and `uid.c`, which keeps
the uid of the user in a file of that directory. `get_user_directory` hands out the address of the
static itself, so its callers read and write `userDirectory`.
-/

namespace SocketSpeak
open CLib

def ROOT_DIRECTORY : Bytes := str "~/lmp/"

/-- How a function ends that does not return. -/
inductive Halt where
  | fault (f : Fault)
  /-- `exit(EXIT_FAILURE)` -/
  | exit
  /-- a loop that does not end -/
  | endless
  deriving DecidableEq

/-- A string function that writes past the end of its buffer. -/
def orOverflow {α : Type} : Option α → Except Halt α
  | some a => .ok a
  | none => .error (.fault .bufferOverflow)

theorem ok_of_orOverflow {α : Type} {x : Option α} {a : α} (h : orOverflow x = .ok a) :
    x = some a := by
  cases x with
  | none => cases h
  | some b => cases h; rfl

theorem orOverflow_bind {α β : Type} (x : Option α) (f : α → Option β) :
    (orOverflow x >>= fun a => orOverflow (f a)) = orOverflow (x.bind f) := by
  cases x <;> rfl

/-- No string function writes past the end of its buffer. -/
def NoOverflow {α : Type} (x : Except Halt α) : Prop := x ≠ .error (.fault .bufferOverflow)

theorem noOverflow_ok {α : Type} (a : α) : NoOverflow (.ok a) := nofun

theorem noOverflow_bind {α β : Type} {x : Option α} {f : α → Except Halt β} :
    NoOverflow (orOverflow x >>= f) ↔ ∃ a, x = some a ∧ NoOverflow (f a) := by
  cases x with
  | none => exact iff_of_false (fun h => h rfl) (by simp)
  | some a => simp [orOverflow]

theorem noOverflow_seq {α β : Type} {x : Except Halt α} {f : α → Except Halt β} :
    NoOverflow (x >>= f) ↔ NoOverflow x ∧ ∀ a, x = .ok a → NoOverflow (f a) := by
  cases x with
  | error e =>
    constructor
    · exact fun h => ⟨fun he => h (by cases he; rfl), nofun⟩
    · intro h he
      exact h.1 (by cases he; rfl)
  | ok a =>
    constructor
    · exact fun h => ⟨nofun, fun _ ha => by cases ha; exact h⟩
    · exact fun h => h.2 a rfl

/-- A length that is too large for its buffer. -/
theorem noOverflow_ite {α : Type} {n m : Nat} {x : Except Halt α} :
    NoOverflow (if n ≤ m then .error (.fault .bufferOverflow) else x) ↔ m < n ∧ NoOverflow x := by
  split
  · rename_i hlong
    exact iff_of_false (fun h => h rfl) fun h => Nat.not_lt.mpr hlong h.1
  · rename_i hfits
    exact (and_iff_right (Nat.not_le.mp hfits)).symm

/-- What the operating system answers: whether `mkdir -p` succeeds for a path, and whether a file
can be opened there. -/
structure FileEnv where
  mkdirOk : Bytes → Bool
  opens : Bytes → Bool

/-- `make_directory` and `lmp_make_dir`, which put the command together in `char command[512]`. -/
def mkdirP (env : FileEnv) (pathname : Bytes) : Except Halt Unit :=
  if 512 ≤ (str "mkdir -p ").length + pathname.length then .error (.fault .bufferOverflow)
  else if env.mkdirOk pathname then .ok () else .error .exit

/-- The statics of `directory_manager.c`, and the environment variable `HOME`. -/
structure Directory where
  home : Option Bytes
  pusername : StrBuf 256
  userDirectory : StrBuf 512
  madeDirectory : Bool
  deriving DecidableEq

theorem pathSize_pos : 0 < 512 := by decide

/-- `get_root_directory(buffer, 512)` -/
def getRootDirectory (home : Option Bytes) : StrBuf 512 :=
  let buffer : StrBuf 512 := .empty pathSize_pos
  let home := (home.map cstr).getD []
  if ROOT_DIRECTORY.take 2 = str "~/" ∧ home ≠ [] then
    ((buffer.strncat home).strncat (str "/")).strncat (ROOT_DIRECTORY.drop 2)
  else buffer.strncat ROOT_DIRECTORY

namespace Directory

/-- The statics when the program starts. -/
def init (home : Option Bytes) : Directory where
  home := home
  pusername := ⟨str "default/", by decide, by decide⟩
  userDirectory := .empty pathSize_pos
  madeDirectory := false

/-- `set_user_directory()` -/
def setUserDirectory (d : Directory) : Except Halt Directory := do
  let userDirectory ← orOverflow ((getRootDirectory d.home).strcat d.pusername.toStr)
  return { d with userDirectory, madeDirectory := false }

/-- `init_user_directory()` -/
def initUserDirectory (d : Directory) (env : FileEnv) : Except Halt Directory :=
  if d.madeDirectory then .ok d
  else do
    mkdirP env d.userDirectory.toStr
    return { d with madeDirectory := true }

/-- `get_user_directory()`; what it returns is `userDirectory`. -/
def getUserDirectory (d : Directory) (env : FileEnv) : Except Halt Directory := do
  let d ← if d.userDirectory.toStr = [] then d.setUserDirectory else .ok d
  d.initUserDirectory env

/-- `set_program_username(username)` -/
def setProgramUsername (d : Directory) (username : Bytes) : Except Halt Directory := do
  let pusername ← orOverflow (StrBuf.ofStr? 256 username)
  let pusername ← orOverflow (pusername.strcat (str "/"))
  { d with pusername }.setUserDirectory

/-- The statics after `flag_handler`; without `-u` the user is `default`. -/
def flagHandler (home username : Option Bytes) : Except Halt Directory :=
  match username with
  | none => .ok (init home)
  | some username => (init home).setProgramUsername username

end Directory

/-- What the directory manager works on. -/
structure Disk where
  directory : Directory
  files : Files

namespace Disk

/-- `open_file_in_user_directory(filename, mode)`: the path of the file that is open, unless
`fopen` fails. -/
def openFile (k : Disk) (env : FileEnv) (filename : Bytes) (mode : OpenMode) :
    Except Halt (Option Bytes × Disk) := do
  let directory ← k.directory.getUserDirectory env
  -- `filepath` is as large as the static
  let filepath ← orOverflow (directory.userDirectory.strcat filename)
  match k.files.fopen (env.opens filepath.toStr) filepath.toStr mode with
  | none => return (none, { k with directory })
  | some files => return (some filepath.toStr, ⟨directory, files⟩)

/-- A file is written anew; there is no file if it cannot be opened. -/
def save (k : Disk) (env : FileEnv) (filename text : Bytes) : Except Halt (Int × Disk) := do
  match ← k.openFile env filename .write with
  | (none, k) => return (-1, k)
  | (some path, k) => return (0, { k with files := k.files.fprint path text })

end Disk

/-! ## `uid.c` -/

/-- `uid_string_valid(s)` -/
def uidStringValid (s : CharArray (UID_LENGTH + 1)) : Bool :=
  (s.data.take UID_LENGTH).all isxdigit && s.get UID_LENGTH = 0

/-- `generate_uid()`, where `rand` is what `rand()` returns. -/
def generateUid (rand : Nat) : Nat := rand % (2147483647 - 268435456) + 268435456

/-- `uid_int_to_hex(uid)` -/
def uidIntToHex (uid : Nat) : CharArray (UID_LENGTH + 1) := .ofBytes _ (hex08 uid)

/-- `get_uid()`; the file is read first, and written where it has no uid. -/
def getUid (k : Disk) (env : FileEnv) (rand : Nat) :
    Except Halt (CharArray (UID_LENGTH + 1) × Disk) := do
  let (file, k) ← k.openFile env (str "uid.txt") .read
  let hexUid := .ofBytes _ ((file.bind fun path => scanWord 8 (k.files.content path)).getD [])
  if uidStringValid hexUid then return (hexUid, k)
  else
    let hexUid := uidIntToHex (generateUid rand)
    let (r, k) ← k.save env (str "uid.txt") hexUid.toStr
    if r < 0 then .error .exit else return (hexUid, k)

/-- Eight hexadecimal digits. -/
def IsUid (uid : CharArray (UID_LENGTH + 1)) : Prop :=
  uid.toStr.length = UID_LENGTH ∧ ∀ c ∈ uid.toStr, isxdigit c = true

theorem isUid_of_valid {uid : CharArray (UID_LENGTH + 1)} (h : uidStringValid uid = true) :
    IsUid uid := by
  rw [uidStringValid, Bool.and_eq_true, List.all_eq_true] at h
  obtain ⟨hall, hend⟩ := h
  have hlen : (uid.data.take UID_LENGTH).length = UID_LENGTH := by
    rw [List.length_take, uid.size_eq]
    rfl
  have hfree : NulFree (uid.data.take UID_LENGTH) := fun h0 => absurd (hall 0 h0) (by decide)
  have hstr : uid.toStr = uid.data.take UID_LENGTH := by
    refine CharArray.toStr_eq_iff.mpr ⟨hfree, fun i hi => ?_⟩
    rw [hlen] at hi
    rcases Nat.lt_or_eq_of_le hi with hi | rfl
    · simp [CharArray.get, List.getD_eq_getElem?_getD, hi]
    · rw [of_decide_eq_true hend, List.getD_eq_getElem?_getD,
        List.getElem?_eq_none (Nat.le_of_eq hlen)]
      rfl
  exact ⟨by rw [hstr, hlen], fun c hc => hall c (hstr ▸ hc)⟩

theorem isUid_uidIntToHex (uid : Nat) : IsUid (uidIntToHex uid) := by
  have hfree : NulFree (hex08 uid) := fun h0 => absurd (isxdigit_hex08 h0) (by decide)
  have hstr : (uidIntToHex uid).toStr = hex08 uid :=
    CharArray.toStr_ofBytes hfree (by rw [length_hex08]; decide)
  rw [IsUid, hstr, length_hex08]
  exact ⟨rfl, fun c hc => isxdigit_hex08 hc⟩

/-- Whatever is in the file, the program has a uid afterwards. -/
theorem isUid_of_getUid {k k' : Disk} {env : FileEnv} {rand : Nat}
    {uid : CharArray (UID_LENGTH + 1)} (h : getUid k env rand = .ok (uid, k')) : IsUid uid := by
  obtain ⟨⟨file, k₁⟩, -, h⟩ := bind_ok h
  dsimp only at h
  split at h
  · rename_i hvalid
    cases h
    exact isUid_of_valid hvalid
  · obtain ⟨⟨r, k₂⟩, -, h⟩ := bind_ok h
    dsimp only at h
    split at h
    · cases h
    · cases h
      exact isUid_uidIntToHex _

end SocketSpeak
