import SocketSpeak.Peer.Names

/-!
# The uid stays the same

What `get_uid` leaves in `uid.txt` is what the next `get_uid` accepts, so the uid of the first call
is the uid of all later ones, in this process and in others with the same user directory.
-/

namespace SocketSpeak
open CLib

/-- `generate_uid()` with each result in an `int`, as far as it fits. -/
def generateUid? (rand : CInt) : Option CInt := do
  let range ← CInt.ofInt? (INT_MAX - 268435456)
  let r ← CInt.ofInt? (rand.val.tmod range.val)
  CInt.ofInt? (r.val + 268435456)

/-- The uid is between `0x10000000` and `INT_MAX`. -/
theorem generateUid?_ok {rand : CInt} (h : 0 ≤ rand.val) : ∃ uid, generateUid? rand = some uid ∧
    uid.val = generateUid rand.val.toNat ∧ 268435456 ≤ uid.val ∧ uid.val < INT_MAX := by
  obtain ⟨n, hn⟩ := Int.eq_ofNat_of_zero_le h
  have hlt : n % 1879048191 < 1879048191 := Nat.mod_lt _ (by decide)
  have hmax : INT_MAX = 2147483647 := rfl
  have hmin : INT_MIN = -2147483648 := rfl
  have hgen : generateUid n = n % 1879048191 + 268435456 := rfl
  obtain ⟨range, hrange, hrangeval⟩ :=
    CInt.exists_ofInt? (n := INT_MAX - 268435456) (by decide) (by decide)
  obtain ⟨r, hr, hrval⟩ := CInt.exists_ofInt? (n := rand.val.tmod range.val)
    (by rw [hrangeval, hn]; change _ ≤ ((n % 1879048191 : Nat) : Int); omega)
    (by rw [hrangeval, hn]; change ((n % 1879048191 : Nat) : Int) ≤ _; omega)
  have hmod : r.val = (n % 1879048191 : Nat) := by
    rw [hrval, hrangeval, hn]
    rfl
  obtain ⟨uid, huid, huidval⟩ :=
    CInt.exists_ofInt? (n := r.val + 268435456) (by omega) (by omega)
  refine ⟨uid, ?_, ?_, by omega, by omega⟩
  · rw [generateUid?, hrange, Option.bind_eq_bind, Option.bind_some, hr, Option.bind_some, huid]
  · rw [huidval, hmod, hn, Int.toNat_natCast, hgen, Int.natCast_add]
    rfl

/-! ## The string in the file -/

theorem valid_uidIntToHex (uid : Nat) : uidStringValid (uidIntToHex uid) = true := by
  have hdata : (uidIntToHex uid).data = hex08 uid ++ [0] :=
    CharArray.ofBytes_of_le (by rw [length_hex08]; decide)
  have htake : (hex08 uid ++ [0]).take UID_LENGTH = hex08 uid :=
    List.take_left' (length_hex08 uid)
  have hend : (uidIntToHex uid).get UID_LENGTH = 0 := by
    rw [CharArray.get, hdata]
    rfl
  rw [uidStringValid, hdata, htake, Bool.and_eq_true, List.all_eq_true]
  exact ⟨fun c hc => isxdigit_hex08 hc, decide_eq_true hend⟩

namespace Disk
variable {k q q' : Disk} {env : FileEnv} {uid : CharArray (UID_LENGTH + 1)}

/-- The path of the file with the uid. -/
def uidPath (k : Disk) : Bytes := k.directory.shown ++ str "uid.txt"

/-- What is in `hex_uid` once the file has been read. -/
def storedUid (k : Disk) : CharArray (UID_LENGTH + 1) :=
  .ofBytes _ ((scanWord 8 (k.files.content k.uidPath)).getD [])

/-- The file can be written, in a user directory that is there. -/
def UidWritable (k : Disk) (env : FileEnv) : Prop :=
  ∃ path q, k.openFile env (str "uid.txt") .write = .ok (some path, q)

/-- The file has this uid in it. -/
structure HasUid (k : Disk) (uid : CharArray (UID_LENGTH + 1)) : Prop where
  stored : k.storedUid = uid
  valid : uidStringValid uid = true

theorem openFile_eq {d : Directory} {filename : Bytes} {filepath : StrBuf 512}
    (hd : k.directory.getUserDirectory env = .ok d)
    (hpath : d.userDirectory.strcat filename = some filepath) (mode : OpenMode) :
    k.openFile env filename mode =
      match k.files.fopen (env.opens filepath.toStr) filepath.toStr mode with
      | none => .ok (none, { k with directory := d })
      | some files => .ok (some filepath.toStr, ⟨d, files⟩) := by
  rw [openFile, hd, ok_bind, hpath]
  rfl

/-- The file is opened the same way when the user directory is not set yet and when it is. -/
theorem opens_of_writable (hw : k.UidWritable env) : ∃ d, d.shown = k.directory.shown ∧
    ∀ q : Disk, q.directory = k.directory ∨ q.directory = d → ∀ mode,
      q.openFile env (str "uid.txt") mode =
        match q.files.fopen true k.uidPath mode with
        | none => .ok (none, { q with directory := d })
        | some files => .ok (some k.uidPath, ⟨d, files⟩) := by
  obtain ⟨path, q, h⟩ := hw
  obtain ⟨d, hd, h⟩ := bind_ok h
  obtain ⟨filepath, hpath, h⟩ := bind_ok h
  have hpath := ok_of_orOverflow hpath
  have hstr : filepath.toStr = k.uidPath := by
    rw [StrBuf.toStr_of_strcat hpath, Directory.userDirectory_of_get hd]
    rfl
  have hopens : env.opens k.uidPath = true := by
    by_contra hno
    rw [hstr, Files.fopen, if_neg hno] at h
    cases h
  refine ⟨d, Directory.shown_of_get hd, fun q hq mode => ?_⟩
  have hget : q.directory.getUserDirectory env = .ok d := by
    rcases hq with hq | hq
    · rw [hq, hd]
    · rw [hq, Directory.getUserDirectory_of_made (Directory.made_of_get hd)]
  rw [openFile_eq hget hpath, hstr, hopens]

/-- What `get_uid` does where it can write the file. -/
theorem getUid_eq (hw : k.UidWritable env) (rand : Nat) : ∃ d, d.shown = k.directory.shown ∧
    getUid k env rand = .ok (if uidStringValid k.storedUid = true
      then (k.storedUid, { k with directory := d })
      else (uidIntToHex (generateUid rand),
        ⟨d, k.files.set k.uidPath (uidIntToHex (generateUid rand)).toStr⟩)) := by
  obtain ⟨d, hshown, hopen⟩ := opens_of_writable hw
  have hread := hopen k (.inl rfl) .read
  have hfile : ∃ file : Option Bytes,
      k.openFile env (str "uid.txt") .read = .ok (file, { k with directory := d }) ∧
        .ofBytes _ ((file.bind fun path => scanWord 8 (k.files.content path)).getD []) =
          k.storedUid := by
    by_cases hsome : (k.files k.uidPath).isSome = true
    · refine ⟨some k.uidPath, ?_, rfl⟩
      rw [hread, Files.fopen, if_pos ⟨rfl, hsome⟩]
    · refine ⟨none, ?_, ?_⟩
      · rw [hread, Files.fopen, if_neg fun h => hsome h.2]
      · rw [storedUid, Files.content, Option.not_isSome_iff_eq_none.mp hsome]
        rfl
  have hsave (text : Bytes) : save { k with directory := d } env (str "uid.txt") text =
      .ok (0, ⟨d, k.files.set k.uidPath text⟩) := by
    rw [save, hopen { k with directory := d } (.inr rfl) .write, Files.fopen, if_pos rfl]
    exact congrArg (fun files => Except.ok (0, Disk.mk d files)) (Files.fprint_set ..)
  obtain ⟨file, hfile, hstored⟩ := hfile
  refine ⟨d, hshown, ?_⟩
  rw [getUid, hfile, ok_bind]
  dsimp only
  rw [hstored]
  split
  · rfl
  · rw [hsave]
    rfl

theorem uidPath_of_shown (h : q.directory.shown = k.directory.shown) : q.uidPath = k.uidPath :=
  congrArg (· ++ _) h

theorem HasUid.congr (h : k.HasUid uid) (hshown : q.directory.shown = k.directory.shown)
    (hfiles : q.files = k.files) : q.HasUid uid := by
  refine ⟨?_, h.valid⟩
  rw [← h.stored, storedUid, uidPath_of_shown hshown, hfiles, storedUid]

/-- The uid that was written. -/
theorem hasUid_of_set {d : Directory} (hshown : d.shown = k.directory.shown) (n : Nat) :
    HasUid ⟨d, k.files.set k.uidPath (uidIntToHex n).toStr⟩ (uidIntToHex n) := by
  have hfree : NulFree (hex08 n) := fun h0 => absurd (isxdigit_hex08 h0) (by decide)
  have hstr : (uidIntToHex n).toStr = hex08 n :=
    CharArray.toStr_ofBytes hfree (by rw [length_hex08]; decide)
  have hpath : uidPath ⟨d, k.files.set k.uidPath (uidIntToHex n).toStr⟩ = k.uidPath :=
    uidPath_of_shown hshown
  refine ⟨?_, valid_uidIntToHex n⟩
  rw [storedUid, hpath, Files.content_set, hstr, scanWord_hex08]
  rfl

/-- Whatever is in the file, the uid that is returned is in it afterwards. -/
theorem exists_getUid (hw : k.UidWritable env) (rand : Nat) :
    ∃ uid q, getUid k env rand = .ok (uid, q) ∧ q.HasUid uid := by
  obtain ⟨d, hshown, hget⟩ := getUid_eq hw rand
  by_cases hvalid : uidStringValid k.storedUid = true
  · rw [if_pos hvalid] at hget
    exact ⟨_, _, hget, HasUid.congr ⟨rfl, hvalid⟩ hshown rfl⟩
  · rw [if_neg hvalid] at hget
    exact ⟨_, _, hget, hasUid_of_set hshown _⟩

/-- A file with a uid is read, and left as it is. -/
theorem HasUid.getUid (h : k.HasUid uid) (hw : k.UidWritable env) (rand : Nat) :
    ∃ d, d.shown = k.directory.shown ∧
      SocketSpeak.getUid k env rand = .ok (uid, { k with directory := d }) := by
  obtain ⟨d, hshown, hget⟩ := getUid_eq hw rand
  rw [h.stored, if_pos h.valid] at hget
  exact ⟨d, hshown, hget⟩

/-- What later calls of `get_uid` make of the disk, in this process or in another one with the same
user directory. -/
inductive Later (k : Disk) : Disk → Prop
  | refl : Later k k
  | call {q env rand uid q'} : Later k q → q.UidWritable env →
    SocketSpeak.getUid q env rand = .ok (uid, q') → Later k q'
  | restart {q d} : Later k q → d.shown = q.directory.shown → Later k { q with directory := d }

theorem HasUid.later (h : k.HasUid uid) (hq : Later k q) : q.HasUid uid ∧ q.files = k.files := by
  induction hq with
  | refl => exact ⟨h, rfl⟩
  | @call q env rand uid' q' _ hw hget ih =>
    obtain ⟨d, hshown, hget'⟩ := ih.1.getUid hw rand
    cases hget.symm.trans hget'
    exact ⟨ih.1.congr hshown rfl, ih.2⟩
  | restart _ hshown ih => exact ⟨ih.1.congr hshown rfl, ih.2⟩

end Disk

/-- **The uid is well formed and stable**: whatever is in the file at first, `get_uid` returns eight
hexadecimal digits, and every later call returns the same string and leaves the files alone. -/
theorem uid_stable (k : Disk) (env : FileEnv) (rand : CInt) (hrand : 0 ≤ rand.val)
    (hw : k.UidWritable env) : ∃ uid k', getUid k env rand.val.toNat = .ok (uid, k') ∧ IsUid uid ∧
      (∃ n, generateUid? rand = some n ∧ n.val = generateUid rand.val.toNat) ∧
      ∀ q, Disk.Later k' q → q.files = k'.files ∧ ∀ env' rand', q.UidWritable env' →
        ∃ q', getUid q env' rand' = .ok (uid, q') ∧ q'.files = q.files := by
  obtain ⟨n, hn, hval, -⟩ := generateUid?_ok hrand
  obtain ⟨uid, k', hget, hhas⟩ := Disk.exists_getUid hw rand.val.toNat
  refine ⟨uid, k', hget, isUid_of_getUid hget, ⟨n, hn, hval⟩, fun q hq => ?_⟩
  obtain ⟨hq, hfiles⟩ := hhas.later hq
  refine ⟨hfiles, fun env' rand' hw' => ?_⟩
  obtain ⟨d, -, hget'⟩ := hq.getUid hw' rand'
  exact ⟨_, hget', rfl⟩

/-- A file with five digits and blanks around them. -/
theorem uid_stable_short :
    let k : Disk := ⟨.init (str "/home/ann"), fun _ => some (str " 12345\n")⟩
    ∃ uid k', getUid k ⟨fun _ => true, fun _ => true⟩ 7 = .ok (uid, k') ∧
      ∀ q, Disk.Later k' q → q.files = k'.files ∧ ∀ env' rand', q.UidWritable env' →
        ∃ q', getUid q env' rand' = .ok (uid, q') ∧ q'.files = q.files := by
  intro k
  let env : FileEnv := ⟨fun _ => true, fun _ => true⟩
  have hw : k.UidWritable env := by
    obtain ⟨⟨file, q⟩, hopen, hfile⟩ := exists_ok (x := k.openFile env (str "uid.txt") .write)
      (P := fun r => r.1 = some (str "/home/ann/lmp/default/uid.txt")) rfl (by decide +kernel)
    obtain rfl : file = _ := hfile
    exact ⟨_, q, hopen⟩
  obtain ⟨uid, k', hget, -, -, hlater⟩ := uid_stable k env ⟨7, by decide, by decide⟩ (by decide) hw
  exact ⟨uid, k', hget, hlater⟩

end SocketSpeak
