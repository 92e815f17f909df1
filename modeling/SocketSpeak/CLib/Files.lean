import SocketSpeak.CLib.Lines

/-!
# Files

The files of a process by the paths that it opens them with. Two paths are different files;
directories and permissions are what makes an `fopen` fail, and who calls it decides that.
-/

namespace CLib

abbrev Files := Bytes → Option Bytes

/-- The second argument of `fopen`. -/
inductive OpenMode where
  | read
  | write
  | append
  deriving DecidableEq

namespace Files
variable {fs fs' : Files} {path other text : Bytes} {opens : Bool}

def set (fs : Files) (path content : Bytes) : Files := Function.update fs path (some content)

/-- What there is to read at a path; a file that does not exist is empty. -/
def content (fs : Files) (path : Bytes) : Bytes := (fs path).getD []

/-- `fopen(path, mode)`: the files after it, unless it fails. -/
def fopen (fs : Files) (opens : Bool) (path : Bytes) : OpenMode → Option Files
  | .read => if opens ∧ (fs path).isSome then some fs else none
  | .write => if opens then some (fs.set path []) else none
  | .append => if opens then some (fs.set path (fs.content path)) else none

/-- `fprintf` to a file that is open for writing, at its end. -/
def fprint (fs : Files) (path text : Bytes) : Files := fs.set path (fs.content path ++ text)

@[simp] theorem content_set (fs : Files) (path text : Bytes) :
    (fs.set path text).content path = text := by
  rw [content, set, Function.update_self, Option.getD_some]

theorem content_set_of_ne (h : other ≠ path) :
    (fs.set path text).content other = fs.content other := by
  rw [content, set, Function.update_of_ne h, content]

@[simp] theorem content_fprint (fs : Files) (path text : Bytes) :
    (fs.fprint path text).content path = fs.content path ++ text := content_set fs _ _

theorem content_fprint_of_ne (h : other ≠ path) :
    (fs.fprint path text).content other = fs.content other := content_set_of_ne h

@[simp] theorem set_self (fs : Files) (path text : Bytes) : fs.set path text path = some text :=
  Function.update_self ..

theorem set_of_ne (h : other ≠ path) : fs.set path text other = fs other :=
  Function.update_of_ne h ..

/-- A file that is written anew. -/
theorem fprint_set (fs : Files) (path text : Bytes) :
    (fs.set path []).fprint path text = fs.set path text := by
  rw [fprint, content_set, List.nil_append, set, set, Function.update_idem, set]

theorem fprint_of_ne (h : other ≠ path) : fs.fprint path text other = fs other := set_of_ne h

theorem fopen_append_of_ne (h : fs.fopen opens path .append = some fs') (ho : other ≠ path) :
    fs' other = fs other := by
  rw [fopen] at h
  split at h
  · cases h
    exact set_of_ne ho
  · cases h

theorem isPrefix_fprint (h : fs.content other = fs'.content other) (path text : Bytes) :
    fs'.content other <+: (fs.fprint path text).content other := by
  rw [← h]
  by_cases ho : other = path
  · rw [ho, content_fprint]
    exact List.prefix_append _ _
  · exact (content_fprint_of_ne ho) ▸ List.prefix_refl _

theorem eq_of_fopen_read (h : fs.fopen opens path .read = some fs') : fs' = fs := by
  rw [fopen] at h
  split at h
  · cases h
    rfl
  · cases h

theorem content_of_fopen_append (h : fs.fopen opens path .append = some fs') :
    fs'.content other = fs.content other := by
  rw [fopen] at h
  split at h
  · cases h
    by_cases ho : other = path
    · rw [ho, content_set]
    · exact content_set_of_ne ho
  · cases h

theorem content_of_fopen_write (h : fs.fopen opens path .write = some fs') (ho : other ≠ path) :
    fs'.content other = fs.content other := by
  rw [fopen] at h
  split at h
  · cases h
    exact content_set_of_ne ho
  · cases h

end Files

end CLib
