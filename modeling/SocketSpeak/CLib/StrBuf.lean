import SocketSpeak.CLib.Bytes

/-!
# Buffers that hold a string

A `char b[n]` that only the string functions touch: what it holds is a string that fits, with the
NUL behind it. `strcpy` and `strcat` have no result where they would write past the end.
-/

namespace CLib

structure StrBuf (n : Nat) where
  toStr : Bytes
  nulFree : NulFree toStr
  length_lt : toStr.length < n
  deriving DecidableEq

theorem NulFree.take {a : Bytes} (h : NulFree a) (k : Nat) : NulFree (a.take k) :=
  fun hm => h (List.mem_of_mem_take hm)

namespace StrBuf
variable {n : Nat} {b c : StrBuf n} {src : Bytes}

@[ext] theorem ext (h : b.toStr = c.toStr) : b = c := by
  cases b; cases c; cases h; rfl

/-- The buffer with this string in it, if it fits. -/
def ofStr? (n : Nat) (src : Bytes) : Option (StrBuf n) :=
  if h : (cstr src).length < n then some ⟨cstr src, cstr_nulFree src, h⟩ else none

/-- `b[0] = '\0'` -/
def empty (h : 0 < n) : StrBuf n := ⟨[], List.not_mem_nil, h⟩

/-- `strcat(b, src)` -/
def strcat (b : StrBuf n) (src : Bytes) : Option (StrBuf n) :=
  if h : (b.toStr ++ cstr src).length < n then
    some ⟨b.toStr ++ cstr src, nulFree_append b.nulFree (cstr_nulFree src), h⟩
  else none

/-- `strncat(b, src, n - strlen(b) - 1)` -/
def strncat (b : StrBuf n) (src : Bytes) : StrBuf n where
  toStr := b.toStr ++ (cstr src).take (n - b.toStr.length - 1)
  nulFree := nulFree_append b.nulFree ((cstr_nulFree src).take _)
  length_lt := by
    have hb := b.length_lt
    rw [List.length_append, List.length_take]
    omega

@[simp] theorem toStr_empty (h : 0 < n) : (empty h).toStr = [] := rfl

theorem toStr_of_ofStr? (h : ofStr? n src = some b) : b.toStr = cstr src := by
  unfold ofStr? at h
  split at h
  · cases h
    rfl
  · cases h

theorem exists_ofStr? : (∃ b, ofStr? n src = some b) ↔ strlen src < n := by
  rw [ofStr?, strlen]
  split
  · rename_i h
    exact iff_of_true ⟨_, rfl⟩ h
  · rename_i h
    exact iff_of_false (by simp) h

theorem exists_strcat : (∃ c, b.strcat src = some c) ↔ b.toStr.length + strlen src < n := by
  rw [strlen, ← List.length_append, strcat]
  split
  · rename_i h
    exact iff_of_true ⟨_, rfl⟩ h
  · rename_i h
    exact iff_of_false (by simp) h

theorem strcat_nil (b : StrBuf n) : b.strcat [] = some b := by
  have h : (b.toStr ++ cstr []).length < n := by simpa using b.length_lt
  rw [strcat, dif_pos h]
  exact congrArg some (ext (List.append_nil _))

/-- Two strings that are appended one after the other. -/
theorem strcat_append (b : StrBuf n) (s t : Bytes) :
    (b.strcat s).bind (·.strcat t) = b.strcat (cstr s ++ t) := by
  unfold strcat
  simp only [(cstr_nulFree s).cstr_append, ← List.append_assoc]
  by_cases h : (b.toStr ++ cstr s).length < n
  · simp only [dif_pos h, Option.bind_some]
  · have hst : ¬ (b.toStr ++ cstr s ++ cstr t).length < n := by
      rw [List.length_append]
      omega
    simp only [dif_neg h, dif_neg hst, Option.bind_none]

theorem toStr_of_strcat (h : b.strcat src = some c) : c.toStr = b.toStr ++ cstr src := by
  unfold strcat at h
  split at h
  · cases h
    rfl
  · cases h

/-- A string that fits is copied. -/
theorem ofStr?_of_fits (hs : NulFree src) (h : src.length < n) :
    ∃ b, ofStr? n src = some b ∧ b.toStr = src := by
  obtain ⟨b, hb⟩ := exists_ofStr?.mpr (by rwa [strlen, hs.cstr_eq])
  exact ⟨b, hb, by rw [toStr_of_ofStr? hb, hs.cstr_eq]⟩

/-- A string that fits is appended. -/
theorem strcat_of_fits (b : StrBuf n) (hs : NulFree src) (h : (b.toStr ++ src).length < n) :
    ∃ c, b.strcat src = some c ∧ c.toStr = b.toStr ++ src := by
  obtain ⟨c, hc⟩ := exists_strcat.mpr (by rwa [strlen, hs.cstr_eq, ← List.length_append])
  exact ⟨c, hc, by rw [toStr_of_strcat hc, hs.cstr_eq]⟩

/-- What is shorter than the buffer has not been cut. -/
theorem toStr_strncat_of_lt (h : (b.strncat src).toStr.length + 1 < n) :
    (b.strncat src).toStr = b.toStr ++ cstr src := by
  have hlen : (b.toStr ++ (cstr src).take (n - b.toStr.length - 1)).length + 1 < n := h
  rw [List.length_append, List.length_take] at hlen
  exact congrArg (b.toStr ++ ·) (List.take_of_length_le (by omega))

@[simp] theorem toStr_strncat_ne_nil (h : b.toStr ≠ []) : (b.strncat src).toStr ≠ [] :=
  fun hnil => h (List.append_eq_nil_iff.mp hnil).1

end StrBuf

end CLib
