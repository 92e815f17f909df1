import Mathlib.Algebra.Group.Int.Defs
import Mathlib.Algebra.Group.Nat.Defs
import Mathlib.Tactic.Common

/-!
# Byte buffers, C strings and fixed-size arrays

Memory is a list of bytes. A C string is the part of a buffer before its first NUL (`cstr`), an
array `char a[n]` is a list of exactly `n` bytes (`CharArray`), and the integers that a program
copies into a buffer are written out byte by byte: big-endian for the network (`be32`),
little-endian two's complement for an `int` in the host's memory (`le32`).
-/

namespace CLib

abbrev Bytes := List UInt8

/-- The bytes of an ASCII string literal. -/
def str (s : String) : Bytes := s.toList.map fun c => c.toNat.toUInt8

/-- A property of bytes that has been checked for each of them. -/
theorem forall_byte {P : UInt8 → Prop} (h : ∀ n < 256, P n.toUInt8) (c : UInt8) : P c := by
  have hc : c.toNat.toUInt8 = c := UInt8.ofNat_toNat
  exact hc ▸ h c.toNat c.toNat_lt

/-! ## C strings -/

/-- What `strlen`, `strcmp` and `%s` see of a buffer. -/
def cstr (buf : Bytes) : Bytes := buf.takeWhile (· ≠ 0)

def strlen (buf : Bytes) : Nat := (cstr buf).length

def NulFree (b : Bytes) : Prop := 0 ∉ b

instance (b : Bytes) : Decidable (NulFree b) := inferInstanceAs (Decidable (0 ∉ b))

@[simp] theorem cstr_nil : cstr [] = [] := rfl

@[simp] theorem cstr_nul (rest : Bytes) : cstr (0 :: rest) = [] := rfl

theorem cstr_nulFree (buf : Bytes) : NulFree (cstr buf) := by
  intro h
  simpa using List.all_eq_true.mp List.all_takeWhile 0 h

theorem cstr_append_zero (b rest : Bytes) : cstr (b ++ 0 :: rest) = cstr b := by
  induction b with
  | nil => rfl
  | cons a b ih => simp_all [cstr, List.takeWhile_cons]

/-- What comes after the end of a string does not matter. -/
theorem cstr_append_of_mem {b : Bytes} (h : 0 ∈ b) (rest : Bytes) : cstr (b ++ rest) = cstr b := by
  obtain ⟨l, r, rfl⟩ := List.append_of_mem h
  rw [List.append_assoc, List.cons_append, cstr_append_zero, cstr_append_zero]

theorem NulFree.cstr_append {b : Bytes} (h : NulFree b) (rest : Bytes) :
    cstr (b ++ rest) = b ++ cstr rest := by
  apply List.takeWhile_append_of_pos
  intro a ha
  simp only [decide_eq_true_eq]
  rintro rfl
  exact h ha

theorem NulFree.cstr_eq {b : Bytes} (h : NulFree b) : cstr b = b := by
  simpa using h.cstr_append []

theorem nulFree_append {a b : Bytes} (ha : NulFree a) (hb : NulFree b) : NulFree (a ++ b) :=
  fun h => (List.mem_append.mp h).elim ha hb

/-- A string in a buffer is read back as long as a NUL follows it. -/
theorem NulFree.cstr_append_nul {b : Bytes} (h : NulFree b) (rest : Bytes) :
    cstr (b ++ 0 :: rest) = b := by
  simp [h.cstr_append]

/-- A string, byte by byte. -/
theorem cstr_eq_iff {b l : Bytes} :
    cstr b = l ↔ NulFree l ∧ ∀ i, i ≤ l.length → b.getD i 0 = l.getD i 0 := by
  constructor
  · rintro rfl
    refine ⟨cstr_nulFree b, fun i hi => ?_⟩
    induction b generalizing i with
    | nil => rfl
    | cons c b ih =>
      by_cases hc : c = 0
      · subst hc
        obtain rfl : i = 0 := by simpa [cstr] using hi
        rfl
      · have hcons : cstr (c :: b) = c :: cstr b := by simp [cstr, hc]
        rw [hcons] at hi ⊢
        cases i with
        | zero => rfl
        | succ i => exact ih i (Nat.le_of_succ_le_succ hi)
  · rintro ⟨hfree, hget⟩
    induction l generalizing b with
    | nil =>
      cases b with
      | nil => rfl
      | cons c b =>
        obtain rfl : c = 0 := hget 0 (Nat.le_refl 0)
        rfl
    | cons c l ih =>
      have hc : c ≠ 0 := fun hc => hfree (by simp [hc])
      have h0 := hget 0 (Nat.zero_le _)
      cases b with
      | nil => exact absurd h0.symm hc
      | cons d b =>
        obtain rfl : d = c := h0
        have hcons : cstr (d :: b) = d :: cstr b := by simp [cstr, hc]
        rw [hcons, ih (fun hm => hfree (List.mem_cons_of_mem _ hm)) fun i hi =>
          hget (i + 1) (Nat.succ_le_succ hi)]

/-! ## Arrays of a fixed size -/

/-- The contents of an array `char a[n]`. -/
structure CharArray (n : Nat) where
  data : Bytes
  size_eq : data.length = n
  deriving DecidableEq

namespace CharArray

@[ext] theorem ext {a b : CharArray n} (h : a.data = b.data) : a = b := by
  cases a; cases b; cases h; rfl

/-- The C string that starts at the array. -/
def toStr (a : CharArray n) : Bytes := cstr a.data

def zero (n : Nat) : CharArray n := ⟨List.replicate n 0, by simp⟩

/-- The first `n` bytes of `b`, with zeros for those it does not have. -/
def ofBytes (n : Nat) (b : Bytes) : CharArray n :=
  ⟨(b ++ List.replicate n 0).take n, by simp⟩

/-- `strncpy(a, src, n - 1); a[n - 1] = '\0'`: the string is cut at `n - 1` bytes and the rest of
the array is cleared. -/
def copyStr (n : Nat) (src : Bytes) : CharArray n := ofBytes n ((cstr src).take (n - 1))

def get (a : CharArray n) (i : Nat) : UInt8 := a.data.getD i 0

/-- The string that begins at the array ends inside of it. -/
def HasNul (a : CharArray n) : Prop := 0 ∈ a.data

instance (a : CharArray n) : Decidable a.HasNul := inferInstanceAs (Decidable (0 ∈ a.data))

def set (a : CharArray n) (i : Nat) (b : UInt8) : CharArray n :=
  ⟨a.data.set i b, by simp [a.size_eq]⟩

/-- `memset(a, c, k)` -/
def memset (a : CharArray n) (c : UInt8) (k : Nat) : CharArray n :=
  ofBytes n (List.replicate k c ++ a.data.drop k)

@[simp] theorem toStr_zero : (zero n).toStr = [] := by
  cases n <;> simp [zero, toStr, cstr, List.replicate_succ]

@[simp] theorem ofBytes_data_append (a : CharArray n) (rest : Bytes) :
    ofBytes n (a.data ++ rest) = a := by
  ext1
  simp [ofBytes, ← a.size_eq]

theorem ofBytes_of_le {b : Bytes} (h : b.length ≤ n) :
    (ofBytes n b).data = b ++ List.replicate (n - b.length) 0 := by
  simp only [ofBytes]
  rw [List.take_append, List.take_of_length_le h, List.take_replicate,
    Nat.min_eq_left (Nat.sub_le _ _)]

/-- Bytes that fill the array. -/
theorem data_ofBytes {b : Bytes} (h : n ≤ b.length) : (ofBytes n b).data = b.take n := by
  rw [ofBytes]
  exact List.take_append_of_le_length h

theorem ofBytes_append {b : Bytes} (h : n ≤ b.length) (rest : Bytes) :
    ofBytes n (b ++ rest) = ofBytes n b := by
  have hle : n ≤ (b ++ rest).length := by rw [List.length_append]; omega
  ext1
  rw [data_ofBytes hle, data_ofBytes h, List.take_append_of_le_length h]

/-- A string that ends inside of the array is the one the bytes begin with. -/
theorem toStr_ofBytes_of_mem {b : Bytes} (h : 0 ∈ b.take n) (hb : n ≤ b.length) :
    (ofBytes n b).toStr = cstr b := by
  rw [toStr, data_ofBytes hb, ← cstr_append_of_mem h (b.drop n), List.take_append_drop]

theorem toStr_ofBytes {n : Nat} {b : Bytes} (hfree : NulFree b) (h : b.length < n) :
    (ofBytes n b).toStr = b := by
  obtain ⟨k, rfl⟩ := Nat.exists_eq_add_of_lt h
  rw [toStr, ofBytes_of_le (Nat.le_of_lt h), hfree.cstr_append, Nat.add_assoc,
    Nat.add_sub_cancel_left, List.replicate_succ, cstr_nul, List.append_nil]

/-- An array that begins with some bytes and a NUL. -/
theorem toStr_ofBytes_zero {n : Nat} {b : Bytes} (h : b.length < n) (rest : Bytes) :
    (ofBytes n (b ++ 0 :: rest)).toStr = cstr b := by
  obtain ⟨k, rfl⟩ := Nat.exists_eq_add_of_lt h
  rw [toStr, ofBytes]
  dsimp only
  rw [List.append_assoc, Nat.add_assoc, List.take_length_add_append, List.cons_append,
    List.take_succ_cons, cstr_append_zero]

/-- An array that begins with a string and its NUL. -/
theorem toStr_ofBytes_nul {n : Nat} {b rest : Bytes} (hfree : NulFree b) (h : b.length < n) :
    (ofBytes n (b ++ 0 :: rest)).toStr = b := by
  rw [toStr_ofBytes_zero h, hfree.cstr_eq]

theorem toStr_copyStr {n : Nat} (hn : 0 < n) (src : Bytes) :
    (copyStr n src).toStr = (cstr src).take (n - 1) := by
  refine toStr_ofBytes (fun h => cstr_nulFree src (List.mem_of_mem_take h)) ?_
  have hlen := List.length_take_le (n - 1) (cstr src)
  omega

/-- A string that fits is copied whole. -/
theorem toStr_copyStr_of_lt {n : Nat} {b : Bytes} (hfree : NulFree b) (h : b.length < n) :
    (copyStr n b).toStr = b := by
  rw [toStr_copyStr (by omega), hfree.cstr_eq, List.take_of_length_le (by omega)]

/-! ## Elements -/

theorem toStr_eq_iff {a : CharArray n} {l : Bytes} :
    a.toStr = l ↔ NulFree l ∧ ∀ i, i ≤ l.length → a.get i = l.getD i 0 := cstr_eq_iff

theorem get_toStr (a : CharArray n) {i : Nat} (h : i ≤ a.toStr.length) :
    a.get i = a.toStr.getD i 0 := (toStr_eq_iff.mp rfl).2 i h

theorem length_toStr_le (a : CharArray n) : a.toStr.length ≤ n := by
  have hle : a.toStr.length ≤ a.data.length := (List.takeWhile_prefix _).length_le
  exact Nat.le_trans hle (Nat.le_of_eq a.size_eq)

theorem hasNul_of_get (a : CharArray n) {i : Nat} (hi : i < n) (h : a.get i = 0) : a.HasNul := by
  have hlt : i < a.data.length := Nat.lt_of_lt_of_eq hi a.size_eq.symm
  have hmem : a.data[i] ∈ a.data := List.getElem_mem hlt
  rw [get, List.getD_eq_getElem?_getD, List.getElem?_eq_getElem hlt, Option.getD_some] at h
  rwa [h] at hmem

theorem hasNul_iff (a : CharArray n) : a.HasNul ↔ a.toStr.length < n := by
  constructor
  · intro h
    refine Nat.lt_of_le_of_ne a.length_toStr_le fun heq => ?_
    have hall : a.toStr = a.data :=
      (List.takeWhile_prefix _).eq_of_length (heq.trans a.size_eq.symm)
    have hfree : NulFree a.toStr := cstr_nulFree _
    rw [hall] at hfree
    exact hfree h
  · intro h
    apply a.hasNul_of_get h
    rw [a.get_toStr (Nat.le_refl _), List.getD_eq_getElem?_getD,
      List.getElem?_eq_none (Nat.le_refl _)]
    rfl

theorem hasNul_copyStr {n : Nat} (hn : 0 < n) (src : Bytes) : (copyStr n src).HasNul := by
  rw [hasNul_iff, toStr_copyStr hn]
  exact Nat.lt_of_le_of_lt (List.length_take_le _ _) (Nat.sub_lt hn Nat.one_pos)

theorem get_ofBytes {b : Bytes} {i : Nat} (h : i < n) (hb : n ≤ b.length) :
    (ofBytes n b).get i = b.getD i 0 := by
  rw [get, data_ofBytes hb, List.getD_eq_getElem?_getD, List.getElem?_take_of_lt h,
    List.getD_eq_getElem?_getD]

theorem get_set (a : CharArray n) (i j : Nat) (b : UInt8) :
    (a.set i b).get j = if j = i ∧ i < n then b else a.get j := by
  simp only [get, set, List.getD_eq_getElem?_getD, List.getElem?_set, a.size_eq]
  by_cases h : i = j
  · subst h
    by_cases hi : i < n
    · simp [hi]
    · have hnone : a.data[i]? = none := List.getElem?_eq_none (by rw [a.size_eq]; omega)
      simp [hi, hnone]
  · rw [if_neg h, if_neg fun hj => h hj.1.symm]

theorem get_memset (a : CharArray n) (c : UInt8) {k j : Nat} (h : j < k) (hk : k ≤ n) :
    (a.memset c k).get j = c := by
  simp only [get, memset, ofBytes, List.getD_eq_getElem?_getD, List.getElem?_take]
  rw [if_pos (by omega), List.append_assoc, List.getElem?_append_left (by simpa using h)]
  simp [h]

/-- A byte is put where the string ends, and a new end after it. -/
theorem toStr_set_append (a : CharArray n) {c : UInt8} (hc : c ≠ 0) (h : a.toStr.length + 1 < n) :
    ((a.set a.toStr.length c).set (a.toStr.length + 1) 0).toStr = a.toStr ++ [c] := by
  have hfree : NulFree a.toStr := cstr_nulFree _
  refine toStr_eq_iff.mpr ⟨?_, fun i hi => ?_⟩
  · rw [NulFree, List.mem_append, List.mem_singleton]
    exact fun h => h.elim hfree (Ne.symm hc)
  · rw [List.length_append, List.length_singleton] at hi
    rw [get_set, get_set]
    by_cases h1 : i = a.toStr.length + 1
    · rw [if_pos ⟨h1, by omega⟩, h1]
      simp [List.getD_eq_getElem?_getD]
    rw [if_neg fun h => h1 h.1]
    by_cases h0 : i = a.toStr.length
    · rw [if_pos ⟨h0, by omega⟩, h0]
      simp [List.getD_eq_getElem?_getD]
    have hlt : i < a.toStr.length := by omega
    rw [if_neg fun h => h0 h.1, a.get_toStr (by omega)]
    simp [List.getD_eq_getElem?_getD, List.getElem?_append_left hlt]

end CharArray

/-! ## Integers in memory -/

/-- The four bytes of a 32-bit number, most significant first. -/
def be32 (n : Nat) : Bytes :=
  [(n / 2 ^ 24).toUInt8, (n / 2 ^ 16).toUInt8, (n / 2 ^ 8).toUInt8, n.toUInt8]

/-- The number whose bytes, most significant first, are `b`. -/
def ofBe : Bytes → Nat := List.foldl (fun n b => n * 256 + b.toNat) 0

@[simp] theorem length_be32 (n : Nat) : (be32 n).length = 4 := rfl

theorem ofBe_be32 {n : Nat} (h : n < 2 ^ 32) : ofBe (be32 n) = n := by
  simp only [ofBe, be32, List.foldl, Nat.toUInt8, UInt8.toNat_ofNat']
  omega

def INT_MIN : Int := -2 ^ 31
def INT_MAX : Int := 2 ^ 31 - 1

/-- The value of an `int`. -/
structure CInt where
  val : Int
  min_le : INT_MIN ≤ val
  le_max : val ≤ INT_MAX
  deriving DecidableEq

namespace CInt

@[ext] theorem ext {a b : CInt} (h : a.val = b.val) : a = b := by
  cases a; cases b; cases h; rfl

/-- The `int` with this value, if there is one. -/
def ofInt? (n : Int) : Option CInt :=
  if h : INT_MIN ≤ n ∧ n ≤ INT_MAX then some ⟨n, h.1, h.2⟩ else none

instance : OfNat CInt 0 := ⟨⟨0, by decide, by decide⟩⟩

theorem ofInt?_eq_some {n : Int} {a : CInt} : ofInt? n = some a ↔ a.val = n := by
  unfold ofInt?
  split
  · simp [CInt.ext_iff, eq_comm]
  · rename_i h
    apply iff_of_false (by simp)
    rintro rfl
    exact h ⟨a.min_le, a.le_max⟩

theorem exists_ofInt? {n : Int} (hmin : INT_MIN ≤ n) (hmax : n ≤ INT_MAX) :
    ∃ a, ofInt? n = some a ∧ a.val = n := ⟨⟨n, hmin, hmax⟩, ofInt?_eq_some.mpr rfl, rfl⟩

/-- The bytes of the `int` in a little-endian memory. -/
def le32 (n : CInt) : Bytes := (be32 (n.val % 2 ^ 32).toNat).reverse

theorem bmod_bounds (n : Int) : INT_MIN ≤ n.bmod (2 ^ 32) ∧ n.bmod (2 ^ 32) ≤ INT_MAX := by
  have hle := Int.le_bmod (x := n) (m := 2 ^ 32) (by omega)
  have hlt := Int.bmod_lt (x := n) (m := 2 ^ 32) (by omega)
  simp only [INT_MIN, INT_MAX]
  omega

def ofLe32 (b : Bytes) : CInt :=
  ⟨(ofBe b.reverse : Int).bmod (2 ^ 32), (bmod_bounds _).1, (bmod_bounds _).2⟩

@[simp] theorem length_le32 (n : CInt) : n.le32.length = 4 := by
  rw [le32, List.length_reverse, length_be32]

theorem ofBe_le32 (n : CInt) : (ofBe n.le32.reverse : Int) = n.val % (2 ^ 32 : Nat) := by
  have hlt : (n.val % 2 ^ 32).toNat < 2 ^ 32 := by omega
  rw [le32, List.reverse_reverse, ofBe_be32 hlt]
  omega

theorem bmod_val (n : CInt) : n.val.bmod (2 ^ 32) = n.val := by
  have hmin := n.min_le
  have hmax := n.le_max
  simp only [INT_MIN, INT_MAX] at hmin hmax
  apply Int.bmod_eq_of_le
  · omega
  · omega

@[simp] theorem ofLe32_le32 (n : CInt) : ofLe32 n.le32 = n := by
  apply ext
  unfold ofLe32
  dsimp only
  rw [n.ofBe_le32]
  exact (Int.emod_bmod n.val (2 ^ 32)).trans n.bmod_val

end CInt

end CLib
