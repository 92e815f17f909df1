import Mathlib.Data.List.TakeWhile
import SocketSpeak.CLib.Bytes

/-!
# Reading and writing text

`fgets` on the contents of a file, `strtok`, and the pieces that `sprintf` puts together.
-/

namespace CLib

def NEWLINE : UInt8 := 0x0A

/-- The bytes up to the first newline, which is among them. -/
def takeLine : Bytes → Bytes
  | [] => []
  | b :: bs => if b = NEWLINE then [b] else b :: takeLine bs

/-- `fgets(buf, n, file)` with `n > 1`, where `inp` is what is left of the file: the line, or the
first `n - 1` bytes of it, and what is left then. -/
def fgets (n : Nat) (inp : Bytes) : Option (Bytes × Bytes) :=
  if inp = [] then none
  else
    let line := (takeLine inp).take (n - 1)
    some (line, inp.drop line.length)

def fgetsLoop (n : Nat) : Nat → Bytes → List Bytes
  | 0, _ => []
  | fuel + 1, inp =>
    match fgets n inp with
    | some (line, rest) => line :: fgetsLoop n fuel rest
    | none => []

/-- What `while (fgets(line, n, file))` brings. Each call takes a byte at least. -/
def fgetsAll (n : Nat) (file : Bytes) : List Bytes := fgetsLoop n file.length file

/-- `strtok(s, delim)`, or a further call with `s` the rest of the string: the next token, and what
follows the byte that ends it. -/
def strtok (delim s : Bytes) : Option (Bytes × Bytes) :=
  let s := s.dropWhile (· ∈ delim)
  if s = [] then none
  else some (s.takeWhile (· ∉ delim), (s.dropWhile (· ∉ delim)).drop 1)

/-- `%d` -/
def decimal (n : Int) : Bytes := str (toString n)

def hexDigit (n : Nat) : UInt8 := if n < 10 then (0x30 + n).toUInt8 else (0x37 + n).toUInt8

/-- `%02X` for one byte -/
def hex02 (b : UInt8) : Bytes := [hexDigit (b.toNat / 16), hexDigit (b.toNat % 16)]

/-- `%08X` for a number below `2 ^ 32` -/
def hex08 (n : Nat) : Bytes := (be32 n).flatMap hex02

def tolower (c : UInt8) : UInt8 := if 0x41 ≤ c ∧ c ≤ 0x5A then c + 0x20 else c

def isalpha (c : UInt8) : Bool := (0x41 ≤ c && c ≤ 0x5A) || (0x61 ≤ c && c ≤ 0x7A)

def isalnum (c : UInt8) : Bool := isalpha c || (0x30 ≤ c && c ≤ 0x39)

def isxdigit (c : UInt8) : Bool :=
  (0x30 ≤ c && c ≤ 0x39) || (0x41 ≤ c && c ≤ 0x46) || (0x61 ≤ c && c ≤ 0x66)

def isspace (c : UInt8) : Bool := c = 0x20 || (0x09 ≤ c && c ≤ 0x0D)

/-- `fscanf(file, "%ns", s)`, where `inp` is what there is in the file: the word, if there is
one. -/
def scanWord (n : Nat) (inp : Bytes) : Option Bytes :=
  let word := ((inp.dropWhile (isspace ·)).takeWhile (!isspace ·)).take n
  if word = [] then none else some word

/-- A string that `%s` reads whole. -/
structure Unspaced (s : Bytes) : Prop where
  ne_nil : s ≠ []
  nonspace : ∀ c ∈ s, isspace c = false

instance (s : Bytes) : Decidable (Unspaced s) :=
  have : Decidable (∀ c ∈ s, isspace c = false) := List.decidableBAll _ _
  decidable_of_iff (s ≠ [] ∧ ∀ c ∈ s, isspace c = false)
    ⟨fun ⟨hne, hs⟩ => ⟨hne, hs⟩, fun h => ⟨h.ne_nil, h.nonspace⟩⟩

theorem unspaced_of_scanWord {n : Nat} {inp word : Bytes} (h : scanWord n inp = some word) :
    Unspaced word ∧ ∀ c ∈ word, c ∈ inp := by
  unfold scanWord at h
  dsimp only at h
  split at h
  · cases h
  · rename_i hne
    cases h
    refine ⟨⟨hne, fun c hc => ?_⟩, fun c hc => ?_⟩
    · have hall := List.all_eq_true.mp List.all_takeWhile c (List.mem_of_mem_take hc)
      simpa using hall
    · have hmem := (List.takeWhile_prefix _).mem (List.mem_of_mem_take hc)
      exact (List.dropWhile_suffix _).mem hmem

theorem scanWord_of_unspaced {n : Nat} {s : Bytes} (h : Unspaced s) (hn : s.length ≤ n) :
    scanWord n s = some s := by
  have hdrop : s.dropWhile (isspace ·) = s := by
    cases s with
    | nil => exact absurd rfl h.ne_nil
    | cons c s =>
      rw [List.dropWhile_cons_of_neg (by simp [h.nonspace c List.mem_cons_self])]
  have htake : s.takeWhile (!isspace ·) = s := by
    have happend : (s ++ []).takeWhile (!isspace ·) = s ++ ([] : Bytes).takeWhile (!isspace ·) :=
      List.takeWhile_append_of_pos fun c hc => by simp [h.nonspace c hc]
    simpa using happend
  rw [scanWord, hdrop, htake, List.take_of_length_le hn]
  exact if_neg h.ne_nil

/-- A number is written with the digits that `isxdigit` accepts. -/
theorem isxdigit_hex08 {n : Nat} {c : UInt8} (h : c ∈ hex08 n) : isxdigit c = true := by
  have hdigit : ∀ k < 16, isxdigit (hexDigit k) = true := by decide
  obtain ⟨b, -, hc⟩ := List.mem_flatMap.mp h
  have hb := b.toNat_lt
  simp only [hex02, List.mem_cons, List.not_mem_nil, or_false] at hc
  rcases hc with rfl | rfl
  · exact hdigit _ (by omega)
  · exact hdigit _ (by omega)

@[simp] theorem length_hex08 (n : Nat) : (hex08 n).length = 8 := rfl

/-- A hexadecimal digit is no blank. -/
theorem isspace_of_isxdigit {c : UInt8} : isxdigit c = true → isspace c = false :=
  forall_byte (P := fun c => isxdigit c = true → isspace c = false) (by decide +kernel) c

/-- `%8s` reads the whole of a number that `%08X` has written. -/
theorem scanWord_hex08 (n : Nat) : scanWord 8 (hex08 n) = some (hex08 n) := by
  refine scanWord_of_unspaced ⟨?_, fun c hc => ?_⟩ (Nat.le_of_eq (length_hex08 n))
  · exact List.ne_nil_of_length_pos (by rw [length_hex08]; decide)
  · exact isspace_of_isxdigit (isxdigit_hex08 hc)

/-! ## Tokens -/

theorem dropWhile_word {delim word : Bytes} (hne : word ≠ []) (hword : ∀ c ∈ word, c ∉ delim)
    (rest : Bytes) : (word ++ rest).dropWhile (· ∈ delim) = word ++ rest := by
  cases word with
  | nil => exact absurd rfl hne
  | cons c word =>
    have hc : c ∉ delim := hword c List.mem_cons_self
    rw [List.cons_append, List.dropWhile_cons_of_neg (by simpa using hc)]

theorem strtok_word {delim word rest : Bytes} {sep : UInt8} (hne : word ≠ [])
    (hword : ∀ c ∈ word, c ∉ delim) (hsep : sep ∈ delim) :
    strtok delim (word ++ sep :: rest) = some (word, rest) := by
  have hall : ∀ c ∈ word, decide (c ∉ delim) = true := fun c hc => decide_eq_true (hword c hc)
  unfold strtok
  rw [dropWhile_word hne hword, if_neg (by simp [hne]), List.takeWhile_append_of_pos hall,
    List.dropWhile_append_of_pos hall]
  simp [hsep]

theorem strtok_last {delim word : Bytes} (hne : word ≠ []) (hword : ∀ c ∈ word, c ∉ delim) :
    strtok delim word = some (word, []) := by
  have hall : ∀ c ∈ word, decide (c ∉ delim) = true := fun c hc => decide_eq_true (hword c hc)
  rw [← List.append_nil word]
  unfold strtok
  rw [dropWhile_word hne hword, if_neg (by simp [hne]), List.takeWhile_append_of_pos hall,
    List.dropWhile_append_of_pos hall]
  simp

/-- Delimiters before a token are skipped. -/
theorem strtok_skip {delim before : Bytes} (h : ∀ c ∈ before, c ∈ delim) (s : Bytes) :
    strtok delim (before ++ s) = strtok delim s := by
  rw [strtok, List.dropWhile_append_of_pos fun c hc => decide_eq_true (h c hc), strtok]

theorem strtok_eq_none {delim s : Bytes} : strtok delim s = none ↔ ∀ c ∈ s, c ∈ delim := by
  simp [strtok, List.dropWhile_eq_nil_iff]

/-- Where there is a token, it stands behind delimiters, and a delimiter ends it. -/
theorem exists_of_strtok {delim s word rest : Bytes} (h : strtok delim s = some (word, rest)) :
    ∃ before, (∀ c ∈ before, c ∈ delim) ∧ word ≠ [] ∧ (∀ c ∈ word, c ∉ delim) ∧
      (s = before ++ word ∧ rest = [] ∨ ∃ sep ∈ delim, s = before ++ word ++ sep :: rest) := by
  rw [strtok] at h
  split at h
  · cases h
  · rename_i hne
    cases h
    refine ⟨s.takeWhile (· ∈ delim), fun c hc => ?_, ?_, fun c hc => ?_, ?_⟩
    · exact of_decide_eq_true (List.all_eq_true.mp List.all_takeWhile c hc)
    · obtain ⟨c, tail, hc⟩ := List.exists_cons_of_ne_nil hne
      have hhead : (s.dropWhile (· ∈ delim)).head hne ∉ delim := by
        simpa using List.head_dropWhile_not (· ∈ delim) hne
      simp only [hc, List.head_cons] at hhead
      rw [hc, List.takeWhile_cons_of_pos (by simpa using hhead)]
      exact List.cons_ne_nil _ _
    · exact of_decide_eq_true (List.all_eq_true.mp List.all_takeWhile c hc)
    · have hs : s = s.takeWhile (· ∈ delim) ++
          ((s.dropWhile (· ∈ delim)).takeWhile (· ∉ delim) ++
            (s.dropWhile (· ∈ delim)).dropWhile (· ∉ delim)) := by
        rw [List.takeWhile_append_dropWhile, List.takeWhile_append_dropWhile]
      cases hrest : (s.dropWhile (· ∈ delim)).dropWhile (· ∉ delim) with
      | nil =>
        rw [hrest, List.append_nil] at hs
        exact .inl ⟨hs, rfl⟩
      | cons sep rest =>
        have hsep := List.head?_dropWhile_not (· ∉ delim) (s.dropWhile (· ∈ delim))
        rw [hrest] at hsep
        rw [hrest, ← List.append_assoc] at hs
        exact .inr ⟨sep, by simpa using hsep, hs⟩

/-- All of the rest is one token, whatever is in it. -/
theorem strtok_nil (s : Bytes) : ((strtok [] s).map Prod.fst).getD [] = s := by
  by_cases hs : s = []
  · subst hs
    rfl
  · rw [strtok_last hs fun _ _ => List.not_mem_nil]
    rfl

end CLib
