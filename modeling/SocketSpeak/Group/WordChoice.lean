import SocketSpeak.CLib.Lines
import SocketSpeak.CLib.Reservoir
import SocketSpeak.Group.HangmanFinish

/-!
# The choice of a word

`set_random_word` keeps one line of the word file, by the rule of a reservoir of one element; lines
that are too long for `hangman_word` do not count.
-/

namespace SocketSpeak
open CLib

/-- The strings on the lines of the file that are short enough. -/
def eligible (file : Bytes) : List Bytes :=
  ((splitLines file).map fun l => cstr (chomp l)).filter (·.length ≤ HANGMAN_MAX_WORD_LENGTH)

/-- What `rand() % count` is at each of `n` lines. -/
def residuesOf (rand : List Nat) (n : Nat) : Residues n :=
  fun k => ⟨rand.getD k 0 % (k + 1), Nat.mod_lt _ (Nat.succ_pos k)⟩

theorem exists_residuesOf {n : Nat} (r : Residues n) : ∃ rand, residuesOf rand n = r := by
  refine ⟨List.ofFn fun k => (r k).val, funext fun k => Fin.ext ?_⟩
  have hget : (List.ofFn fun k => (r k).val).getD k 0 = (r k).val := by
    simp [List.getD_eq_getElem?_getD]
  change (List.ofFn fun k => (r k).val).getD k 0 % (k + 1) = (r k).val
  rw [hget]
  exact Nat.mod_eq_of_lt (r k).isLt

/-- The position of the last line that is copied. -/
def lastCopied (rand : List Nat) (n : Nat) : Option Nat := (residuesOf rand n).kept.map Fin.val

theorem lastCopied_succ (rand : List Nat) (n : Nat) : lastCopied rand (n + 1) =
    if rand.getD n 0 % (n + 1) = 0 then some n else lastCopied rand n := by
  have hlast : (residuesOf rand (n + 1) (Fin.last n)).val = rand.getD n 0 % (n + 1) := rfl
  rw [lastCopied, Residues.kept, hlast]
  split
  · rfl
  · rw [Option.map_map]
    rfl

theorem lastCopied_lt {rand : List Nat} {n k : Nat} (h : lastCopied rand n = some k) : k < n := by
  obtain ⟨j, -, rfl⟩ := Option.map_eq_some_iff.mp h
  exact j.isLt

/-! ## The lines -/

theorem takeLine_cases (a : Bytes) :
    ∃ t, NEWLINE ∉ t ∧ (takeLine a = t ++ [NEWLINE] ∨ takeLine a = t) := by
  induction a with
  | nil => exact ⟨[], List.not_mem_nil, .inr rfl⟩
  | cons c a ih =>
    rw [takeLine]
    split
    · rename_i hc
      exact ⟨[], List.not_mem_nil, .inl (hc ▸ rfl)⟩
    · rename_i hc
      obtain ⟨t, ht, hline⟩ := ih
      refine ⟨c :: t, List.not_mem_cons_of_ne_of_not_mem (Ne.symm hc) ht, ?_⟩
      exact hline.imp (congrArg (c :: ·)) (congrArg (c :: ·))

theorem splitLines_cases {a l : Bytes} (h : l ∈ splitLines a) :
    ∃ t, NEWLINE ∉ t ∧ (l = t ++ [NEWLINE] ∨ l = t) := by
  induction hlen : a.length using Nat.strongRecOn generalizing a with
  | ind len ih =>
    cases a with
    | nil => cases h
    | cons c a =>
      have hne : c :: a ≠ [] := List.cons_ne_nil c a
      have hpos : 0 < (takeLine (c :: a)).length := List.length_pos_iff.mpr (takeLine_ne_nil hne)
      rw [splitLines_of_ne hne] at h
      rcases List.mem_cons.mp h with rfl | h
      · exact takeLine_cases _
      · refine ih _ ?_ h rfl
        rw [List.length_drop, ← hlen]
        exact Nat.sub_lt (by simp) hpos

/-- The string on a line is what the loop takes for the word. -/
theorem wordOf_eq {t l : Bytes} (ht : NEWLINE ∉ t) (h : l = t ++ [NEWLINE] ∨ l = t) :
    HangmanFsm.wordOf l = cstr (chomp l) := by
  have hlast : (cstr t).getLast? ≠ some NEWLINE := fun hl =>
    ht ((List.takeWhile_prefix _).mem (List.mem_of_getLast? hl))
  rcases h with rfl | rfl
  · have hchomp : chomp (t ++ [NEWLINE]) = t := by
      rw [chomp, List.getLast?_concat, if_pos rfl, List.dropLast_concat]
    rw [hchomp, HangmanFsm.wordOf]
    by_cases hfree : NulFree t
    · have hnl : NulFree (t ++ [NEWLINE]) := nulFree_append hfree (by decide)
      rw [hnl.cstr_eq, List.getLast?_concat, if_pos rfl, List.dropLast_concat, hfree.cstr_eq]
    · rw [cstr_append_of_mem (Classical.not_not.mp hfree), if_neg hlast]
  · have hchomp : chomp l = l := if_neg fun hl => ht (List.mem_of_getLast? hl)
    rw [hchomp, HangmanFsm.wordOf, if_neg hlast]

namespace HangmanFsm
variable {fsm : HangmanFsm}

theorem candidates_eq {file : Bytes} (h : ∀ l ∈ splitLines file, l.length < 1024) :
    candidates (fgetsAll 1024 file) = eligible file := by
  rw [fgetsAll_eq_splitLines (by decide) h, candidates, eligible]
  refine congrArg (List.filter _) (List.map_congr_left fun l hl => ?_)
  obtain ⟨t, ht, hline⟩ := splitLines_cases hl
  exact wordOf_eq ht hline

/-! ## The loop -/

theorem candidates_cons (line : Bytes) (lines : List Bytes) : candidates (line :: lines) =
    if (wordOf line).length ≤ HANGMAN_MAX_WORD_LENGTH then wordOf line :: candidates lines
    else candidates lines := by
  rw [candidates, List.map_cons, List.filter_cons]
  simp only [decide_eq_true_eq, candidates]

theorem candidates_append (lines lines' : List Bytes) :
    candidates (lines ++ lines') = candidates lines ++ candidates lines' := by
  rw [candidates, List.map_append, List.filter_append, candidates, candidates]

theorem chooseWord_append (lines lines' : List Bytes) (rand : List Nat) (count : Nat) :
    fsm.chooseWord (lines ++ lines') rand count =
      (fsm.chooseWord lines rand count).chooseWord lines'
        (rand.drop (candidates lines).length) (count + (candidates lines).length) := by
  induction lines generalizing fsm rand count with
  | nil => rfl
  | cons line lines ih =>
    rw [List.cons_append, chooseWord_cons, chooseWord_cons, candidates_cons]
    split
    · rw [ih, List.length_cons, List.drop_tail, Nat.add_right_comm, Nat.add_assoc]
    · rw [ih]

/-- The word that is kept is the one that was copied last. -/
theorem chooseWord_kept (lines : List Bytes) (rand : List Nat) :
    fsm.chooseWord lines rand 0 =
      match (lastCopied rand (candidates lines).length).bind ((candidates lines)[·]?) with
      | none => fsm
      | some word => { fsm with hangmanWord := .copyStr _ word } := by
  induction lines using List.reverseRecOn with
  | nil => rfl
  | append_singleton lines line ih =>
    have hhead : (rand.drop (candidates lines).length).headD 0 =
        rand.getD (candidates lines).length 0 := by
      rw [List.headD_eq_head?_getD, List.head?_drop, List.getD_eq_getElem?_getD]
    have hnil : candidates [] = [] := rfl
    rw [chooseWord_append, chooseWord_cons, candidates_append, candidates_cons, hnil, hhead,
      Nat.zero_add]
    split
    · rw [List.length_append, List.length_singleton, lastCopied_succ]
      split
      · obtain ⟨word, hword⟩ := fsm.chooseWord_eq lines rand 0
        rw [hword, Option.bind_some, List.getElem?_concat_length]
        rfl
      · have hsame : (lastCopied rand (candidates lines).length).bind
            ((candidates lines ++ [wordOf line])[·]?) =
              (lastCopied rand (candidates lines).length).bind ((candidates lines)[·]?) := by
          cases hk : lastCopied rand (candidates lines).length with
          | none => rfl
          | some k => exact List.getElem?_append_left (lastCopied_lt hk)
        rw [hsame, ← ih]
        rfl
    · rw [List.append_nil, ih]
      rfl

/-- **The choice of a word is uniform**: one of the lines that are short enough is kept as it is,
and each of them for `n! / n` of the `n!` sequences of residues. -/
theorem word_uniform (fsm : HangmanFsm) (file : Bytes)
    (hshort : ∀ l ∈ splitLines file, l.length < 1024) :
    (∀ rand, fsm.setRandomWord none rand = fsm) ∧
      (eligible file = [] → ∀ rand, fsm.setRandomWord (some file) rand = fsm) ∧
      (eligible file ≠ [] → ∀ rand, ∃ j, (residuesOf rand (eligible file).length).kept = some j ∧
        (fsm.setRandomWord (some file) rand).hangmanWord.toStr = (eligible file).get j) ∧
      (∀ r : Residues (eligible file).length, ∃ rand, residuesOf rand _ = r) ∧
      ∀ j, (Finset.univ.filter fun r : Residues (eligible file).length => r.kept = some j).card =
        (eligible file).length.factorial / (eligible file).length := by
  have hrun (rand : List Nat) : fsm.setRandomWord (some file) rand =
      match (lastCopied rand (eligible file).length).bind ((eligible file)[·]?) with
      | none => fsm
      | some word => { fsm with hangmanWord := .copyStr _ word } := by
    rw [setRandomWord, chooseWord_kept, candidates_eq hshort]
  refine ⟨fun _ => rfl, fun hnil rand => ?_, fun hne rand => ?_, exists_residuesOf,
    Residues.card_kept⟩
  · rw [hrun, hnil]
    rfl
  · obtain ⟨n, hn⟩ : ∃ n, (eligible file).length = n + 1 :=
      Nat.exists_eq_succ_of_ne_zero (List.length_pos_iff.mpr hne).ne'
    obtain ⟨j, hj⟩ : ∃ j, (residuesOf rand (eligible file).length).kept = some j := by
      rw [hn]
      exact Residues.exists_kept _
    have hlast : lastCopied rand (eligible file).length = some j.val := by
      rw [lastCopied, hj]
      rfl
    have hmem : (eligible file).get j ∈ eligible file := List.get_mem _ _
    obtain ⟨hmem, hle⟩ := List.mem_filter.mp hmem
    obtain ⟨l, -, hl⟩ := List.mem_map.mp hmem
    have hfree : NulFree ((eligible file).get j) := hl ▸ cstr_nulFree _
    refine ⟨j, hj, ?_⟩
    rw [hrun, hlast, Option.bind_some, List.getElem?_eq_getElem j.isLt]
    exact CharArray.toStr_copyStr_of_lt hfree (Nat.lt_succ_of_le (of_decide_eq_true hle))

/-- Two of three lines are short enough, and with 7 for the second number the first one is kept. -/
theorem word_uniform_two :
    let file := str "cat\nelephants\ndog\n"
    eligible file = [str "cat", str "dog"] ∧
      ∃ j, (residuesOf [4, 7] (eligible file).length).kept = some j ∧
        (zero.setRandomWord (some file) [4, 7]).hangmanWord.toStr = (eligible file).get j :=
  ⟨by decide +kernel, (word_uniform zero (str "cat\nelephants\ndog\n") (by decide +kernel)).2.2.1
    (by decide +kernel) [4, 7]⟩

end HangmanFsm

end SocketSpeak
