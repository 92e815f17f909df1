import Mathlib.Data.Finset.Card
import SocketSpeak.Group.HangmanRules

/-!
# The end of a game of Hangman

Nothing but a guess ends a game, and no guess is looked up in a game without a word: the response is
then "No word selected for hangman." and the state stays as it is. `finishable_of_run` says which
games can be finished.
-/

namespace SocketSpeak
open CLib Sys

/-- The two calls that change the state machine. -/
inductive HangmanEvent where
  | process (file : Option Bytes) (rand : List Nat) (input : UInt8)
  | finishBroadcast

namespace HangmanFsm
variable {fsm fsm' : HangmanFsm} {file : Option Bytes} {rand : List Nat} {c : UInt8}

def step (fsm : HangmanFsm) : HangmanEvent → Except Empty HangmanFsm
  | .process file rand input => .ok (fsm.processHangmanState file rand input).2
  | .finishBroadcast => .ok fsm.finishBroadcast

/-- Some guesses end the game. -/
def Finishable (file : Option Bytes) (rand : List Nat) (fsm : HangmanFsm) : Prop :=
  ∃ gs : Bytes, (gs.foldl (turn file rand) fsm).state = .initial

theorem Finishable.of_turn (h : (fsm.turn file rand c).Finishable file rand) :
    fsm.Finishable file rand := by
  obtain ⟨gs, h⟩ := h
  exact ⟨c :: gs, h⟩

/-! ## Wrong guesses -/

/-- There are more letters than a word and the wrong guesses can hold. -/
theorem exists_fresh (l : Bytes) (h : l.length < 26) :
    ∃ c, isalpha c = true ∧ tolower c = c ∧ c ∉ l := by
  let letters : Finset UInt8 := (str "abcdefghijklmnopqrstuvwxyz").toFinset
  have hcard : l.toFinset.card < letters.card := by
    have h26 : letters.card = 26 := by decide +kernel
    rw [h26]
    exact Nat.lt_of_le_of_lt (List.toFinset_card_le l) h
  obtain ⟨c, hc, hfresh⟩ := Finset.exists_mem_notMem_of_card_lt_card hcard
  have hall : ∀ c ∈ letters, isalpha c = true ∧ tolower c = c := by decide +kernel
  exact ⟨c, (hall c hc).1, (hall c hc).2, fun hl => hfresh (List.mem_toFinset.mpr hl)⟩

/-- A fresh letter that is not in the word costs an attempt. -/
theorem attemptsLeft_guess (hw : c ∉ fsm.hangmanWord.toStr) (hg : c ∉ fsm.guessedLetters.toStr) :
    (fsm.guess c).2.2.attemptsLeft =
      if 0 < fsm.attemptsLeft then fsm.attemptsLeft - 1 else fsm.attemptsLeft := by
  have hpos : ¬ fsm.positions c ≠ [] := fun h => hw ((positions_ne_nil rfl).mp h)
  unfold guess
  dsimp only
  rw [if_neg hpos, if_neg hg]

theorem finishable_of_over (h : fsm.state = .playing) (hw : fsm.hangmanWord.toStr ≠ [])
    (hover : (fsm.play c).Over) : fsm.Finishable file rand := by
  refine ⟨[c], ?_⟩
  rw [List.foldl_cons, List.foldl_nil, turn_playing h hw, if_pos hover]
  rfl

/-- Wrong guesses use up the attempts. -/
theorem finishable_of_initialized (n : Nat) (h : fsm.state = .playing)
    (hw : fsm.hangmanWord.toStr ≠ []) (hi : fsm.hangmanRoundInitialized = true)
    (hn : fsm.attemptsLeft ≤ n) : fsm.Finishable file rand := by
  induction n generalizing fsm with
  | zero =>
    -- Without attempts any character ends the game.
    refine finishable_of_over (c := 0) h hw (.inr ?_)
    have hplay : fsm.play 0 = fsm := by
      rw [play, initRound_of_initialized hi]
      rfl
    rw [hplay]
    exact hn
  | succ n ih =>
    have hlen : (fsm.hangmanWord.toStr ++ fsm.guessedLetters.toStr).length < 26 := by
      have h1 : fsm.hangmanWord.toStr.length ≤ 8 := CharArray.length_toStr_le _
      have h2 : fsm.guessedLetters.toStr.length ≤ 6 := CharArray.length_toStr_le _
      rw [List.length_append]
      omega
    obtain ⟨c, hc, hlow, hfresh⟩ := exists_fresh _ hlen
    rw [List.mem_append, not_or] at hfresh
    by_cases hover : (fsm.play c).Over
    · exact finishable_of_over h hw hover
    have hplay : fsm.play c = (fsm.guess c).2.2 := by
      rw [play, initRound_of_initialized hi, hlow, if_pos hc]
    have hturn : fsm.turn file rand c = (fsm.guess c).2.2 := by
      rw [turn_playing h hw, if_neg hover, hplay]
    refine .of_turn (c := c) (hturn ▸ ih ?_ ?_ ?_ ?_)
    · rw [guess_state, h]
    · rw [guess_hangmanWord]
      exact hw
    · rw [guess_initialized, hi]
    · rw [attemptsLeft_guess hfresh.1 hfresh.2]
      split <;> omega

theorem finishable_of_playing (h : fsm.state = .playing) (hw : fsm.hangmanWord.toStr ≠ []) :
    fsm.Finishable file rand := by
  by_cases hover : (fsm.play 0).Over
  · exact finishable_of_over h hw hover
  have hturn : fsm.turn file rand 0 = fsm.play 0 := by
    rw [turn_playing h hw, if_neg hover]
  refine .of_turn (c := 0) (hturn ▸ finishable_of_initialized (fsm.play 0).attemptsLeft.toNat ?_ ?_
    (play_initialized 0) (Int.self_le_toNat _))
  · rw [play_state, h]
  · rw [play_hangmanWord]
    exact hw

/-- Without a word a game stays. -/
theorem not_finishable (h : fsm.state = .playing) (hw : fsm.hangmanWord.toStr = []) :
    ¬ fsm.Finishable file rand := by
  rintro ⟨gs, hgs⟩
  have hfold : gs.foldl (turn file rand) fsm = fsm := by
    clear hgs
    induction gs with
    | nil => rfl
    | cons c gs ih => rw [List.foldl_cons, turn_nil h hw, ih]
  rw [hfold, h] at hgs
  cases hgs

theorem finishable_iff (h : fsm.state ≠ .initial) :
    fsm.Finishable file rand ↔ fsm.hangmanWord.toStr ≠ [] := by
  cases hs : fsm.state with
  | initial => exact absurd hs h
  | playing => exact ⟨fun hf hw => not_finishable hs hw hf, finishable_of_playing hs⟩
  | update =>
    have hturn : ∀ c, fsm.turn file rand c = { fsm with state := .playing } := turn_update hs
    constructor
    · rintro ⟨gs, hgs⟩ hw
      cases gs with
      | nil => exact h hgs
      | cons c gs =>
        rw [List.foldl_cons, hturn] at hgs
        have hword : { fsm with state := .playing }.hangmanWord.toStr = [] := hw
        exact not_finishable rfl hword ⟨gs, hgs⟩
    · intro hw
      refine .of_turn (c := 0) ?_
      rw [hturn]
      exact finishable_of_playing rfl hw

/-! ## The choice of a word -/

/-- The words of the file that are not too long; an empty line is one of them. -/
def candidates (lines : List Bytes) : List Bytes :=
  (lines.map wordOf).filter (·.length ≤ HANGMAN_MAX_WORD_LENGTH)

theorem wordOf_nulFree (line : Bytes) : NulFree (wordOf line) := by
  unfold wordOf
  split
  · exact fun h0 => cstr_nulFree line (List.dropLast_subset _ h0)
  · exact cstr_nulFree line

/-- The word becomes one of the candidates, or there are none. -/
theorem chooseWord_word (lines : List Bytes) (rand : List Nat) (count : Nat) :
    (fsm.chooseWord lines rand count).hangmanWord.toStr ∈ candidates lines ∨
      (fsm.chooseWord lines rand count).hangmanWord = fsm.hangmanWord ∧
        (count = 0 → candidates lines = []) := by
  induction lines generalizing fsm rand count with
  | nil => exact .inr ⟨rfl, fun _ => rfl⟩
  | cons line lines ih =>
    rw [chooseWord_cons, candidates, List.map_cons, List.filter_cons]
    by_cases hlen : (wordOf line).length ≤ HANGMAN_MAX_WORD_LENGTH
    · rw [if_pos hlen, if_pos (decide_eq_true hlen)]
      by_cases hr : rand.headD 0 % (count + 1) = 0
      · rw [if_pos hr]
        refine .inl ?_
        rcases @ih { fsm with hangmanWord := .copyStr _ (wordOf line) } rand.tail (count + 1)
          with h | ⟨h, -⟩
        · exact List.mem_cons_of_mem _ h
        · rw [h, CharArray.toStr_copyStr_of_lt (wordOf_nulFree line) (Nat.lt_succ_of_le hlen)]
          exact List.mem_cons_self
      · rw [if_neg hr]
        rcases ih rand.tail (count + 1) with h | ⟨h, -⟩
        · exact .inl (List.mem_cons_of_mem _ h)
        · refine .inr ⟨h, fun h0 => absurd ?_ hr⟩
          rw [h0]
          exact Nat.mod_one _
    · rw [if_neg hlen, if_neg (by simpa using hlen)]
      exact ih rand count

/-- The file does not offer an empty word, and offers a word if there is none from before. -/
def WordFound (fsm : HangmanFsm) : HangmanEvent → Prop
  | .process file _ _ => fsm.state = .initial →
    let words := candidates (fgetsAll 1024 (file.getD []))
    [] ∉ words ∧ (words = [] → fsm.hangmanWord.toStr ≠ [])
  | .finishBroadcast => True

instance (fsm : HangmanFsm) : ∀ e, Decidable (fsm.WordFound e)
  | .process _ _ _ => inferInstanceAs (Decidable (_ → _))
  | .finishBroadcast => .isTrue trivial

theorem updateHangman_hangmanWord (input : UInt8) :
    (fsm.updateHangman input).2.hangmanWord = fsm.hangmanWord := by
  by_cases hw : fsm.hangmanWord.toStr = []
  · rw [updateHangman_nil hw]
  · rw [updateHangman_snd hw]
    split
    · exact play_hangmanWord input
    · exact play_hangmanWord input

theorem setRandomWord_ne_nil (hfound : fsm.WordFound (.process file rand c))
    (h : fsm.state = .initial) : (fsm.setRandomWord file rand).hangmanWord.toStr ≠ [] := by
  obtain ⟨hne, hold⟩ := hfound h
  cases file with
  | none => exact hold rfl
  | some file =>
    rcases chooseWord_word (fgetsAll 1024 file) rand 0 with hmem | ⟨heq, hnil⟩
    · exact fun h0 => hne (h0 ▸ hmem)
    · rw [setRandomWord, heq]
      exact hold (hnil rfl)

/-- A game that is on has a word, if every start finds one. -/
theorem word_of_step {e : HangmanEvent} (h : fsm.state ≠ .initial → fsm.hangmanWord.toStr ≠ [])
    (hfound : fsm.WordFound e) (hstep : fsm.step e = .ok fsm') :
    fsm'.state ≠ .initial → fsm'.hangmanWord.toStr ≠ [] := by
  intro hstate
  cases e with
  | process file rand input =>
    cases hstep
    unfold processHangmanState at hstate ⊢
    cases hs : fsm.state with
    | initial => exact setRandomWord_ne_nil hfound hs
    | playing =>
      dsimp only
      rw [updateHangman_hangmanWord]
      exact h (by rw [hs]; decide)
    | update => exact h (by rw [hs]; decide)
  | finishBroadcast =>
    cases hstep
    unfold finishBroadcast at hstate ⊢
    split
    · rename_i hs
      exact h (by rw [hs]; decide)
    · rename_i hs
      rw [if_neg hs] at hstate
      exact h hstate

/-- A game that is on can be finished if and only if it has a word; it has one if every start of the
run has found one. -/
theorem finishable_of_run {es : List HangmanEvent} (h : exec step zero es = .ok fsm)
    (hstate : fsm.state ≠ .initial) (file : Option Bytes) (rand : List Nat) :
    (fsm.Finishable file rand ↔ fsm.hangmanWord.toStr ≠ []) ∧
      (Meets step WordFound zero es → fsm.Finishable file rand) := by
  refine ⟨finishable_iff hstate, fun hfound => (finishable_iff hstate).mpr ?_⟩
  have hzero : zero.state ≠ .initial → zero.hangmanWord.toStr ≠ [] := fun h => absurd rfl h
  exact exec_invariant (I := fun fsm => fsm.state ≠ .initial → fsm.hangmanWord.toStr ≠ [])
    (fun s e s' hs hc hstep => word_of_step hs hc hstep) hzero hfound h hstate

/-- The start of a game with the word `ab`, and a first guess. -/
def firstGuess : List HangmanEvent :=
  [.process (some (str "ab\n")) [] 0, .finishBroadcast, .process none [] 0x61]

theorem finishable_of_run_firstGuess :
    ∃ fsm, exec step zero firstGuess = .ok fsm ∧ fsm.state ≠ .initial ∧
      fsm.Finishable none [] := by
  have hrun : (exec step zero firstGuess).isOk := rfl
  obtain ⟨fsm, h, hstate⟩ := exists_ok (P := fun fsm => fsm.state ≠ .initial) hrun (by decide)
  exact ⟨fsm, h, hstate, (finishable_of_run h hstate none []).2 (by decide)⟩

/-- A game that starts while the word file is missing cannot be finished. -/
theorem unfinishable_without_file :
    ¬ ∀ es fsm, exec step zero es = .ok fsm → fsm.state ≠ .initial →
      ∀ file rand, fsm.Finishable file rand := by
  intro h
  have hfin := h [.process none [] 0] { zero with state := .playing } rfl (by decide) none []
  exact not_finishable (by rfl) (by decide) hfin

end HangmanFsm

end SocketSpeak
