import SocketSpeak.CLib.Sys
import SocketSpeak.Group.Hangman

/-!
# A turn of Hangman

A turn is `process_hangman_state` followed by `hangman_finish_broadcast`. `turn_playing` and
`turn_initial` say what it makes of the state machine; what is answered is left out.
-/

namespace SocketSpeak
open CLib

namespace HangmanFsm
variable {fsm : HangmanFsm} {c : UInt8} {file : Option Bytes} {rand : List Nat}

/-- The guess `input` is processed and the response has been sent. -/
def turn (file : Option Bytes) (rand : List Nat) (fsm : HangmanFsm) (input : UInt8) : HangmanFsm :=
  (fsm.processHangmanState file rand input).2.finishBroadcast

/-- The state after the letter has been looked up. -/
def play (fsm : HangmanFsm) (input : UInt8) : HangmanFsm :=
  if isalpha (tolower input) then (fsm.initRound.guess (tolower input)).2.2 else fsm.initRound

/-- The word has been guessed, or the last attempt was wrong. -/
def Over (fsm : HangmanFsm) : Prop :=
  fsm.revealedWord.toStr = fsm.hangmanWord.toStr ∨ fsm.attemptsLeft ≤ 0

instance (fsm : HangmanFsm) : Decidable fsm.Over := inferInstanceAs (Decidable (_ ∨ _))

/-- The end of a round. -/
def finish (fsm : HangmanFsm) : HangmanFsm :=
  { fsm with state := .initial, hangmanRoundInitialized := false }

theorem get_zero_iff (a : CharArray n) : a.get 0 = 0 ↔ a.toStr = [] := by
  constructor
  · intro h
    exact CharArray.toStr_eq_iff.mpr ⟨List.not_mem_nil, fun i hi => by
      obtain rfl : i = 0 := Nat.le_zero.mp hi
      exact h⟩
  · intro h
    have hget := a.get_toStr (Nat.zero_le _)
    rw [hget, h]
    rfl

theorem updateHangman_nil (h : fsm.hangmanWord.toStr = []) (input : UInt8) :
    (fsm.updateHangman input).2 = fsm := by
  rw [updateHangman, if_pos ((get_zero_iff _).mpr h)]

theorem updateHangman_snd (h : fsm.hangmanWord.toStr ≠ []) (input : UInt8) :
    (fsm.updateHangman input).2 =
      if (fsm.play input).Over then (fsm.play input).finish else fsm.play input := by
  rw [updateHangman, if_neg fun h0 => h ((get_zero_iff _).mp h0)]
  have hplay : (if isalpha (tolower input) then fsm.initRound.guess (tolower input)
      else (false, false, fsm.initRound)).2.2 = fsm.play input := by
    rw [play]
    split <;> rfl
  dsimp only
  simp only [hplay]
  by_cases hwon : (fsm.play input).revealedWord.toStr = (fsm.play input).hangmanWord.toStr
  · rw [if_pos hwon, if_pos (.inl hwon), finish]
  rw [if_neg hwon]
  by_cases hlost : (fsm.play input).attemptsLeft ≤ 0
  · rw [if_pos hlost, if_pos (.inr hlost), finish]
  have hover : ¬ (fsm.play input).Over := fun h => h.elim hwon hlost
  rw [if_neg hlost, if_neg hover]
  repeat' split
  all_goals rfl

/-! ## What a guess leaves alone -/

@[simp] theorem initRound_state : fsm.initRound.state = fsm.state := by
  unfold initRound; split <;> rfl

@[simp] theorem initRound_hangmanWord : fsm.initRound.hangmanWord = fsm.hangmanWord := by
  unfold initRound; split <;> rfl

@[simp] theorem initRound_initialized : fsm.initRound.hangmanRoundInitialized = true := by
  unfold initRound; split
  · assumption
  · rfl

theorem initRound_of_initialized (h : fsm.hangmanRoundInitialized = true) :
    fsm.initRound = fsm := by
  rw [initRound, if_pos h]

@[simp] theorem guess_state : (fsm.guess c).2.2.state = fsm.state := by
  unfold guess; dsimp only; split
  · rfl
  · split <;> rfl

@[simp] theorem guess_hangmanWord : (fsm.guess c).2.2.hangmanWord = fsm.hangmanWord := by
  unfold guess; dsimp only; split
  · rfl
  · split <;> rfl

@[simp] theorem guess_initialized :
    (fsm.guess c).2.2.hangmanRoundInitialized = fsm.hangmanRoundInitialized := by
  unfold guess; dsimp only; split
  · rfl
  · split <;> rfl

@[simp] theorem play_state (input : UInt8) : (fsm.play input).state = fsm.state := by
  unfold play; split <;> simp

@[simp] theorem play_hangmanWord (input : UInt8) :
    (fsm.play input).hangmanWord = fsm.hangmanWord := by
  unfold play; split <;> simp

@[simp] theorem play_initialized (input : UInt8) :
    (fsm.play input).hangmanRoundInitialized = true := by
  unfold play; split <;> simp

/-- The word on a line. -/
def wordOf (line : Bytes) : Bytes :=
  if (cstr line).getLast? = some NEWLINE then (cstr line).dropLast else cstr line

theorem chooseWord_cons (fsm : HangmanFsm) (line : Bytes) (lines : List Bytes) (rand : List Nat)
    (count : Nat) : fsm.chooseWord (line :: lines) rand count =
      if (wordOf line).length ≤ HANGMAN_MAX_WORD_LENGTH then
        (if rand.headD 0 % (count + 1) = 0 then
          { fsm with hangmanWord := .copyStr _ (wordOf line) } else fsm).chooseWord lines rand.tail
            (count + 1)
      else fsm.chooseWord lines rand count := rfl

/-- The choice of a word changes nothing else. -/
theorem chooseWord_eq (lines : List Bytes) (rand : List Nat) (count : Nat) :
    ∃ word, fsm.chooseWord lines rand count = { fsm with hangmanWord := word } := by
  induction lines generalizing fsm rand count with
  | nil => exact ⟨_, rfl⟩
  | cons line lines ih =>
    rw [chooseWord_cons]
    by_cases hlen : (wordOf line).length ≤ HANGMAN_MAX_WORD_LENGTH
    · rw [if_pos hlen]
      by_cases hr : rand.headD 0 % (count + 1) = 0
      · rw [if_pos hr]
        exact ih rand.tail (count + 1)
      · rw [if_neg hr]
        exact ih rand.tail (count + 1)
    · rw [if_neg hlen]
      exact ih rand count

theorem setRandomWord_eq (fsm : HangmanFsm) (file : Option Bytes) (rand : List Nat) :
    ∃ word, fsm.setRandomWord file rand = { fsm with hangmanWord := word } := by
  unfold setRandomWord
  split
  · exact ⟨_, rfl⟩
  · exact chooseWord_eq _ _ _

@[simp] theorem setRandomWord_initialized (fsm : HangmanFsm) (file : Option Bytes)
    (rand : List Nat) :
    (fsm.setRandomWord file rand).hangmanRoundInitialized = fsm.hangmanRoundInitialized := by
  obtain ⟨word, h⟩ := fsm.setRandomWord_eq file rand
  rw [h]

theorem initRound_with (st : HangmanState) :
    { fsm with state := st }.initRound = { fsm.initRound with state := st } := by
  unfold initRound
  split <;> rfl

theorem guess_with (st : HangmanState) :
    ({ fsm with state := st }.guess c).2.2 = { (fsm.guess c).2.2 with state := st } := by
  have hpos : { fsm with state := st }.positions c = fsm.positions c := rfl
  unfold guess
  rw [hpos]
  dsimp only
  split
  · rfl
  · split <;> rfl

theorem play_with (st : HangmanState) (input : UInt8) :
    { fsm with state := st }.play input = { fsm.play input with state := st } := by
  unfold play
  rw [initRound_with, guess_with]
  split <;> rfl

/-! ## Turns -/

theorem processHangmanState_initial (h : fsm.state = .initial) (input : UInt8) :
    (fsm.processHangmanState file rand input).2 =
      { fsm.setRandomWord file rand with state := .playing } := by
  unfold processHangmanState
  rw [h]

theorem turn_initial (h : fsm.state = .initial) (input : UInt8) :
    fsm.turn file rand input = { fsm.setRandomWord file rand with state := .playing } := by
  rw [turn, processHangmanState_initial h]
  rfl

/-- The turn does nothing if there is no word. -/
theorem turn_nil (h : fsm.state = .playing) (hw : fsm.hangmanWord.toStr = []) (input : UInt8) :
    fsm.turn file rand input = fsm := by
  have hw' : { fsm with state := .update }.hangmanWord.toStr = [] := hw
  rw [turn, processHangmanState, h]
  dsimp only
  rw [updateHangman_nil hw', finishBroadcast, if_pos rfl, ← h]

theorem turn_playing (h : fsm.state = .playing) (hw : fsm.hangmanWord.toStr ≠ []) (input : UInt8) :
    fsm.turn file rand input =
      if (fsm.play input).Over then (fsm.play input).finish else fsm.play input := by
  have hstate : { fsm.play input with state := .playing } = fsm.play input := by
    have hplay := fsm.play_state input
    rw [h] at hplay
    rw [← hplay]
  have hw' : { fsm with state := .update }.hangmanWord.toStr ≠ [] := hw
  rw [turn, processHangmanState, h]
  dsimp only
  rw [updateHangman_snd hw', play_with]
  by_cases hover : (fsm.play input).Over
  · have hover' : { fsm.play input with state := .update }.Over := hover
    rw [if_pos hover, if_pos hover']
    rfl
  · have hover' : ¬ { fsm.play input with state := .update }.Over := hover
    rw [if_neg hover, if_neg hover', finishBroadcast, if_pos rfl]
    exact hstate

theorem turn_update (h : fsm.state = .update) (input : UInt8) :
    fsm.turn file rand input = { fsm with state := .playing } := by
  rw [turn, processHangmanState, h]
  dsimp only
  rw [finishBroadcast, if_pos h]

end HangmanFsm

end SocketSpeak
