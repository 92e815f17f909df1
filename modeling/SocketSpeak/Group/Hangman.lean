import SocketSpeak.CLib.Stdio

/-!
# Hangman

The state machine of the game. The word file and the values of `rand` are inputs.
-/

namespace SocketSpeak
open CLib

def HANGMAN_MAX_WORD_LENGTH : Nat := 7
def HANGMAN_MAX_ATTEMPTS : Nat := 5
def HANGMAN_EMPTY_CHARACTER : UInt8 := 0x5F

/-- `STATE_HANGMAN` -/
inductive HangmanState where
  | initial
  | playing
  | update
  deriving DecidableEq

/-- `HANGMAN_FSM` -/
structure HangmanFsm where
  state : HangmanState
  hangmanWord : CharArray (HANGMAN_MAX_WORD_LENGTH + 1)
  guessedLetters : CharArray (HANGMAN_MAX_ATTEMPTS + 1)
  attemptsLeft : Int
  revealedWord : CharArray (HANGMAN_MAX_WORD_LENGTH + 1)
  hangmanRoundInitialized : Bool
  deriving DecidableEq

namespace HangmanFsm

/-- The global `hangman_fsm` at the start of the program. -/
def zero : HangmanFsm := ⟨.initial, .zero _, .zero _, 0, .zero _, false⟩

def hangmanStages : List Bytes := [
  str ("  +---+\n" ++ "  |   |\n" ++ "      |\n" ++ "      |\n" ++ "      |\n" ++ "      |\n" ++
    "========="),
  str ("  +---+\n" ++ "  |   |\n" ++ "  O   |\n" ++ "      |\n" ++ "      |\n" ++ "      |\n" ++
    "========="),
  str ("  +---+\n" ++ "  |   |\n" ++ "  O   |\n" ++ "  |   |\n" ++ "      |\n" ++ "      |\n" ++
    "========="),
  str ("  +---+\n" ++ "  |   |\n" ++ "  O   |\n" ++ " /|   |\n" ++ "      |\n" ++ "      |\n" ++
    "========="),
  str ("  +---+\n" ++ "  |   |\n" ++ "  O   |\n" ++ " /|\\  |\n" ++ "      |\n" ++ "      |\n" ++
    "========="),
  str ("  +---+\n" ++ "  |   |\n" ++ "  O   |\n" ++ " /|\\  |\n" ++ " / \\  |\n" ++ "      |\n" ++
    "=========")]

/-- The first guess of a round hides the word and gives all attempts. -/
def initRound (fsm : HangmanFsm) : HangmanFsm :=
  if fsm.hangmanRoundInitialized then fsm
  else
    let wordLength := fsm.hangmanWord.toStr.length
    { fsm with
      revealedWord := (fsm.revealedWord.memset HANGMAN_EMPTY_CHARACTER wordLength).set wordLength 0
      guessedLetters := .zero _
      attemptsLeft := HANGMAN_MAX_ATTEMPTS
      hangmanRoundInitialized := true }

/-- The positions of the word at which `c` stands. -/
def positions (fsm : HangmanFsm) (c : UInt8) : List Nat :=
  (List.range fsm.hangmanWord.toStr.length).filter fun i => fsm.hangmanWord.get i = c

/-- What the guess `c`, a lower case letter, does: whether it was found, whether it had been guessed
before, and the state. -/
def guess (fsm : HangmanFsm) (c : UInt8) : Bool × Bool × HangmanFsm :=
  let is := fsm.positions c
  if is ≠ [] then
    let alreadyGuessed := is.any fun i => fsm.revealedWord.get i = c
    let revealed :=
      if alreadyGuessed then fsm.revealedWord else is.foldl (·.set · c) fsm.revealedWord
    (true, alreadyGuessed, { fsm with revealedWord := revealed })
  else
    let guessed := fsm.guessedLetters.toStr
    if c ∈ guessed then (false, true, fsm)
    else
      let i := guessed.length
      (false, false, { fsm with
        guessedLetters := if i < HANGMAN_MAX_ATTEMPTS then
          (fsm.guessedLetters.set i c).set (i + 1) 0 else fsm.guessedLetters
        attemptsLeft := if 0 < fsm.attemptsLeft then fsm.attemptsLeft - 1 else fsm.attemptsLeft })

/-- The letters of the revealed word, with blanks between them. -/
def maskedWord (fsm : HangmanFsm) : Bytes :=
  cstr ((fsm.revealedWord.data.take fsm.hangmanWord.toStr.length).intersperse 0x20)

/-- The end of every response: the stage, the word, the wrong guesses and the attempts left. -/
def board (fsm : HangmanFsm) (stage : Nat) : Bytes :=
  let wrongGuesses := if fsm.guessedLetters.get 0 = 0 then str "-" else fsm.guessedLetters.toStr
  hangmanStages.getD stage [] ++ str "\nWord: " ++ fsm.maskedWord ++ str "\nWrong guesses: " ++
    wrongGuesses ++ str "\nAttempts left: " ++ decimal fsm.attemptsLeft

/-- `HANGMAN_MAX_ATTEMPTS - attempts_left`, kept within the list of stages. -/
def wrongStage (fsm : HangmanFsm) : Nat :=
  min (HANGMAN_MAX_ATTEMPTS - fsm.attemptsLeft).toNat HANGMAN_MAX_ATTEMPTS

/-- `update_hangman(fsm, input)`: the response, and the state. -/
def updateHangman (fsm : HangmanFsm) (input : UInt8) : Bytes × HangmanFsm :=
  let initial := str "[Hangman System] "
  if fsm.hangmanWord.get 0 = 0 then (str "No word selected for hangman.", fsm)
  else
    let fsm := fsm.initRound
    let normalizedInput := tolower input
    let (foundLetter, alreadyGuessed, fsm) :=
      if isalpha normalizedInput then fsm.guess normalizedInput else (false, false, fsm)
    if fsm.revealedWord.toStr = fsm.hangmanWord.toStr then
      (initial ++ str "Correct! You guessed the word: " ++ fsm.hangmanWord.toStr ++ str "\n" ++
          fsm.board fsm.wrongStage,
        { fsm with state := .initial, hangmanRoundInitialized := false })
    else if fsm.attemptsLeft ≤ 0 then
      (initial ++ str "Incorrect. Game over! The word was: " ++ fsm.hangmanWord.toStr ++ str "\n" ++
          fsm.board HANGMAN_MAX_ATTEMPTS,
        { fsm with state := .initial, hangmanRoundInitialized := false })
    else if !isalpha normalizedInput then
      (initial ++ str "Invalid guess. Please enter a letter.\n" ++ fsm.board fsm.wrongStage, fsm)
    else if alreadyGuessed then
      (initial ++ str "Already guessed '" ++ [normalizedInput] ++ str "'.\n" ++
        fsm.board fsm.wrongStage, fsm)
    else if foundLetter then
      (initial ++ str "Correct guess: '" ++ [normalizedInput] ++ str "'.\n" ++
        fsm.board fsm.wrongStage, fsm)
    else
      (initial ++ str "Incorrect guess: '" ++ [normalizedInput] ++ str "'.\n" ++
        fsm.board fsm.wrongStage, fsm)

/-- The loop of `set_random_word`: the lines that are left, the values of `rand` that are left, and
`count`, an `int` that does not overflow: the file has at most `INT_MAX` lines that fit. -/
def chooseWord (fsm : HangmanFsm) : List Bytes → List Nat → Nat → HangmanFsm
  | [], _, _ => fsm
  | line :: lines, rand, count =>
    let line := cstr line
    let word := if line.getLast? = some NEWLINE then line.dropLast else line
    if word.length ≤ HANGMAN_MAX_WORD_LENGTH then
      let fsm := if rand.headD 0 % (count + 1) = 0 then
        { fsm with hangmanWord := .copyStr _ word } else fsm
      chooseWord fsm lines rand.tail (count + 1)
    else chooseWord fsm lines rand count

/-- `set_random_word(fsm)`; `file` is the word file, if it can be opened. -/
def setRandomWord (file : Option Bytes) (rand : List Nat) (fsm : HangmanFsm) : HangmanFsm :=
  match file with
  | none => fsm
  | some file => fsm.chooseWord (fgetsAll 1024 file) rand 0

/-- `process_hangman_state(fsm, input)` -/
def processHangmanState (file : Option Bytes) (rand : List Nat) (fsm : HangmanFsm) (input : UInt8) :
    Bytes × HangmanFsm :=
  match fsm.state with
  | .initial =>
    (str "Welcome to Hangman! Guess a letter to start playing.",
      { fsm.setRandomWord file rand with state := .playing })
  | .playing =>
    let (response, fsm) := { fsm with state := .update }.updateHangman input
    (response ++ str "\n==================================================", fsm)
  | .update => (str "Game is updating..., please wait for your turn.", fsm)

/-- `hangman_finish_broadcast(fsm)` -/
def finishBroadcast (fsm : HangmanFsm) : HangmanFsm :=
  if fsm.state = .update then { fsm with state := .playing } else fsm

end HangmanFsm

end SocketSpeak
