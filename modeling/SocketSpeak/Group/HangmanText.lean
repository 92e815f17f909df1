import SocketSpeak.CLib.Lists
import SocketSpeak.Group.Game
import SocketSpeak.Group.HangmanRules
import SocketSpeak.Group.Net

/-!
# What the players are shown

The text that answers a guess is put together from the arrays of the state machine. It is the
picture of the game by its rules (`answers_of_run`).
-/

namespace SocketSpeak
open CLib Sys Rules

/-! ## The picture of a game -/

/-- The game by its rules, as it is drawn: the stage has one part for each wrong letter. -/
def gameBoard (word ls : Bytes) : Bytes :=
  HangmanFsm.hangmanStages.getD (wrong word ls).length [] ++ str "\nWord: " ++
    (reveal word ls).intersperse 0x20 ++ str "\nWrong guesses: " ++
    (if wrong word ls = [] then str "-" else wrong word ls) ++ str "\nAttempts left: " ++
    decimal (HANGMAN_MAX_ATTEMPTS - (wrong word ls).length)

/-- What is said to the guess `c` after the guesses `gs`. -/
def verdict (word gs : Bytes) (c : UInt8) : Bytes :=
  if word.all (· ∈ right word (letters (gs ++ [c]))) then
    str "Correct! You guessed the word: " ++ word ++ str "\n"
  else if HANGMAN_MAX_ATTEMPTS ≤ (wrong word (letters (gs ++ [c]))).length then
    str "Incorrect. Game over! The word was: " ++ word ++ str "\n"
  else if !isalpha (tolower c) then str "Invalid guess. Please enter a letter.\n"
  else if tolower c ∈ letters gs then str "Already guessed '" ++ [tolower c] ++ str "'.\n"
  else if tolower c ∈ word then str "Correct guess: '" ++ [tolower c] ++ str "'.\n"
  else str "Incorrect guess: '" ++ [tolower c] ++ str "'.\n"

/-- The answer to the guess `c` in a game with the word `word` and the guesses `gs`. -/
def gameAnswer (word gs : Bytes) (c : UInt8) : Bytes :=
  str "[Hangman System] " ++ verdict word gs c ++ gameBoard word (letters (gs ++ [c]))

theorem length_wrong_concat_le (word ls : Bytes) (c : UInt8) :
    (wrong word (ls ++ [c])).length ≤ (wrong word ls).length + 1 := by
  by_cases h : c ∈ word ∨ c ∈ ls
  · rw [wrong_concat_of_mem h]
    exact Nat.le_succ _
  · rw [wrong_concat (fun hw => h (.inl hw)) fun hl => h (.inr hl), List.length_append,
      List.length_singleton]

namespace HangmanFsm
variable {fsm : HangmanFsm} {word ls gs : Bytes} {c : UInt8}

theorem maskedWord_eq (hb : Board fsm word ls) (hp : Playable word) :
    fsm.maskedWord = (reveal word ls).intersperse 0x20 := by
  have hlen : fsm.hangmanWord.toStr.length = fsm.revealedWord.toStr.length := by
    rw [hb.word_eq, hb.revealed, length_reveal]
  have htake : fsm.revealedWord.data.take fsm.revealedWord.toStr.length = reveal word ls := by
    rw [← hb.revealed]
    exact (List.prefix_iff_eq_take.mp (List.takeWhile_prefix _)).symm
  have hfree : NulFree ((reveal word ls).intersperse 0x20) := by
    intro h0
    rcases mem_of_mem_intersperse h0 with h0 | h0
    · exact absurd h0 (by decide)
    · exact hp.nulFree_reveal ls h0
  rw [maskedWord, hlen, htake]
  exact hfree.cstr_eq

/-- What the machine draws is the picture of the game. -/
theorem board_eq (hb : Board fsm word ls) (hp : Playable word) :
    fsm.board (wrong word ls).length = gameBoard word ls := by
  have hguessed : (if fsm.guessedLetters.get 0 = 0 then str "-" else fsm.guessedLetters.toStr) =
      if wrong word ls = [] then str "-" else wrong word ls := by
    simp only [get_zero_iff, hb.guessed]
  unfold board gameBoard
  dsimp only
  rw [maskedWord_eq hb hp, hguessed, hb.attempts]

theorem wrongStage_eq (hb : Board fsm word ls)
    (hle : (wrong word ls).length ≤ HANGMAN_MAX_ATTEMPTS) :
    fsm.wrongStage = (wrong word ls).length := by
  rw [wrongStage, hb.attempts]
  omega

/-! ## The answer to a guess -/

/-- Whether the letter was found. -/
theorem guess_found (hb : Board fsm word ls) : (fsm.guess c).1 = decide (c ∈ word) := by
  unfold guess
  dsimp only
  by_cases hc : c ∈ word
  · rw [if_pos ((positions_ne_nil hb.word_eq).mpr hc), decide_eq_true hc]
  · rw [if_neg fun h => hc ((positions_ne_nil hb.word_eq).mp h), decide_eq_false hc]
    split <;> rfl

/-- Whether it had been guessed before. -/
theorem guess_alreadyGuessed (hb : Board fsm word ls) (hne : c ≠ HANGMAN_EMPTY_CHARACTER) :
    (fsm.guess c).2.1 = decide (c ∈ ls) := by
  unfold guess
  dsimp only
  by_cases hc : c ∈ word
  · rw [if_pos ((positions_ne_nil hb.word_eq).mpr hc)]
    exact any_revealed hb hc hne
  · rw [if_neg fun h => hc ((positions_ne_nil hb.word_eq).mp h), hb.guessed]
    have hiff : c ∈ wrong word ls ↔ c ∈ ls := by
      rw [mem_wrong]
      exact and_iff_left hc
    by_cases hls : c ∈ ls
    · rw [if_pos (hiff.mpr hls), decide_eq_true hls]
    · rw [if_neg fun h => hls (hiff.mp h), decide_eq_false hls]

/-- The text that `update_hangman` returns for a guess in a game that is on. -/
theorem updateHangman_fst (hb : Board fsm.initRound word (letters gs)) (hp : Playable word)
    (hends : ¬ Ends word gs) : (fsm.updateHangman c).1 = gameAnswer word gs c := by
  have hfew : (wrong word (letters gs)).length < HANGMAN_MAX_ATTEMPTS :=
    Nat.lt_of_not_le fun h => hends (.inr h)
  -- The machine after the lookup of the letter shows the game after the guess.
  have hplay : Board (fsm.play c) word (letters (gs ++ [c])) := by
    rw [letters_concat, play]
    split
    · rename_i hc
      exact board_guess hb hp hc hfew
    · rw [List.append_nil]
      exact hb
  have hle : (wrong word (letters (gs ++ [c]))).length ≤ HANGMAN_MAX_ATTEMPTS := by
    rw [letters_concat]
    split
    · exact Nat.le_trans (length_wrong_concat_le _ _ _) hfew
    · rw [List.append_nil]
      exact Nat.le_of_lt hfew
  have hstage := wrongStage_eq hplay hle
  have hword : ¬ fsm.hangmanWord.get 0 = 0 := by
    rw [get_zero_iff, ← fsm.initRound_hangmanWord, hb.word_eq]
    exact hp.ne_nil
  have hshown : (fsm.play c).revealedWord.toStr = (fsm.play c).hangmanWord.toStr ↔
      ∀ d ∈ word, d ∈ right word (letters (gs ++ [c])) := by
    rw [hplay.revealed, hplay.word_eq, hp.reveal_eq_iff]
  have hlost : (fsm.play c).attemptsLeft ≤ 0 ↔
      HANGMAN_MAX_ATTEMPTS ≤ (wrong word (letters (gs ++ [c]))).length := by
    rw [hplay.attempts]
    omega
  generalize hg : (if isalpha (tolower c) then fsm.initRound.guess (tolower c)
    else (false, false, fsm.initRound)) = g
  have hfsm : g.2.2 = fsm.play c := by
    rw [← hg, play]
    split <;> rfl
  rw [updateHangman, if_neg hword]
  dsimp only
  rw [hg, hfsm, gameAnswer, verdict]
  simp only [List.all_eq_true, decide_eq_true_eq]
  by_cases hwon : ∀ d ∈ word, d ∈ right word (letters (gs ++ [c]))
  · rw [if_pos (hshown.mpr hwon), if_pos hwon, hstage, board_eq hplay hp, hplay.word_eq]
    simp only [List.append_assoc]
  rw [if_neg fun h => hwon (hshown.mp h), if_neg hwon]
  by_cases hover : HANGMAN_MAX_ATTEMPTS ≤ (wrong word (letters (gs ++ [c]))).length
  · have hfive : HANGMAN_MAX_ATTEMPTS = (wrong word (letters (gs ++ [c]))).length :=
      Nat.le_antisymm hover hle
    rw [if_pos (hlost.mpr hover), if_pos hover, hplay.word_eq]
    conv_lhs => rw [hfive]
    rw [board_eq hplay hp]
    simp only [List.append_assoc]
  rw [if_neg fun h => hover (hlost.mp h), if_neg hover, hstage, board_eq hplay hp]
  by_cases halpha : isalpha (tolower c) = true
  · have hne : tolower c ≠ HANGMAN_EMPTY_CHARACTER := by
      intro h
      rw [h] at halpha
      exact absurd halpha (by decide)
    rw [if_pos halpha] at hg
    rw [← hg, guess_found hb, guess_alreadyGuessed hb hne]
    simp only [halpha, decide_eq_true_eq, List.append_assoc, Bool.not_true, Bool.false_eq_true,
      if_false]
    split
    · rfl
    split <;> rfl
  · simp only [halpha, List.append_assoc, Bool.not_false, if_true]

/-- The text that `process_hangman_state` returns for it. -/
theorem processHangmanState_fst (h : fsm.Shows (.playing word gs)) (file : Option Bytes)
    (rand : List Nat) : (fsm.processHangmanState file rand c).1 =
      gameAnswer word gs c ++ str "\n==================================================" := by
  obtain ⟨hstate, hp, hends, h⟩ := h
  have hb : Board fsm.initRound word (letters gs) := by
    split at h
    · rename_i hgs
      subst hgs
      exact board_initRound h.2 h.1 hp
    · rw [initRound_of_initialized h.initialized]
      exact h
  have hb' : Board { fsm with state := .update }.initRound word (letters gs) := by
    rw [initRound_with]
    exact ⟨hb.word_eq, hb.initialized, hb.revealed, hb.guessed, hb.attempts⟩
  rw [processHangmanState, hstate]
  dsimp only
  rw [updateHangman_fst hb' hp hends]

end HangmanFsm

/-! ## The game on the server -/

/-- The server, and the game that it should be playing by the rules. -/
structure Hosted where
  server : Server
  game : HangmanGame

/-- A guess in a game that is on. -/
def HangmanGame.guess (c : UInt8) : HangmanGame → HangmanGame
  | idle => .idle
  | playing word gs => if Ends word (gs ++ [c]) then .idle else .playing word (gs ++ [c])

namespace Hosted

def start (listener : Int) (info : GroupInfo) : Hosted := ⟨.start listener info, .idle⟩

/-- The word of the game that starts with the event. -/
def picked (h : Hosted) : ServerEvent → Option Bytes
  | .frame i f buf env =>
    if h.server.command (.frame i f buf env) = some .start then
      some (h.server.hangman.setRandomWord env.wordFile env.rand).hangmanWord.toStr
    else none
  | _ => none

def gameAfter (h : Hosted) (e : ServerEvent) : HangmanGame :=
  match h.picked e, h.server.guessed e with
  | some word, _ => .playing word []
  | none, some c => h.game.guess c
  | none, none => h.game

def step (h : Hosted) (e : ServerEvent) : Except Fault Hosted :=
  (h.server.step e).map fun r => ⟨r.2, h.gameAfter e⟩

/-- A game that starts gets a word of 1 to 7 letters in lower case. -/
def StartsPlayable (h : Hosted) (e : ServerEvent) : Prop := ∀ word ∈ h.picked e, Playable word

instance (h : Hosted) (e : ServerEvent) : Decidable (h.StartsPlayable e) :=
  inferInstanceAs (Decidable (∀ word ∈ h.picked e, _))

/-- The text shows the game after its last guess. -/
def Pictures (text word gs : Bytes) : Prop :=
  gs = [] ∧ (∃ nick, text = startText nick) ∨
    ∃ nick before c, gs = before ++ [c] ∧ text = guessText nick c
      (gameAnswer word before c ++ str "\n==================================================")

/-- The machine shows the game, and so does the text that is kept for those who join. -/
structure Sound (h : Hosted) : Prop where
  shows : h.server.hangman.Shows h.game
  pictures : ∀ word gs, h.game = .playing word gs → Pictures h.server.hangmanOldResponse word gs

/-- A guess is answered by the rules, to all who are answered; who joins is shown the game. -/
structure AnswersByRules (h : Hosted) (e : ServerEvent) (out : List Output) : Prop where
  guess : ∀ c ∈ h.server.guessed e, ∃ i f buf env m word gs, e = .frame i f buf env ∧
    h.server.group.member (i - 1) = .ok m ∧ h.game = .playing word gs ∧
    ∀ o ∈ out, o.frame = lmpFrame LMP_GRP_HANGMAN (guessText m.nickname.toStr c
      (gameAnswer word gs c ++ str "\n=================================================="))
  join : h.server.command e = some .join → ∃ word gs text, h.game = .playing word gs ∧
    Pictures text word gs ∧ ∀ o ∈ out, o.frame = lmpFrame LMP_GRP_HANGMAN text

variable {h h' : Hosted} {e : ServerEvent} {out : List Output} {s' : Server}

theorem picked_eq_none (hc : h.server.command e ≠ some .start) : h.picked e = none := by
  cases e with
  | frame => exact if_neg hc
  | _ => rfl

theorem gameAfter_eq_self (hc : h.server.command e ≠ some .start) (hg : h.server.guessed e = none) :
    h.gameAfter e = h.game := by
  rw [gameAfter, picked_eq_none hc, hg]

theorem gameAfter_guess {c : UInt8} (hg : h.server.guessed e = some c) :
    h.gameAfter e = h.game.guess c := by
  have hc : h.server.command e = none := by
    by_contra hne
    rw [Server.guessed_of_command hne] at hg
    cases hg
  rw [gameAfter, picked_eq_none (by rw [hc]; decide), hg]

/-- A game is on unless the machine is in its initial state. -/
theorem Sound.playing (hI : h.Sound) (hne : h.server.hangman.state ≠ .initial) :
    ∃ word gs, h.game = .playing word gs := by
  have hshows := hI.shows
  cases hgame : h.game with
  | idle =>
    rw [hgame] at hshows
    exact absurd hshows.1 hne
  | playing word gs => exact ⟨word, gs, rfl⟩

theorem Sound.idle (hI : h.Sound) (hs : h.server.hangman.state = .initial) : h.game = .idle := by
  have hshows := hI.shows
  cases hgame : h.game with
  | idle => rfl
  | playing word gs =>
    rw [hgame] at hshows
    exact absurd (hshows.1.symm.trans hs) (by decide)

/-- The machine goes on showing the game. -/
theorem Sound.shows_after (hI : h.Sound) (hc : h.StartsPlayable e)
    (hstep : h.server.step e = .ok (out, s')) : s'.hangman.Shows (h.gameAfter e) := by
  cases Server.gameStep_of_step hstep with
  | other hcommand hg hfsm =>
    rw [gameAfter_eq_self (by rw [hcommand]; decide) hg, hfsm]
    exact hI.shows
  | exit i f buf env m _ hcommand _ hfsm =>
    rw [gameAfter_eq_self (by rw [hcommand]; decide)
      (Server.guessed_of_command (by rw [hcommand]; decide)), hfsm]
    exact hI.shows
  | join i f buf env m _ hcommand _ _ hfsm =>
    rw [gameAfter_eq_self (by rw [hcommand]; decide)
      (Server.guessed_of_command (by rw [hcommand]; decide)), hfsm]
    exact hI.shows
  | start i f buf env m he hcommand _ hstate hfsm =>
    subst he
    have hpicked : h.picked (.frame i f buf env) =
        some (h.server.hangman.pick ⟨env.wordFile, env.rand, 0⟩) := if_pos hcommand
    have hshows := hI.shows
    rw [hI.idle hstate] at hshows
    have hturn := hshows.turn (t := ⟨env.wordFile, env.rand, 0⟩) fun _ => hc _ hpicked
    rw [HangmanFsm.turn_initial hstate, ← hfsm] at hturn
    rw [gameAfter, hpicked]
    exact hturn
  | guess i f buf env m c response he hg _ hguess hfsm =>
    obtain ⟨word, gs, hgame⟩ := hI.playing hguess.1
    have hshows := hI.shows
    have hturn := hshows.turn (t := ⟨env.wordFile, env.rand, c⟩) fun hinit =>
      absurd hinit hguess.1
    rw [gameAfter_guess hg, hfsm]
    rw [hgame] at hturn ⊢
    exact hturn

/-- The response to a guess is the answer by the rules. -/
theorem Sound.result (hI : h.Sound) {word gs : Bytes} (hgame : h.game = .playing word gs)
    (file : Option Bytes) (rand : List Nat) (c : UInt8) :
    (h.server.hangman.processHangmanState file rand c).1 =
      gameAnswer word gs c ++ str "\n==================================================" := by
  have hshows := hI.shows
  rw [hgame] at hshows
  exact HangmanFsm.processHangmanState_fst hshows file rand

theorem state_of_guessed {c : UInt8} (hg : h.server.guessed e = some c) :
    h.server.hangman.state ≠ .initial := by
  cases e with
  | accept => cases hg
  | hangup => cases hg
  | frame i f buf env =>
    obtain ⟨-, hg⟩ := Option.ite_none_right_eq_some.mp hg
    split at hg
    · exact (Option.ite_none_right_eq_some.mp hg).1.1.1
    · cases hg

theorem Sound.step (hI : h.Sound) (hc : h.StartsPlayable e) (hstep : h.step e = .ok h') :
    h'.Sound := by
  obtain ⟨⟨out, s'⟩, hs, rfl⟩ := ok_of_map hstep
  refine ⟨hI.shows_after hc hs, fun word gs hgame => ?_⟩
  have hgame : h.gameAfter e = .playing word gs := hgame
  have hsame : h.server.command e ≠ some .start → h.server.guessed e = none →
      s'.hangmanOldResponse = h.server.hangmanOldResponse →
      Pictures s'.hangmanOldResponse word gs := by
    intro hcommand hg hold
    rw [gameAfter_eq_self hcommand hg] at hgame
    rw [hold]
    exact hI.pictures word gs hgame
  cases Server.gameStep_of_step hs with
  | other hcommand hg _ _ hold => exact hsame (by simp [hcommand]) hg hold
  | exit i f buf env m he hcommand _ _ _ hold =>
    exact hsame (by simp [hcommand]) (Server.guessed_of_command (by simp [hcommand])) hold
  | join i f buf env m he hcommand _ _ _ _ hold =>
    exact hsame (by simp [hcommand]) (Server.guessed_of_command (by simp [hcommand])) hold
  | start i f buf env m he hcommand _ _ _ _ hold =>
    subst he
    have hpicked : h.picked (.frame i f buf env) =
        some (h.server.hangman.setRandomWord env.wordFile env.rand).hangmanWord.toStr :=
      if_pos hcommand
    rw [gameAfter, hpicked] at hgame
    cases hgame
    exact .inl ⟨rfl, m.nickname.toStr, hold⟩
  | guess i f buf env m c response he hg _ _ _ _ _ hresponse hold =>
    obtain ⟨word₀, before, hbefore⟩ := hI.playing (state_of_guessed hg)
    rw [gameAfter_guess hg, hbefore, HangmanGame.guess] at hgame
    split at hgame
    · cases hgame
    · cases hgame
      refine .inr ⟨m.nickname.toStr, before, c, rfl, ?_⟩
      rw [← hI.result hbefore env.wordFile env.rand c]
      exact hold.trans hresponse

theorem Sound.answers (hI : h.Sound) (hs : h.server.step e = .ok (out, s')) :
    h.AnswersByRules e out := by
  refine ⟨fun c hc => ?_, fun hc => ?_⟩
  · cases Server.gameStep_of_step hs with
    | guess i f buf env m c' response he hg hm _ _ hout _ hresponse =>
      rw [hg] at hc
      cases hc
      obtain ⟨word, gs, hgame⟩ := hI.playing (state_of_guessed hg)
      refine ⟨i, f, buf, env, m, word, gs, he, hm, hgame, fun o ho => ?_⟩
      rw [Server.frame_of_sendToPlayers hout o ho, hresponse, hI.result hgame]
    | other _ hg =>
      rw [hg] at hc
      cases hc
    | start i f buf env m _ hcommand | exit i f buf env m _ hcommand
    | join i f buf env m _ hcommand =>
      rw [Server.guessed_of_command (by simp [hcommand])] at hc
      cases hc
  · cases Server.gameStep_of_step hs with
    | join i f buf env m _ _ _ hne _ _ _ hout =>
      obtain ⟨word, gs, hgame⟩ := hI.playing hne
      exact ⟨word, gs, _, hgame, hI.pictures word gs hgame, hout⟩
    | other hcommand =>
      rw [hcommand] at hc
      cases hc
    | start i f buf env m _ hcommand | exit i f buf env m _ hcommand =>
      rw [hcommand] at hc
      cases hc
    | guess i f buf env m c response _ hg =>
      rw [Server.guessed_of_command (by simp [hc])] at hg
      cases hg

/-- Whatever the clients do, and over any number of games: what is sent in answer to a guess is the
picture of the game by the rules, and what is sent to one who joins shows the game after its last
guess. -/
theorem answers_of_run {hd : Hosted} {es : List ServerEvent} {listener : Int} {info : GroupInfo}
    (hc : Meets step StartsPlayable (start listener info) es)
    (h : exec step (start listener info) es = .ok hd) (hs : hd.server.step e = .ok (out, s')) :
    hd.AnswersByRules e out := by
  have hstart : (start listener info).Sound :=
    ⟨⟨rfl, rfl⟩, fun _ _ hgame => by cases hgame⟩
  have hsound : hd.Sound :=
    exec_invariant (I := Sound) (fun _ _ _ hI hc hstep => hI.step hc hstep) hstart hc h
  exact hsound.answers hs

/-- ann starts a game with the word `ab` and guesses a letter that is not in it. -/
def annGuesses : List ServerEvent :=
  [.accept 5, .frame 1 (initFrame (userMemberInfo (str "a0000001") (str "ann"))) [] .allOk,
    .frame 1 (lmpFrame LMP_GRP_HANGMAN (str "start")) []
      { Env.allOk with wordFile := some (str "ab\n") },
    .frame 1 (lmpFrame LMP_MSG (str "z")) [] .allOk]

theorem answers_of_run_annGuesses :
    let e := ServerEvent.frame 1 (lmpFrame LMP_MSG (str "B")) [] .allOk
    ∃ hd r, exec step (start 3 gserverInfo) annGuesses = .ok hd ∧ hd.server.step e = .ok r ∧
      hd.game = .playing (str "ab") (str "z") ∧ r.1 ≠ [] ∧ hd.AnswersByRules e r.1 := by
  intro e
  have hc : Meets step StartsPlayable (start 3 gserverInfo) annGuesses := by decide +kernel
  have hrun : (exec step (start 3 gserverInfo) annGuesses).isOk := by decide +kernel
  obtain ⟨hd, h, hgame, hok, hout⟩ := exists_ok (P := fun hd =>
    hd.game = .playing (str "ab") (str "z") ∧ (hd.server.step e).isOk ∧
      ∀ r ∈ (hd.server.step e).toOption, r.1 ≠ []) hrun (by decide +kernel)
  obtain ⟨⟨out, s'⟩, hs, hne⟩ := exists_ok hok hout
  exact ⟨hd, ⟨out, s'⟩, h, hs, hgame, hne, answers_of_run hc h hs⟩

end Hosted

end SocketSpeak
