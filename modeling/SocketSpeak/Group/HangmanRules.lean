import SocketSpeak.Group.HangmanTurn

/-!
# The rules of Hangman

A game is its word and what has been guessed in it. `HangmanFsm` spreads that over a masked string,
a list of wrong letters, a counter and two flags, and reuses them for the next game; it shows the
game by the rules nevertheless (`hangman_refines`).
-/

namespace SocketSpeak
open CLib Sys

/-! ## Guessing the letters of a word -/

namespace Rules
variable {α : Type*} [DecidableEq α]

/-- The letters of the word that have been guessed, in the order of the first guess. -/
def right (word gs : List α) : List α := (gs.filter (· ∈ word)).eraseDups

/-- The other letters that have been guessed, in the order of the first guess. -/
def wrong (word gs : List α) : List α := (gs.filter (· ∉ word)).eraseDups

variable {word gs : List α} {c : α}

theorem mem_right : c ∈ right word gs ↔ c ∈ gs ∧ c ∈ word := by
  simp [right, List.mem_eraseDups]

theorem mem_wrong : c ∈ wrong word gs ↔ c ∈ gs ∧ c ∉ word := by
  simp [wrong, List.mem_eraseDups]

theorem eraseDups_concat (l : List α) (c : α) :
    (l ++ [c]).eraseDups = if c ∈ l then l.eraseDups else l.eraseDups ++ [c] := by
  rw [List.eraseDups_append]
  split
  · rename_i h
    simp [List.removeAll, h]
  · rename_i h
    simp [List.removeAll, h, List.eraseDups_cons]

theorem wrong_concat_of_mem (h : c ∈ word ∨ c ∈ gs) : wrong word (gs ++ [c]) = wrong word gs := by
  unfold wrong
  rw [List.filter_append]
  by_cases hw : c ∈ word
  · simp [hw]
  · have hmem : c ∈ gs.filter (· ∉ word) := by simp [hw, h.resolve_left hw]
    simp only [hw, not_false_eq_true, decide_true, List.filter_cons_of_pos, List.filter_nil]
    rw [eraseDups_concat, if_pos hmem]

theorem wrong_concat (hw : c ∉ word) (hg : c ∉ gs) :
    wrong word (gs ++ [c]) = wrong word gs ++ [c] := by
  unfold wrong
  rw [List.filter_append]
  simp only [hw, not_false_eq_true, decide_true, List.filter_cons_of_pos, List.filter_nil]
  rw [eraseDups_concat, if_neg]
  simp [hg]

end Rules

/-! ## What the machine shows -/

open Rules

/-- The letters among the guesses, in lower case. -/
def letters (gs : Bytes) : Bytes := (gs.map tolower).filter isalpha

theorem letters_concat (gs : Bytes) (c : UInt8) :
    letters (gs ++ [c]) = letters gs ++ if isalpha (tolower c) then [tolower c] else [] := by
  rw [letters, List.map_append, List.filter_append, letters]
  congr 1
  simp only [List.map_cons, List.map_nil, List.filter_cons, List.filter_nil]

/-- The word with its letters hidden that are not among `ls`. -/
def reveal (word ls : Bytes) : Bytes :=
  word.map fun c => if c ∈ right word ls then c else HANGMAN_EMPTY_CHARACTER

/-- The word has 1 to 7 letters, in lower case. -/
structure Playable (word : Bytes) : Prop where
  ne_nil : word ≠ []
  length_le : word.length ≤ HANGMAN_MAX_WORD_LENGTH
  lower : ∀ c ∈ word, 0x61 ≤ c ∧ c ≤ 0x7A

variable {word ls : Bytes} {c : UInt8}

@[simp] theorem length_reveal (word ls : Bytes) : (reveal word ls).length = word.length :=
  List.length_map _

theorem getD_reveal {i : Nat} (hi : i < word.length) : (reveal word ls).getD i 0 =
    if word.getD i 0 ∈ ls then word.getD i 0 else HANGMAN_EMPTY_CHARACTER := by
  have hmem : word[i] ∈ word := List.getElem_mem hi
  simp [reveal, List.getD_eq_getElem?_getD, hi, mem_right, hmem]

theorem Playable.nulFree (h : Playable word) : NulFree word := fun h0 =>
  absurd (h.lower 0 h0).1 (by decide)

theorem Playable.nulFree_reveal (h : Playable word) (ls : Bytes) : NulFree (reveal word ls) := by
  intro h0
  obtain ⟨c, hc, h0⟩ := List.mem_map.mp h0
  split at h0
  · exact h.nulFree (h0 ▸ hc)
  · exact absurd h0 (by decide)

/-- The word is shown once all of its letters have been guessed. -/
theorem Playable.reveal_eq_iff (h : Playable word) :
    reveal word ls = word ↔ ∀ c ∈ word, c ∈ right word ls := by
  have hid : reveal word ls = word ↔
      ∀ c ∈ word, (if c ∈ right word ls then c else HANGMAN_EMPTY_CHARACTER) = c := by
    conv_lhs => rhs; rw [← List.map_id word]
    exact List.map_inj_left
  rw [hid]
  apply forall₂_congr
  intro c hc
  split
  · rename_i hr
    exact ⟨fun _ => hr, fun _ => rfl⟩
  · rename_i hr
    refine ⟨fun he => ?_, fun hr' => absurd hr' hr⟩
    have hlow := h.lower c hc
    rw [← he] at hlow
    exact absurd hlow.1 (by decide)

/-- The machine shows the word and the letters `ls` that have been guessed. -/
structure Board (fsm : HangmanFsm) (word ls : Bytes) : Prop where
  word_eq : fsm.hangmanWord.toStr = word
  initialized : fsm.hangmanRoundInitialized = true
  revealed : fsm.revealedWord.toStr = reveal word ls
  guessed : fsm.guessedLetters.toStr = wrong word ls
  attempts : fsm.attemptsLeft = HANGMAN_MAX_ATTEMPTS - (wrong word ls).length

namespace HangmanFsm
variable {fsm : HangmanFsm}

theorem board_initRound (h : fsm.hangmanRoundInitialized = false)
    (hw : fsm.hangmanWord.toStr = word) (hp : Playable word) : Board fsm.initRound word [] := by
  have hlen := hp.length_le
  simp only [HANGMAN_MAX_WORD_LENGTH] at hlen
  unfold initRound
  rw [if_neg (by simp [h])]
  refine ⟨hw, rfl, ?_, by rw [CharArray.toStr_zero]; rfl, rfl⟩
  dsimp only
  rw [hw]
  refine CharArray.toStr_eq_iff.mpr ⟨hp.nulFree_reveal _, fun i hi => ?_⟩
  rw [length_reveal] at hi
  rw [CharArray.get_set]
  by_cases hlast : i = word.length
  · rw [if_pos ⟨hlast, by simp only [HANGMAN_MAX_WORD_LENGTH]; omega⟩, hlast]
    simp [List.getD_eq_getElem?_getD]
  · have hi' : i < word.length := by omega
    rw [if_neg fun h => hlast h.1, getD_reveal hi', if_neg List.not_mem_nil]
    exact CharArray.get_memset _ _ hi' (by simp only [HANGMAN_MAX_WORD_LENGTH]; omega)

/-! ## The guess of a letter -/

theorem mem_positions {i : Nat} (hw : fsm.hangmanWord.toStr = word) :
    i ∈ fsm.positions c ↔ i < word.length ∧ word.getD i 0 = c := by
  rw [positions, List.mem_filter, List.mem_range, hw]
  apply and_congr_right
  intro hi
  rw [decide_eq_true_iff, CharArray.get_toStr _ (by rw [hw]; omega), hw]

theorem getD_of_lt {i : Nat} (hi : i < word.length) : word.getD i 0 = word[i] := by
  simp [List.getD_eq_getElem?_getD, hi]

theorem positions_ne_nil (hw : fsm.hangmanWord.toStr = word) :
    fsm.positions c ≠ [] ↔ c ∈ word := by
  constructor
  · intro hne
    obtain ⟨i, hi⟩ := List.exists_mem_of_ne_nil _ hne
    obtain ⟨hlt, rfl⟩ := (mem_positions hw).mp hi
    rw [getD_of_lt hlt]
    exact List.getElem_mem hlt
  · intro hc
    obtain ⟨i, hi, rfl⟩ := List.getElem_of_mem hc
    exact List.ne_nil_of_mem ((mem_positions hw).mpr ⟨hi, getD_of_lt hi⟩)

theorem get_foldl_set (is : List Nat) (a : CharArray n) (j : Nat) :
    (is.foldl (fun a i => a.set i c) a).get j = if j ∈ is ∧ j < n then c else a.get j := by
  induction is generalizing a with
  | nil => simp
  | cons i is ih =>
    rw [List.foldl_cons, ih, CharArray.get_set]
    by_cases hj : j = i
    · subst hj
      by_cases hn : j < n <;> simp [hn]
    · simp [hj]

/-- A letter of the word is shown wherever it stands. -/
theorem board_right (hb : Board fsm word ls) (hp : Playable word) :
    ((fsm.positions c).foldl (fun a i => a.set i c) fsm.revealedWord).toStr =
      reveal word (ls ++ [c]) := by
  have hlen := hp.length_le
  simp only [HANGMAN_MAX_WORD_LENGTH] at hlen
  refine CharArray.toStr_eq_iff.mpr ⟨hp.nulFree_reveal _, fun i hi => ?_⟩
  rw [length_reveal] at hi
  have hrevealed : fsm.revealedWord.get i = (reveal word ls).getD i 0 := by
    rw [CharArray.get_toStr _ (by rw [hb.revealed, length_reveal]; exact hi), hb.revealed]
  rw [get_foldl_set, hrevealed]
  simp only [mem_positions hb.word_eq]
  by_cases hlt : i < word.length
  · rw [getD_reveal hlt, getD_reveal hlt]
    by_cases hi' : word.getD i 0 = c
    · rw [if_pos ⟨⟨hlt, hi'⟩, by simp only [HANGMAN_MAX_WORD_LENGTH]; omega⟩, hi', if_pos (by simp)]
    · rw [if_neg fun h => hi' h.1.2]
      simp only [List.mem_append, List.mem_singleton, hi', or_false]
  · obtain rfl : i = word.length := by omega
    rw [if_neg fun h => hlt h.1.1]
    simp [List.getD_eq_getElem?_getD, reveal]

/-- A letter has been shown if it has been guessed. -/
theorem any_revealed (hb : Board fsm word ls) (hc : c ∈ word) (hne : c ≠ HANGMAN_EMPTY_CHARACTER) :
    ((fsm.positions c).any fun i => fsm.revealedWord.get i = c) = decide (c ∈ ls) := by
  have hget : ∀ i ∈ fsm.positions c, (fsm.revealedWord.get i = c ↔ c ∈ ls) := by
    intro i hi
    obtain ⟨hlt, hword⟩ := (mem_positions hb.word_eq).mp hi
    rw [CharArray.get_toStr _ (by rw [hb.revealed, length_reveal]; omega), hb.revealed,
      getD_reveal hlt, hword]
    split
    · rename_i hm
      exact ⟨fun _ => hm, fun _ => rfl⟩
    · rename_i hm
      exact ⟨fun he => absurd he.symm hne, fun h => absurd h hm⟩
  obtain ⟨i, hi⟩ := List.exists_mem_of_ne_nil _ ((positions_ne_nil hb.word_eq).mpr hc)
  rw [Bool.eq_iff_iff, List.any_eq_true]
  simp only [decide_eq_true_iff]
  constructor
  · rintro ⟨j, hj, he⟩
    exact (hget j hj).mp he
  · intro hm
    exact ⟨i, hi, (hget i hi).mpr hm⟩

/-- A wrong letter is appended to the list. -/
theorem board_wrong (hb : Board fsm word ls) (hc : c ∉ word) (hnew : c ∉ ls) (hc0 : c ≠ 0)
    (hfew : (wrong word ls).length < HANGMAN_MAX_ATTEMPTS) :
    ((fsm.guessedLetters.set (wrong word ls).length c).set ((wrong word ls).length + 1) 0).toStr =
      wrong word (ls ++ [c]) := by
  have hlen : fsm.guessedLetters.toStr.length + 1 < HANGMAN_MAX_ATTEMPTS + 1 := by
    rw [hb.guessed]
    omega
  have hset := fsm.guessedLetters.toStr_set_append hc0 hlen
  rw [hb.guessed] at hset
  rw [hset, wrong_concat hc hnew]

/-- A letter is not shown anew if it has been guessed, or is not in the word. -/
theorem reveal_concat (hc : c ∈ ls ∨ c ∉ word) : reveal word (ls ++ [c]) = reveal word ls := by
  apply List.map_inj_left.mpr
  intro d hd
  have hiff : d ∈ right word (ls ++ [c]) ↔ d ∈ right word ls := by
    rw [mem_right, mem_right, List.mem_append, List.mem_singleton]
    refine and_congr_left fun _ => ⟨fun h => ?_, .inl⟩
    rcases h with h | rfl
    · exact h
    · exact hc.resolve_right fun hno => hno hd
  simp only [hiff]

/-- The guess of a letter that has been guessed before changes nothing. -/
theorem guess_of_mem (hb : Board fsm word ls) (hc : c ∈ ls) (hne : c ≠ HANGMAN_EMPTY_CHARACTER) :
    (fsm.guess c).2.2 = fsm := by
  unfold guess
  by_cases hw : c ∈ word
  · have hpos := (positions_ne_nil hb.word_eq).mpr hw
    have hany := any_revealed hb hw hne
    rw [decide_eq_true hc] at hany
    dsimp only
    rw [if_pos hpos, hany]
    rfl
  · have hpos : ¬ fsm.positions c ≠ [] := fun h => hw ((positions_ne_nil hb.word_eq).mp h)
    have hmem : c ∈ fsm.guessedLetters.toStr := by
      rw [hb.guessed]
      exact mem_wrong.mpr ⟨hc, hw⟩
    dsimp only
    rw [if_neg hpos, if_pos hmem]

/-- The guess of a letter is shown on the board. -/
theorem board_guess (hb : Board fsm word ls) (hp : Playable word) (hc : isalpha c = true)
    (hfew : (wrong word ls).length < HANGMAN_MAX_ATTEMPTS) :
    Board (fsm.guess c).2.2 word (ls ++ [c]) := by
  have hne : c ≠ HANGMAN_EMPTY_CHARACTER := by
    rintro rfl
    exact absurd hc (by decide)
  have hc0 : c ≠ 0 := by
    rintro rfl
    exact absurd hc (by decide)
  by_cases hnew : c ∈ ls
  · rw [guess_of_mem hb hnew hne]
    have hwrong : wrong word (ls ++ [c]) = wrong word ls := wrong_concat_of_mem (.inr hnew)
    exact ⟨hb.word_eq, hb.initialized, by rw [reveal_concat (.inl hnew), hb.revealed],
      by rw [hwrong, hb.guessed], by rw [hwrong, hb.attempts]⟩
  by_cases hw : c ∈ word
  · have hpos := (positions_ne_nil hb.word_eq).mpr hw
    have hany := any_revealed hb hw hne
    rw [decide_eq_false hnew] at hany
    unfold guess
    dsimp only
    rw [if_pos hpos, hany]
    have hwrong : wrong word (ls ++ [c]) = wrong word ls := wrong_concat_of_mem (.inl hw)
    exact ⟨hb.word_eq, hb.initialized, board_right hb hp, by rw [hwrong, hb.guessed],
      by rw [hwrong, hb.attempts]⟩
  · have hpos : ¬ fsm.positions c ≠ [] := fun h => hw ((positions_ne_nil hb.word_eq).mp h)
    have hmem : c ∉ fsm.guessedLetters.toStr := by
      rw [hb.guessed]
      exact fun h => hnew (mem_wrong.mp h).1
    have hattempts : 0 < fsm.attemptsLeft := by
      rw [hb.attempts]
      omega
    unfold guess
    dsimp only
    rw [if_neg hpos, if_neg hmem, hb.guessed]
    refine ⟨hb.word_eq, hb.initialized, by rw [reveal_concat (.inr hw)]; exact hb.revealed, ?_, ?_⟩
    · dsimp only
      rw [if_pos hfew]
      exact board_wrong hb hw hnew hc0 hfew
    · dsimp only
      rw [if_pos hattempts, hb.attempts, wrong_concat hw hnew, List.length_append,
        List.length_singleton]
      omega

end HangmanFsm

/-! ## Whole games -/

/-- All letters of the word have been guessed, or the last attempt was wrong. -/
def Ends (word gs : Bytes) : Prop :=
  (∀ c ∈ word, c ∈ right word (letters gs)) ∨
    HANGMAN_MAX_ATTEMPTS ≤ (wrong word (letters gs)).length

instance (word gs : Bytes) : Decidable (Ends word gs) := inferInstanceAs (Decidable (_ ∨ _))

/-- A game by its rules: its word and the guesses so far. -/
inductive HangmanGame where
  | idle
  | playing (word gs : Bytes)
  deriving DecidableEq

/-- A guess; the first one when no game is on starts one with `pick`. -/
def HangmanGame.step (pick : Bytes) (c : UInt8) : HangmanGame → HangmanGame
  | idle => .playing pick []
  | playing word gs => if Ends word (gs ++ [c]) then .idle else .playing word (gs ++ [c])

/-- The machine is in the state that the game is in. Before the first guess of a game nothing is
known of what the machine shows. -/
def HangmanFsm.Shows (fsm : HangmanFsm) : HangmanGame → Prop
  | .idle => fsm.state = .initial ∧ fsm.hangmanRoundInitialized = false
  | .playing word gs => fsm.state = .playing ∧ Playable word ∧ ¬ Ends word gs ∧
    if gs = [] then fsm.hangmanWord.toStr = word ∧ fsm.hangmanRoundInitialized = false
    else Board fsm word (letters gs)

/-- The inputs of a turn: the word file, the values of `rand`, and the guess. -/
structure HangmanTurn where
  file : Option Bytes
  rand : List Nat
  guess : UInt8

namespace HangmanFsm
variable {fsm : HangmanFsm} {gs : Bytes} {t : HangmanTurn}

/-- The word that would be taken if a game started. -/
def pick (fsm : HangmanFsm) (t : HangmanTurn) : Bytes :=
  (fsm.setRandomWord t.file t.rand).hangmanWord.toStr

/-- A turn of the machine beside one of the game. -/
def turns (s : HangmanFsm × HangmanGame) (t : HangmanTurn) :
    Except Empty (HangmanFsm × HangmanGame) :=
  .ok (s.1.turn t.file t.rand t.guess, s.2.step (s.1.pick t) t.guess)

/-- A game that starts has a word of 1 to 7 letters in lower case. -/
def StartsPlayable (s : HangmanFsm × HangmanGame) (t : HangmanTurn) : Prop :=
  s.1.state = .initial → Playable (s.1.pick t)

instance (word : Bytes) : Decidable (Playable word) :=
  have : Decidable (∀ c ∈ word, 0x61 ≤ c ∧ c ≤ 0x7A) := List.decidableBAll _ _
  decidable_of_iff (word ≠ [] ∧ word.length ≤ HANGMAN_MAX_WORD_LENGTH ∧
      ∀ c ∈ word, 0x61 ≤ c ∧ c ≤ 0x7A)
    ⟨fun h => ⟨h.1, h.2.1, h.2.2⟩, fun h => ⟨h.1, h.2, h.3⟩⟩

instance (s : HangmanFsm × HangmanGame) (t : HangmanTurn) : Decidable (StartsPlayable s t) :=
  inferInstanceAs (Decidable (_ → _))

theorem not_ends_nil (hp : Playable word) : ¬ Ends word [] := by
  rintro (h | h)
  · obtain ⟨c, hc⟩ := List.exists_mem_of_ne_nil _ hp.ne_nil
    exact absurd (mem_right.mp (h c hc)).1 List.not_mem_nil
  · exact absurd h (Nat.not_le_of_lt (Nat.zero_lt_succ _))

theorem over_iff (hb : Board fsm word (letters gs)) (hp : Playable word) :
    fsm.Over ↔ Ends word gs := by
  unfold Over Ends
  rw [hb.revealed, hb.word_eq, hp.reveal_eq_iff, hb.attempts]
  apply or_congr_right
  omega

theorem Shows.word_eq (h : fsm.Shows (.playing word gs)) : fsm.hangmanWord.toStr = word := by
  obtain ⟨-, -, -, h⟩ := h
  split at h
  · exact h.1
  · exact h.word_eq

/-- After the lookup of a guess, the first one included, the machine shows the board. -/
theorem board_play (h : fsm.Shows (.playing word gs)) (c : UInt8) :
    Board (fsm.play c) word (letters (gs ++ [c])) := by
  obtain ⟨hstate, hp, hends, h⟩ := h
  have hinit : Board fsm.initRound word (letters gs) := by
    split at h
    · rename_i hgs
      subst hgs
      exact board_initRound h.2 h.1 hp
    · rw [initRound_of_initialized h.initialized]
      exact h
  rw [letters_concat, play]
  split
  · rename_i hc
    exact board_guess hinit hp hc (Nat.lt_of_not_le fun hl => hends (.inr hl))
  · rw [List.append_nil]
    exact hinit

theorem Shows.turn {game : HangmanGame} (h : fsm.Shows game)
    (hstart : fsm.state = .initial → Playable (fsm.pick t)) :
    (fsm.turn t.file t.rand t.guess).Shows (game.step (fsm.pick t) t.guess) := by
  cases game with
  | idle =>
    have hp := hstart h.1
    rw [turn_initial h.1]
    refine ⟨rfl, hp, not_ends_nil hp, ?_⟩
    rw [if_pos rfl]
    exact ⟨rfl, (setRandomWord_initialized _ _ _).trans h.2⟩
  | playing word gs =>
    have hb := board_play h t.guess
    have hp := h.2.1
    have hne : fsm.hangmanWord.toStr ≠ [] := h.word_eq ▸ hp.ne_nil
    rw [turn_playing h.1 hne, HangmanGame.step]
    by_cases hends : Ends word (gs ++ [t.guess])
    · rw [if_pos hends, if_pos ((over_iff hb hp).mpr hends)]
      exact ⟨rfl, rfl⟩
    · rw [if_neg hends, if_neg fun hover => hends ((over_iff hb hp).mp hover)]
      refine ⟨by rw [play_state, h.1], hp, hends, ?_⟩
      rw [if_neg (List.append_ne_nil_of_right_ne_nil _ (List.cons_ne_nil _ _))]
      exact hb

/-- After the first guess of a game nothing is changed by what is not a letter and by a letter that
has been guessed. -/
theorem Shows.turn_eq (h : fsm.Shows (.playing word gs)) (hgs : gs ≠ []) {c : UInt8}
    (hc : isalpha (tolower c) → tolower c ∈ letters gs) (file : Option Bytes) (rand : List Nat) :
    fsm.turn file rand c = fsm := by
  obtain ⟨hstate, hp, hends, hb⟩ := h
  rw [if_neg hgs] at hb
  have hne : fsm.hangmanWord.toStr ≠ [] := hb.word_eq ▸ hp.ne_nil
  have hplay : fsm.play c = fsm := by
    rw [play, initRound_of_initialized hb.initialized]
    split
    · rename_i ha
      apply guess_of_mem hb (hc ha)
      intro he
      rw [he] at ha
      exact absurd ha (by decide)
    · rfl
  rw [turn_playing hstate hne, hplay, if_neg fun hover => hends ((over_iff hb hp).mp hover)]

/-- Over any number of games the machine goes by the rules, if every game gets a word. -/
theorem hangman_refines {ts : List HangmanTurn} {game : HangmanGame}
    (hstart : Meets turns StartsPlayable (zero, .idle) ts)
    (h : exec turns (zero, .idle) ts = .ok (fsm, game)) :
    fsm.Shows game ∧ ∀ word gs c, game = .playing word gs → gs ≠ [] →
      (isalpha (tolower c) → tolower c ∈ letters gs) →
      ∀ file rand, fsm.turn file rand c = fsm := by
  have hzero : zero.Shows .idle := ⟨rfl, rfl⟩
  have hshows : fsm.Shows game := by
    refine exec_invariant (I := fun s => s.1.Shows s.2) ?_ hzero hstart h
    rintro ⟨fsm, game⟩ t s' hs hc hstep
    cases hstep
    exact hs.turn hc
  refine ⟨hshows, ?_⟩
  rintro word gs c rfl hgs hc file rand
  exact hshows.turn_eq hgs hc file rand

/-- A game with the word `ab` that is won, and another one with a wrong guess. -/
def twoGames : List HangmanTurn :=
  (str "?A1b?z").map fun c => ⟨some (str "ab\n"), [], c⟩

theorem hangman_refines_twoGames :
    ∃ fsm, exec turns (zero, .idle) twoGames = .ok (fsm, .playing (str "ab") (str "z")) ∧
      fsm.Shows (.playing (str "ab") (str "z")) ∧ fsm.attemptsLeft = 4 := by
  have hrun : (exec turns (zero, .idle) twoGames).isOk := rfl
  obtain ⟨⟨fsm, game⟩, h, hgame, hattempts⟩ :=
    exists_ok (P := fun s => s.2 = .playing (str "ab") (str "z") ∧ s.1.attemptsLeft = 4) hrun
      (by decide +kernel)
  obtain rfl : game = _ := hgame
  exact ⟨fsm, h, (hangman_refines (by decide +kernel) h).1, hattempts⟩

end HangmanFsm

end SocketSpeak
