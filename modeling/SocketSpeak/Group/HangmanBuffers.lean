import SocketSpeak.Group.HangmanText

/-!
# The buffers of Hangman

The texts of the game are put together with `sprintf` and without a look at the size of the buffer.
They fit all the same: the strings of the state machine end inside of their arrays in every state
that a run reaches (`Bounded`), and so do the nicknames of the members.
-/

namespace SocketSpeak
open CLib Sys

/-- `sizeof(response)` in `update_hangman` -/
def UPDATE_RESPONSE_SIZE : Nat := 512

/-- `sizeof(response)` in `process_hangman_state`, and `sizeof(broadcast_msg)` -/
def PROCESS_RESPONSE_SIZE : Nat := 1024

/-- `sizeof(hangman_old_response)` -/
def OLD_RESPONSE_SIZE : Nat := 2048

namespace HangmanFsm
variable {fsm : HangmanFsm} {c : UInt8} {file : Option Bytes} {rand : List Nat}

/-- The strings of the machine end inside of their arrays; in a round, the one that is shown ends
where the word does. -/
structure Bounded (fsm : HangmanFsm) : Prop where
  word : fsm.hangmanWord.HasNul
  guessed : fsm.guessedLetters.HasNul
  revealed : fsm.revealedWord.HasNul
  initial : fsm.state = .initial → fsm.hangmanRoundInitialized = false
  ends : fsm.hangmanRoundInitialized = true →
    fsm.revealedWord.get fsm.hangmanWord.toStr.length = 0
  attempts : 0 ≤ fsm.attemptsLeft ∧ fsm.attemptsLeft ≤ HANGMAN_MAX_ATTEMPTS

theorem zero_guessed : (CharArray.zero (HANGMAN_MAX_ATTEMPTS + 1)).HasNul := by decide

theorem bounded_zero : zero.Bounded where
  word := by decide
  guessed := zero_guessed
  revealed := by decide
  initial _ := rfl
  ends h := by cases h
  attempts := by decide

theorem Bounded.word_lt (h : fsm.Bounded) :
    fsm.hangmanWord.toStr.length < HANGMAN_MAX_WORD_LENGTH + 1 := (CharArray.hasNul_iff _).mp h.word

/-! ## What keeps the strings within their arrays -/

/-- A machine in a state that is not the initial one. -/
theorem Bounded.with_state (h : fsm.Bounded) {st : HangmanState} (hst : st ≠ .initial) :
    { fsm with state := st }.Bounded :=
  ⟨h.word, h.guessed, h.revealed, fun hi => absurd hi hst, h.ends, h.attempts⟩

theorem Bounded.initRound (h : fsm.Bounded) (hst : fsm.state ≠ .initial) :
    fsm.initRound.Bounded := by
  have hlt := h.word_lt
  cases hi : fsm.hangmanRoundInitialized with
  | true =>
    rw [initRound_of_initialized hi]
    exact h
  | false =>
    have hstate := fsm.initRound_state
    unfold HangmanFsm.initRound at hstate ⊢
    rw [if_neg (by rw [hi]; decide)] at hstate ⊢
    have hend : (((fsm.revealedWord.memset HANGMAN_EMPTY_CHARACTER
        fsm.hangmanWord.toStr.length).set fsm.hangmanWord.toStr.length 0).get
        fsm.hangmanWord.toStr.length) = 0 := by
      rw [CharArray.get_set, if_pos ⟨rfl, hlt⟩]
    have hattempts : (0 : Int) ≤ HANGMAN_MAX_ATTEMPTS := by decide
    refine ⟨h.word, zero_guessed, CharArray.hasNul_of_get _ hlt hend, fun hs => ?_, fun _ => hend,
      hattempts, Int.le_refl _⟩
    exact absurd (hstate.symm.trans hs) hst

/-- The letters that are shown lie before the end of the word. -/
theorem get_length_foldl_set (fsm : HangmanFsm) (a : CharArray (HANGMAN_MAX_WORD_LENGTH + 1))
    (c : UInt8) : ((fsm.positions c).foldl (fun a i => a.set i c) a).get
      fsm.hangmanWord.toStr.length = a.get fsm.hangmanWord.toStr.length := by
  rw [get_foldl_set, if_neg]
  rintro ⟨hmem, -⟩
  exact absurd ((mem_positions rfl).mp hmem).1 (Nat.lt_irrefl _)

theorem Bounded.guess (h : fsm.Bounded) (hst : fsm.state ≠ .initial)
    (hi : fsm.hangmanRoundInitialized = true) : (fsm.guess c).2.2.Bounded := by
  have hlt := h.word_lt
  unfold HangmanFsm.guess
  dsimp only
  split
  · have hend : (if (fsm.positions c).any fun i => fsm.revealedWord.get i = c then fsm.revealedWord
        else (fsm.positions c).foldl (fun a i => a.set i c) fsm.revealedWord).get
        fsm.hangmanWord.toStr.length = 0 := by
      split
      · exact h.ends hi
      · rw [get_length_foldl_set]
        exact h.ends hi
    exact ⟨h.word, h.guessed, CharArray.hasNul_of_get _ hlt hend, fun hs => absurd hs hst,
      fun _ => hend, h.attempts⟩
  split
  · exact h
  · refine ⟨h.word, ?_, h.revealed, fun hs => absurd hs hst, h.ends, ?_⟩
    · dsimp only
      split
      · rename_i hfew
        apply CharArray.hasNul_of_get _ (Nat.succ_lt_succ hfew)
        rw [CharArray.get_set, if_pos ⟨rfl, Nat.succ_lt_succ hfew⟩]
      · exact h.guessed
    · have hattempts := h.attempts
      dsimp only
      split <;> omega

theorem Bounded.play (h : fsm.Bounded) (hst : fsm.state ≠ .initial) : (fsm.play c).Bounded := by
  unfold HangmanFsm.play
  split
  · exact (h.initRound hst).guess (by rw [initRound_state]; exact hst) (initRound_initialized)
  · exact h.initRound hst

theorem Bounded.finish (h : fsm.Bounded) : fsm.finish.Bounded :=
  ⟨h.word, h.guessed, h.revealed, fun _ => rfl, fun hi => (by cases hi), h.attempts⟩

theorem hasNul_chooseWord (h : fsm.hangmanWord.HasNul) (lines : List Bytes) (rand : List Nat)
    (count : Nat) : (fsm.chooseWord lines rand count).hangmanWord.HasNul := by
  induction lines generalizing fsm rand count with
  | nil => exact h
  | cons line lines ih =>
    rw [chooseWord_cons]
    split
    · apply ih
      split
      · exact CharArray.hasNul_copyStr (by decide) _
      · exact h
    · exact ih h rand count

/-- A word that is chosen for a new round. -/
theorem Bounded.setRandomWord (h : fsm.Bounded) (hi : fsm.hangmanRoundInitialized = false)
    (file : Option Bytes) (rand : List Nat) : (fsm.setRandomWord file rand).Bounded := by
  have hword : (fsm.setRandomWord file rand).hangmanWord.HasNul := by
    unfold HangmanFsm.setRandomWord
    split
    · exact h.word
    · exact hasNul_chooseWord h.word _ _ _
  obtain ⟨word, heq⟩ := fsm.setRandomWord_eq file rand
  rw [heq] at hword ⊢
  refine ⟨hword, h.guessed, h.revealed, h.initial, fun hin => ?_, h.attempts⟩
  exact absurd (hi.symm.trans hin) (by decide)

theorem Bounded.turn (h : fsm.Bounded) : (fsm.turn file rand c).Bounded := by
  cases hs : fsm.state with
  | initial =>
    rw [turn_initial hs]
    exact (h.setRandomWord (h.initial hs) file rand).with_state (by decide)
  | playing =>
    have hplay : (fsm.play c).Bounded := h.play (by rw [hs]; decide)
    by_cases hw : fsm.hangmanWord.toStr = []
    · rw [turn_nil hs hw]
      exact h
    · rw [turn_playing hs hw]
      split
      · exact hplay.finish
      · exact hplay
  | update =>
    rw [turn_update hs]
    exact h.with_state (by decide)

/-! ## The texts of the machine -/

/-- What is written into `masked_word`, its NUL included, fits. -/
theorem Bounded.length_maskedWord_lt (h : fsm.Bounded) :
    ((fsm.revealedWord.data.take fsm.hangmanWord.toStr.length).intersperse 0x20).length <
      HANGMAN_MAX_WORD_LENGTH * 2 + 1 := by
  have hlt := h.word_lt
  have htake := List.length_take_le fsm.hangmanWord.toStr.length fsm.revealedWord.data
  rw [List.length_intersperse]
  omega

theorem length_stage_le (n : Nat) : (hangmanStages.getD n []).length ≤ 57 := by
  have hall : ∀ stage ∈ hangmanStages, stage.length ≤ 57 := by decide
  rw [List.getD_eq_getElem?_getD]
  cases h : hangmanStages[n]? with
  | none => exact Nat.zero_le _
  | some stage => exact hall stage (List.mem_of_getElem? h)

/-- The end of every response. -/
theorem Bounded.length_board_le (h : fsm.Bounded) (stage : Nat) :
    (fsm.board stage).length ≤ 120 := by
  have hstage := length_stage_le stage
  have hmasked : fsm.maskedWord.length < HANGMAN_MAX_WORD_LENGTH * 2 + 1 :=
    Nat.lt_of_le_of_lt (List.takeWhile_prefix _).length_le h.length_maskedWord_lt
  have hguessed : fsm.guessedLetters.toStr.length < HANGMAN_MAX_ATTEMPTS + 1 :=
    (CharArray.hasNul_iff _).mp h.guessed
  have hwrong : (if fsm.guessedLetters.get 0 = 0 then str "-" else
      fsm.guessedLetters.toStr).length ≤ 5 := by
    split
    · decide
    · exact Nat.le_of_lt_succ hguessed
  have hdecimal : (decimal fsm.attemptsLeft).length ≤ 1 := by
    have hall : ∀ n ≤ HANGMAN_MAX_ATTEMPTS, (decimal (n : Nat)).length ≤ 1 := by decide
    have hn := hall fsm.attemptsLeft.toNat (by have hle := h.attempts.2; omega)
    rwa [Int.toNat_of_nonneg h.attempts.1] at hn
  have h1 : (str "\nWord: ").length = 7 := by decide
  have h2 : (str "\nWrong guesses: ").length = 16 := by decide
  have h3 : (str "\nAttempts left: ").length = 16 := by decide
  unfold board
  simp only [HANGMAN_MAX_WORD_LENGTH] at hmasked
  simp only [List.length_append, h1, h2, h3]
  omega

/-- A response with what is said about the guess. -/
theorem length_response_lt {before word after board : Bytes} (hbefore : before.length ≤ 40)
    (hword : word.length ≤ 7) (hafter : after.length ≤ 4) (hboard : board.length ≤ 120) :
    (str "[Hangman System] " ++ before ++ word ++ after ++ board).length <
      UPDATE_RESPONSE_SIZE := by
  have h1 : (str "[Hangman System] ").length = 17 := by decide
  simp only [List.length_append, h1, UPDATE_RESPONSE_SIZE]
  omega

theorem Bounded.length_updateHangman_lt (h : fsm.Bounded) (hst : fsm.state ≠ .initial) :
    (fsm.updateHangman c).1.length < UPDATE_RESPONSE_SIZE := by
  have hplay : (fsm.play c).Bounded := h.play hst
  have hword : (fsm.play c).hangmanWord.toStr.length ≤ 7 := Nat.le_of_lt_succ hplay.word_lt
  have hboard := hplay.length_board_le (fsm.play c).wrongStage
  have hone : [tolower c].length ≤ 7 := Nat.le_add_left 1 6
  have hline : (str "\n").length ≤ 4 := by decide
  have hquote : (str "'.\n").length ≤ 4 := by decide
  generalize hg : (if isalpha (tolower c) then fsm.initRound.guess (tolower c)
    else (false, false, fsm.initRound)) = g
  have hfsm : g.2.2 = fsm.play c := by
    rw [← hg, HangmanFsm.play]
    split <;> rfl
  rw [updateHangman]
  split
  · have hnone : (str "No word selected for hangman.").length < UPDATE_RESPONSE_SIZE := by decide
    exact hnone
  dsimp only
  rw [hg, hfsm]
  split
  · have hsaid : (str "Correct! You guessed the word: ").length ≤ 40 := by decide
    exact length_response_lt hsaid hword hline hboard
  split
  · have hsaid : (str "Incorrect. Game over! The word was: ").length ≤ 40 := by decide
    exact length_response_lt hsaid hword hline (hplay.length_board_le HANGMAN_MAX_ATTEMPTS)
  split
  · have hsaid : (str "Invalid guess. Please enter a letter.\n").length ≤ 40 := by decide
    have hnil : ∀ n, ([] : Bytes).length ≤ n := Nat.zero_le
    have hlen := length_response_lt hsaid (hnil 7) (hnil 4) hboard
    rwa [List.append_nil, List.append_nil] at hlen
  split
  · have hsaid : (str "Already guessed '").length ≤ 40 := by decide
    exact length_response_lt hsaid hone hquote hboard
  split
  · have hsaid : (str "Correct guess: '").length ≤ 40 := by decide
    exact length_response_lt hsaid hone hquote hboard
  · have hsaid : (str "Incorrect guess: '").length ≤ 40 := by decide
    exact length_response_lt hsaid hone hquote hboard

theorem Bounded.length_process_le (h : fsm.Bounded) (file : Option Bytes) (rand : List Nat)
    (c : UInt8) : (fsm.processHangmanState file rand c).1.length ≤ 562 := by
  unfold processHangmanState
  split
  · have hwelcome : (str "Welcome to Hangman! Guess a letter to start playing.").length ≤ 562 := by
      decide
    exact hwelcome
  · have hstate : HangmanState.update ≠ .initial := by decide
    have hupdate := (h.with_state hstate).length_updateHangman_lt (c := c) hstate
    have hbar : (str "\n==================================================").length = 51 := by
      decide
    dsimp only
    rw [List.length_append, hbar]
    simp only [UPDATE_RESPONSE_SIZE] at hupdate
    omega
  · have hbusy : (str "Game is updating..., please wait for your turn.").length ≤ 562 := by decide
    exact hbusy

end HangmanFsm

/-! ## The texts of the server -/

namespace Server
variable {s s' : Server} {out : List Output} {i : Nat} {f : Frame} {buf : Bytes} {env : Env}
  {m : GroupMember} {fd : Int}

/-- What is sent to the others when a game starts. -/
def broadcastMsg (nick : Bytes) : Bytes :=
  str "[System] " ++ nick ++
    str " started a new Hangman game, use '/hangman join' to join the game"

/-- The strings that the texts are made of end in their arrays. -/
structure TextsEnd (s : Server) : Prop where
  hangman : s.hangman.Bounded
  names : ∀ (k : Nat) m, s.group.members[k]? = some m → m.nickname.HasNul
  old : s.hangmanOldResponse.length < PROCESS_RESPONSE_SIZE

theorem TextsEnd.nickname (h : s.TextsEnd) {j : Int} (hm : s.group.member j = .ok m) :
    m.nickname.toStr.length < NICKNAME_MAX_LEN := by
  obtain ⟨k, -, hget⟩ := Group.member_eq_ok.mp hm
  exact (CharArray.hasNul_iff _).mp (h.names k m hget)

theorem length_broadcastMsg_lt {nick : Bytes} (h : nick.length < NICKNAME_MAX_LEN) :
    (broadcastMsg nick).length < PROCESS_RESPONSE_SIZE := by
  have h1 : (str "[System] ").length = 9 := by decide
  have h2 : (str " started a new Hangman game, use '/hangman join' to join the game").length = 65 :=
    by decide
  unfold broadcastMsg
  simp only [List.length_append, h1, h2, NICKNAME_MAX_LEN, PROCESS_RESPONSE_SIZE] at h ⊢
  omega

theorem length_startText_lt {nick : Bytes} (h : nick.length < NICKNAME_MAX_LEN) :
    (startText nick).length < PROCESS_RESPONSE_SIZE := by
  have h1 : bar.length = 51 := by decide
  have h2 : (str "[Hangman System] ").length = 17 := by decide
  have h3 : (str " started a new Hangman game\n").length = 28 := by decide
  have h4 : (str "Welcome to Hangman! Guess a letter to start playing.").length = 52 := by decide
  unfold startText
  simp only [List.length_append, h1, h2, h3, h4, NICKNAME_MAX_LEN, PROCESS_RESPONSE_SIZE] at h ⊢
  omega

theorem length_guessText_lt {nick result : Bytes} (c : UInt8) (h : nick.length < NICKNAME_MAX_LEN)
    (hresult : result.length ≤ 562) : (guessText nick c result).length < PROCESS_RESPONSE_SIZE := by
  have h1 : bar.length = 51 := by decide
  have h2 : (str "[Hangman System] ").length = 17 := by decide
  have h3 : (str " guessed '").length = 10 := by decide
  have h4 : (str "'\n").length = 2 := by decide
  unfold guessText
  simp only [List.length_append, List.length_singleton, h1, h2, h3, h4, NICKNAME_MAX_LEN,
    PROCESS_RESPONSE_SIZE] at h ⊢
  omega

/-- A member that announces itself has a nickname that ends in its field. -/
def Named : ServerEvent → Prop
  | .frame _ f buf _ => f.type = LMP_GRP_INIT_MEMBER →
    (GroupMember.ofBytes (f.received buf).received.buf).nickname.HasNul
  | _ => True

instance : ∀ e, Decidable (Named e)
  | .frame .. => inferInstanceAs (Decidable (_ → _))
  | .accept _ | .hangup .. => .isTrue trivial

theorem names_of_setMember {g g' : Group} {j : Int}
    (h : ∀ (k : Nat) m, g.members[k]? = some m → m.nickname.HasNul) (hm : m.nickname.HasNul)
    (hset : g.setMember j m = .ok g') :
    ∀ (k : Nat) m, g'.members[k]? = some m → m.nickname.HasNul := by
  obtain ⟨n, -, -, rfl⟩ := Group.setMember_eq_ok.mp hset
  intro k m' hget
  rw [Vector.getElem?_setIfInBounds] at hget
  split at hget
  · split at hget <;> cases hget
    exact hm
  · exact h k m' hget

theorem TextsEnd.names_of_step {e : ServerEvent} (ht : s.TextsEnd) (hn : Named e)
    (h : s.step e = .ok (out, s')) :
    ∀ (k : Nat) m, s'.group.members[k]? = some m → m.nickname.HasNul := by
  cases e with
  | accept fd =>
    simp only [step, Except.ok.injEq, Prod.mk.injEq] at h
    rw [← h.2, group_handleNewConnection]
    exact ht.names
  | hangup i status env =>
    obtain ⟨-, -, -, ⟨last, g, hlast, hset, hadd⟩, -⟩ := handled_of_hangup h
    rw [(Group.memberCount_of_addCount hadd).2]
    obtain ⟨k, -, hget⟩ := Group.member_eq_ok.mp hlast
    exact names_of_setMember ht.names (ht.names k last hget) hset
  | frame i f buf env =>
    obtain ⟨fd, -, -, -, hh⟩ := handled_of_frame h
    cases hh with
    | nick m _ _ hset =>
      exact names_of_setMember ht.names (CharArray.hasNul_copyStr (by decide) _) hset
    | init g hf hset hadd =>
      rw [(Group.memberCount_of_addCount hadd).2]
      exact names_of_setMember ht.names (hn hf) hset
    | relayed _ _ _ hg => rw [hg]; exact ht.names
    | answered _ _ _ _ hg => rw [hg]; exact ht.names

theorem TextsEnd.hangman_of_step {e : ServerEvent} (ht : s.TextsEnd)
    (h : s.step e = .ok (out, s')) : s'.hangman.Bounded := by
  cases gameStep_of_step h with
  | other _ _ hfsm => rw [hfsm]; exact ht.hangman
  | exit _ _ _ _ _ _ _ _ hfsm => rw [hfsm]; exact ht.hangman
  | join _ _ _ _ _ _ _ _ _ hfsm => rw [hfsm]; exact ht.hangman
  | start i f buf env m _ _ _ hstate hfsm =>
    have hturn : (s.hangman.turn env.wordFile env.rand 0).Bounded := ht.hangman.turn
    rwa [HangmanFsm.turn_initial hstate, ← hfsm] at hturn
  | guess i f buf env m c response _ _ _ _ hfsm => rw [hfsm]; exact ht.hangman.turn

theorem TextsEnd.step {e : ServerEvent} (ht : s.TextsEnd) (hn : Named e)
    (h : s.step e = .ok (out, s')) : s'.TextsEnd := by
  refine ⟨ht.hangman_of_step h, ht.names_of_step hn h, ?_⟩
  cases gameStep_of_step h with
  | other _ _ _ _ hold => rw [hold]; exact ht.old
  | exit _ _ _ _ _ _ _ _ _ _ hold => rw [hold]; exact ht.old
  | join _ _ _ _ _ _ _ _ _ _ _ hold => rw [hold]; exact ht.old
  | start i f buf env m _ _ hm _ _ _ hold => rw [hold]; exact length_startText_lt (ht.nickname hm)
  | guess i f buf env m c response _ _ hm _ _ _ _ hresponse hold =>
    rw [hold, hresponse]
    exact length_guessText_lt c (ht.nickname hm) (ht.hangman.length_process_le _ _ _)

/-! ## The frames of the game -/

/-- The frames are short enough for `user_grp_hangman_recv`. -/
def Short (out : List Output) : Prop := ∀ o ∈ out, o.frame.payload.length < PROCESS_RESPONSE_SIZE

theorem short_nil : Short [] := fun o ho => by cases ho

theorem short_lmpSend {type : UInt8} {payload : Bytes}
    (h : payload.length < PROCESS_RESPONSE_SIZE) : Short (env.lmpSend fd type payload) := by
  intro o ho
  rw [(mem_lmpSend.mp ho).2]
  exact h

theorem TextsEnd.short_of_hangman (ht : s.TextsEnd)
    (h : s.clientHangman env i fd buf = .ok (out, s')) (ht' : s'.TextsEnd) : Short out := by
  obtain ⟨m, hm, h⟩ := bind_ok h
  split at h
  · split at h
    · cases h
      intro o ho
      rcases List.mem_append.mp ho with ho | ho
      · exact short_lmpSend ht'.old o ho
      · obtain ⟨p, -, ho⟩ := List.mem_flatMap.mp ho
        exact short_lmpSend (length_broadcastMsg_lt (ht.nickname hm)) o ho
    · cases h
      exact short_lmpSend (by decide +kernel)
  split at h
  · cases h
    exact short_lmpSend (by decide +kernel)
  split at h
  · split at h <;> cases h
    · exact short_lmpSend ht.old
    · exact short_nil
  · cases h
    exact short_nil

theorem short_of_guess (h : s.clientGuess env fd m buf = .ok (out, s')) (ht' : s'.TextsEnd) :
    Short out := by
  unfold clientGuess at h
  split at h
  · cases h
    exact short_lmpSend (by decide +kernel)
  split at h
  · cases h
    exact short_lmpSend (by decide +kernel)
  · obtain ⟨out', hout, h⟩ := bind_ok h
    cases h
    intro o ho
    rw [frame_of_sendToPlayers hout o ho]
    exact ht'.old

/-- No client drops a text of the game. -/
theorem TextsEnd.short_of_step {e : ServerEvent} (ht : s.TextsEnd) (ht' : s'.TextsEnd)
    (h : s.step e = .ok (out, s')) :
    ∀ o ∈ out, o.frame.type = LMP_GRP_HANGMAN → o.frame.payload.length < PROCESS_RESPONSE_SIZE := by
  have hobj : ∀ s : Server, ∀ env, ∀ o ∈ (s.sendNewGroupToUsers env).2,
      o.frame.type ≠ LMP_GRP_HANGMAN := by
    intro s env o ho
    rw [sendNewGroupToUsers_eq] at ho
    obtain ⟨p, -, ho⟩ := List.mem_flatMap.mp ho
    rw [type_of_lmpSend o ho]
    decide
  intro o ho htype
  cases e with
  | accept fd =>
    simp only [Server.step, Except.ok.injEq, Prod.mk.injEq] at h
    rw [← h.1] at ho
    cases ho
  | hangup i status env =>
    obtain ⟨-, -, -, -, hout⟩ := handled_of_hangup h
    exact absurd htype (hobj s' env o (hout ▸ ho))
  | frame i f buf env =>
    obtain ⟨fd, -, hd⟩ := dispatched_of_frame h
    cases hd with
    | hangman _ h => exact ht.short_of_hangman h ht' o ho
    | guess _ _ _ _ h => exact short_of_guess h ht' o ho
    | nick _ h =>
      obtain ⟨m, -, h⟩ := bind_ok h
      obtain ⟨g, -, h⟩ := bind_ok h
      cases h
      exact absurd htype (hobj _ env o ho)
    | init _ h =>
      obtain ⟨g, -, h⟩ := bind_ok h
      obtain ⟨g', -, h⟩ := bind_ok h
      cases h
      exact absurd htype (hobj _ env o ho)
    | load _ h =>
      obtain ⟨m, -, h⟩ := bind_ok h
      cases h
      have hload : LMP_GRP_LOADING_MSG ≠ LMP_GRP_HANGMAN ∧ LMP_GRP_LOAD_MSG ≠ LMP_GRP_HANGMAN := by
        decide
      rcases List.mem_append.mp ho with ho | ho
      · obtain ⟨line, -, ho⟩ := List.mem_flatMap.mp ho
        exact absurd ((type_of_lmpSend o ho).symm.trans htype) hload.1
      · exact absurd ((type_of_lmpSend o ho).symm.trans htype) hload.2
    | message m hf _ _ hr =>
      cases hr
      rw [type_of_relay o ho, hf] at htype
      exact absurd htype (by decide)
    | other hf hr =>
      cases hr
      rw [type_of_relay o ho] at htype
      exact absurd (by rw [htype]; decide) hf

/-- Whatever is written next into the buffers of the game fits, with the NUL at its end. -/
structure Fits (s : Server) : Prop where
  masked : ∀ c, s.hangman.state ≠ .initial →
    (((s.hangman.play c).revealedWord.data.take
      (s.hangman.play c).hangmanWord.toStr.length).intersperse 0x20).length <
        HANGMAN_MAX_WORD_LENGTH * 2 + 1
  update : ∀ c, s.hangman.state ≠ .initial →
    (s.hangman.updateHangman c).1.length < UPDATE_RESPONSE_SIZE
  process : ∀ file rand c,
    (s.hangman.processHangmanState file rand c).1.length < PROCESS_RESPONSE_SIZE
  started : ∀ j m, s.group.member j = .ok m →
    (startText m.nickname.toStr).length < OLD_RESPONSE_SIZE ∧
      (broadcastMsg m.nickname.toStr).length < PROCESS_RESPONSE_SIZE
  guessed : ∀ j m file rand c, s.group.member j = .ok m → (guessText m.nickname.toStr c
    (s.hangman.processHangmanState file rand c).1).length < OLD_RESPONSE_SIZE

theorem TextsEnd.fits (ht : s.TextsEnd) : s.Fits where
  masked _ hs := (ht.hangman.play hs).length_maskedWord_lt
  update _ hs := ht.hangman.length_updateHangman_lt hs
  process file rand c := Nat.lt_of_le_of_lt (ht.hangman.length_process_le file rand c) (by decide)
  started _ m hm := ⟨Nat.lt_trans (length_startText_lt (ht.nickname hm)) (by decide),
    length_broadcastMsg_lt (ht.nickname hm)⟩
  guessed _ m file rand c hm := Nat.lt_trans (length_guessText_lt c (ht.nickname hm)
    (ht.hangman.length_process_le file rand c)) (by decide)

end Server

namespace World
open Server
variable {w w' : World} {e : ServerEvent} {out : List Output} {s' : Server}

theorem textsEnd_start (listener : Int) (info : GroupInfo) :
    (Server.start listener info).TextsEnd where
  hangman := HangmanFsm.bounded_zero
  names k m hget := by
    have hzero : GroupMember.zero.nickname.HasNul := by decide
    have hrep : (Vector.replicate MAX_GROUP_MEMBERS GroupMember.zero)[k]? = some m := hget
    obtain ⟨-, rfl⟩ := Vector.getElem?_eq_some_iff.mp hrep
    rw [Vector.getElem_replicate]
    exact hzero
  old := Nat.zero_lt_succ _

/-- Whatever the clients do, and whatever is in the word file: if every member that announces itself
has a nickname that ends in its field, no buffer of the game is ever too small, and no client drops
a text of the game for its length. -/
theorem fits_of_run {es : List ServerEvent} {listener : Int} {info : GroupInfo}
    (hC : Meets step (fun _ e => Named e) (start listener info) es)
    (h : exec step (start listener info) es = .ok w) :
    w.server.Fits ∧ ∀ e out s', Named e → w.server.step e = .ok (out, s') →
      ∀ o ∈ out, o.frame.type = LMP_GRP_HANGMAN →
        o.frame.payload.length < PROCESS_RESPONSE_SIZE := by
  have hI : w.server.TextsEnd := by
    refine exec_invariant (I := fun w => w.server.TextsEnd) ?_ (textsEnd_start listener info) hC h
    intro w e w' hI hn hstep
    obtain ⟨out, hs, -⟩ := step_ok hstep
    exact hI.step hn hs
  exact ⟨hI.fits, fun e out s' hn hs => hI.short_of_step (hI.step hn hs) hs⟩

/-- ann starts a game with a word of 7 letters and makes a wrong guess. -/
def annPlaysLetters : List ServerEvent :=
  [.accept 5, .frame 1 (initFrame (userMemberInfo (str "a0000001") (str "ann"))) [] .allOk,
    .frame 1 (lmpFrame LMP_GRP_HANGMAN (str "start")) []
      { Env.allOk with wordFile := some (str "letters\n") },
    .frame 1 (lmpFrame LMP_MSG (str "z")) [] .allOk]

theorem fits_of_run_annPlaysLetters :
    ∃ w, exec step (start 3 gserverInfo) annPlaysLetters = .ok w ∧
      w.server.hangman.state = .playing ∧ w.server.Fits := by
  have hrun : (exec step (start 3 gserverInfo) annPlaysLetters).isOk := by decide +kernel
  have hC : Meets step (fun _ e => Named e) (start 3 gserverInfo) annPlaysLetters := by
    decide +kernel
  obtain ⟨w, h, hstate⟩ := exists_ok (P := fun w => w.server.hangman.state = .playing) hrun
    (by decide +kernel)
  exact ⟨w, h, hstate, (fits_of_run hC h).1⟩

end World

end SocketSpeak
