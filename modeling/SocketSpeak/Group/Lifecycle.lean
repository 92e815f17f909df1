import SocketSpeak.Group.Game
import SocketSpeak.Group.HangmanRules

/-!
# The life of a game

The phase of the state machine, the list of players and the board are changed by the frames of all
connections. Between two events no guess is being processed, there are no players without a game,
and a game ends with a guess of a player only (`lifecycle`).
-/

namespace SocketSpeak
open CLib Sys

namespace HangmanFsm
variable {fsm : HangmanFsm} {c : UInt8} {file : Option Bytes} {rand : List Nat}

/-- Everything that `fsm` shows is shown by `fsm'`. -/
structure Extends (fsm fsm' : HangmanFsm) : Prop where
  word : fsm'.hangmanWord = fsm.hangmanWord
  revealed : ∀ j, fsm.revealedWord.get j ≠ HANGMAN_EMPTY_CHARACTER →
    fsm'.revealedWord.get j = fsm.revealedWord.get j
  wrong : fsm.guessedLetters.toStr <+: fsm'.guessedLetters.toStr
  attempts : fsm'.attemptsLeft ≤ fsm.attemptsLeft

/-- What is shown of the word is right. -/
def Masked (fsm : HangmanFsm) : Prop := ∀ j < fsm.hangmanWord.toStr.length,
  fsm.revealedWord.get j = HANGMAN_EMPTY_CHARACTER ∨
    fsm.revealedWord.get j = fsm.hangmanWord.get j

theorem Extends.refl (fsm : HangmanFsm) : fsm.Extends fsm :=
  ⟨rfl, fun _ _ => rfl, List.prefix_refl _, Int.le_refl _⟩

theorem Extends.finish {fsm' : HangmanFsm} (h : fsm.Extends fsm') : fsm.Extends fsm'.finish :=
  ⟨h.word, h.revealed, h.wrong, h.attempts⟩

theorem masked_initRound (h : fsm.hangmanRoundInitialized = true → fsm.Masked) :
    fsm.initRound.Masked := by
  unfold initRound
  split
  · rename_i hi
    exact h hi
  · intro j hj
    have hlen := fsm.hangmanWord.length_toStr_le
    refine .inl ?_
    dsimp only at hj ⊢
    rw [CharArray.get_set, if_neg fun h => Nat.ne_of_lt hj h.1]
    exact CharArray.get_memset _ _ hj hlen

theorem mem_positions_iff {i : Nat} : i ∈ fsm.positions c ↔
    i < fsm.hangmanWord.toStr.length ∧ fsm.hangmanWord.get i = c := by
  simp [positions]

/-- The letters that a guess shows were hidden. -/
theorem revealed_guess (hm : fsm.Masked) (j : Nat) :
    (fsm.guess c).2.2.revealedWord.get j = fsm.revealedWord.get j ∨
      fsm.revealedWord.get j = HANGMAN_EMPTY_CHARACTER ∧ j < fsm.hangmanWord.toStr.length ∧
        (fsm.guess c).2.2.revealedWord.get j = fsm.hangmanWord.get j := by
  unfold guess
  dsimp only
  split
  · dsimp only
    split
    · exact .inl rfl
    · rename_i hany
      rw [get_foldl_set]
      split
      · rename_i hj
        obtain ⟨hlt, hc⟩ := mem_positions_iff.mp hj.1
        rcases hm j hlt with h | h
        · exact .inr ⟨h, hlt, hc.symm⟩
        · refine absurd (List.any_eq_true.mpr ⟨j, hj.1, ?_⟩) hany
          rw [decide_eq_true_iff, h, hc]
      · exact .inl rfl
  · split
    · exact .inl rfl
    · exact .inl rfl

theorem masked_guess (hm : fsm.Masked) : (fsm.guess c).2.2.Masked := by
  intro j hj
  rw [guess_hangmanWord] at hj ⊢
  rcases revealed_guess (c := c) hm j with h | ⟨-, -, h⟩
  · rw [h]
    exact hm j hj
  · exact .inr h

theorem extends_guess (hm : fsm.Masked) (hc : c ≠ 0) : fsm.Extends (fsm.guess c).2.2 := by
  refine ⟨guess_hangmanWord, fun j hj => ?_, ?_, ?_⟩
  · rcases revealed_guess (c := c) hm j with h | ⟨h, -⟩
    · exact h
    · exact absurd h hj
  · unfold guess
    dsimp only
    split
    · exact List.prefix_refl _
    split
    · exact List.prefix_refl _
    dsimp only
    split
    · rename_i hlt
      rw [CharArray.toStr_set_append _ hc (Nat.succ_lt_succ hlt)]
      exact List.prefix_append _ _
    · exact List.prefix_refl _
  · unfold guess
    dsimp only
    split
    · exact Int.le_refl _
    split
    · exact Int.le_refl _
    dsimp only
    split <;> omega

theorem masked_play (h : fsm.hangmanRoundInitialized = true → fsm.Masked) :
    (fsm.play c).Masked := by
  unfold play
  split
  · exact masked_guess (masked_initRound h)
  · exact masked_initRound h

theorem masked_turn (h : fsm.state = .playing)
    (hm : fsm.hangmanRoundInitialized = true → fsm.Masked) :
    (fsm.turn file rand c).hangmanRoundInitialized = true → (fsm.turn file rand c).Masked := by
  by_cases hw : fsm.hangmanWord.toStr = []
  · rw [turn_nil h hw]
    exact hm
  · rw [turn_playing h hw]
    split
    · exact fun _ => masked_play hm
    · exact fun _ => masked_play hm

theorem turn_state (h : fsm.state = .playing) :
    (fsm.turn file rand c).state = .initial ∨ (fsm.turn file rand c).state = .playing := by
  by_cases hw : fsm.hangmanWord.toStr = []
  · rw [turn_nil h hw]
    exact .inr h
  · rw [turn_playing h hw]
    split
    · exact .inl rfl
    · exact .inr ((play_state c).trans h)

theorem over_of_turn (h : fsm.state = .playing)
    (hs : (fsm.turn file rand c).state = .initial) :
    (fsm.turn file rand c).hangmanRoundInitialized = false ∧ (fsm.turn file rand c).Over := by
  by_cases hw : fsm.hangmanWord.toStr = []
  · rw [turn_nil h hw, h] at hs
    cases hs
  · rw [turn_playing h hw] at hs ⊢
    split
    · rename_i hover
      exact ⟨rfl, hover⟩
    · rename_i hover
      rw [if_neg hover, play_state, h] at hs
      cases hs

theorem initialized_of_turn (h : fsm.state = .playing)
    (hs : (fsm.turn file rand c).state ≠ .initial) :
    (fsm.turn file rand c).hangmanWord.toStr = [] ∨
      (fsm.turn file rand c).hangmanRoundInitialized = true := by
  by_cases hw : fsm.hangmanWord.toStr = []
  · rw [turn_nil h hw]
    exact .inl hw
  · rw [turn_playing h hw] at hs ⊢
    split
    · rename_i hover
      rw [if_pos hover] at hs
      exact absurd rfl hs
    · exact .inr (play_initialized c)

theorem turn_hangmanWord (h : fsm.state = .playing) :
    (fsm.turn file rand c).hangmanWord = fsm.hangmanWord := by
  by_cases hw : fsm.hangmanWord.toStr = []
  · rw [turn_nil h hw]
  · rw [turn_playing h hw]
    split
    · exact play_hangmanWord c
    · exact play_hangmanWord c

/-- After the first guess nothing that is shown is taken back. -/
theorem extends_turn (h : fsm.state = .playing)
    (hm : fsm.hangmanRoundInitialized = true → fsm.Masked)
    (hfirst : fsm.hangmanWord.toStr = [] ∨ fsm.hangmanRoundInitialized = true) :
    fsm.Extends (fsm.turn file rand c) := by
  by_cases hw : fsm.hangmanWord.toStr = []
  · rw [turn_nil h hw]
    exact .refl fsm
  have hi := hfirst.resolve_left hw
  have hplay : fsm.Extends (fsm.play c) := by
    rw [play, initRound_of_initialized hi]
    split
    · rename_i hc
      refine extends_guess (hm hi) fun h0 => ?_
      rw [h0] at hc
      exact absurd hc (by decide)
    · exact .refl fsm
  rw [turn_playing h hw]
  split
  · exact hplay.finish
  · exact hplay

end HangmanFsm

/-! ## The game on the server -/

/-- Between two events no guess is being processed, and without a game there are no players. -/
structure Server.AtRest (s : Server) : Prop where
  state : s.hangman.state = .initial ∨ s.hangman.state = .playing
  idle : s.hangman.state = .initial →
    s.hangmanUsersList = [] ∧ s.hangman.hangmanRoundInitialized = false

/-- The server, and whether a guess has been processed in the game that is on. -/
structure Watched where
  server : Server
  begun : Bool

namespace Watched

def start (listener : Int) (info : GroupInfo) : Watched := ⟨.start listener info, false⟩

def begunAfter (w : Watched) (e : ServerEvent) (s' : Server) : Bool :=
  s'.hangman.state ≠ .initial && (w.begun || (w.server.guessed e).isSome)

def step (w : Watched) (e : ServerEvent) : Except Fault Watched :=
  (w.server.step e).map fun r => ⟨r.2, w.begunAfter e r.2⟩

/-- What the event `e` may do to a game that is on. -/
structure Respects (w : Watched) (e : ServerEvent) (s' : Server) : Prop where
  word : w.server.hangman.state ≠ .initial → s'.hangman.hangmanWord = w.server.hangman.hangmanWord
  board : w.begun → w.server.hangman.Extends s'.hangman
  ended : w.server.hangman.state ≠ .initial → s'.hangman.state = .initial →
    ∃ i f buf env m c, e = .frame i f buf env ∧ f.type = LMP_MSG ∧ cstr f.payload = [c] ∧
      w.server.group.member (i - 1) = .ok m ∧ m.uid.toStr ∈ w.server.hangmanUsersList ∧
      s'.hangman.Over

/-- What is true between two events. -/
structure Sound (w : Watched) : Prop where
  atRest : w.server.AtRest
  masked : w.server.hangman.hangmanRoundInitialized = true → w.server.hangman.Masked
  begun : w.begun = true → w.server.hangman.state = .playing ∧
    (w.server.hangman.hangmanWord.toStr = [] ∨
      w.server.hangman.hangmanRoundInitialized = true)

variable {w w' : Watched} {e : ServerEvent} {out : List Output} {s' : Server}

theorem Sound.playing (hI : w.Sound) (h : w.server.hangman.state ≠ .initial) :
    w.server.hangman.state = .playing := hI.atRest.state.resolve_left h

theorem sound_start (listener : Int) (info : GroupInfo) : (start listener info).Sound where
  atRest := ⟨.inl rfl, fun _ => ⟨rfl, rfl⟩⟩
  masked := fun h => nomatch h
  begun := fun h => nomatch h

theorem begunAfter_eq_true (h : w.begunAfter e s' = true) :
    s'.hangman.state ≠ .initial ∧ (w.begun = true ∨ (w.server.guessed e).isSome = true) := by
  simpa [begunAfter] using h

/-- The commands other than `start` change the list of players only. -/
theorem sound_of_players (hI : w.Sound) (hg : w.server.guessed e = none)
    (hfsm : s'.hangman = w.server.hangman)
    (husers : s'.hangman.state = .initial → s'.hangmanUsersList = []) :
    (Watched.mk s' (w.begunAfter e s')).Sound := by
  refine ⟨⟨?_, fun hs => ⟨husers hs, ?_⟩⟩, ?_, fun hb => ?_⟩
  · rw [hfsm]
    exact hI.atRest.state
  · rw [hfsm] at hs ⊢
    exact (hI.atRest.idle hs).2
  · rw [hfsm]
    exact hI.masked
  · rw [hfsm]
    refine hI.begun ((begunAfter_eq_true hb).2.resolve_right ?_)
    simp [hg]

theorem not_initialized_of_start {fsm : HangmanFsm} {file : Option Bytes} {rand : List Nat}
    (h : fsm.hangmanRoundInitialized = false) :
    { fsm.setRandomWord file rand with state := .playing }.hangmanRoundInitialized ≠ true := by
  rw [show _ = (fsm.setRandomWord file rand).hangmanRoundInitialized from rfl,
    HangmanFsm.setRandomWord_initialized, h]
  decide

theorem sound_step (hI : w.Sound) (h : w.server.step e = .ok (out, s')) :
    (Watched.mk s' (w.begunAfter e s')).Sound := by
  cases Server.gameStep_of_step h with
  | other _ hg hfsm husers =>
    apply sound_of_players hI hg hfsm
    intro hs
    rw [husers]
    exact (hI.atRest.idle (hfsm ▸ hs)).1
  | exit i f buf env m he hcmd hm hfsm husers =>
    apply sound_of_players hI (Server.guessed_of_command (by simp [hcmd])) hfsm
    intro hs
    rw [husers, (hI.atRest.idle (hfsm ▸ hs)).1]
    rfl
  | join i f buf env m he hcmd hm hstate hfsm husers =>
    apply sound_of_players hI (Server.guessed_of_command (by simp [hcmd])) hfsm
    intro hs
    exact absurd (hfsm ▸ hs) hstate
  | start i f buf env m he hcmd hm hstate hfsm husers =>
    have hinit := (hI.atRest.idle hstate).2
    have hnot : s'.hangman.hangmanRoundInitialized ≠ true := by
      rw [hfsm]
      exact not_initialized_of_start hinit
    refine ⟨⟨.inr (by rw [hfsm]), fun hs => ?_⟩, fun hi => absurd hi hnot, fun hb => ?_⟩
    · rw [hfsm] at hs
      cases hs
    · rcases (begunAfter_eq_true hb).2 with hb | hg
      · have hplaying := (hI.begun hb).1
        rw [hstate] at hplaying
        cases hplaying
      · rw [Server.guessed_of_command (by simp [hcmd])] at hg
        cases hg
  | guess i f buf env m c response he hc hm hg hfsm hout husers =>
    have hplaying := hI.playing hg.1
    refine ⟨⟨?_, fun hs => ⟨by rw [husers, if_pos hs], ?_⟩⟩, ?_, fun hb => ?_⟩
    · rw [hfsm]
      exact HangmanFsm.turn_state hplaying
    · rw [hfsm] at hs ⊢
      exact (HangmanFsm.over_of_turn hplaying hs).1
    · rw [hfsm]
      exact HangmanFsm.masked_turn hplaying hI.masked
    · have hne := (begunAfter_eq_true hb).1
      rw [hfsm] at hne ⊢
      exact ⟨(HangmanFsm.turn_state hplaying).resolve_left hne,
        HangmanFsm.initialized_of_turn hplaying hne⟩

theorem respects_of_step (hI : w.Sound) (h : w.server.step e = .ok (out, s')) :
    w.Respects e s' := by
  -- Where the machine stays as it is there is nothing to show.
  have hsame : s'.hangman = w.server.hangman → w.Respects e s' := fun hfsm =>
    ⟨fun _ => by rw [hfsm], fun _ => hfsm ▸ .refl _, fun hne hs => absurd (hfsm ▸ hs) hne⟩
  cases Server.gameStep_of_step h with
  | other _ _ hfsm => exact hsame hfsm
  | exit _ _ _ _ _ _ _ _ hfsm => exact hsame hfsm
  | join _ _ _ _ _ _ _ _ _ hfsm => exact hsame hfsm
  | start i f buf env m he hcmd hm hstate hfsm husers =>
    refine ⟨fun hne => absurd hstate hne, fun hb => ?_, fun hne => absurd hstate hne⟩
    have hplaying := (hI.begun hb).1
    rw [hstate] at hplaying
    cases hplaying
  | guess i f buf env m c response he hc hm hg hfsm hout husers =>
    have hplaying := hI.playing hg.1
    refine ⟨fun _ => ?_, fun hb => ?_, fun _ hs => ?_⟩
    · rw [hfsm]
      exact HangmanFsm.turn_hangmanWord hplaying
    · rw [hfsm]
      exact HangmanFsm.extends_turn hplaying hI.masked (hI.begun hb).2
    · obtain ⟨hf, htext⟩ := Server.guessed_eq_some (he ▸ hc)
      refine ⟨i, f, buf, env, m, c, he, hf, htext, hm, ?_, ?_⟩
      · simpa [Server.userInList] using hg.2
      · rw [hfsm] at hs ⊢
        exact (HangmanFsm.over_of_turn hplaying hs).2

/-- **The life of a game.** In every state that a run reaches no guess is being processed and there
are no players without a game. While a game is on its word stays, after its first guess what is
shown stays, and it ends with a guess of a player that wins or loses it. -/
theorem lifecycle (listener : Int) (info : GroupInfo) (es : List ServerEvent)
    (h : exec step (start listener info) es = .ok w) :
    w.server.AtRest ∧ ∀ e out s', w.server.step e = .ok (out, s') → w.Respects e s' := by
  have hI : w.Sound := by
    refine exec_invariant (C := fun _ _ => True) (I := Sound) ?_ (sound_start listener info)
      (meets_of_forall (fun _ _ => trivial) _ es) h
    intro w e w' hI _ hstep
    unfold step at hstep
    cases hs : w.server.step e with
    | error f => rw [hs] at hstep; cases hstep
    | ok r =>
      rw [hs] at hstep
      cases hstep
      exact sound_step hI hs
  exact ⟨hI.atRest, fun e out s' hs => respects_of_step hI hs⟩

/-- One member starts a game with the word `ab` and guesses `a`. -/
def annPlays : List ServerEvent :=
  let env := { Env.allOk with wordFile := some (str "ab\n") }
  [.accept 5, .frame 1 (initFrame (userMemberInfo (str "a0000001") (str "ann"))) [] .allOk,
    .frame 1 (lmpFrame LMP_GRP_HANGMAN (str "start")) [] env,
    .frame 1 (lmpFrame LMP_MSG (str "a")) [] env]

theorem lifecycle_annPlays : ∃ w, exec step (start 3 gserverInfo) annPlays = .ok w ∧
    w.begun = true ∧ w.server.hangman.state = .playing ∧ w.server.AtRest := by
  have hrun : (exec step (start 3 gserverInfo) annPlays).isOk := by decide +kernel
  obtain ⟨w, h, hbegun, hstate⟩ :=
    exists_ok (P := fun w => w.begun = true ∧ w.server.hangman.state = .playing) hrun
      (by decide +kernel)
  exact ⟨w, h, hbegun, hstate, (lifecycle 3 gserverInfo annPlays h).1⟩

end Watched

end SocketSpeak
