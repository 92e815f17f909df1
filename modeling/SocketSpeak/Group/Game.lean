import SocketSpeak.Group.Clients
import SocketSpeak.Group.HangmanTurn

/-!
# The game on the server

The state machine and the list of players change with the commands `start`, `join` and `exit` that
are accepted, and with the guesses. `gameStep_of_step` says how, and that nothing else changes them.
-/

namespace SocketSpeak
open CLib Sys

inductive HangmanCommand where
  | start
  | exit
  | join
  deriving DecidableEq

namespace Server

/-- The command that is accepted with the text `text` of an `LMP_GRP_HANGMAN`. -/
def accepts (s : Server) (text : Bytes) : Option HangmanCommand :=
  if text = str "start" then if s.hangman.state = .initial then some .start else none
  else if text = str "exit" then some .exit
  else if text = str "join" then if s.hangman.state ≠ .initial then some .join else none
  else none

/-- The command that is accepted with an event. -/
def command (s : Server) : ServerEvent → Option HangmanCommand
  | .frame _ f _ _ => if f.type = LMP_GRP_HANGMAN then s.accepts (cstr f.payload) else none
  | _ => none

/-- The guess that the machine processes with an event. -/
def guessed (s : Server) : ServerEvent → Option UInt8
  | .frame i f _ _ =>
    if f.type = LMP_MSG then
      match s.group.member (i - 1), cstr f.payload with
      | .ok m, [c] => if s.IsGuess m ∧ s.hangman.state ≠ .update then some c else none
      | _, _ => none
    else none
  | _ => none

end Server

/-- What is said when a game starts. -/
def startText (nick : Bytes) : Bytes :=
  Server.bar ++ str "[Hangman System] " ++ nick ++ str " started a new Hangman game\n" ++
    str "Welcome to Hangman! Guess a letter to start playing."

/-- What is said when a guess has been processed with this result. -/
def guessText (nick : Bytes) (c : UInt8) (result : Bytes) : Bytes :=
  Server.bar ++ str "[Hangman System] " ++ nick ++ str " guessed '" ++ [c] ++ str "'\n" ++ result

namespace Server

/-- All that an event can do to the game, to the list of its players and to the text that is kept
for those who join. -/
inductive GameStep (s : Server) (e : ServerEvent) (out : List Output) (s' : Server) : Prop
  | other : s.command e = none → s.guessed e = none → s'.hangman = s.hangman →
    s'.hangmanUsersList = s.hangmanUsersList → s'.hangmanOldResponse = s.hangmanOldResponse →
    GameStep s e out s'
  | start (i : Nat) (f : Frame) (buf : Bytes) (env : Env) (m : GroupMember) :
    e = .frame i f buf env → s.command e = some .start → s.group.member (i - 1) = .ok m →
    s.hangman.state = .initial →
    s'.hangman = { s.hangman.setRandomWord env.wordFile env.rand with state := .playing } →
    s'.hangmanUsersList = addUser s.hangmanUsersList m.uid.toStr →
    s'.hangmanOldResponse = startText m.nickname.toStr → GameStep s e out s'
  | exit (i : Nat) (f : Frame) (buf : Bytes) (env : Env) (m : GroupMember) :
    e = .frame i f buf env → s.command e = some .exit → s.group.member (i - 1) = .ok m →
    s'.hangman = s.hangman →
    s'.hangmanUsersList = removeUser s.hangmanUsersList m.uid.toStr →
    s'.hangmanOldResponse = s.hangmanOldResponse → GameStep s e out s'
  | join (i : Nat) (f : Frame) (buf : Bytes) (env : Env) (m : GroupMember) :
    e = .frame i f buf env → s.command e = some .join → s.group.member (i - 1) = .ok m →
    s.hangman.state ≠ .initial → s'.hangman = s.hangman →
    s'.hangmanUsersList = addUser s.hangmanUsersList m.uid.toStr →
    s'.hangmanOldResponse = s.hangmanOldResponse →
    (∀ o ∈ out, o.frame = lmpFrame LMP_GRP_HANGMAN s.hangmanOldResponse) → GameStep s e out s'
  | guess (i : Nat) (f : Frame) (buf : Bytes) (env : Env) (m : GroupMember) (c : UInt8)
    (response : Bytes) :
    e = .frame i f buf env → s.guessed e = some c → s.group.member (i - 1) = .ok m →
    s.IsGuess m → s'.hangman = s.hangman.turn env.wordFile env.rand c →
    s.sendToPlayers env response s.hangmanUsersList = .ok out →
    s'.hangmanUsersList = (if s'.hangman.state = .initial then [] else s.hangmanUsersList) →
    response = guessText m.nickname.toStr c
      (s.hangman.processHangmanState env.wordFile env.rand c).1 →
    s'.hangmanOldResponse = response → GameStep s e out s'

variable {s s' : Server} {out : List Output} {i : Nat} {f : Frame} {buf : Bytes} {env : Env}

theorem command_of_ne (hf : f.type ≠ LMP_GRP_HANGMAN) : s.command (.frame i f buf env) = none :=
  if_neg hf

theorem guessed_of_ne (hf : f.type ≠ LMP_MSG) : s.guessed (.frame i f buf env) = none := if_neg hf

/-- A command is no guess. -/
theorem guessed_of_command {e : ServerEvent} (h : s.command e ≠ none) : s.guessed e = none := by
  cases e with
  | accept => rfl
  | hangup => rfl
  | frame i f buf env =>
    refine guessed_of_ne fun hf => h (command_of_ne ?_)
    rw [hf]
    decide

theorem guessed_eq_some {c : UInt8} (h : s.guessed (.frame i f buf env) = some c) :
    f.type = LMP_MSG ∧ cstr f.payload = [c] := by
  obtain ⟨hf, h⟩ := Option.ite_none_right_eq_some.mp h
  refine ⟨hf, ?_⟩
  split at h
  · rename_i htext
    obtain ⟨-, h⟩ := Option.ite_none_right_eq_some.mp h
    cases h
    exact htext
  · cases h

theorem gameStep_of_hangman (hf : f.type = LMP_GRP_HANGMAN) {fd : Int}
    (h : s.clientHangman env i fd (f.received buf).received.buf = .ok (out, s')) :
    GameStep s (.frame i f buf env) out s' := by
  obtain ⟨m, hm, h⟩ := bind_ok h
  have hguess : s.guessed (.frame i f buf env) = none := guessed_of_ne (by rw [hf]; decide)
  have hcommand : s.command (.frame i f buf env) = s.accepts (cstr f.payload) := if_pos hf
  rw [cstr_received] at h
  split at h
  · rename_i htext
    split at h
    · rename_i hstate
      cases h
      refine .start i f buf env m rfl ?_ hm hstate ?_ rfl ?_
      · rw [hcommand, accepts, if_pos htext, if_pos hstate]
      · exact HangmanFsm.processHangmanState_initial hstate 0
      · simp only [hstate]
        rfl
    · rename_i hstate
      cases h
      refine .other ?_ hguess rfl rfl rfl
      rw [hcommand, accepts, if_pos htext, if_neg hstate]
  rename_i hstart
  split at h
  · rename_i htext
    cases h
    refine .exit i f buf env m rfl ?_ hm rfl rfl rfl
    rw [hcommand, accepts, if_neg hstart, if_pos htext]
  rename_i hexit
  split at h
  · rename_i htext
    split at h
    · rename_i hstate
      cases h
      refine .join i f buf env m rfl ?_ hm hstate rfl rfl rfl fun o ho => ?_
      · rw [hcommand, accepts, if_neg hstart, if_neg hexit, if_pos htext, if_pos hstate]
      · rw [(mem_lmpSend.mp ho).2]
    · rename_i hstate
      cases h
      refine .other ?_ hguess rfl rfl rfl
      rw [hcommand, accepts, if_neg hstart, if_neg hexit, if_pos htext, if_neg hstate]
  · rename_i hjoin
    cases h
    refine .other ?_ hguess rfl rfl rfl
    rw [hcommand, accepts, if_neg hstart, if_neg hexit, if_neg hjoin]

theorem gameStep_of_guess (hf : f.type = LMP_MSG) {fd : Int} {m : GroupMember}
    (hm : s.group.member (i - 1) = .ok m) (hg : s.IsGuess m)
    (h : s.clientGuess env fd m (f.received buf).received.buf = .ok (out, s')) :
    GameStep s (.frame i f buf env) out s' := by
  have hcommand : s.command (.frame i f buf env) = none := command_of_ne (by rw [hf]; decide)
  unfold clientGuess at h
  split at h
  · rename_i hstate
    cases h
    refine .other hcommand ?_ rfl rfl rfl
    rw [guessed, if_pos hf, hm]
    split
    · rw [if_neg fun h => h.2 hstate]
    · rfl
  rename_i hstate
  rw [strlen, cstr_received] at h
  split at h
  · rename_i hlen
    cases h
    refine .other hcommand ?_ rfl rfl rfl
    rw [guessed, if_pos hf, hm]
    split
    · rename_i htext
      rw [htext] at hlen
      exact absurd rfl hlen
    · rfl
  · rename_i hlen
    obtain ⟨c, hc⟩ := List.length_eq_one_iff.mp (Decidable.not_not.mp hlen)
    obtain ⟨out', hout, h⟩ := bind_ok h
    cases h
    have hget : (f.received buf).received.buf.getD 0 0 = c := by
      have hcstr : cstr (f.received buf).received.buf = [c] := by rw [cstr_received, hc]
      exact (cstr_eq_iff.mp hcstr).2 0 (Nat.zero_le _)
    rw [hget] at hout ⊢
    refine .guess i f buf env m c _ rfl ?_ hm hg rfl hout rfl rfl rfl
    rw [guessed, if_pos hf, hm, hc]
    exact if_pos ⟨hg, hstate⟩

/-- What an event does to the game. -/
theorem gameStep_of_step {e : ServerEvent} (h : s.step e = .ok (out, s')) :
    GameStep s e out s' := by
  cases e with
  | accept fd =>
    simp only [step, Except.ok.injEq, Prod.mk.injEq] at h
    obtain ⟨rfl, rfl⟩ := h
    refine .other rfl rfl ?_ ?_ ?_ <;> rw [handleNewConnection] <;> split <;> rfl
  | hangup i status env =>
    obtain ⟨fd, -, h⟩ := bind_ok h
    obtain ⟨s₁, h₁, h⟩ := bind_ok h
    cases h
    obtain ⟨last, -, h₁⟩ := bind_ok h₁
    obtain ⟨g, -, h₁⟩ := bind_ok h₁
    obtain ⟨g', -, h₁⟩ := bind_ok h₁
    cases h₁
    exact .other rfl rfl rfl rfl rfl
  | frame i f buf env =>
    obtain ⟨fd, -, hd⟩ := dispatched_of_frame h
    -- The cases before and after those of the game leave it alone.
    have hother : f.type ≠ LMP_GRP_HANGMAN → s.guessed (.frame i f buf env) = none →
        s'.hangman = s.hangman → s'.hangmanUsersList = s.hangmanUsersList →
        s'.hangmanOldResponse = s.hangmanOldResponse → GameStep s (.frame i f buf env) out s' :=
      fun hf hg h1 h2 h3 => .other (command_of_ne hf) hg h1 h2 h3
    cases hd with
    | nick hf h =>
      obtain ⟨m, -, h⟩ := bind_ok h
      obtain ⟨g, -, h⟩ := bind_ok h
      cases h
      exact hother (by rw [hf]; decide) (guessed_of_ne (by rw [hf]; decide)) rfl rfl rfl
    | init hf h =>
      obtain ⟨g, -, h⟩ := bind_ok h
      obtain ⟨g', -, h⟩ := bind_ok h
      cases h
      exact hother (by rw [hf]; decide) (guessed_of_ne (by rw [hf]; decide)) rfl rfl rfl
    | load hf h =>
      obtain ⟨m, -, h⟩ := bind_ok h
      cases h
      exact hother (by rw [hf]; decide) (guessed_of_ne (by rw [hf]; decide)) rfl rfl rfl
    | hangman hf h => exact gameStep_of_hangman hf h
    | guess m hf hm hg h => exact gameStep_of_guess hf hm hg h
    | message m hf hm hg hr =>
      cases hr
      refine hother (by rw [hf]; decide) ?_ rfl rfl rfl
      rw [guessed, if_pos hf, hm]
      split
      · rename_i hm' _
        cases hm'
        exact if_neg fun h => hg h.1
      · rfl
    | other hf hr =>
      cases hr
      exact hother (fun h => hf (by rw [h]; decide)) (guessed_of_ne fun h => hf (by rw [h]; decide))
        rfl rfl rfl

end Server

end SocketSpeak
