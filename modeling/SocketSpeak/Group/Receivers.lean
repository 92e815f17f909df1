import SocketSpeak.Group.InRange

/-!
# To whom the server sends

`receivers` are the connections that the handling of an event sends to, as a function of the state
before it. A send that fails keeps none of them from its turn: a broadcast and a relay go on to the
next connection, and so does the answer to a guess.
-/

namespace SocketSpeak
open CLib

namespace Server

/-- The member at `pfds[i]` plays the game that is on. -/
def Guesser (s : Server) (i : Nat) : Prop := ∃ m ∈ s.group.members[i - 1]?, s.IsGuess m

instance (s : Server) (i : Nat) : Decidable (s.Guesser i) :=
  inferInstanceAs (Decidable (∃ m ∈ s.group.members[i - 1]?, _))

/-- The connections but `fd` -/
def others (s : Server) (fd : Int) : List Int := s.conns.filter (· ≠ fd)

/-- The connections at which the players are found. -/
def playerConns (s : Server) : List Int :=
  s.hangmanUsersList.filterMap fun uid => (s.playerIndex uid).bind fun j => s.conns[j]?

/-- To whom the server sends for the command `text` from `fd`. -/
def commandReceivers (s : Server) (fd : Int) (text : Bytes) : List Int :=
  if text = str "start" then if s.hangman.state = .initial then s.conns else [fd]
  else if text = str "exit" then [fd]
  else if text = str "join" then if s.hangman.state ≠ .initial then [fd] else []
  else []

/-- To whom the server sends for an event of the connection `fd`. -/
def receivers (s : Server) (fd : Int) : ServerEvent → List Int
  | .accept _ => []
  | .frame i f _ _ =>
    if f.type = LMP_NICK ∨ f.type = LMP_GRP_INIT_MEMBER then s.conns
    else if f.type = LMP_GRP_LOAD_MSG then [fd]
    else if f.type = LMP_GRP_HANGMAN then s.commandReceivers fd (cstr f.payload)
    else if f.type = LMP_MSG ∧ s.Guesser i then if s.Guesses i f then s.playerConns else [fd]
    else s.others fd
  | .hangup .. => s.others fd

variable {s s' : Server} {env : Env} {i k : Nat} {fd fd' : Int} {f : Frame} {buf : Bytes}
  {out out' : List Output}

/-! ## Frames that go out -/

/-- One of the frames goes to `fd`. -/
def Reached (out : List Output) (fd : Int) : Prop := ∃ o ∈ out, o.fd = fd

instance (out : List Output) (fd : Int) : Decidable (Reached out fd) :=
  inferInstanceAs (Decidable (∃ o ∈ out, _))

@[simp] theorem reached_nil : Reached [] fd ↔ False := by simp [Reached]

end Server

end SocketSpeak
