import SocketSpeak.CLib.SwapRemove
import SocketSpeak.CLib.Sys
import SocketSpeak.Chat.Registry
import SocketSpeak.Group.Hangman
import SocketSpeak.Group.History
import SocketSpeak.Lmp.Stream

/-!
# The group server

`group_server_comms.c`: the table of connections, and what the server does with a new connection and
with what `lmp_recv` returns for one. The member of the connection `pfds[i]` is taken to be
`members[i - 1]`; nothing but the order of events ties the two tables together.
-/

namespace SocketSpeak
open CLib

def POLLIN : Nat := 1

structure PollFd where
  fd : Int
  events : Nat
  revents : Nat
  deriving DecidableEq

/-- The state of the server process; `pfds` are the first `fd_count` entries of the poll table. -/
structure Server where
  listener : Int
  pfds : List PollFd
  fdSize : Nat
  group : Group
  hangman : HangmanFsm
  hangmanOldResponse : Bytes
  hangmanUsersList : List Bytes
  history : HistoryFile
  deriving DecidableEq

/-- What the outside decides while one event is handled: to which descriptors a send succeeds, and
what the files and `rand` give. -/
structure Env where
  sendOk : Int → Bool
  historyOpens : Bool
  wordFile : Option Bytes
  rand : List Nat

/-- Everything succeeds. -/
def Env.allOk : Env := ⟨fun _ => true, true, none, []⟩

/-- A frame that goes out. -/
structure Output where
  fd : Int
  frame : Frame
  deriving DecidableEq

namespace Env

/-- `lmp_send(fd, type, payload, len)`. A send that fails does so before its first byte, and no
signal is raised. -/
def lmpSend (env : Env) (fd : Int) (type : UInt8) (payload : Bytes) : List Output :=
  if env.sendOk fd then [⟨fd, lmpFrame type payload⟩] else []

/-- `group_lmp_send(fd, type, payload, len, sender)`, which fails as `lmpSend` does -/
def groupLmpSend (env : Env) (fd : Int) (type : UInt8) (payload : Bytes) (sender : Int) :
    List Output :=
  if env.sendOk fd then [⟨fd, groupLmpFrame type payload sender⟩] else []

/-- `grp_obj_send(code, "", ctx)` with `ctx->sock == fd` -/
def grpObjSend (env : Env) (g : Group) (code : UInt8) (fd : Int) : CommandResult × List Output :=
  (if env.sendOk fd then .success else .error, env.lmpSend fd code g.toBytes)

end Env

/-- `current_group.info`, as `main` of `gserver` sets it. -/
def gserverInfo : GroupInfo := ⟨.copyStr _ (str "12345678"), .copyStr _ (str "Test Group")⟩

namespace Server

/-- `group_server_TCP_listen` up to the first `poll`. -/
def start (listener : Int) (info : GroupInfo) : Server where
  listener := listener
  pfds := [⟨listener, POLLIN, 0⟩]
  fdSize := MAX_GROUP_MEMBERS + 5
  group := { Group.zero with info }
  hangman := .zero
  hangmanOldResponse := []
  hangmanUsersList := []
  history := ⟨[], 0⟩

def fdCount (s : Server) : Nat := s.pfds.length

/-- `pfds[i].fd` -/
def pollFd (s : Server) (i : Int) : Except Fault Int :=
  match if i < 0 then none else s.pfds[i.toNat]? with
  | some p => .ok p.fd
  | none => .error (.pollIndex i)

/-! ## The two tables -/

def addToPfds (s : Server) (newfd : Int) : Server :=
  { s with
    fdSize := if s.fdCount = s.fdSize then s.fdSize * 2 else s.fdSize
    pfds := s.pfds ++ [⟨newfd, POLLIN, 0⟩] }

/-- `del_from_pfds(pfds, i, &fd_count)`: in both tables the last entry takes the place of the
deleted one, the last entry of the members being the one that belongs to the last connection. -/
def delFromPfds (s : Server) (i : Nat) : Except Fault Server := do
  let pfds := swapRemove s.pfds i
  let last ← s.group.member (s.fdCount - 2)
  let group ← s.group.setMember (i - 1) last
  let group ← group.addCount (-1)
  return { s with pfds, group }

/-- The loop of `send_new_group_to_users`. -/
def sendNewGroupLoop (env : Env) (listener : Int) (g : Group) : List PollFd → Int × List Output
  | [] => (0, [])
  | p :: ps =>
    if p.fd ≠ listener then
      let (r, out) := env.grpObjSend g LMP_GRP_OBJ p.fd
      if r.toInt < 0 then (-1, out)
      else
        let (r', out') := sendNewGroupLoop env listener g ps
        (r', out ++ out')
    else sendNewGroupLoop env listener g ps

def sendNewGroupToUsers (s : Server) (env : Env) : Int × List Output :=
  sendNewGroupLoop env s.listener s.group s.pfds

/-- `handle_new_connection`, where `accept` has returned `newfd`. -/
def handleNewConnection (s : Server) (newfd : Int) : Server :=
  if newfd = -1 then s else s.addToPfds newfd

/-! ## Hangman players -/

/-- `add_user(&hangman_users_list, uid)` -/
def addUser (users : List Bytes) (uid : Bytes) : List Bytes := uid.take UID_LENGTH :: users

/-- `remove_user(&hangman_users_list, uid)` -/
def removeUser (users : List Bytes) (uid : Bytes) : List Bytes := users.erase uid

def userInList (users : List Bytes) (uid : Bytes) : Bool := users.contains uid

/-- The search for `uid` among `members[j]`, `j < member_count`; `n` is what is left of it. -/
def findMember (g : Group) (uid : Bytes) : Nat → Int → Except Fault (Option Int)
  | 0, _ => return none
  | n + 1, j => do
    let m ← g.member j
    if m.uid.toStr = uid then return some j else findMember g uid n (j + 1)

/-- The response to a guess goes to a player if it is found among the members. -/
def sendToPlayer (s : Server) (env : Env) (response uid : Bytes) : Except Fault (List Output) := do
  match ← findMember s.group uid s.group.memberCount.val.toNat 0 with
  | some j => do
    let fd ← s.pollFd (j + 1)
    return env.lmpSend fd LMP_GRP_HANGMAN response
  | none => return []

def sendToPlayers (s : Server) (env : Env) (response : Bytes) :
    List Bytes → Except Fault (List Output)
  | [] => return []
  | uid :: uids => do
    let out ← s.sendToPlayer env response uid
    let out' ← s.sendToPlayers env response uids
    return out ++ out'

/-! ## The cases of `handle_client_data`

`i` is the index of the connection in the poll table, `fd` its descriptor. Each case gives the
frames that go out and the state after it.
-/

/-- `lmp_recv` has failed. -/
def clientHangup (s : Server) (env : Env) (i : Nat) : Except Fault (List Output × Server) := do
  let s ← s.delFromPfds i
  return ((s.sendNewGroupToUsers env).2, s)

/-- `LMP_NICK` -/
def clientNick (s : Server) (env : Env) (i : Nat) (buf : Bytes) :
    Except Fault (List Output × Server) := do
  let m ← s.group.member (i - 1)
  let group ← s.group.setMember (i - 1) { m with nickname := .copyStr _ buf }
  let s := { s with group }
  return ((s.sendNewGroupToUsers env).2, s)

/-- `LMP_GRP_INIT_MEMBER`: the new member gets the slot `member_count`. -/
def clientInitMember (s : Server) (env : Env) (buf : Bytes) :
    Except Fault (List Output × Server) := do
  let newMember := GroupMember.ofBytes buf
  let group ← s.group.setMember s.group.memberCount.val newMember
  let group ← group.addCount 1
  let s := { s with group }
  return ((s.sendNewGroupToUsers env).2, s)

/-- `LMP_GRP_LOAD_MSG` -/
def clientLoadMsg (s : Server) (env : Env) (i : Nat) (fd : Int) :
    Except Fault (List Output × Server) := do
  let _ ← s.group.member (i - 1)
  let lines := if env.historyOpens then s.history.lines else []
  return (lines.flatMap (env.lmpSend fd LMP_GRP_LOADING_MSG) ++
    env.lmpSend fd LMP_GRP_LOAD_MSG [], s)

def bar : Bytes := str "==================================================\n"

/-- `LMP_GRP_HANGMAN` -/
def clientHangman (s : Server) (env : Env) (i : Nat) (fd : Int) (buf : Bytes) :
    Except Fault (List Output × Server) := do
  let m ← s.group.member (i - 1)
  if cstr buf = str "start" then
    if s.hangman.state = .initial then
      let (welcome, hangman) := s.hangman.processHangmanState env.wordFile env.rand 0
      let response := bar ++ str "[Hangman System] " ++ m.nickname.toStr ++
        str " started a new Hangman game\n" ++ welcome
      let broadcastMsg := str "[System] " ++ m.nickname.toStr ++
        str " started a new Hangman game, use '/hangman join' to join the game"
      let others := s.pfds.filter fun p => p.fd ≠ s.listener ∧ p.fd ≠ fd
      return (env.lmpSend fd LMP_GRP_HANGMAN response ++
          others.flatMap fun p => env.lmpSend p.fd LMP_GRP_HANGMAN broadcastMsg,
        { s with
          hangman := hangman
          hangmanOldResponse := response
          hangmanUsersList := addUser s.hangmanUsersList m.uid.toStr })
    else
      return (env.lmpSend fd LMP_GRP_HANGMAN (str ("[Hangman System] A Hangman game is already " ++
        "in progress. Please join the current game via '/hangman join' or wait for it to finish.")), s)
  else if cstr buf = str "exit" then
    return (env.lmpSend fd LMP_GRP_HANGMAN
        (str "[Hangman System] You have exited the Hangman game."),
      { s with hangmanUsersList := removeUser s.hangmanUsersList m.uid.toStr })
  else if cstr buf = str "join" then
    if s.hangman.state ≠ .initial then
      return (env.lmpSend fd LMP_GRP_HANGMAN s.hangmanOldResponse,
        { s with hangmanUsersList := addUser s.hangmanUsersList m.uid.toStr })
    else return ([], s)
  else return ([], s)

/-- The relay, to all connections but the sender's. -/
def relay (s : Server) (env : Env) (i : Nat) (fd : Int) (type : UInt8) (payload : Bytes) :
    List Output :=
  (s.pfds.filter fun p => p.fd ≠ s.listener ∧ p.fd ≠ fd).flatMap fun p =>
    env.groupLmpSend p.fd type payload (i - 1)

/-- `LMP_MSG` from a player of a game that is on. -/
def clientGuess (s : Server) (env : Env) (fd : Int) (m : GroupMember) (buf : Bytes) :
    Except Fault (List Output × Server) := do
  if s.hangman.state = .update then
    return (env.lmpSend fd LMP_GRP_HANGMAN (str ("[Hangman System] The game is currently " ++
      "processing the previous guess, please wait a moment before sending another guess.")), s)
  else if strlen buf ≠ 1 then
    return (env.lmpSend fd LMP_GRP_HANGMAN (str ("[Hangman System] Invalid input for Hangman. " ++
      "Please guess a single letter. (Type </hangman exit> to leave the game)")), s)
  else
    let guess := buf.getD 0 0
    let (result, hangman) := s.hangman.processHangmanState env.wordFile env.rand guess
    let response := bar ++ str "[Hangman System] " ++ m.nickname.toStr ++ str " guessed '" ++
      [guess] ++ str "'\n" ++ result
    let out ← s.sendToPlayers env response s.hangmanUsersList
    let hangman := hangman.finishBroadcast
    return (out, { s with
      hangman := hangman
      hangmanOldResponse := response
      hangmanUsersList := if hangman.state = .initial then [] else s.hangmanUsersList })

/-- `LMP_MSG`: a guess, or else a message, which is saved and falls through to the relay. -/
def clientMsg (s : Server) (env : Env) (i : Nat) (fd : Int) (r : Received) :
    Except Fault (List Output × Server) := do
  let m ← s.group.member (i - 1)
  if s.hangman.state ≠ .initial ∧ userInList s.hangmanUsersList m.uid.toStr then
    s.clientGuess env fd m r.buf
  else
    let history := (s.history.saveMessage env.historyOpens m.uid.toStr (cstr r.buf)).2
    return (s.relay env i fd r.type (r.buf.take r.len), { s with history })

/-- `handle_client_data` for `pfds[i]`, where `lmp_recv` has given `r`. -/
def handleClientData (s : Server) (env : Env) (i : Nat) (r : Except Int Received) :
    Except Fault (List Output × Server) := do
  let fd ← s.pollFd i
  match r with
  | .error _ => s.clientHangup env i
  | .ok r =>
    if r.type = LMP_NICK then s.clientNick env i r.buf
    else if r.type = LMP_GRP_INIT_MEMBER then s.clientInitMember env r.buf
    else if r.type = LMP_GRP_LOAD_MSG then s.clientLoadMsg env i fd
    else if r.type = LMP_GRP_HANGMAN then s.clientHangman env i fd r.buf
    else if r.type = LMP_MSG then s.clientMsg env i fd r
    else return (s.relay env i fd r.type (r.buf.take r.len), s)

end Server

/-- What `process_connections` may handle next: a connection that is accepted as `fd`; a frame that
comes in on `pfds[i]`, into a buffer that held `buf`; or a receive on `pfds[i]` that fails. -/
inductive ServerEvent where
  | accept (fd : Int)
  | frame (i : Nat) (f : Frame) (buf : Bytes) (env : Env)
  | hangup (i : Nat) (status : Int) (env : Env)

def Server.step (s : Server) : ServerEvent → Except Fault (List Output × Server)
  | .accept fd => .ok ([], s.handleNewConnection fd)
  | .frame i f buf env => s.handleClientData env i (.ok (f.received buf).received)
  | .hangup i status env => s.handleClientData env i (.error status)

end SocketSpeak
