import SocketSpeak.Chat.Registry
import SocketSpeak.Group.History
import SocketSpeak.Lmp.Stream

/-!
# The group client

`gclient` once it is connected: the commands of its main thread (`chat_loop_user`), and its
`receiver`, which resolves the sender of a frame in its own copy `user_group` of the group object.
The prompt is left out of what is printed, and so are the files that a handler writes.
-/

namespace SocketSpeak
open CLib

def MAX_STICKER_LEN : Nat := 2048

theorem maxStickerLen_pos : 0 < MAX_STICKER_LEN := by decide

/-- `State_t` -/
inductive LoadState where
  | idle
  | requestingLoad
  | loading
  deriving DecidableEq

/-- The process: its globals, the `LMPContext` that the two threads share, what it has printed, and
the frames that it has written to its socket and that the server has not read. -/
structure User where
  userGroup : Group
  currentGroup : Group
  isInitialized : Bool
  loadingMessageState : LoadState
  userMemberInfo : GroupMember
  peerNick : CharArray NICKNAME_MAX_LEN
  peerUid : CharArray (UID_LENGTH + 1)
  stdout : List Bytes
  up : List Frame
  deriving DecidableEq

/-- What the outside decides while a handler runs: whether a send succeeds, the stickers that the
catalogue holds, and what a saved nickname leaves in `peer_nick`. -/
structure UserEnv where
  sendOk : Bool
  stickers : List (Bytes × Bytes)
  savedNick : Option (CharArray NICKNAME_MAX_LEN)

def UserEnv.allOk : UserEnv := ⟨true, [], none⟩

/-- `get_sticker(name)` -/
def UserEnv.getSticker (env : UserEnv) (name : Bytes) : Option Bytes :=
  (env.stickers.find? fun e => e.1 = name).map Prod.snd

/-- `user_member_info`, as `main` of `gclient` sets it. -/
def userMemberInfo (uid nickname : Bytes) : GroupMember := ⟨.copyStr _ uid, .copyStr _ nickname⟩

/-- What `user_grp_init_send` sends. -/
def initFrame (m : GroupMember) : Frame := lmpFrame LMP_GRP_INIT_MEMBER m.toBytes

namespace User

/-- The client when `chat_loop_user` starts its receiver. -/
def start (m : GroupMember) : User where
  userGroup := .zero
  currentGroup := .zero
  isInitialized := false
  loadingMessageState := .idle
  userMemberInfo := m
  peerNick := .zero _
  peerUid := .zero _
  stdout := []
  up := [initFrame m]

def print (u : User) (line : Bytes) : User := { u with stdout := u.stdout ++ [line] }

/-- `lmp_send(ctx->sock, type, payload, len)`. A send that fails does so before its first byte, and
no signal is raised. -/
def lmpSend (u : User) (env : UserEnv) (type : UInt8) (payload : Bytes) : Int × User :=
  if env.sendOk then (0, { u with up := u.up ++ [lmpFrame type payload] }) else (-1, u)

/-- `lmp_send`, with the result that the handlers make of it. -/
def sendCommand (u : User) (env : UserEnv) (type : UInt8) (payload : Bytes) :
    CommandResult × User :=
  let (r, u) := u.lmpSend env type payload
  (if r < 0 then .error else .success, u)

end User

abbrev UserSend := SendHandler UserEnv User Fault
abbrev UserRecv := RecvHandler UserEnv User Fault

/-! ## What is printed -/

/-- `"[%s]: %s\n"` -/
def chatLine (nick text : Bytes) : Bytes := str "[" ++ nick ++ str "]: " ++ text ++ str "\n"

/-- A string, or what stands for an empty one. -/
def orElse (s other : Bytes) : Bytes := if s = [] then other else s

/-- The loop of `print_group_info`; the first argument is what is left of `member_count`. -/
def memberLines (g : Group) : Nat → Int → Except Fault Bytes
  | 0, _ => return []
  | n + 1, i => do
    let m ← g.member i
    let rest ← memberLines g n (i + 1)
    return str "- " ++ orElse m.nickname.toStr (str "Unknown") ++ str " (UID: " ++
      orElse m.uid.toStr (str "Unknown") ++ str ")\n" ++ rest

/-- `print_group_info(group)` -/
def printGroupInfo (g : Group) : Except Fault Bytes := do
  let members ← memberLines g g.memberCount.val.toNat 0
  return str "[" ++ orElse g.info.groupName.toStr (str "Unknown Group") ++
    str "]\nCurrent members (" ++ decimal g.memberCount.val ++ str "):\n" ++ members

/-! ## Commands -/

def msgSend : UserSend := fun env code args u => .ok (u.sendCommand env code args)

/-- With `user_group_MODE` set, the nickname is not kept. -/
def nickSend : UserSend := fun env code args u => .ok (u.sendCommand env code args)

def meowSend : UserSend := fun _ _ args u =>
  .ok (.success, u.print (str "meow " ++ args ++ str "\n"))

/-- The second token of a sticker command. -/
def withStickerName (rest : Bytes) (u : User) (f : Bytes → Except Fault (CommandResult × User)) :
    Except Fault (CommandResult × User) :=
  match strtok (str " ") rest with
  | none => .ok (.error, u.print (str "No command found!\n"))
  | some (name, _) => f name

/-- `sticker_send`; a sticker that is sent is also put after a newline, in a buffer that has room
for no more than the sticker. -/
def stickerSend : UserSend := fun env code args u =>
  match strtok (str " ") args with
  | none => .ok (.error, u.print (str "No command found!\n"))
  | some (command, rest) =>
    if command = str "create" then
      withStickerName rest u fun name =>
        match env.getSticker name with
        | some _ => .ok (.success,
            u.print (str "There is already a sticker with name " ++ name ++ str "!\n"))
        | none => .ok (.success, u.print (str "Sticker " ++ name ++ str " created!\n"))
    else if command = str "send" then
      withStickerName rest u fun name =>
        match env.getSticker name with
        | none => .ok (.success, u.print (str "Sticker not found!\n"))
        | some sticker =>
          let (r, u) := (u.print (sticker ++ str "\n")).sendCommand env code sticker
          if r = .error then .ok (.error, u)
          else if MAX_STICKER_LEN ≤ 1 + sticker.length then .error .bufferOverflow
          else .ok (.success, u)
    else if command = str "list" then
      .ok (.success, u.print (str "Stickers saved:\n" ++
        env.stickers.flatMap fun e => e.1 ++ str "\n"))
    else if command = str "preview" then
      withStickerName rest u fun name =>
        match env.getSticker name with
        | none => .error .nullPointer
        | some sticker => .ok (.success, u.print (sticker ++ str "\n"))
    else .ok (.success, u.print (str "Sticker command " ++ command ++ str " not found!"))

/-- `grp_obj_send`: what goes out is the process's own `current_group`, whatever was typed. -/
def grpObjSend : UserSend := fun env code _ u => .ok (u.sendCommand env code u.currentGroup.toBytes)

def grpInfoSend : UserSend := fun _ _ _ u => do
  let text ← printGroupInfo u.userGroup
  return (.success, u.print text)

def userGrpLoadMsgSend : UserSend := fun env _ _ u =>
  match u.loadingMessageState with
  | .requestingLoad =>
    .ok (.success, u.print (str "[System]: Already requesting load, please wait...\n"))
  | .loading => .ok (.success, u.print (str "[System]: Loading, please wait...\n"))
  | .idle =>
    let u := u.print (str "[System]: Loading History...\n")
    .ok ({ u with loadingMessageState := .requestingLoad }.sendCommand env LMP_GRP_LOAD_MSG [])

def userGrpHangmanSend : UserSend := fun env code args u =>
  if args = str "start" ∨ args = str "join" ∨ args = str "exit" then
    .ok (u.sendCommand env code args)
  else
    .ok (.error, u.print (str ("[Hangman System] Invalid command. Please use '/hangman start', " ++
      "'/hangman join', or '/hangman exit'\n")))

/-! ## Frames -/

def msgRecv : UserRecv := fun _ _ buf _ u =>
  .ok (.success, u.print (chatLine u.peerNick.toStr (cstr buf)))

def nickRecv : UserRecv := fun env _ buf _ u =>
  let u := { u with peerNick := .copyStr _ buf }
  let u := u.print (str "*** Peer is now known as: " ++ u.peerNick.toStr ++ str "\n")
  .ok (u.sendCommand env LMP_ACK (str "nickname ack"))

def ackRecv : UserRecv := fun _ _ buf _ u =>
  .ok (.success, u.print (str "[System]: " ++ cstr buf ++ str "\n"))

def errorRecv : UserRecv := fun _ _ buf _ u =>
  .ok (.success, u.print (str "[error]: " ++ cstr buf ++ str "\n"))

def uidRecv : UserRecv := fun env _ buf len u =>
  let copyLen := min len 8
  .ok (.success, { u with
    peerUid := .ofBytes _ (buf.take copyLen ++ 0 :: u.peerUid.data.drop (copyLen + 1))
    peerNick := env.savedNick.getD u.peerNick })

def stickerRecv : UserRecv := fun _ _ buf _ u =>
  let u := u.print
    (str "[" ++ u.peerNick.toStr ++ str "]: Sent a sticker\n" ++ cstr buf ++ str "\n")
  if MAX_STICKER_LEN ≤ (str "Sent a sticker\n").length + strlen buf then .error .bufferOverflow
  else .ok (.success, u)

def grpObjRecv : UserRecv := fun _ _ buf _ u => do
  let u := { u with userGroup := .ofBytes buf }
  if u.isInitialized then
    return (.success, u.print (str ("[System]: Group information has been updated, type /gi to " ++
      "see the updated group information\n")))
  else
    let text ← printGroupInfo u.userGroup
    return (.success, { u with isInitialized := true }.print (str "Welcome to group " ++ text))

def userGrpLoadMsgRecv : UserRecv := fun _ _ _ _ u =>
  if u.loadingMessageState = .requestingLoad ∨ u.loadingMessageState = .loading then
    .ok (.success, { u with loadingMessageState := .idle })
  else .ok (.success, u)

/-- The search for the uid of a line of the history among the members. -/
def nicknameOf (g : Group) (uid : Bytes) : Nat → Int → Except Fault Bytes
  | 0, _ => return str "Unknown"
  | n + 1, i => do
    let m ← g.member i
    if m.uid.toStr = uid then return m.nickname.toStr else nicknameOf g uid n (i + 1)

/-- The nickname that a line of the history is printed under. -/
def User.historyNick (u : User) (uid : Bytes) : Except Fault Bytes :=
  if u.userMemberInfo.uid.toStr = uid then return str "You"
  else nicknameOf u.userGroup uid u.userGroup.memberCount.val.toNat 0

def userGrpLoadingMsgRecv : UserRecv := fun _ _ buf _ u =>
  if u.loadingMessageState = .idle then
    .ok (.success, u.print (str "[System]: Received unexpected loading message, ignoring...\n"))
  else do
    let nickname ← u.historyNick (cstr (buf.take UID_LENGTH))
    return (.success, { u with loadingMessageState := .loading }.print
      (str "[" ++ nickname ++ str "]: " ++ cstr (buf.drop UID_LENGTH)))

def userGrpHangmanRecv : UserRecv := fun _ _ buf len u =>
  if 1024 ≤ len then .ok (.error, u) else .ok (.success, u.print (cstr (buf.take len) ++ str "\n"))

/-! ## The registry of the client -/

abbrev UserCommands := CommandTable UserEnv User Fault

def baseCommandsInit (t : UserCommands) : UserCommands :=
  let t := registerCommand t LMP_MSG (str "msg") msgSend msgRecv
  let t := registerCommand t LMP_NICK (str "nick") nickSend nickRecv
  let t := registerCommand t LMP_ACK (str "ack") none ackRecv
  let t := registerCommand t LMP_ERROR (str "error") none errorRecv
  registerCommand t LMP_UID (str "uid") none uidRecv

def meowCommandsInit (t : UserCommands) : UserCommands :=
  registerCommand t LMP_MEOW (str "meow") meowSend none

def stickerCommandsInit (t : UserCommands) : UserCommands :=
  registerCommand t LMP_STICKERS (str "sticker") stickerSend stickerRecv

def groupCommandsInit (t : UserCommands) : UserCommands :=
  let t := registerCommand t LMP_GRP_OBJ (str "grpobj") grpObjSend grpObjRecv
  let t := registerCommand t LMP_GRP_INFO (str "gi") grpInfoSend none
  let t := registerCommand t LMP_GRP_INIT_MEMBER (str "initmember") none none
  let t := registerCommand t LMP_GRP_LOAD_MSG (str "load") userGrpLoadMsgSend userGrpLoadMsgRecv
  let t := registerCommand t LMP_GRP_LOADING_MSG (str "grploadingmsg") none userGrpLoadingMsgRecv
  registerCommand t LMP_GRP_HANGMAN (str "hangman") userGrpHangmanSend userGrpHangmanRecv

def initCommands : UserCommands :=
  groupCommandsInit (stickerCommandsInit (meowCommandsInit (baseCommandsInit [])))

/-! ## The two threads -/

/-- `strip_newline(s)` -/
def stripNewline (s : Bytes) : Bytes :=
  if (cstr s).getLast? = some NEWLINE then (cstr s).dropLast else cstr s

/-- The line as it is dispatched; a line without a slash becomes a message, if there is room. -/
def asCommand (line : Bytes) : Option Bytes :=
  if line.head? = some 0x2F then some line
  else if line.length + 5 < 1024 then some (str "/msg " ++ line)
  else none

namespace User

/-- One round of `chat_loop_user`, for a line that `fgets` has read. -/
def typed (u : User) (env : UserEnv) (line : Bytes) : Except Fault User :=
  match asCommand (stripNewline line) with
  | none => .ok (u.print (str "Message too long\n"))
  | some line => do
    let (r, u) ← dispatchSend initCommands env (line.drop 1) u
    match r with
    | .success => return u
    | .error => return u.print (str "Error executing '" ++ line ++ str "'\n")
    | .unrecognized => return u.print (str "Unrecognized command '" ++ line ++ str "'\n")

/-- The context after the sender of a frame has been looked up. -/
def withPeer (u : User) (m : GroupMember) : User :=
  { u with peerNick := m.nickname, peerUid := m.uid }

/-- One round of `receiver`, for a frame that `group_lmp_recv` has received into `buf`. -/
def receive (u : User) (env : UserEnv) (f : Frame) (buf : Bytes) : Except Fault User := do
  let r := (f.received buf).groupReceived
  let m ← u.userGroup.member r.sender
  let (res, u) ← dispatchRecv initCommands env r.type r.buf r.len (u.withPeer m)
  if res = .unrecognized then
    return u.print (str "[warning]: unrecognized message type 0x" ++ hex02 r.type ++ str "\n")
  else return u

end User

/-! ## What a round does to the copy of the group object -/

theorem initCommands_eq : initCommands = [
    ⟨LMP_MSG, str "msg", some msgSend, some msgRecv⟩,
    ⟨LMP_NICK, str "nick", some nickSend, some nickRecv⟩,
    ⟨LMP_ACK, str "ack", none, some ackRecv⟩, ⟨LMP_ERROR, str "error", none, some errorRecv⟩,
    ⟨LMP_UID, str "uid", none, some uidRecv⟩, ⟨LMP_MEOW, str "meow", some meowSend, none⟩,
    ⟨LMP_STICKERS, str "sticker", some stickerSend, some stickerRecv⟩,
    ⟨LMP_GRP_OBJ, str "grpobj", some grpObjSend, some grpObjRecv⟩,
    ⟨LMP_GRP_INFO, str "gi", some grpInfoSend, none⟩,
    ⟨LMP_GRP_INIT_MEMBER, str "initmember", none, none⟩,
    ⟨LMP_GRP_LOAD_MSG, str "load", some userGrpLoadMsgSend, some userGrpLoadMsgRecv⟩,
    ⟨LMP_GRP_LOADING_MSG, str "grploadingmsg", none, some userGrpLoadingMsgRecv⟩,
    ⟨LMP_GRP_HANGMAN, str "hangman", some userGrpHangmanSend, some userGrpHangmanRecv⟩] := rfl

/-- The entries of the table. -/
inductive IsCommand : CommandEntry UserEnv User Fault → Prop
  | msg : IsCommand ⟨LMP_MSG, str "msg", some msgSend, some msgRecv⟩
  | nick : IsCommand ⟨LMP_NICK, str "nick", some nickSend, some nickRecv⟩
  | ack : IsCommand ⟨LMP_ACK, str "ack", none, some ackRecv⟩
  | error : IsCommand ⟨LMP_ERROR, str "error", none, some errorRecv⟩
  | uid : IsCommand ⟨LMP_UID, str "uid", none, some uidRecv⟩
  | meow : IsCommand ⟨LMP_MEOW, str "meow", some meowSend, none⟩
  | sticker : IsCommand ⟨LMP_STICKERS, str "sticker", some stickerSend, some stickerRecv⟩
  | grpObj : IsCommand ⟨LMP_GRP_OBJ, str "grpobj", some grpObjSend, some grpObjRecv⟩
  | grpInfo : IsCommand ⟨LMP_GRP_INFO, str "gi", some grpInfoSend, none⟩
  | initMember : IsCommand ⟨LMP_GRP_INIT_MEMBER, str "initmember", none, none⟩
  | load : IsCommand
      ⟨LMP_GRP_LOAD_MSG, str "load", some userGrpLoadMsgSend, some userGrpLoadMsgRecv⟩
  | loadingMsg : IsCommand
      ⟨LMP_GRP_LOADING_MSG, str "grploadingmsg", none, some userGrpLoadingMsgRecv⟩
  | hangman : IsCommand
      ⟨LMP_GRP_HANGMAN, str "hangman", some userGrpHangmanSend, some userGrpHangmanRecv⟩

theorem isCommand_of_mem {e : CommandEntry UserEnv User Fault} (he : e ∈ initCommands) :
    IsCommand e := by
  rw [initCommands_eq] at he
  simp only [List.mem_cons, List.not_mem_nil, or_false] at he
  rcases he with rfl | rfl | rfl | rfl | rfl | rfl | rfl | rfl | rfl | rfl | rfl | rfl | rfl <;>
    constructor

theorem eq_load_of_code {e : CommandEntry UserEnv User Fault} (he : e ∈ initCommands)
    (hcode : e.code = LMP_GRP_LOAD_MSG) :
    e = ⟨LMP_GRP_LOAD_MSG, str "load", some userGrpLoadMsgSend, some userGrpLoadMsgRecv⟩ := by
  cases isCommand_of_mem he with
  | load => rfl
  | _ => exact absurd hcode (by decide)

namespace User
variable {u u' : User} {env : UserEnv} {r : CommandResult}

@[simp] theorem userGroup_print (u : User) (line : Bytes) :
    (u.print line).userGroup = u.userGroup := rfl

@[simp] theorem userGroup_sendCommand (u : User) (env : UserEnv) (type : UInt8) (payload : Bytes) :
    (u.sendCommand env type payload).2.userGroup = u.userGroup := by
  unfold sendCommand lmpSend
  cases env.sendOk <;> rfl

/-- Lines are printed and frames of these types are sent. -/
inductive Acts (types : UInt8 → Prop) (u : User) : User → Prop
  | done : Acts types u u
  | print {u' line} : Acts types u u' → Acts types u (u'.print line)
  | send {u' env type payload} : Acts types u u' → types type →
    Acts types u (u'.sendCommand env type payload).2

theorem Acts.userGroup_eq {types : UInt8 → Prop} (h : Acts types u u') :
    u'.userGroup = u.userGroup := by
  induction h with
  | done => rfl
  | print _ ih => exact ih
  | send _ _ ih => rw [userGroup_sendCommand, ih]

theorem acts_withStickerName {types : UInt8 → Prop} {rest : Bytes}
    {f : Bytes → Except Fault (CommandResult × User)}
    (h : withStickerName rest u f = .ok (r, u'))
    (hf : ∀ name, f name = .ok (r, u') → Acts types u u') : Acts types u u' := by
  unfold withStickerName at h
  split at h
  · cases h
    exact .print .done
  · exact hf _ h

theorem acts_stickerSend {code : UInt8} {args : Bytes}
    (h : stickerSend env code args u = .ok (r, u')) : Acts (· = code) u u' := by
  unfold stickerSend at h
  split at h
  · cases h
    exact .print .done
  split at h
  · apply acts_withStickerName h
    intro name h
    split at h <;> cases h <;> exact .print .done
  split at h
  · apply acts_withStickerName h
    intro name h
    split at h
    · cases h
      exact .print .done
    dsimp only at h
    split at h
    · cases h
      exact .send (.print .done) rfl
    split at h
    · cases h
    · cases h
      exact .send (.print .done) rfl
  split at h
  · cases h
    exact .print .done
  split at h
  · apply acts_withStickerName h
    intro name h
    split at h <;> cases h
    exact .print .done
  · cases h
    exact .print .done

section
variable {code : UInt8} {args : Bytes}

theorem grpInfoSend_ok (h : grpInfoSend env code args u = .ok (r, u')) :
    r = .success ∧ ∃ line, u' = u.print line := by
  obtain ⟨text, -, h⟩ := bind_ok h
  cases h
  exact ⟨rfl, _, rfl⟩

/-- `/load` says that a load is on, or asks for one. -/
theorem userGrpLoadMsgSend_ok (h : userGrpLoadMsgSend env code args u = .ok (r, u')) :
    (u.loadingMessageState ≠ .idle ∧ r = .success ∧ ∃ line, u' = u.print line) ∨
      u.loadingMessageState = .idle ∧ ∃ out,
        ({ u with stdout := out, loadingMessageState := .requestingLoad } : User).sendCommand env
          LMP_GRP_LOAD_MSG [] = (r, u') := by
  unfold userGrpLoadMsgSend at h
  split at h
  · rename_i hstate
    cases h
    exact .inl ⟨by rw [hstate]; decide, rfl, _, rfl⟩
  · rename_i hstate
    cases h
    exact .inl ⟨by rw [hstate]; decide, rfl, _, rfl⟩
  · rename_i hidle
    exact .inr ⟨hidle, _, Except.ok.inj h⟩

theorem userGrpHangmanSend_ok (h : userGrpHangmanSend env code args u = .ok (r, u')) :
    u.sendCommand env code args = (r, u') ∨ r = .error ∧ ∃ line, u' = u.print line := by
  unfold userGrpHangmanSend at h
  split at h
  · exact .inl (Except.ok.inj h)
  · cases h
    exact .inr ⟨rfl, _, rfl⟩

end

/-- A command prints and sends frames of its type; `/load` sets its state besides, unless it is on
already. -/
theorem acts_of_send {e : CommandEntry UserEnv User Fault} (he : e ∈ initCommands)
    (hload : e.code = LMP_GRP_LOAD_MSG → u.loadingMessageState ≠ .idle) {send : UserSend}
    (hs : e.send = some send) {args : Bytes} (h : send env e.code args u = .ok (r, u')) :
    Acts (· = e.code) u u' := by
  cases isCommand_of_mem he with
  | msg | nick =>
    cases hs
    cases h
    exact .send .done rfl
  | meow =>
    cases hs
    cases h
    exact .print .done
  | sticker =>
    cases hs
    exact acts_stickerSend h
  | grpObj =>
    cases hs
    cases h
    exact .send .done rfl
  | grpInfo =>
    cases hs
    obtain ⟨-, line, rfl⟩ := grpInfoSend_ok h
    exact .print .done
  | load =>
    cases hs
    obtain ⟨-, -, line, rfl⟩ | ⟨hidle, -⟩ := userGrpLoadMsgSend_ok h
    · exact .print .done
    · exact absurd hidle (hload rfl)
  | hangman =>
    cases hs
    obtain h | ⟨-, line, rfl⟩ := userGrpHangmanSend_ok h
    · cases h
      exact .send .done rfl
    · exact .print .done
  | ack | error | uid | initMember | loadingMsg => cases hs

/-- No command changes the copy. -/
theorem userGroup_of_send {e : CommandEntry UserEnv User Fault} (he : e ∈ initCommands)
    {send : UserSend} (hs : e.send = some send) {args : Bytes}
    (h : send env e.code args u = .ok (r, u')) : u'.userGroup = u.userGroup := by
  by_cases hload : e.code = LMP_GRP_LOAD_MSG ∧ u.loadingMessageState = .idle
  · obtain ⟨hcode, hidle⟩ := hload
    obtain rfl := eq_load_of_code he hcode
    cases hs
    obtain ⟨hnot, -⟩ | ⟨-, out, h⟩ := userGrpLoadMsgSend_ok h
    · exact absurd hidle hnot
    · cases h
      exact userGroup_sendCommand ..
  · exact (acts_of_send he (fun hc hi => hload ⟨hc, hi⟩) hs h).userGroup_eq

/-- What is typed does not change the copy. -/
theorem userGroup_of_typed {line : Bytes} (h : u.typed env line = .ok u') :
    u'.userGroup = u.userGroup := by
  unfold typed at h
  split at h
  · cases h
    rfl
  obtain ⟨⟨r, u₁⟩, h₁, h⟩ := bind_ok h
  have hcopy : u₁.userGroup = u.userGroup := by
    rcases dispatchSend_ok h₁ with rfl | ⟨e, he, send, args, hs, h₁⟩
    · rfl
    · exact userGroup_of_send he hs h₁
  rw [← hcopy]
  cases r <;> cases h <;> rfl

section
variable {code : UInt8} {buf : Bytes} {len : Nat}

theorem stickerRecv_ok (h : stickerRecv env code buf len u = .ok (r, u')) :
    ∃ line, u' = u.print line := by
  unfold stickerRecv at h
  dsimp only at h
  split at h <;> cases h
  exact ⟨_, rfl⟩

theorem grpObjRecv_ok (h : grpObjRecv env code buf len u = .ok (r, u')) : ∃ i line,
    u' = ({ u with userGroup := .ofBytes buf, isInitialized := i } : User).print line := by
  unfold grpObjRecv at h
  dsimp only at h
  split at h
  · cases h
    exact ⟨u.isInitialized, _, rfl⟩
  · obtain ⟨text, -, h⟩ := bind_ok h
    cases h
    exact ⟨true, _, rfl⟩

/-- A load is over, whatever its state was. -/
theorem userGrpLoadMsgRecv_ok (h : userGrpLoadMsgRecv env code buf len u = .ok (r, u')) :
    u' = { u with loadingMessageState := .idle } := by
  unfold userGrpLoadMsgRecv at h
  split at h
  · cases h
    rfl
  · rename_i hnot
    cases h
    have hidle : u.loadingMessageState = .idle := by
      cases hs : u.loadingMessageState with
      | idle => rfl
      | requestingLoad => exact absurd (.inl hs) hnot
      | loading => exact absurd (.inr hs) hnot
    rw [← hidle]

theorem userGrpLoadingMsgRecv_ok (h : userGrpLoadingMsgRecv env code buf len u = .ok (r, u')) :
    ∃ s line, u' = ({ u with loadingMessageState := s } : User).print line := by
  unfold userGrpLoadingMsgRecv at h
  split at h
  · cases h
    exact ⟨u.loadingMessageState, _, rfl⟩
  · obtain ⟨nickname, -, h⟩ := bind_ok h
    cases h
    exact ⟨.loading, _, rfl⟩

theorem userGrpHangmanRecv_ok (h : userGrpHangmanRecv env code buf len u = .ok (r, u')) :
    ∃ out, u' = { u with stdout := out } := by
  unfold userGrpHangmanRecv at h
  split at h <;> cases h <;> exact ⟨_, rfl⟩

end

/-- Only the handler of `LMP_GRP_OBJ` changes the copy. -/
theorem userGroup_of_recv {e : CommandEntry UserEnv User Fault} (he : e ∈ initCommands)
    (hne : e.code ≠ LMP_GRP_OBJ) {recv : UserRecv} (hr : e.recv = some recv) {code : UInt8}
    {buf : Bytes} {len : Nat} (h : recv env code buf len u = .ok (r, u')) :
    u'.userGroup = u.userGroup := by
  cases isCommand_of_mem he with
  | msg =>
    cases hr
    cases h
    rfl
  | nick =>
    cases hr
    cases h
    exact userGroup_sendCommand ..
  | ack | error | uid =>
    cases hr
    cases h
    rfl
  | sticker =>
    cases hr
    obtain ⟨line, rfl⟩ := stickerRecv_ok h
    rfl
  | grpObj => exact absurd rfl hne
  | load =>
    cases hr
    rw [userGrpLoadMsgRecv_ok h]
  | loadingMsg =>
    cases hr
    obtain ⟨s, line, rfl⟩ := userGrpLoadingMsgRecv_ok h
    rfl
  | hangman =>
    cases hr
    obtain ⟨out, rfl⟩ := userGrpHangmanRecv_ok h
    rfl
  | meow | grpInfo | initMember => cases hr

theorem userGroup_of_grpObjRecv {buf : Bytes} {len : Nat}
    (h : dispatchRecv initCommands env LMP_GRP_OBJ buf len u = .ok (r, u')) :
    u'.userGroup = .ofBytes buf := by
  have h : grpObjRecv env LMP_GRP_OBJ buf len u = .ok (r, u') := h
  obtain ⟨i, line, rfl⟩ := grpObjRecv_ok h
  rfl

theorem receive_ok {f : Frame} {buf : Bytes} (h : u.receive env f buf = .ok u') :
    ∃ m, u.userGroup.member f.reserved.toNat = .ok m ∧ ∃ res u₁,
      dispatchRecv initCommands env f.type (f.received buf).buf (f.received buf).len
        (u.withPeer m) = .ok (res, u₁) ∧
      u' = if res = .unrecognized then
        u₁.print (str "[warning]: unrecognized message type 0x" ++ hex02 f.type ++ str "\n")
      else u₁ := by
  obtain ⟨m, hm, h⟩ := bind_ok h
  obtain ⟨⟨res, u₁⟩, h₁, h⟩ := bind_ok h
  refine ⟨m, hm, res, u₁, h₁, ?_⟩
  dsimp only at h
  by_cases hres : res = .unrecognized
  · rw [if_pos hres] at h ⊢
    cases h
    rfl
  · rw [if_neg hres] at h ⊢
    cases h
    rfl

/-- A frame with a group object replaces the copy, and no other frame changes it. -/
theorem userGroup_of_receive {f : Frame} {buf : Bytes} (h : u.receive env f buf = .ok u') :
    u'.userGroup = if f.type = LMP_GRP_OBJ then .ofBytes (f.received buf).buf else u.userGroup := by
  obtain ⟨m, -, res, u₁, h₁, rfl⟩ := receive_ok h
  have hlast : ∀ (c : Prop) [Decidable c] line, (if c then u₁.print line else u₁).userGroup =
      u₁.userGroup := by
    intro c _ line
    split <;> rfl
  rw [hlast]
  split
  · rename_i ht
    rw [ht] at h₁
    exact userGroup_of_grpObjRecv h₁
  · rename_i ht
    have hcopy : (u.withPeer m).userGroup = u.userGroup := rfl
    rw [← hcopy]
    rcases dispatchRecv_ok h₁ with rfl | ⟨e, he, hcode, recv, hr, h₁⟩
    · rfl
    · exact userGroup_of_recv he (hcode ▸ ht) hr h₁

/-- A message is printed under the nickname that the copy has for its sender. -/
theorem stdout_of_receive {f : Frame} {buf : Bytes} (hf : f.type = LMP_MSG)
    (h : u.receive env f buf = .ok u') : ∃ m, u.userGroup.member f.reserved.toNat = .ok m ∧
      u'.stdout = u.stdout ++ [chatLine m.nickname.toStr (cstr f.payload)] := by
  obtain ⟨m, hm, res, u₁, h₁, rfl⟩ := receive_ok h
  rw [hf] at h₁
  cases h₁
  refine ⟨m, hm, ?_⟩
  rw [← cstr_received f buf]
  rfl

end User

end SocketSpeak
