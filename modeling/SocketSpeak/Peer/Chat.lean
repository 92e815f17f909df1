import SocketSpeak.Peer.Stickers

/-!
# One-to-one chat

The process that `main` starts, with `user_group_MODE` not set: the commands that are different
there from those of the group client, and the two threads of `chat_loop`. The commands that do not
look at the mode are those of `User`. `peer_ip` is left out, and the prompt.
-/

namespace SocketSpeak
open CLib

/-- `sizeof(line)` in `chat_loop` -/
def LINE_SIZE : Nat := 1024

/-- The process: what it shares with `gclient`, the statics of the directory manager and of the
sticker commands with the files that they open, and the rest of `LMPContext`. -/
structure Chatter extends User, Disk where
  stickers : Catalogue
  myNick : CharArray NICKNAME_MAX_LEN
  myUid : CharArray (UID_LENGTH + 1)
  peerUidReady : Bool
  peerDir : StrBuf 256
  historyPath : StrBuf 256
  historyLoaded : Bool

/-- What the outside decides while a handler runs; `keys` are pressed in the sticker editor. -/
structure ChatEnv extends FileEnv where
  sendOk : Bool
  keys : Bytes

/-- Every call succeeds, and no key is pressed. -/
def ChatEnv.allOk : ChatEnv := ⟨⟨fun _ => true, fun _ => true⟩, true, []⟩

abbrev ChatSend := SendHandler ChatEnv Chatter Halt
abbrev ChatRecv := RecvHandler ChatEnv Chatter Halt

/-- The handler of a group client, in a process that has more besides. -/
def liftSend (send : UserSend) : ChatSend := fun env code args p =>
  ((send ⟨env.sendOk, [], none⟩ code args p.toUser).mapError Halt.fault).map fun (r, u) =>
    (r, { p with toUser := u })

def liftRecv (recv : UserRecv) : ChatRecv := fun env code buf len p =>
  ((recv ⟨env.sendOk, [], none⟩ code buf len p.toUser).mapError Halt.fault).map fun (r, u) =>
    (r, { p with toUser := u })

namespace Chatter

/-- The process after `flag_handler`; the context is not set before `chat_loop`. -/
def main (home username : Option Bytes) (files : Files) : Except Halt Chatter := do
  let directory ← Directory.flagHandler home username
  return {
    userGroup := .zero, currentGroup := .zero, isInitialized := false, loadingMessageState := .idle,
    userMemberInfo := .zero, peerNick := .zero _, peerUid := .zero _, stdout := [], up := [],
    directory, files, stickers := .init, myNick := .zero _, myUid := .zero _,
    peerUidReady := false, peerDir := .empty (by decide), historyPath := .empty (by decide),
    historyLoaded := false }

def print (p : Chatter) (line : Bytes) : Chatter := { p with toUser := p.toUser.print line }

/-- `lmp_send(ctx->sock, type, payload, len)` -/
def lmpSend (p : Chatter) (env : ChatEnv) (type : UInt8) (payload : Bytes) : Int × Chatter :=
  if env.sendOk then (0, { p with up := p.up ++ [lmpFrame type payload] }) else (-1, p)

/-! ## The history and the nicknames -/

/-- What there is in the history file. -/
def history (p : Chatter) : Bytes := p.files.content p.historyPath.toStr

/-- `lmp_history_prepare(ctx)` -/
def historyPrepare (p : Chatter) (env : ChatEnv) : Except Halt Chatter := do
  let p := { p with peerDir := .empty (by decide), historyPath := .empty (by decide) }
  if p.peerUid.toStr = [] then return p
  else
    let directory ← p.directory.getUserDirectory env.toFileEnv
    let peerDir ← orOverflow (StrBuf.ofStr? 256 directory.userDirectory.toStr)
    let peerDir ← orOverflow (peerDir.strcat (str "peers/"))
    mkdirP env.toFileEnv peerDir.toStr
    let peerDir ← orOverflow (peerDir.strcat p.peerUid.toStr)
    let peerDir ← orOverflow (peerDir.strcat (str "/"))
    mkdirP env.toFileEnv peerDir.toStr
    let historyPath ← orOverflow (peerDir.strcat (str "history.txt"))
    return { p with directory, peerDir, historyPath }

/-- `lmp_history_load(ctx)` -/
def historyLoad (p : Chatter) (env : ChatEnv) : Chatter :=
  if p.historyPath.toStr = [] then p
  else
    match p.files.fopen (env.opens p.historyPath.toStr) p.historyPath.toStr .read with
    | none => p
    | some _ => ((fgetsAll 512 p.history).map cstr).foldl print p

/-- `lmp_history_append(ctx, speaker, message)` -/
def historyAppend (p : Chatter) (env : ChatEnv) (speaker message : Bytes) : Int × Chatter :=
  if p.historyPath.toStr = [] then (-1, p)
  else
    match p.files.fopen (env.opens p.historyPath.toStr) p.historyPath.toStr .append with
    | none => (-1, p)
    | some files =>
      (0, { p with files := files.fprint p.historyPath.toStr (chatLine speaker message) })

/-- `lmp_save_nick(nick)` -/
def saveNick (p : Chatter) (env : ChatEnv) (nick : Bytes) : Except Halt (Int × Chatter) := do
  let (r, k) ← p.toDisk.save env.toFileEnv (str "nick.txt") nick
  return (r, { p with toDisk := k })

/-- The name of the file with the nickname of a peer, in `char filename[32]`. -/
def peerNickFile (peerUid : Bytes) : Except Halt (StrBuf 32) :=
  orOverflow (StrBuf.ofStr? 32 (str "peers/" ++ peerUid ++ str "/nick.txt"))

/-- `lmp_save_peer_nick(peer_uid, nick)` -/
def savePeerNick (p : Chatter) (env : ChatEnv) (peerUid nick : Bytes) :
    Except Halt (Int × Chatter) := do
  let filename ← peerNickFile peerUid
  let (r, k) ← p.toDisk.save env.toFileEnv filename.toStr nick
  return (r, { p with toDisk := k })

/-- `fscanf(fp, "%63s", nick)`: up to 63 bytes for an array of 32. -/
def scanNick (nick : CharArray NICKNAME_MAX_LEN) (content : Bytes) :
    Except Halt (CharArray NICKNAME_MAX_LEN) :=
  match scanWord 63 content with
  | none => .ok nick
  | some word =>
    if NICKNAME_MAX_LEN ≤ word.length then .error (.fault .bufferOverflow)
    else .ok (.ofBytes _ (word ++ 0 :: nick.data.drop (word.length + 1)))

/-- `lmp_load_peer_nick(peer_uid, nick, nick_size)`, for the nickname of the context. -/
def loadPeerNick (p : Chatter) (env : ChatEnv) (peerUid : Bytes) : Except Halt (Int × Chatter) := do
  let filename ← peerNickFile peerUid
  match ← p.toDisk.openFile env.toFileEnv filename.toStr .read with
  | (none, k) => return (-1, { p with toDisk := k })
  | (some path, k) =>
    let peerNick ← scanNick p.peerNick (k.files.content path)
    return (0, { p with toDisk := k, peerNick })

/-! ## Commands -/

def msgSend : ChatSend := fun env code args p =>
  let (r, p) := p.lmpSend env code args
  if r < 0 then .ok (.error, p)
  else .ok (.success, (p.historyAppend env p.myNick.toStr args).2)

def nickSend : ChatSend := fun env code args p => do
  let p := { p with myNick := .copyStr _ args }
  let (_, p) ← p.saveNick env p.myNick.toStr
  let (r, p) := p.lmpSend env code args
  return (if r < 0 then .error else .success, p)

/-- The second token of a sticker command. -/
def withStickerName (rest : Bytes) (p : Chatter)
    (f : Bytes → Except Halt (CommandResult × Chatter)) : Except Halt (CommandResult × Chatter) :=
  match strtok (str " ") rest with
  | none => .ok (.error, p.print (str "No command found!\n"))
  | some (name, _) => f name

/-- `sticker_send` -/
def stickerSend : ChatSend := fun env code args p => do
  let (c, k) ← ensureLoaded p.stickers p.toDisk env.toFileEnv
  let p := { p with stickers := c, toDisk := k }
  match strtok (str " ") args with
  | none => return (.error, p.print (str "No command found!\n"))
  | some (command, rest) =>
    if command = str "create" then
      withStickerName rest p fun name => do
        let (line, c, k) ← createSticker p.stickers p.toDisk env.toFileEnv env.keys name
        return (.success, { p with stickers := c, toDisk := k }.print line)
    else if command = str "send" then
      withStickerName rest p fun name =>
        match p.stickers.getSticker name with
        | none => .ok (.success, p.print (str "Sticker not found!\n"))
        | some sticker =>
          let (r, p) := (p.print (sticker.toStr ++ str "\n")).lmpSend env code sticker.toStr
          if r < 0 then .ok (.error, p)
          -- `sticker_newline` is as large as the sticker
          else if MAX_STICKER_LEN ≤ 1 + sticker.toStr.length then .error (.fault .bufferOverflow)
          else .ok (.success, (p.historyAppend env p.myNick.toStr (str "\n" ++ sticker.toStr)).2)
    else if command = str "list" then
      return (.success, p.print (str "Stickers saved:\n" ++
        p.stickers.entries.flatMap fun e => e.name.toStr ++ str "\n"))
    else if command = str "preview" then
      withStickerName rest p fun name =>
        match p.stickers.getSticker name with
        | none => .error (.fault .nullPointer)
        | some sticker => .ok (.success, p.print (sticker.toStr ++ str "\n"))
    else return (.success, p.print (str "Sticker command " ++ command ++ str " not found!"))

/-! ## Frames -/

def msgRecv : ChatRecv := fun env _ buf _ p =>
  let p := p.print (chatLine p.peerNick.toStr (cstr buf))
  .ok (.success, (p.historyAppend env p.peerNick.toStr (cstr buf)).2)

def nickRecv : ChatRecv := fun env _ buf _ p => do
  let p := { p with peerNick := .copyStr _ buf }
  let (_, p) ← p.savePeerNick env p.peerUid.toStr p.peerNick.toStr
  let p := p.print (str "*** Peer is now known as: " ++ p.peerNick.toStr ++ str "\n")
  let (r, p) := p.lmpSend env LMP_ACK (str "nickname ack")
  return (if r < 0 then .error else .success, p)

def uidRecv : ChatRecv := fun env _ buf len p => do
  let copyLen := min len 8
  let p := { p with
    peerUid := .ofBytes _ (buf.take copyLen ++ 0 :: p.peerUid.data.drop (copyLen + 1)) }
  let p ← p.historyPrepare env
  let (_, p) ← p.loadPeerNick env p.peerUid.toStr
  let p := if p.historyLoaded then p else { p.historyLoad env with historyLoaded := true }
  return (.success, { p with peerUidReady := true })

def stickerRecv : ChatRecv := fun env _ buf _ p =>
  let p := p.print
    (str "[" ++ p.peerNick.toStr ++ str "]: Sent a sticker\n" ++ cstr buf ++ str "\n")
  if MAX_STICKER_LEN ≤ (str "Sent a sticker\n").length + strlen buf then
    .error (.fault .bufferOverflow)
  else
    .ok (.success,
      (p.historyAppend env p.peerNick.toStr (str "Sent a sticker\n" ++ cstr buf)).2)

/-! ## The registry -/

abbrev Commands := CommandTable ChatEnv Chatter Halt

def baseCommandsInit (t : Commands) : Commands :=
  let t := registerCommand t LMP_MSG (str "msg") msgSend msgRecv
  let t := registerCommand t LMP_NICK (str "nick") nickSend nickRecv
  let t := registerCommand t LMP_ACK (str "ack") none (liftRecv ackRecv)
  let t := registerCommand t LMP_ERROR (str "error") none (liftRecv errorRecv)
  registerCommand t LMP_UID (str "uid") none uidRecv

def meowCommandsInit (t : Commands) : Commands :=
  registerCommand t LMP_MEOW (str "meow") (liftSend meowSend) none

def stickerCommandsInit (t : Commands) : Commands :=
  registerCommand t LMP_STICKERS (str "sticker") stickerSend stickerRecv

def groupCommandsInit (t : Commands) : Commands :=
  let t := registerCommand t LMP_GRP_OBJ (str "grpobj") (liftSend grpObjSend) (liftRecv grpObjRecv)
  let t := registerCommand t LMP_GRP_INFO (str "gi") (liftSend grpInfoSend) none
  let t := registerCommand t LMP_GRP_INIT_MEMBER (str "initmember") none none
  let t := registerCommand t LMP_GRP_LOAD_MSG (str "load") (liftSend userGrpLoadMsgSend)
    (liftRecv userGrpLoadMsgRecv)
  let t := registerCommand t LMP_GRP_LOADING_MSG (str "grploadingmsg") none
    (liftRecv userGrpLoadingMsgRecv)
  registerCommand t LMP_GRP_HANGMAN (str "hangman") (liftSend userGrpHangmanSend)
    (liftRecv userGrpHangmanRecv)

def initCommands : Commands :=
  groupCommandsInit (stickerCommandsInit (meowCommandsInit (baseCommandsInit [])))

/-! ## The two threads -/

/-- `chat_loop` up to `pthread_create`, on a new socket; the rest of the context is what was on the
stack. -/
def chatLoop (p : Chatter) (env : ChatEnv) (rand : Nat) : Except Halt Chatter := do
  let (file, k) ← p.toDisk.openFile env.toFileEnv (str "nick.txt") .read
  let myNick ← scanNick (.copyStr _ (str "You"))
    ((file.map fun path => k.files.content path).getD [])
  let (uid, k) ← getUid k env.toFileEnv rand
  return { p with
    toDisk := k, myNick, myUid := .copyStr _ uid.toStr, peerNick := .copyStr _ (str "Peer"),
    peerUid := p.peerUid.set 0 0, peerUidReady := false, historyPath := .empty (by decide),
    historyLoaded := false, up := [] }

/-- `lmp_send_uid(ctx)` -/
def sendUid (p : Chatter) (env : ChatEnv) : Int × Chatter :=
  if p.myUid.toStr = [] then (-1, p) else p.lmpSend env LMP_UID p.myUid.toStr

/-- `fgets(line, sizeof(line), stdin)`, where `stdin` is what there is to read. -/
def readLine (stdin : Bytes) : Option Bytes := (fgets LINE_SIZE stdin).map Prod.fst

/-- One round of the loop of `chat_loop`, for a line that `fgets` has read. -/
def typed (p : Chatter) (env : ChatEnv) (line : Bytes) : Except Halt Chatter :=
  let line := stripNewline line
  if line.head? = some 0x2F then do
    let (r, p) ← dispatchSend initCommands env (line.drop 1) p
    match r with
    | .success => return p
    | .error => return p.print (str "Error executing '" ++ line ++ str "'\n")
    | .unrecognized => return p.print (str "Unrecognized command '" ++ line ++ str "'\n")
  else
    let (r, p) := p.lmpSend env LMP_MSG line
    .ok (if r = 0 then (p.historyAppend env p.myNick.toStr line).2 else p)

/-- One round of `receiver`, for a frame that `lmp_recv` has received into `buf`. -/
def receive (p : Chatter) (env : ChatEnv) (f : Frame) (buf : Bytes) : Except Halt Chatter := do
  let r := (f.received buf).received
  let (res, p) ← dispatchRecv initCommands env r.type r.buf r.len p
  if res = .unrecognized then
    return p.print (str "[warning]: unrecognized message type 0x" ++ hex02 r.type ++ str "\n")
  else return p

theorem main_ok {p : Chatter} {home username : Option Bytes} {files : Files}
    (h : Chatter.main home username files = .ok p) :
    Directory.flagHandler home username = .ok p.directory ∧ p.stickers = .init := by
  obtain ⟨d, hd, h⟩ := bind_ok h
  cases h
  exact ⟨hd, rfl⟩

theorem initCommands_eq : initCommands = [
    ⟨LMP_MSG, str "msg", some msgSend, some msgRecv⟩,
    ⟨LMP_NICK, str "nick", some nickSend, some nickRecv⟩,
    ⟨LMP_ACK, str "ack", none, some (liftRecv ackRecv)⟩,
    ⟨LMP_ERROR, str "error", none, some (liftRecv errorRecv)⟩,
    ⟨LMP_UID, str "uid", none, some uidRecv⟩,
    ⟨LMP_MEOW, str "meow", some (liftSend meowSend), none⟩,
    ⟨LMP_STICKERS, str "sticker", some stickerSend, some stickerRecv⟩,
    ⟨LMP_GRP_OBJ, str "grpobj", some (liftSend grpObjSend), some (liftRecv grpObjRecv)⟩,
    ⟨LMP_GRP_INFO, str "gi", some (liftSend grpInfoSend), none⟩,
    ⟨LMP_GRP_INIT_MEMBER, str "initmember", none, none⟩,
    ⟨LMP_GRP_LOAD_MSG, str "load", some (liftSend userGrpLoadMsgSend),
      some (liftRecv userGrpLoadMsgRecv)⟩,
    ⟨LMP_GRP_LOADING_MSG, str "grploadingmsg", none, some (liftRecv userGrpLoadingMsgRecv)⟩,
    ⟨LMP_GRP_HANGMAN, str "hangman", some (liftSend userGrpHangmanSend),
      some (liftRecv userGrpHangmanRecv)⟩] := rfl

/-- The entries of the table. -/
inductive IsCommand : CommandEntry ChatEnv Chatter Halt → Prop
  | msg : IsCommand ⟨LMP_MSG, str "msg", some msgSend, some msgRecv⟩
  | nick : IsCommand ⟨LMP_NICK, str "nick", some nickSend, some nickRecv⟩
  | ack : IsCommand ⟨LMP_ACK, str "ack", none, some (liftRecv ackRecv)⟩
  | error : IsCommand ⟨LMP_ERROR, str "error", none, some (liftRecv errorRecv)⟩
  | uid : IsCommand ⟨LMP_UID, str "uid", none, some uidRecv⟩
  | meow : IsCommand ⟨LMP_MEOW, str "meow", some (liftSend meowSend), none⟩
  | sticker : IsCommand ⟨LMP_STICKERS, str "sticker", some stickerSend, some stickerRecv⟩
  | grpObj : IsCommand
      ⟨LMP_GRP_OBJ, str "grpobj", some (liftSend grpObjSend), some (liftRecv grpObjRecv)⟩
  | grpInfo : IsCommand ⟨LMP_GRP_INFO, str "gi", some (liftSend grpInfoSend), none⟩
  | initMember : IsCommand ⟨LMP_GRP_INIT_MEMBER, str "initmember", none, none⟩
  | load : IsCommand ⟨LMP_GRP_LOAD_MSG, str "load", some (liftSend userGrpLoadMsgSend),
      some (liftRecv userGrpLoadMsgRecv)⟩
  | loadingMsg : IsCommand
      ⟨LMP_GRP_LOADING_MSG, str "grploadingmsg", none, some (liftRecv userGrpLoadingMsgRecv)⟩
  | hangman : IsCommand ⟨LMP_GRP_HANGMAN, str "hangman", some (liftSend userGrpHangmanSend),
      some (liftRecv userGrpHangmanRecv)⟩

theorem isCommand_of_mem {e : CommandEntry ChatEnv Chatter Halt} (he : e ∈ initCommands) :
    IsCommand e := by
  rw [initCommands_eq] at he
  simp only [List.mem_cons, List.not_mem_nil, or_false] at he
  rcases he with rfl | rfl | rfl | rfl | rfl | rfl | rfl | rfl | rfl | rfl | rfl | rfl | rfl <;>
    constructor

end Chatter

end SocketSpeak
