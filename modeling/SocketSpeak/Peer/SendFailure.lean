import SocketSpeak.Peer.Nickname

/-!
# Commands whose send fails

Most commands send first, and change the state when that has succeeded. `unchanged_iff` says what is
left of a command that has reported an error, in a chat between two and in a group.
-/

namespace SocketSpeak
open CLib

namespace Chatter

/-- `nick_send`, which looks at `user_group_MODE`. -/
def nickSendIn (userGroupMode : Bool) : ChatSend :=
  if userGroupMode then liftSend SocketSpeak.nickSend else nickSend

/-- The send handler of a command, with `user_group_MODE` set or not. -/
def sendIn (userGroupMode : Bool) (e : CommandEntry ChatEnv Chatter Halt) : Option ChatSend :=
  if e.code = LMP_NICK then some (nickSendIn userGroupMode) else e.send

/-- The fields of `LMPContext` that are not the socket. -/
structure SameContext (p p' : Chatter) : Prop where
  peerNick : p'.peerNick = p.peerNick
  myNick : p'.myNick = p.myNick
  myUid : p'.myUid = p.myUid
  peerUid : p'.peerUid = p.peerUid
  peerUidReady : p'.peerUidReady = p.peerUidReady
  peerDir : p'.peerDir = p.peerDir
  historyPath : p'.historyPath = p.historyPath
  historyLoaded : p'.historyLoaded = p.historyLoaded

/-- The file that `lmp_save_nick` writes. -/
def nickFile (p : Chatter) : Bytes := p.directory.shown ++ str "nick.txt"

/-- The state is as it was before, as far as a command that is given again can tell. -/
structure Unchanged (p p' : Chatter) : Prop extends SameContext p p' where
  loading : p'.loadingMessageState = p.loadingMessageState
  nick : p'.files p.nickFile = p.files p.nickFile
  history : p'.history = p.history

/-- The command does not change the state before it sends: it is not the `/load` that asks for the
history, and not the `/nick` that sets another nickname. -/
structure SendsFirst (userGroupMode : Bool) (code : UInt8) (args : Bytes) (env : ChatEnv)
    (p : Chatter) : Prop where
  load : code = LMP_GRP_LOAD_MSG → p.loadingMessageState ≠ .idle
  nick : code = LMP_NICK → userGroupMode = false → .copyStr _ args = p.myNick ∧
    (env.opens p.nickFile = true → p.files p.nickFile = some p.myNick.toStr)

variable {p p' : Chatter} {env : ChatEnv} {userGroupMode : Bool} {code : UInt8} {args : Bytes}

theorem Unchanged.refl (p : Chatter) : Unchanged p p :=
  ⟨⟨rfl, rfl, rfl, rfl, rfl, rfl, rfl, rfl⟩, rfl, rfl, rfl⟩

theorem unchanged_user {u : User} (hnick : u.peerNick = p.peerNick) (huid : u.peerUid = p.peerUid)
    (hload : u.loadingMessageState = p.loadingMessageState) :
    Unchanged p { p with toUser := u } :=
  ⟨⟨hnick, rfl, rfl, huid, rfl, rfl, rfl, rfl⟩, hload, rfl, rfl⟩

/-- A send that fails. -/
theorem lmpSend_fails (hfail : env.sendOk = false) (p : Chatter) (type : UInt8) (payload : Bytes) :
    p.lmpSend env type payload = (-1, p) := by
  rw [lmpSend, hfail]
  rfl

theorem sendCommand_fails {env : UserEnv} (hfail : env.sendOk = false) (u : User) (type : UInt8)
    (payload : Bytes) : u.sendCommand env type payload = (.error, u) := by
  rw [User.sendCommand, User.lmpSend, hfail]
  rfl

theorem unchanged_withStickerName {rest : Bytes} {q : Chatter}
    {f : Bytes → Except Halt (CommandResult × Chatter)}
    (h : withStickerName rest p f = .ok (.error, p'))
    (hp : Unchanged q (p.print (str "No command found!\n")))
    (hf : ∀ name, f name = .ok (.error, p') → Unchanged q p') : Unchanged q p' := by
  unfold withStickerName at h
  split at h
  · cases h
    exact hp
  · exact hf _ h

/-- The catalogue is loaded for a sticker command, but no file is written. -/
theorem unchanged_stickerSend (hfail : env.sendOk = false)
    (h : stickerSend env LMP_STICKERS args p = .ok (.error, p')) : Unchanged p p' := by
  obtain ⟨⟨c, k⟩, hload, h⟩ := bind_ok h
  have hfiles := files_of_ensureLoaded hload
  have hloaded (line : Bytes) :
      Unchanged p (({ p with stickers := c, toDisk := k } : Chatter).print line) :=
    ⟨⟨rfl, rfl, rfl, rfl, rfl, rfl, rfl, rfl⟩, rfl, congrFun hfiles _,
      congrArg (·.content p.historyPath.toStr) hfiles⟩
  dsimp only at h
  split at h
  · cases h
    exact hloaded _
  split at h
  · apply unchanged_withStickerName h (hloaded _)
    intro name h
    obtain ⟨⟨line, c', k'⟩, -, h⟩ := bind_ok h
    cases h
  split at h
  · apply unchanged_withStickerName h (hloaded _)
    intro name h
    split at h
    · cases h
    · rw [lmpSend_fails hfail] at h
      dsimp only at h
      rw [if_pos (by decide)] at h
      cases h
      exact hloaded _
  split at h
  · cases h
  split at h
  · apply unchanged_withStickerName h (hloaded _)
    intro name h
    split at h <;> cases h
  · cases h

/-- What `nick_send` leaves behind when its send fails. -/
theorem nickSend_fails (hfail : env.sendOk = false)
    (h : nickSend env code args p = .ok (.error, p')) : ∃ i k,
      p.toDisk.save env.toFileEnv (str "nick.txt") (CharArray.copyStr NICKNAME_MAX_LEN args).toStr =
        .ok (i, k) ∧ p' = { p with myNick := .copyStr _ args, toDisk := k } := by
  obtain ⟨⟨i, p₁⟩, h₁, h⟩ := bind_ok h
  obtain ⟨⟨j, k⟩, hk, h₁⟩ := bind_ok h₁
  cases h₁
  let q : Chatter := { p with myNick := .copyStr _ args, toDisk := k }
  have hq : (q.lmpSend env code args).2 = p' := congrArg Prod.snd (Except.ok.inj h)
  rw [lmpSend_fails hfail] at hq
  exact ⟨i, k, hk, hq.symm⟩

/-- The nickname is kept on one side only, unless it has not changed. -/
theorem unchanged_nickSend_iff (hfail : env.sendOk = false)
    (h : nickSend env code args p = .ok (.error, p')) : Unchanged p p' ↔
      .copyStr _ args = p.myNick ∧
        (env.opens p.nickFile = true → p.files p.nickFile = some p.myNick.toStr) := by
  obtain ⟨i, k, hk, rfl⟩ := nickSend_fails hfail h
  have hpath : p.directory.shown ++ cstr (str "nick.txt") = p.nickFile := rfl
  have hfiles := Disk.files_of_save hk
  rw [hpath] at hfiles
  constructor
  · intro hsame
    have hmine : CharArray.copyStr NICKNAME_MAX_LEN args = p.myNick := hsame.myNick
    refine ⟨hmine, fun hopens => ?_⟩
    have hnick : k.files p.nickFile = p.files p.nickFile := hsame.nick
    rw [← hnick, hfiles, if_pos hopens, Files.set_self, hmine]
  · intro ⟨hmine, hfile⟩
    have hsame : k.files = p.files := by
      rw [hfiles]
      split
      · rename_i hopens
        funext path
        by_cases hne : path = p.nickFile
        · rw [hne, Files.set_self, hfile hopens, hmine]
        · exact Files.set_of_ne hne
      · rfl
    exact ⟨⟨rfl, hmine, rfl, rfl, rfl, rfl, rfl, rfl⟩, rfl, congrFun hsame _,
      congrArg (·.content p.historyPath.toStr) hsame⟩

/-- A command of the group client that reports an error and is not `/load` has not changed
anything. -/
theorem unchanged_sendCommand {u : User} (hfail : env.sendOk = false) {type : UInt8}
    {payload : Bytes}
    (h : p.toUser.sendCommand ⟨env.sendOk, [], none⟩ type payload = (.error, u)) :
    Unchanged p { p with toUser := u } := by
  rw [sendCommand_fails hfail] at h
  cases h
  exact .refl p

/-- `/load` fails only where it has noted before that it is waiting. -/
theorem changed_loadSend (hfail : env.sendOk = false)
    (h : liftSend userGrpLoadMsgSend env LMP_GRP_LOAD_MSG args p = .ok (.error, p')) :
    p.loadingMessageState = .idle ∧ ¬ Unchanged p p' := by
  obtain ⟨u, hu, rfl⟩ := liftSend_ok h
  obtain ⟨-, hr, -⟩ | ⟨hidle, out, hu⟩ := User.userGrpLoadMsgSend_ok hu
  · cases hr
  · rw [sendCommand_fails hfail] at hu
    cases hu
    refine ⟨hidle, fun hsame => ?_⟩
    have hloading : LoadState.requestingLoad = p.loadingMessageState := hsame.loading
    rw [hidle] at hloading
    cases hloading

/-- After an error the state is what it was if and only if the command sends before it changes
anything. -/
theorem unchanged_iff {e : CommandEntry ChatEnv Chatter Halt} (he : e ∈ initCommands)
    {send : ChatSend} (hs : sendIn userGroupMode e = some send) (hfail : env.sendOk = false)
    (h : send env e.code args p = .ok (.error, p')) :
    Unchanged p p' ↔ SendsFirst userGroupMode e.code args env p := by
  have hother : Unchanged p p' → e.code ≠ LMP_GRP_LOAD_MSG → e.code ≠ LMP_NICK →
      (Unchanged p p' ↔ SendsFirst userGroupMode e.code args env p) := by
    intro hsame hload hnick
    exact iff_of_true hsame ⟨fun h => absurd h hload, fun h => absurd h hnick⟩
  cases isCommand_of_mem he with
  | msg =>
    cases hs
    refine hother ?_ (by decide) (by decide)
    unfold msgSend at h
    rw [lmpSend_fails hfail] at h
    cases h
    exact .refl p
  | nick =>
    cases hs
    cases userGroupMode with
    | true =>
      have h : liftSend SocketSpeak.nickSend env LMP_NICK args p = .ok (.error, p') := h
      obtain ⟨u, hu, rfl⟩ := liftSend_ok h
      exact iff_of_true (unchanged_sendCommand hfail (Except.ok.inj hu)) ⟨nofun, nofun⟩
    | false =>
      refine (unchanged_nickSend_iff hfail h).trans ?_
      exact ⟨fun hsame => ⟨nofun, fun _ _ => hsame⟩, fun hfirst => hfirst.nick rfl rfl⟩
  | meow =>
    cases hs
    obtain ⟨u, hu, -⟩ := liftSend_ok h
    cases hu
  | sticker =>
    cases hs
    exact hother (unchanged_stickerSend hfail h) (by decide) (by decide)
  | grpObj =>
    cases hs
    obtain ⟨u, hu, rfl⟩ := liftSend_ok h
    refine hother (unchanged_sendCommand hfail (Except.ok.inj hu)) (by decide) (by decide)
  | grpInfo =>
    cases hs
    obtain ⟨u, hu, -⟩ := liftSend_ok h
    cases (User.grpInfoSend_ok hu).1
  | load =>
    cases hs
    obtain ⟨hidle, hchanged⟩ := changed_loadSend hfail h
    exact iff_of_false hchanged fun hfirst => hfirst.load rfl hidle
  | hangman =>
    cases hs
    obtain ⟨u, hu, rfl⟩ := liftSend_ok h
    refine hother ?_ (by decide) (by decide)
    obtain hu | ⟨-, line, rfl⟩ := User.userGrpHangmanSend_ok hu
    · exact unchanged_sendCommand hfail hu
    · exact unchanged_user rfl rfl rfl
  | ack | error | uid | initMember | loadingMsg => cases hs

theorem unchanged_iff_msg : ∃ p p', main (str "/home/ann") none (fun _ => none) = .ok p ∧
    msgSend { ChatEnv.allOk with sendOk := false } LMP_MSG (str "hi") p = .ok (.error, p') ∧
      Unchanged p p' := by
  obtain ⟨p, hp, -⟩ := exists_ok (x := main (str "/home/ann") none fun _ => none)
    (P := fun _ => True) rfl fun _ _ => trivial
  have hmsg : (⟨LMP_MSG, str "msg", some msgSend, some msgRecv⟩ :
      CommandEntry ChatEnv Chatter Halt) ∈ initCommands := initCommands_eq ▸ List.mem_cons_self
  have hfirst : SendsFirst false LMP_MSG (str "hi") { ChatEnv.allOk with sendOk := false } p :=
    ⟨fun h => absurd h (by decide), fun h => absurd h (by decide)⟩
  exact ⟨p, p, hp, rfl, (unchanged_iff hmsg rfl rfl rfl).mpr hfirst⟩

/-- The client goes on waiting for a history that it has not asked for. -/
theorem requesting_after_error : ∃ p p', main (str "/home/ann") none (fun _ => none) = .ok p ∧
    liftSend userGrpLoadMsgSend { ChatEnv.allOk with sendOk := false } LMP_GRP_LOAD_MSG [] p =
      .ok (.error, p') ∧ ¬ Unchanged p p' := by
  obtain ⟨p, hp, hidle⟩ := exists_ok (x := main (str "/home/ann") none fun _ => none)
    (P := fun p => p.loadingMessageState = .idle) rfl (by decide +kernel)
  let u : User := { p.toUser.print (str "[System]: Loading History...\n") with
    loadingMessageState := .requestingLoad }
  have hsend : userGrpLoadMsgSend ⟨false, [], none⟩ LMP_GRP_LOAD_MSG [] p.toUser =
      .ok (.error, u) := by
    unfold userGrpLoadMsgSend
    rw [hidle]
    rfl
  refine ⟨p, { p with toUser := u }, hp, ?_, fun hsame => ?_⟩
  · unfold liftSend
    change Except.map _
      ((userGrpLoadMsgSend ⟨false, [], none⟩ LMP_GRP_LOAD_MSG [] p.toUser).mapError Halt.fault) = _
    rw [hsend]
    rfl
  · have hloading : LoadState.requestingLoad = p.loadingMessageState := hsame.loading
    rw [hidle] at hloading
    cases hloading

end Chatter

end SocketSpeak
