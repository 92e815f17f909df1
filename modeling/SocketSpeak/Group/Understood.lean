import SocketSpeak.CLib.Lines
import SocketSpeak.Group.HangmanBuffers

/-!
# Every frame has a handler

A frame that is longer than the receive buffer ends a connection, and one that the table of the
client has no handler for is only warned about. Neither happens between `gclient`s and the server,
where a send that fails writes nothing (`understood_of_run`): what a client may type decides what it
writes, and that what it is sent.
-/

namespace SocketSpeak
open CLib Sys

/-! ## What a client writes -/

/-- A frame that a client may write. -/
structure Written (f : Frame) : Prop where
  type : f.type ∈ [LMP_GRP_INIT_MEMBER, LMP_MSG, LMP_NICK, LMP_STICKERS, LMP_GRP_OBJ,
    LMP_GRP_LOAD_MSG, LMP_GRP_HANGMAN]
  fits : f.payload.length < RECV_BUF_SIZE
  named : ∀ i buf env, Server.Named (.frame i f buf env)

theorem written_initFrame {m : GroupMember} (h : m.nickname.HasNul) : Written (initFrame m) where
  type := List.mem_cons_self
  fits := by
    rw [initFrame, lmpFrame, GroupMember.length_toBytes]
    decide
  named i buf env _ := by
    rw [received_buf]
    exact (GroupMember.ofBytes_toBytes_append m _).symm ▸ h

theorem written_lmpFrame {type : UInt8} {payload : Bytes} (htype : type ∈ [LMP_MSG, LMP_NICK,
    LMP_STICKERS, LMP_GRP_OBJ, LMP_GRP_LOAD_MSG, LMP_GRP_HANGMAN])
    (hlen : payload.length < RECV_BUF_SIZE) : Written (lmpFrame type payload) where
  type := List.mem_cons_of_mem _ htype
  fits := hlen
  named i buf env hinit := by
    have hinit : type = LMP_GRP_INIT_MEMBER := hinit
    rw [hinit] at htype
    exact absurd htype (by decide)

/-- The catalogue holds what its entries have room for. -/
def UserEnv.Stocked (env : UserEnv) : Prop := ∀ e ∈ env.stickers, e.2.length < MAX_STICKER_LEN

instance (env : UserEnv) : Decidable env.Stocked := inferInstanceAs (Decidable (∀ e ∈ _, _))

namespace User
variable {u u' : User} {env : UserEnv} {r : CommandResult} {P : Frame → Prop}

/-- The client has written frames that are in `P`. -/
def Writes (P : Frame → Prop) (u u' : User) : Prop := ∃ fs, u'.up = u.up ++ fs ∧ ∀ f ∈ fs, P f

theorem Writes.none (h : u'.up = u.up) : Writes P u u' :=
  ⟨[], by rw [h, List.append_nil], fun f hf => by cases hf⟩

theorem writes_sendCommand {u₁ : User} (h : u₁.up = u.up) {type : UInt8} {payload : Bytes}
    (hP : P (lmpFrame type payload)) : Writes P u (u₁.sendCommand env type payload).2 := by
  unfold sendCommand lmpSend
  cases env.sendOk with
  | false => exact .none h
  | true =>
    refine ⟨[lmpFrame type payload], ?_, fun f hf => List.mem_singleton.mp hf ▸ hP⟩
    dsimp only
    rw [if_pos rfl, h]

theorem writes_withStickerName {rest : Bytes} {f : Bytes → Except Fault (CommandResult × User)}
    (h : withStickerName rest u f = .ok (r, u'))
    (hf : ∀ name, f name = .ok (r, u') → Writes P u u') : Writes P u u' := by
  unfold withStickerName at h
  split at h
  · cases h
    exact .none rfl
  · exact hf _ h

theorem writes_stickerSend (henv : env.Stocked) {args : Bytes}
    (h : stickerSend env LMP_STICKERS args u = .ok (r, u')) : Writes Written u u' := by
  unfold stickerSend at h
  split at h
  · cases h
    exact .none rfl
  split at h
  · apply writes_withStickerName h
    intro name h
    split at h <;> cases h <;> exact .none rfl
  split at h
  · apply writes_withStickerName h
    intro name h
    split at h
    · cases h
      exact .none rfl
    rename_i sticker hsticker
    obtain ⟨e, he, rfl⟩ := Option.map_eq_some_iff.mp hsticker
    have hlen : e.2.length < RECV_BUF_SIZE :=
      Nat.lt_trans (henv e (List.mem_of_find?_eq_some he)) (by decide)
    have hwritten : Written (lmpFrame LMP_STICKERS e.2) := written_lmpFrame (by decide) hlen
    dsimp only at h
    split at h
    · cases h
      exact writes_sendCommand rfl hwritten
    split at h
    · cases h
    · cases h
      exact writes_sendCommand rfl hwritten
  split at h
  · cases h
    exact .none rfl
  split at h
  · apply writes_withStickerName h
    intro name h
    split at h <;> cases h
    exact .none rfl
  · cases h
    exact .none rfl

theorem writes_of_send {e : CommandEntry UserEnv User Fault} (he : e ∈ initCommands)
    (henv : env.Stocked) {send : UserSend} (hs : e.send = some send) {args : Bytes}
    (hargs : IsArgs args) (h : send env e.code args u = .ok (r, u')) : Writes Written u u' := by
  have hlen : args.length < RECV_BUF_SIZE := Nat.lt_trans hargs.length_lt (by decide)
  cases isCommand_of_mem he with
  | msg | nick =>
    cases hs
    cases h
    exact writes_sendCommand rfl (written_lmpFrame (by decide) hlen)
  | meow =>
    cases hs
    cases h
    exact .none rfl
  | sticker =>
    cases hs
    exact writes_stickerSend henv h
  | grpObj =>
    cases hs
    cases h
    refine writes_sendCommand rfl (written_lmpFrame (by decide) ?_)
    rw [Group.length_toBytes]
    decide
  | grpInfo =>
    cases hs
    obtain ⟨-, line, rfl⟩ := grpInfoSend_ok h
    exact .none rfl
  | load =>
    cases hs
    obtain ⟨-, -, line, rfl⟩ | ⟨-, out, h⟩ := userGrpLoadMsgSend_ok h
    · exact .none rfl
    · cases h
      exact writes_sendCommand rfl (written_lmpFrame (by decide) (by decide))
  | hangman =>
    cases hs
    obtain h | ⟨-, line, rfl⟩ := userGrpHangmanSend_ok h
    · cases h
      exact writes_sendCommand rfl (written_lmpFrame (by decide) hlen)
    · exact .none rfl
  | ack | error | uid | initMember | loadingMsg => cases hs

/-- What is typed, of any length. -/
theorem writes_of_typed (henv : env.Stocked) {line : Bytes} (h : u.typed env line = .ok u') :
    Writes Written u u' := by
  unfold typed at h
  split at h
  · cases h
    exact .none rfl
  obtain ⟨⟨r, u₁⟩, h₁, h⟩ := bind_ok h
  have hwrites : Writes Written u u₁ := by
    rcases dispatchSend_named h₁ with rfl | ⟨e, he, -, send, args, hs, hargs, h₁⟩
    · exact .none rfl
    · exact writes_of_send he henv hs hargs h₁
  cases r <;> cases h <;> exact hwrites

/-- Only a nickname is answered. -/
theorem up_of_recv {e : CommandEntry UserEnv User Fault} (he : e ∈ initCommands)
    (hne : e.code ≠ LMP_NICK) {recv : UserRecv} (hr : e.recv = some recv) {code : UInt8}
    {buf : Bytes} {len : Nat} (h : recv env code buf len u = .ok (r, u')) : u'.up = u.up := by
  cases isCommand_of_mem he with
  | msg | ack | error | uid =>
    cases hr
    cases h
    rfl
  | nick => exact absurd rfl hne
  | sticker =>
    cases hr
    obtain ⟨line, rfl⟩ := stickerRecv_ok h
    rfl
  | grpObj =>
    cases hr
    obtain ⟨i, line, rfl⟩ := grpObjRecv_ok h
    rfl
  | load =>
    cases hr
    rw [userGrpLoadMsgRecv_ok h]
  | loadingMsg =>
    cases hr
    obtain ⟨s, line, rfl⟩ := userGrpLoadingMsgRecv_ok h
    rfl
  | hangman =>
    cases hr
    obtain ⟨out, rfl⟩ := userGrpHangmanRecv_ok h
    rfl
  | meow | grpInfo | initMember => cases hr

theorem up_of_receive {f : Frame} {buf : Bytes} (hf : f.type ≠ LMP_NICK)
    (h : u.receive env f buf = .ok u') : u'.up = u.up := by
  obtain ⟨m, -, res, u₁, h₁, rfl⟩ := receive_ok h
  have hup : u₁.up = (u.withPeer m).up := by
    rcases dispatchRecv_ok h₁ with rfl | ⟨e, he, hcode, recv, hr, h₁⟩
    · rfl
    · exact up_of_recv he (hcode ▸ hf) hr h₁
  split
  · exact hup
  · exact hup

end User

/-! ## What the server sends -/

/-- A frame that the server may send. -/
structure Told (f : Frame) : Prop where
  type : f.type ∈ [LMP_GRP_OBJ, LMP_MSG, LMP_STICKERS, LMP_GRP_LOADING_MSG, LMP_GRP_LOAD_MSG,
    LMP_GRP_HANGMAN]
  fits : f.payload.length < RECV_BUF_SIZE
  short : f.type = LMP_GRP_HANGMAN → f.payload.length < PROCESS_RESPONSE_SIZE

theorem Told.ne_nick {f : Frame} (h : Told f) : f.type ≠ LMP_NICK := by
  intro hn
  have htype := h.type
  rw [hn] at htype
  exact absurd htype (by decide)

namespace Server
variable {s s' : Server} {out : List Output} {i : Nat} {f : Frame} {buf : Bytes} {env : Env}

theorem told_objFrame (s : Server) : Told s.objFrame where
  type := List.mem_cons_self
  fits := by
    rw [objFrame, lmpFrame, Group.length_toBytes]
    decide
  short h := by
    have hne : LMP_GRP_OBJ ≠ LMP_GRP_HANGMAN := by decide
    exact absurd h hne

theorem told_of_broadcast (s : Server) (env : Env) :
    ∀ o ∈ (s.sendNewGroupToUsers env).2, Told o.frame := by
  intro o ho
  rw [sendNewGroupToUsers_eq] at ho
  obtain ⟨p, -, ho⟩ := List.mem_flatMap.mp ho
  rw [(mem_lmpSend.mp ho).2]
  exact s.told_objFrame

theorem length_lines_lt {h : HistoryFile} {line : Bytes} (hl : line ∈ h.lines) :
    line.length < PROCESS_RESPONSE_SIZE := by
  obtain ⟨l, hmem, rfl⟩ := List.mem_map.mp hl
  exact Nat.lt_of_le_of_lt (List.takeWhile_prefix _).length_le
    (length_lt_of_mem_fgetsAll (by decide) hmem)

/-- What answers a request for the history. -/
theorem told_of_load {fd : Int} (h : s.clientLoadMsg env i fd = .ok (out, s')) :
    ∀ o ∈ out, Told o.frame := by
  obtain ⟨m, -, h⟩ := bind_ok h
  cases h
  intro o ho
  rcases List.mem_append.mp ho with ho | ho
  · obtain ⟨line, hline, ho⟩ := List.mem_flatMap.mp ho
    rw [(mem_lmpSend.mp ho).2]
    have hlen : line.length < PROCESS_RESPONSE_SIZE := by
      split at hline
      · exact length_lines_lt hline
      · cases hline
    have hne : LMP_GRP_LOADING_MSG ≠ LMP_GRP_HANGMAN := by decide
    exact ⟨by simp [lmpFrame], Nat.lt_trans hlen (by decide), fun h => absurd h hne⟩
  · rw [(mem_lmpSend.mp ho).2]
    have hne : LMP_GRP_LOAD_MSG ≠ LMP_GRP_HANGMAN := by decide
    exact ⟨by simp [lmpFrame], Nat.zero_lt_succ _, fun h => absurd h hne⟩

theorem told_of_frame (ht : s.TextsEnd) (hf : Written f)
    (h : s.step (.frame i f buf env) = .ok (out, s')) : ∀ o ∈ out, Told o.frame := by
  have ht' := ht.step (hf.named i buf env) h
  obtain ⟨fd, hfd, -, -, hh⟩ := handled_of_frame h
  cases hh with
  | nick _ _ _ _ _ hout => exact hout ▸ s'.told_of_broadcast env
  | init _ _ _ _ _ hout => exact hout ▸ s'.told_of_broadcast env
  | relayed hnot _ _ _ hout =>
    rw [hout]
    intro o ho
    obtain ⟨p, -, ho⟩ := List.mem_flatMap.mp ho
    rw [(mem_groupLmpSend.mp ho).2]
    have htype := hf.type
    simp only [List.mem_cons, List.not_mem_nil, or_false, not_or] at hnot htype
    refine ⟨?_, hf.fits, fun h => absurd h hnot.2.2.2⟩
    simp only [groupLmpFrame, List.mem_cons, List.not_mem_nil, or_false]
    tauto
  | answered m htype hm hg _ _ hans =>
    by_cases hload : f.type = LMP_GRP_LOAD_MSG
    · obtain ⟨fd', hfd', h⟩ := bind_ok h
      have hr : (f.received buf).received.type = LMP_GRP_LOAD_MSG := hload
      simp only [hr] at h
      exact told_of_load h
    · have htype : f.type = LMP_GRP_HANGMAN ∨ f.type = LMP_MSG := by
        simpa [hload] using htype
      intro o ho
      have hgame := type_of_answered htype hm hg h o ho
      have hlen := ht.short_of_step ht' h o ho hgame
      exact ⟨by simp [hgame], Nat.lt_trans hlen (by decide), fun _ => hlen⟩

end Server

/-! ## The group -/

/-- The client that receives the frame has room for it, and a handler; a text of the game is not too
long to be shown. -/
structure Understood (f : Frame) : Prop where
  fits : f.payload.length < RECV_BUF_SIZE
  handled : ∃ e, initCommands.find? (fun e => e.code = f.type) = some e ∧ e.recv.isSome
  shown : f.type = LMP_GRP_HANGMAN → f.payload.length < 1024

theorem Told.understood {f : Frame} (h : Told f) : Understood f := by
  refine ⟨h.fits, ?_, h.short⟩
  have hall : ([LMP_GRP_OBJ, LMP_MSG, LMP_STICKERS, LMP_GRP_LOADING_MSG, LMP_GRP_LOAD_MSG,
      LMP_GRP_HANGMAN].all fun type =>
        (initCommands.find? fun e => e.code = type).any (·.recv.isSome)) = true := by
    decide
  have hany := List.all_eq_true.mp hall _ h.type
  rw [Option.any_eq_true] at hany
  exact hany

namespace GroupNet

/-- Nothing is typed at a client whose catalogue holds a sticker that is too long. -/
def Stocked : GroupEvent → Prop
  | .typed _ _ env => env.Stocked
  | _ => True

instance : ∀ e, Decidable (Stocked e)
  | .typed _ _ env => inferInstanceAs (Decidable env.Stocked)
  | .accept .. | .serve .. | .hangup .. | .deliver .. | .drain .. => .isTrue trivial

/-- What holds of all that is under way. -/
structure Legible (n : GroupNet) : Prop where
  server : n.world.server.TextsEnd
  up : ∀ fd, ∀ f ∈ (n.link fd).user.up, Written f
  down : ∀ fd, ∀ m ∈ (n.link fd).down, Told m.frame
  closed : ∀ l ∈ n.closed, ∀ m ∈ l.down, Told m.frame

variable {n n' : GroupNet} {fd : Int} {e : ServerEvent}

/-- The server handles an event. -/
theorem Legible.serverStep (hI : n.Legible) (he : Server.Named e)
    (hout : ∀ out s', n.world.server.step e = .ok (out, s') → ∀ o ∈ out, Told o.frame)
    (h : n.serverStep e = .ok n') : n'.Legible := by
  obtain ⟨out, hs, -, hclosed, hlink⟩ := serverStep_ok h
  refine ⟨hI.server.step he hs, fun fd f hf => ?_, fun fd m hm => ?_, ?_⟩
  · rw [hlink] at hf
    exact hI.up fd f hf
  · rw [hlink] at hm
    rcases List.mem_append.mp hm with hm | hm
    · exact hI.down fd m hm
    · obtain ⟨o, ho, -, rfl⟩ := mem_sentTo.mp hm
      exact hout _ _ hs o ho
  · rw [hclosed]
    exact hI.closed

/-- A client is at another point of its connection. -/
theorem Legible.setLink (hI : n.Legible) {l : Link} (hup : ∀ f ∈ l.user.up, Written f)
    (hdown : ∀ m ∈ l.down, Told m.frame) : (n.setLink fd l).Legible := by
  refine ⟨hI.server, fun fd' => ?_, fun fd' => ?_, hI.closed⟩
  · rw [link_setLink]
    split
    · exact hup
    · exact hI.up fd'
  · rw [link_setLink]
    split
    · exact hdown
    · exact hI.down fd'

theorem Legible.read (hI : n.Legible) {f : Frame} {up : List Frame}
    (hup : (n.link fd).user.up = f :: up) : (n.read fd up).Legible :=
  hI.setLink (fun g hg => hI.up fd g (hup ▸ List.mem_cons_of_mem f hg)) (hI.down fd)

theorem Legible.close (hI : n.Legible) {k : Nat} {status : Int} {env : Env}
    (h : n.close fd k status env = .ok n') : n'.Legible := by
  obtain ⟨n₁, h₁, hworld, hlink, hclosed⟩ := close_ok h
  have hI₁ : n₁.Legible := by
    refine hI.serverStep (by trivial) (fun out s' hs => ?_) h₁
    obtain ⟨-, -, -, -, rfl⟩ := Server.handled_of_hangup hs
    exact s'.told_of_broadcast env
  refine ⟨hworld ▸ hI₁.server, hlink ▸ hI₁.up, hlink ▸ hI₁.down, ?_⟩
  rw [hclosed]
  exact List.forall_mem_append.mpr ⟨hI.closed, List.forall_mem_singleton.mpr (hI.down fd)⟩

theorem Legible.step (hI : n.Legible) {e : GroupEvent} (he : Stocked e) (h : n.step e = .ok n') :
    n'.Legible := by
  cases moved_of_step h with
  | @accept fd uid nickname n₁ hfd h₁ =>
    have hI₁ : n₁.Legible := by
      refine hI.serverStep (by trivial) (fun out s' hs => ?_) h₁
      cases hs
      exact fun o ho => by cases ho
    have hnick : (userMemberInfo uid nickname).nickname.HasNul :=
      CharArray.hasNul_copyStr (by decide) _
    exact hI₁.setLink (List.forall_mem_singleton.mpr (written_initFrame hnick))
      fun m hm => by cases hm
  | @typed fd line env u hfd hu =>
    obtain ⟨fs, hup, hfs⟩ := User.writes_of_typed he hu
    refine hI.setLink ?_ (hI.down fd)
    rw [hup]
    exact List.forall_mem_append.mpr ⟨hI.up fd, hfs⟩
  | @serve k buf env fd f up n' hk hup hs =>
    have hf : Written f := hI.up fd f (hup ▸ List.mem_cons_self)
    have hr := hI.read hup
    exact hr.serverStep (hf.named _ _ _) (fun out s' hs => Server.told_of_frame hr.server hf hs) hs
  | @overlong k buf env fd f up n' hk hup hs => exact (hI.read hup).close hs
  | hangup hk hs => exact hI.close hs
  | @deliver fd buf env m ms u hfd hdown hu =>
    have hm : Told m.frame := hI.down fd m (hdown ▸ List.mem_cons_self)
    refine hI.setLink ?_ fun m' hm' => hI.down fd m' (hdown ▸ List.mem_cons_of_mem m hm')
    rw [User.up_of_receive hm.ne_nick hu]
    exact hI.up fd
  | @drain j buf env l m ms u hl hdown hu =>
    refine ⟨hI.server, hI.up, hI.down, fun l' hl' => ?_⟩
    have hclosed := hI.closed l (List.mem_of_getElem? hl)
    rcases List.mem_or_eq_of_mem_set hl' with hl' | rfl
    · exact hI.closed l' hl'
    · exact fun m' hm' => hclosed m' (hdown ▸ List.mem_cons_of_mem m hm')

theorem legible_start (listener : Int) (info : GroupInfo) : (start listener info).Legible where
  server := World.textsEnd_start listener info
  up _ := List.forall_mem_singleton.mpr (written_initFrame (by decide))
  down _ _ hm := by cases hm
  closed _ hl := by cases hl

/-- **Nothing is misunderstood.** In every run of the server with `gclient`s, whatever is typed and
whatever sends fail before their first byte, a client has room and a handler for every frame that it
will receive, and the server never closes a connection because a frame of it is too long. Only the
text of a sticker that does not fit its entry has to be left out. -/
theorem understood_of_run {listener : Int} {info : GroupInfo} {es : List GroupEvent}
    (hC : Meets step (fun _ e => Stocked e) (start listener info) es)
    (h : exec step (start listener info) es = .ok n) :
    (∀ fd, ∀ m ∈ (n.link fd).down, Understood m.frame) ∧
      (∀ l ∈ n.closed, ∀ m ∈ l.down, Understood m.frame) ∧
      ∀ fd, ∀ f ∈ (n.link fd).user.up, f.payload.length < RECV_BUF_SIZE := by
  have hI : n.Legible := exec_invariant (I := Legible) (fun _ _ _ hI he hstep => hI.step he hstep)
    (legible_start listener info) hC h
  exact ⟨fun fd m hm => (hI.down fd m hm).understood,
    fun l hl m hm => (hI.closed l hl m hm).understood, fun fd f hf => (hI.up fd f hf).fits⟩

/-- ann starts a game of Hangman, and bob is told of it. -/
def annStartsGame : List GroupEvent :=
  annAndBob ++ [.typed 5 (str "/hangman start\n") .allOk, .serve 0 [] .allOk]

theorem understood_of_run_annStartsGame :
    ∃ n, exec step (start 3 gserverInfo) annStartsGame = .ok n ∧ (n.link 6).down ≠ [] ∧
      ∀ m ∈ (n.link 6).down, Understood m.frame := by
  have hrun : (exec step (start 3 gserverInfo) annStartsGame).isOk := by decide +kernel
  have hC : Meets step (fun _ e => Stocked e) (start 3 gserverInfo) annStartsGame := by
    decide +kernel
  obtain ⟨n, h, hdown⟩ := exists_ok (P := fun n => (n.link 6).down ≠ []) hrun (by decide +kernel)
  exact ⟨n, h, hdown, (understood_of_run hC h).1 6⟩

end GroupNet

end SocketSpeak
