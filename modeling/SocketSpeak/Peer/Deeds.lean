import SocketSpeak.Peer.Delivery
import SocketSpeak.Peer.Nickname

/-!
# Commands and frames that set no nickname

But for `/nick`, and for the frames with a nickname or a uid, a round of a thread is made of the
steps of `Does`. They tell more than those of `Acts`: whose line is appended to the history, and
that no nickname changes.
-/

namespace SocketSpeak
open CLib

namespace Chatter
variable {p p' q : Chatter} {env : ChatEnv} {r : CommandResult} {code : UInt8}

/-- `p'` is reached from `p` where only frames of the type `code` are sent. -/
inductive Does (code : UInt8) (p : Chatter) : Chatter → Prop
  | done : Does code p p
  | user {q u} : Does code p q → u.up = q.up → u.peerUid = q.peerUid → u.peerNick = q.peerNick →
    Does code p { q with toUser := u }
  | send {q env payload} : Does code p q → Does code p (q.lmpSend env code payload).2
  | append {q env speaker message} : Does code p q →
    speaker = q.myNick.toStr ∨ speaker = q.peerNick.toStr → NulFree message →
    Does code p (q.historyAppend env speaker message).2
  | create {q env keys name line c k} : Does code p q → q.stickers.historyLoaded = true →
    createSticker q.stickers q.toDisk env keys name = .ok (line, c, k) →
    Does code p { q with stickers := c, toDisk := k }
  | load {q env c k} : Does code p q → ensureLoaded q.stickers q.toDisk env = .ok (c, k) →
    Does code p { q with stickers := c, toDisk := k }

theorem Does.print (h : Does code p q) (line : Bytes) : Does code p (q.print line) :=
  .user h rfl rfl rfl

theorem Does.trans (h : Does code p q) (h' : Does code q p') : Does code p p' := by
  induction h' with
  | done => exact h
  | user _ hup huid hnick ih => exact .user ih hup huid hnick
  | send _ ih => exact .send ih
  | append _ hspeaker hfree ih => exact .append ih hspeaker hfree
  | create _ hl hc ih => exact .create ih hl hc
  | load _ hl ih => exact .load ih hl

theorem Does.acts (h : Does code p p') : Acts (fun type _ => type = code) True p p' := by
  induction h with
  | done => exact .done
  | user _ hup huid _ ih => exact .user ih hup huid
  | send _ ih => exact .send ih rfl
  | append _ _ _ ih => exact .append ih
  | create _ hl hc ih => exact .create ih hl hc
  | load _ hl ih => exact .load ih trivial hl

theorem Does.nicks (h : Does code p p') : p'.myNick = p.myNick ∧ p'.peerNick = p.peerNick := by
  induction h with
  | done => exact ⟨rfl, rfl⟩
  | user _ _ _ hnick ih => exact ⟨ih.1, hnick.trans ih.2⟩
  | @send q env payload _ ih =>
    obtain ⟨up, hup⟩ := q.up_lmpSend env code payload
    rwa [hup]
  | @append q env speaker message _ _ _ ih =>
    obtain ⟨files, hfiles⟩ := q.files_historyAppend env speaker message
    rwa [hfiles]
  | create _ _ _ ih => exact ih
  | load _ _ ih => exact ih

/-! ## Commands -/

theorem Does.sendCommand {u u' : User} (h : Does code p { q with toUser := u }) {env : ChatEnv}
    {payload : Bytes} (hu : u.sendCommand ⟨env.sendOk, [], none⟩ code payload = (r, u')) :
    Does code p { q with toUser := u' } := by
  have heq : ({ q with toUser := u }.lmpSend env code payload).2 = { q with toUser := u' } := by
    obtain rfl : _ = u' := congrArg Prod.snd hu
    unfold lmpSend User.sendCommand User.lmpSend
    cases env.sendOk <;> rfl
  exact heq ▸ .send h

theorem does_withStickerName {rest : Bytes} {f : Bytes → Except Halt (CommandResult × Chatter)}
    (h : withStickerName rest q f = .ok (r, p')) (hq : Does code p q)
    (hf : ∀ name, f name = .ok (r, p') → Does code p p') : Does code p p' := by
  unfold withStickerName at h
  split at h
  · cases h
    exact hq.print _
  · exact hf _ h

theorem does_stickerSend {args : Bytes} (h : stickerSend env code args p = .ok (r, p')) :
    Does code p p' := by
  obtain ⟨⟨c, k⟩, hload, h⟩ := bind_ok h
  have hloaded := loaded_of_ensureLoaded hload
  have hdone : Does code p { p with stickers := c, toDisk := k } := .load .done hload
  dsimp only at h
  split at h
  · cases h
    exact hdone.print _
  split at h
  · apply does_withStickerName h hdone
    intro name h
    obtain ⟨⟨line, c', k'⟩, hcreate, h⟩ := bind_ok h
    cases h
    exact .print (.create hdone hloaded hcreate) _
  split at h
  · apply does_withStickerName h hdone
    intro name h
    split at h
    · cases h
      exact hdone.print _
    rename_i sticker _
    split at h
    · cases h
      exact .send (hdone.print _)
    split at h
    · cases h
    · cases h
      have hfree : NulFree (str "\n" ++ sticker.toStr) :=
        nulFree_append (by decide) sticker.nulFree
      exact .append (.send (hdone.print _)) (.inl rfl) hfree
  split at h
  · cases h
    exact hdone.print _
  split at h
  · apply does_withStickerName h hdone
    intro name h
    split at h
    · cases h
    · cases h
      exact hdone.print _
  · cases h
    exact hdone.print _

/-- The types of the frames that are sent by a command other than `/nick`. -/
def commandTypes : List UInt8 :=
  [LMP_MSG, LMP_STICKERS, LMP_GRP_OBJ, LMP_GRP_LOAD_MSG, LMP_GRP_HANGMAN]

theorem does_of_send {e : CommandEntry ChatEnv Chatter Halt} (he : e ∈ initCommands)
    (hnick : e.name ≠ str "nick") {send : ChatSend} (hs : e.send = some send) {args : Bytes}
    (hargs : IsArgs args) (h : send env e.code args p = .ok (r, p')) :
    ∃ code ∈ commandTypes, Does code p p' := by
  cases isCommand_of_mem he with
  | msg =>
    cases hs
    refine ⟨LMP_MSG, by decide, ?_⟩
    unfold msgSend at h
    dsimp only at h
    split at h <;> cases h
    · exact .send .done
    · exact .append (.send .done) (.inl rfl) hargs.nulFree
  | nick => exact absurd rfl hnick
  | meow =>
    cases hs
    obtain ⟨u, hu, rfl⟩ := liftSend_ok h
    cases hu
    exact ⟨LMP_MSG, by decide, .user .done rfl rfl rfl⟩
  | sticker =>
    cases hs
    exact ⟨LMP_STICKERS, by decide, does_stickerSend h⟩
  | grpObj =>
    cases hs
    obtain ⟨u, hu, rfl⟩ := liftSend_ok h
    exact ⟨LMP_GRP_OBJ, by decide, .sendCommand .done (Except.ok.inj hu)⟩
  | grpInfo =>
    cases hs
    obtain ⟨u, hu, rfl⟩ := liftSend_ok h
    obtain ⟨-, line, rfl⟩ := User.grpInfoSend_ok hu
    exact ⟨LMP_MSG, by decide, .user .done rfl rfl rfl⟩
  | load =>
    cases hs
    obtain ⟨u, hu, rfl⟩ := liftSend_ok h
    refine ⟨LMP_GRP_LOAD_MSG, by decide, ?_⟩
    obtain ⟨-, -, line, rfl⟩ | ⟨-, out, hu⟩ := User.userGrpLoadMsgSend_ok hu
    · exact .user .done rfl rfl rfl
    · refine .sendCommand ?_ hu
      exact .user .done rfl rfl rfl
  | hangman =>
    cases hs
    obtain ⟨u, hu, rfl⟩ := liftSend_ok h
    refine ⟨LMP_GRP_HANGMAN, by decide, ?_⟩
    obtain hu | ⟨-, line, rfl⟩ := User.userGrpHangmanSend_ok hu
    · exact .sendCommand .done hu
    · exact .user .done rfl rfl rfl
  | ack | error | uid | initMember | loadingMsg => cases hs

/-- What a typed line does: it sets no nickname, or it sets one, stores it and sends it. -/
inductive Utters (sendOk : Bool) (p p' : Chatter) : Prop
  | plain {code : UInt8} : code ∈ commandTypes → Does code p p' → Utters sendOk p p'
  | nick {args : Bytes} : p'.myNick = .copyStr _ args → p'.peerNick = p.peerNick →
    p'.up = p.up ++ (if sendOk then [lmpFrame LMP_NICK args] else []) →
    (∀ path, path ≠ p.directory.shown ++ str "nick.txt" →
      p'.files.content path = p.files.content path) → Utters sendOk p p'

theorem Utters.peerNick {sendOk : Bool} (h : Utters sendOk p p') : p'.peerNick = p.peerNick := by
  cases h with
  | plain _ h => exact h.nicks.2
  | nick _ hpeer _ _ => exact hpeer

theorem Utters.print {sendOk : Bool} (h : Utters sendOk p p') (line : Bytes) :
    Utters sendOk p (p'.print line) := by
  cases h with
  | plain hcode h => exact .plain hcode (h.print line)
  | nick hmine hpeer hup hfiles => exact .nick hmine hpeer hup hfiles

theorem utters_nickSend {args : Bytes} (h : nickSend env LMP_NICK args p = .ok (r, p')) :
    Utters env.sendOk p p' := by
  obtain ⟨⟨i, p₁⟩, h₁, h⟩ := bind_ok h
  obtain ⟨⟨j, k⟩, hk, h₁⟩ := bind_ok h₁
  cases h₁
  have hfiles : ∀ path, path ≠ p.directory.shown ++ str "nick.txt" →
      k.files.content path = p.files.content path := fun path hne => Disk.content_of_save hk hne
  dsimp only [lmpSend] at h
  cases hsend : env.sendOk with
  | false =>
    rw [hsend] at h
    cases h
    exact .nick rfl rfl (List.append_nil _).symm hfiles
  | true =>
    rw [hsend] at h
    cases h
    exact .nick rfl rfl rfl hfiles

theorem utters_of_typed {line : Bytes} (h : p.typed env line = .ok p') :
    Utters env.sendOk p p' := by
  unfold typed at h
  dsimp only at h
  split at h
  · obtain ⟨⟨r, q⟩, hq, h⟩ := bind_ok h
    have hutters : Utters env.sendOk p q := by
      rcases dispatchSend_named hq with rfl | ⟨e, he, -, send, args, hs, hargs, hq⟩
      · exact .plain (List.mem_cons_self : LMP_MSG ∈ commandTypes) .done
      by_cases hnick : e.name = str "nick"
      · cases isCommand_of_mem he with
        | nick =>
          cases hs
          exact utters_nickSend hq
        | _ => exact absurd hnick (by decide)
      · obtain ⟨code, hcode, hdoes⟩ := does_of_send he hnick hs hargs hq
        exact .plain hcode hdoes
    cases r <;> cases h
    · exact hutters
    · exact hutters.print _
    · exact hutters.print _
  · cases h
    refine .plain (List.mem_cons_self : LMP_MSG ∈ commandTypes) ?_
    split
    · exact .append (.send .done) (.inl rfl) (nulFree_stripNewline line)
    · exact .send .done

/-! ## Frames -/

theorem does_of_recv {e : CommandEntry ChatEnv Chatter Halt} (he : e ∈ initCommands)
    (huid : e.code ≠ LMP_UID) (hnick : e.code ≠ LMP_NICK) {recv : ChatRecv}
    (hr : e.recv = some recv) {type : UInt8} {buf : Bytes} {len : Nat}
    (h : recv env type buf len p = .ok (r, p')) : Does code p p' := by
  cases isCommand_of_mem he with
  | msg =>
    cases hr
    cases h
    exact .append (.print .done _) (.inr rfl) (cstr_nulFree buf)
  | nick => exact absurd rfl hnick
  | ack | error =>
    cases hr
    obtain ⟨u, hu, rfl⟩ := liftRecv_ok h
    cases hu
    exact .user .done rfl rfl rfl
  | uid => exact absurd rfl huid
  | sticker =>
    cases hr
    unfold stickerRecv at h
    dsimp only at h
    split at h <;> cases h
    exact .append (.print .done _) (.inr rfl) (nulFree_append (by decide) (cstr_nulFree buf))
  | grpObj =>
    cases hr
    obtain ⟨u, hu, rfl⟩ := liftRecv_ok h
    obtain ⟨i, line, rfl⟩ := User.grpObjRecv_ok hu
    exact .user .done rfl rfl rfl
  | load =>
    cases hr
    obtain ⟨u, hu, rfl⟩ := liftRecv_ok h
    obtain rfl := User.userGrpLoadMsgRecv_ok hu
    exact .user .done rfl rfl rfl
  | loadingMsg =>
    cases hr
    obtain ⟨u, hu, rfl⟩ := liftRecv_ok h
    obtain ⟨s, line, rfl⟩ := User.userGrpLoadingMsgRecv_ok hu
    exact .user .done rfl rfl rfl
  | hangman =>
    cases hr
    obtain ⟨u, hu, rfl⟩ := liftRecv_ok h
    obtain ⟨out, rfl⟩ := User.userGrpHangmanRecv_ok hu
    exact .user .done rfl rfl rfl
  | meow | grpInfo | initMember => cases hr

theorem does_of_receive {f : Frame} {buf : Bytes} (huid : f.type ≠ LMP_UID)
    (hnick : f.type ≠ LMP_NICK) (h : p.receive env f buf = .ok p') : Does code p p' := by
  obtain ⟨res, q, hq, rfl⟩ := receive_ok h
  have hdoes : Does code p q := by
    rcases dispatchRecv_ok hq with rfl | ⟨e, he, hcode, recv, hr, hq⟩
    · exact .done
    · exact does_of_recv he (hcode ▸ huid) (hcode ▸ hnick) hr hq
  split
  · exact hdoes.print _
  · exact hdoes

/-- A nickname is set and stored, and acknowledged if the send succeeds. -/
theorem nick_of_receive {f : Frame} {buf : Bytes} (hf : f.type = LMP_NICK)
    (h : p.receive env f buf = .ok p') : p'.myNick = p.myNick ∧
      p'.peerNick = .copyStr _ f.payload ∧
      p'.up = p.up ++ (if env.sendOk then [lmpFrame LMP_ACK (str "nickname ack")] else []) ∧
      ∀ path, path ≠ peerNickPath p.directory.shown p.peerUid.toStr →
        p'.files.content path = p.files.content path := by
  obtain ⟨r, h⟩ := nickRecv_of_receive hf h
  obtain ⟨⟨i, p₁⟩, h₁, h⟩ := bind_ok h
  obtain ⟨name, hname, h₁⟩ := bind_ok h₁
  obtain ⟨⟨j, k⟩, hk, h₁⟩ := bind_ok h₁
  cases h₁
  have hnick : CharArray.copyStr NICKNAME_MAX_LEN (f.received buf).buf = .copyStr _ f.payload :=
    copyStr_received NICKNAME_MAX_LEN f buf
  have hfiles : ∀ path, path ≠ peerNickPath p.directory.shown p.peerUid.toStr →
      k.files.content path = p.files.content path := fun path hne =>
    Disk.content_of_save hk (path_peerNickFile (cstr_nulFree _) hname _ ▸ hne)
  dsimp only [lmpSend] at h
  cases hsend : env.sendOk with
  | false =>
    rw [hsend] at h
    cases h
    exact ⟨rfl, hnick, (List.append_nil _).symm, hfiles⟩
  | true =>
    rw [hsend] at h
    cases h
    exact ⟨rfl, hnick, rfl, hfiles⟩

end Chatter

end SocketSpeak
