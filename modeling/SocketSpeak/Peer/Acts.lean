import SocketSpeak.Group.Net
import SocketSpeak.Peer.Chat

/-!
# What a round can do

Every command and every frame but `LMP_UID` is a sequence of the actions of `Acts`. What the rounds
of the two threads keep is proved for these actions.
-/

namespace SocketSpeak
open CLib

namespace Chatter
variable {S S' : UInt8 → Bytes → Prop} {L L' : Prop} {p p' : Chatter} {env : ChatEnv}
  {r : CommandResult}

/-- `p'` is reached from `p` where only frames that are in `S` are sent, and where `L` holds if
the catalogue is loaded. -/
inductive Acts (S : UInt8 → Bytes → Prop) (L : Prop) (p : Chatter) : Chatter → Prop
  | done : Acts S L p p
  | user {p' u} : Acts S L p p' → u.up = p'.up → u.peerUid = p'.peerUid →
    Acts S L p { p' with toUser := u }
  | nick {p' nick} : Acts S L p p' → Acts S L p { p' with myNick := nick }
  | send {p' env type payload} : Acts S L p p' → S type payload →
    Acts S L p (p'.lmpSend env type payload).2
  | append {p' env speaker message} : Acts S L p p' →
    Acts S L p (p'.historyAppend env speaker message).2
  | save {p' env filename text r k} : Acts S L p p' → str "nick.txt" <:+ cstr filename →
    p'.toDisk.save env filename text = .ok (r, k) → Acts S L p { p' with toDisk := k }
  | create {p' env keys name line c k} : Acts S L p p' → p'.stickers.historyLoaded = true →
    createSticker p'.stickers p'.toDisk env keys name = .ok (line, c, k) →
    Acts S L p { p' with stickers := c, toDisk := k }
  | load {p' env c k} : Acts S L p p' → L → ensureLoaded p'.stickers p'.toDisk env = .ok (c, k) →
    Acts S L p { p' with stickers := c, toDisk := k }

theorem Acts.print (h : Acts S L p p') (line : Bytes) : Acts S L p (p'.print line) :=
  .user h rfl rfl

theorem Acts.mono (h : Acts S L p p') (hS : ∀ t b, S t b → S' t b) (hL : L → L') :
    Acts S' L' p p' := by
  induction h with
  | done => exact .done
  | user _ hup huid ih => exact .user ih hup huid
  | nick _ ih => exact .nick ih
  | send _ hs ih => exact .send ih (hS _ _ hs)
  | append _ ih => exact .append ih
  | save _ hname hk ih => exact .save ih hname hk
  | create _ hl hc ih => exact .create ih hl hc
  | load _ hl hc ih => exact .load ih (hL hl) hc

theorem Acts.trans {q : Chatter} (h : Acts S L p q) (h' : Acts S L q p') : Acts S L p p' := by
  induction h' with
  | done => exact h
  | user _ hup huid ih => exact .user ih hup huid
  | nick _ ih => exact .nick ih
  | send _ hs ih => exact .send ih hs
  | append _ ih => exact .append ih
  | save _ hname hk ih => exact .save ih hname hk
  | create _ hl hc ih => exact .create ih hl hc
  | load _ hl hc ih => exact .load ih hl hc

/-! ## The handlers of the group client -/

theorem liftSend_ok {send : UserSend} {code : UInt8} {args : Bytes}
    (h : liftSend send env code args p = .ok (r, p')) :
    ∃ u, send ⟨env.sendOk, [], none⟩ code args p.toUser = .ok (r, u) ∧
      p' = { p with toUser := u } := by
  unfold liftSend at h
  cases hs : send ⟨env.sendOk, [], none⟩ code args p.toUser with
  | error f => rw [hs] at h; cases h
  | ok x => rw [hs] at h; cases h; exact ⟨x.2, rfl, rfl⟩

theorem liftRecv_ok {recv : UserRecv} {code : UInt8} {buf : Bytes} {len : Nat}
    (h : liftRecv recv env code buf len p = .ok (r, p')) :
    ∃ u, recv ⟨env.sendOk, [], none⟩ code buf len p.toUser = .ok (r, u) ∧
      p' = { p with toUser := u } := by
  unfold liftRecv at h
  cases hs : recv ⟨env.sendOk, [], none⟩ code buf len p.toUser with
  | error f => rw [hs] at h; cases h
  | ok x => rw [hs] at h; cases h; exact ⟨x.2, rfl, rfl⟩

/-- A frame that a lifted handler sends. -/
theorem Acts.sendCommand {u u' : User} (h : Acts S L p { p' with toUser := u }) {type : UInt8}
    {payload : Bytes} (hs : S type payload) {env : ChatEnv}
    (hu : u.sendCommand ⟨env.sendOk, [], none⟩ type payload = (r, u')) :
    Acts S L p { p' with toUser := u' } := by
  have heq : ({ p' with toUser := u }.lmpSend env type payload).2 = { p' with toUser := u' } := by
    obtain rfl : _ = u' := congrArg Prod.snd hu
    unfold lmpSend User.sendCommand User.lmpSend
    cases env.sendOk <;> rfl
  exact heq ▸ .send h hs

/-! ## Commands -/

/-- A frame that a command may send. -/
structure Sendable (type : UInt8) (payload : Bytes) : Prop where
  not_uid : type ≠ LMP_UID
  fits : payload.length < RECV_BUF_SIZE
  nulFree : type = LMP_MSG → NulFree payload

theorem sendable_of_isArgs {args : Bytes} (h : IsArgs args) {type : UInt8}
    (htype : type ≠ LMP_UID) : Sendable type args :=
  ⟨htype, Nat.lt_trans h.length_lt (by decide), fun _ => h.nulFree⟩

theorem sendable_of_ne {type : UInt8} {payload : Bytes} (huid : type ≠ LMP_UID)
    (hmsg : type ≠ LMP_MSG) (hlen : payload.length < RECV_BUF_SIZE) : Sendable type payload :=
  ⟨huid, hlen, fun h => absurd h hmsg⟩

theorem acts_withStickerName {rest : Bytes} {f : Bytes → Except Halt (CommandResult × Chatter)}
    {q : Chatter} (h : withStickerName rest p f = .ok (r, p')) (hp : Acts S L q p)
    (hf : ∀ name, f name = .ok (r, p') → Acts S L q p') : Acts S L q p' := by
  unfold withStickerName at h
  split at h
  · cases h
    exact hp.print _
  · exact hf _ h

theorem loaded_of_ensureLoaded {c c' : Catalogue} {k k' : Disk} {env : FileEnv}
    (h : ensureLoaded c k env = .ok (c', k')) : c'.historyLoaded = true := by
  unfold ensureLoaded at h
  split at h
  · rename_i hl
    cases h
    exact hl
  · obtain ⟨⟨c₁, k₁⟩, -, h⟩ := bind_ok h
    cases h
    rfl

/-- A sticker command loads the catalogue, and then neither loads it nor sends but stickers. -/
theorem acts_stickerSend {args : Bytes}
    (h : stickerSend env LMP_STICKERS args p = .ok (r, p')) :
    ∃ c k, ensureLoaded p.stickers p.toDisk env.toFileEnv = .ok (c, k) ∧
      Acts Sendable False { p with stickers := c, toDisk := k } p' := by
  obtain ⟨⟨c, k⟩, hload, h⟩ := bind_ok h
  have hloaded := loaded_of_ensureLoaded hload
  refine ⟨c, k, hload, ?_⟩
  dsimp only at h
  split at h
  · cases h
    exact .print .done _
  split at h
  · apply acts_withStickerName h .done
    intro name h
    obtain ⟨⟨line, c', k'⟩, hcreate, h⟩ := bind_ok h
    cases h
    exact .print (.create .done hloaded hcreate) _
  split at h
  · apply acts_withStickerName h .done
    intro name h
    split at h
    · cases h
      exact .print .done _
    rename_i sticker _
    have hs : Sendable LMP_STICKERS sticker.toStr :=
      sendable_of_ne (by decide) (by decide) (Nat.lt_trans sticker.length_lt (by decide))
    split at h
    · cases h
      exact .send (.print .done _) hs
    split at h
    · cases h
    · cases h
      exact .append (.send (.print .done _) hs)
  split at h
  · cases h
    exact .print .done _
  split at h
  · apply acts_withStickerName h .done
    intro name h
    split at h
    · cases h
    · cases h
      exact .print .done _
  · cases h
    exact .print .done _

/-- What a command does that is not a sticker command. -/
theorem acts_of_send {e : CommandEntry ChatEnv Chatter Halt} (he : e ∈ initCommands)
    (hne : e.name ≠ str "sticker") {send : ChatSend} (hs : e.send = some send) {args : Bytes}
    (hargs : IsArgs args) (h : send env e.code args p = .ok (r, p')) :
    Acts Sendable False p p' := by
  cases isCommand_of_mem he with
  | msg =>
    cases hs
    have hsend : Sendable LMP_MSG args := sendable_of_isArgs hargs (by decide)
    unfold msgSend at h
    dsimp only at h
    split at h <;> cases h
    · exact .send .done hsend
    · exact .append (.send .done hsend)
  | nick =>
    cases hs
    obtain ⟨⟨i, p₁⟩, h₁, h⟩ := bind_ok h
    obtain ⟨⟨j, k⟩, hk, h₁⟩ := bind_ok h₁
    cases h₁
    cases h
    exact .send (.save (.nick .done) (List.suffix_refl _) hk) (sendable_of_isArgs hargs (by decide))
  | meow =>
    cases hs
    obtain ⟨u, hu, rfl⟩ := liftSend_ok h
    cases hu
    exact .user .done rfl rfl
  | sticker => exact absurd rfl hne
  | grpObj =>
    cases hs
    obtain ⟨u, hu, rfl⟩ := liftSend_ok h
    refine .sendCommand .done (sendable_of_ne (by decide) (by decide) ?_) (Except.ok.inj hu)
    rw [Group.length_toBytes]
    decide
  | grpInfo =>
    cases hs
    obtain ⟨u, hu, rfl⟩ := liftSend_ok h
    obtain ⟨-, line, rfl⟩ := User.grpInfoSend_ok hu
    exact .user .done rfl rfl
  | load =>
    cases hs
    obtain ⟨u, hu, rfl⟩ := liftSend_ok h
    obtain ⟨-, -, line, rfl⟩ | ⟨-, out, hu⟩ := User.userGrpLoadMsgSend_ok hu
    · exact .user .done rfl rfl
    · have hsend : Sendable LMP_GRP_LOAD_MSG [] :=
        sendable_of_ne (by decide) (by decide) (by decide)
      refine .sendCommand ?_ hsend hu
      exact .user .done rfl rfl
  | hangman =>
    cases hs
    obtain ⟨u, hu, rfl⟩ := liftSend_ok h
    obtain hu | ⟨-, line, rfl⟩ := User.userGrpHangmanSend_ok hu
    · exact .sendCommand .done (sendable_of_isArgs hargs (by decide)) hu
    · exact .user .done rfl rfl
  | ack | error | uid | initMember | loadingMsg => cases hs

/-! ## What is typed -/

theorem length_lt_of_readLine {stdin line : Bytes} (h : readLine stdin = some line) :
    line.length < LINE_SIZE := by
  obtain ⟨⟨l, rest⟩, hl, rfl⟩ := Option.map_eq_some_iff.mp h
  unfold fgets at hl
  split at hl
  · cases hl
  · cases hl
    exact Nat.lt_of_le_of_lt (List.length_take_le _ _) (by decide)

theorem isPrefix_stripNewline (line : Bytes) : stripNewline line <+: line := by
  unfold stripNewline
  have hcstr : cstr line <+: line := List.takeWhile_prefix _
  split
  · exact (List.dropLast_prefix _).trans hcstr
  · exact hcstr

theorem nulFree_stripNewline (line : Bytes) : NulFree (stripNewline line) := by
  unfold stripNewline
  split
  · exact fun h => cstr_nulFree line ((List.dropLast_prefix _).mem h)
  · exact cstr_nulFree line

/-- The line is a sticker command. -/
def IsSticker (line : Bytes) : Prop :=
  (stripNewline line).head? = some 0x2F ∧
    commandName ((stripNewline line).drop 1) = some (str "sticker")

instance (line : Bytes) : Decidable (IsSticker line) := inferInstanceAs (Decidable (_ ∧ _))

theorem eq_sticker_of_name {e : CommandEntry ChatEnv Chatter Halt} (he : e ∈ initCommands)
    (hname : e.name = str "sticker") :
    e = ⟨LMP_STICKERS, str "sticker", some stickerSend, some stickerRecv⟩ := by
  cases isCommand_of_mem he with
  | sticker => rfl
  | _ => exact absurd hname (by decide)

theorem acts_of_typed {line : Bytes} (hline : line.length < LINE_SIZE)
    (h : p.typed env line = .ok p') : Acts Sendable (IsSticker line) p p' := by
  unfold typed at h
  dsimp only at h
  split at h
  · rename_i hhead
    obtain ⟨⟨r, q⟩, hq, h⟩ := bind_ok h
    have hacts : Acts Sendable (IsSticker line) p q := by
      rcases dispatchSend_named hq with rfl | ⟨e, he, hname, send, args, hs, hargs, hq⟩
      · exact .done
      by_cases hst : e.name = str "sticker"
      · obtain rfl := eq_sticker_of_name he hst
        cases hs
        obtain ⟨c, k, hload, hacts⟩ := acts_stickerSend hq
        refine .trans (.load .done ⟨hhead, hname⟩ hload) (hacts.mono (fun _ _ h => h) False.elim)
      · exact (acts_of_send he hst hs hargs hq).mono (fun _ _ h => h) False.elim
    cases r <;> cases h
    · exact hacts
    · exact hacts.print _
    · exact hacts.print _
  · have hlen : (stripNewline line).length < LINE_SIZE :=
      Nat.lt_of_le_of_lt (isPrefix_stripNewline line).length_le hline
    have hsend : Sendable LMP_MSG (stripNewline line) :=
      ⟨by decide, Nat.lt_trans hlen (by decide), fun _ => nulFree_stripNewline line⟩
    cases h
    split
    · exact .append (.send .done hsend)
    · exact .send .done hsend

/-! ## Frames -/

/-- The answer to a nickname is all that the receiver sends. -/
def Answers (code type : UInt8) (payload : Bytes) : Prop :=
  code = LMP_NICK ∧ type = LMP_ACK ∧ payload = str "nickname ack"

theorem isSuffix_of_peerNickFile {uid : Bytes} (huid : NulFree uid) {name : StrBuf 32}
    (h : peerNickFile uid = .ok name) : str "nick.txt" <:+ cstr name.toStr := by
  have hfree : NulFree (str "peers/" ++ uid ++ str "/nick.txt") :=
    nulFree_append (nulFree_append (by decide) huid) (by decide)
  rw [name.nulFree.cstr_eq, StrBuf.toStr_of_ofStr? (ok_of_orOverflow h), hfree.cstr_eq]
  exact List.suffix_append_of_suffix (by decide)

theorem acts_nickRecv {code : UInt8} {buf : Bytes} {len : Nat}
    (h : nickRecv env code buf len p = .ok (r, p')) : Acts (Answers LMP_NICK) False p p' := by
  obtain ⟨⟨i, p₁⟩, h₁, h⟩ := bind_ok h
  obtain ⟨name, hname, h₁⟩ := bind_ok h₁
  obtain ⟨⟨j, k⟩, hk, h₁⟩ := bind_ok h₁
  cases h₁
  cases h
  have hsuffix := isSuffix_of_peerNickFile (cstr_nulFree _) hname
  have hnick : Acts (Answers LMP_NICK) False p { p with peerNick := .copyStr _ buf } :=
    .user .done rfl rfl
  exact .send (.print (.save hnick hsuffix hk) _) ⟨rfl, rfl, rfl⟩

/-- What a frame does that does not carry a uid. -/
theorem acts_of_recv {e : CommandEntry ChatEnv Chatter Halt} (he : e ∈ initCommands)
    (hne : e.code ≠ LMP_UID) {recv : ChatRecv} (hr : e.recv = some recv) {code : UInt8}
    {buf : Bytes} {len : Nat} (h : recv env code buf len p = .ok (r, p')) :
    Acts (Answers e.code) False p p' := by
  cases isCommand_of_mem he with
  | msg =>
    cases hr
    cases h
    exact .append (.print .done _)
  | nick =>
    cases hr
    exact acts_nickRecv h
  | ack | error =>
    cases hr
    obtain ⟨u, hu, rfl⟩ := liftRecv_ok h
    cases hu
    exact .user .done rfl rfl
  | uid => exact absurd rfl hne
  | sticker =>
    cases hr
    unfold stickerRecv at h
    dsimp only at h
    split at h <;> cases h
    exact .append (.print .done _)
  | grpObj =>
    cases hr
    obtain ⟨u, hu, rfl⟩ := liftRecv_ok h
    obtain ⟨i, line, rfl⟩ := User.grpObjRecv_ok hu
    exact .user .done rfl rfl
  | load =>
    cases hr
    obtain ⟨u, hu, rfl⟩ := liftRecv_ok h
    obtain rfl := User.userGrpLoadMsgRecv_ok hu
    exact .user .done rfl rfl
  | loadingMsg =>
    cases hr
    obtain ⟨u, hu, rfl⟩ := liftRecv_ok h
    obtain ⟨s, line, rfl⟩ := User.userGrpLoadingMsgRecv_ok hu
    exact .user .done rfl rfl
  | hangman =>
    cases hr
    obtain ⟨u, hu, rfl⟩ := liftRecv_ok h
    obtain ⟨out, rfl⟩ := User.userGrpHangmanRecv_ok hu
    exact .user .done rfl rfl
  | meow | grpInfo | initMember => cases hr

theorem receive_ok {f : Frame} {buf : Bytes} (h : p.receive env f buf = .ok p') :
    ∃ res q, dispatchRecv initCommands env f.type (f.received buf).buf (f.received buf).len p =
      .ok (res, q) ∧ p' = if res = .unrecognized then
        q.print (str "[warning]: unrecognized message type 0x" ++ hex02 f.type ++ str "\n")
      else q := by
  obtain ⟨⟨res, q⟩, hq, h⟩ := bind_ok h
  refine ⟨res, q, hq, ?_⟩
  dsimp only at h
  split at h
  · rename_i hres
    cases h
    rw [if_pos hres]
    rfl
  · rename_i hres
    cases h
    rw [if_neg hres]

theorem acts_of_receive {f : Frame} {buf : Bytes} (hf : f.type ≠ LMP_UID)
    (h : p.receive env f buf = .ok p') : Acts (Answers f.type) False p p' := by
  obtain ⟨res, q, hq, rfl⟩ := receive_ok h
  have hacts : Acts (Answers f.type) False p q := by
    rcases dispatchRecv_ok hq with rfl | ⟨e, he, hcode, recv, hr, hq⟩
    · exact .done
    · exact hcode ▸ acts_of_recv he (hcode ▸ hf) hr hq
  split
  · exact hacts.print _
  · exact hacts

/-- A frame with a uid is handled by `uid_recv`. -/
theorem uidRecv_of_receive {f : Frame} {buf : Bytes} (hf : f.type = LMP_UID)
    (h : p.receive env f buf = .ok p') : ∃ r,
      uidRecv env LMP_UID (f.received buf).buf (f.received buf).len p = .ok (r, p') := by
  obtain ⟨res, q, hq, rfl⟩ := receive_ok h
  rw [hf] at hq
  change uidRecv env LMP_UID _ _ p = _ at hq
  obtain ⟨q₁, -, hq'⟩ := bind_ok hq
  obtain ⟨⟨i, q₂⟩, -, hq'⟩ := bind_ok hq'
  have hres : res ≠ .unrecognized := by
    cases hq'
    decide
  rw [if_neg hres]
  exact ⟨res, hq⟩

end Chatter

end SocketSpeak
