import SocketSpeak.Peer.Handshake
import SocketSpeak.Peer.Names

/-!
# The nicknames after a restart

A nickname is written to its file as it is, and read back as one word. `nickname_iff` says which
nicknames are the same in the next session, the user's own and that of a peer.
-/

namespace SocketSpeak
open CLib Sys

namespace Chatter

/-- What is read from the file of a nickname, over one that is read back as it is. -/
theorem scanNick_iff {nick nick' : CharArray NICKNAME_MAX_LEN} {text : Bytes}
    (hfree : NulFree text) (hnick : Unspaced nick.toStr) (h : scanNick nick text = .ok nick')
    (hlen : text.length ≤ 63) : nick'.toStr = text ↔ Unspaced text := by
  unfold scanNick at h
  cases hscan : scanWord 63 text with
  | none =>
    rw [hscan] at h
    cases h
    constructor
    · intro heq
      exact heq ▸ hnick
    · intro htext
      cases hscan.symm.trans (scanWord_of_unspaced htext hlen)
  | some word =>
    rw [hscan] at h
    dsimp only at h
    obtain ⟨hword, hmem⟩ := unspaced_of_scanWord hscan
    split at h
    · cases h
    · rename_i hfits
      cases h
      have hstr : (CharArray.ofBytes NICKNAME_MAX_LEN
          (word ++ 0 :: nick.data.drop (word.length + 1))).toStr = word :=
        CharArray.toStr_ofBytes_nul (fun h0 => hfree (hmem 0 h0)) (Nat.not_le.mp hfits)
      rw [hstr]
      constructor
      · intro heq
        exact heq ▸ hword
      · intro htext
        exact Option.some.inj (hscan.symm.trans (scanWord_of_unspaced htext hlen))

end Chatter

/-! ## Files that can be opened -/

namespace Disk
variable {k k' : Disk} {env : FileEnv} {filename text : Bytes} {file : Option Bytes}

theorem files_of_save {r : Int} (h : k.save env filename text = .ok (r, k')) :
    k'.files = if env.opens (k.directory.shown ++ cstr filename) then
      k.files.set (k.directory.shown ++ cstr filename) text else k.files := by
  obtain ⟨⟨file, k₁⟩, hopen, h⟩ := bind_ok h
  obtain ⟨d, path, -, rfl, hcases⟩ := openFile_cases hopen
  rw [Files.fopen] at hcases
  split
  · rename_i hopens
    rw [if_pos hopens] at hcases
    obtain ⟨h0, -⟩ | ⟨files, hfiles, rfl, rfl⟩ := hcases
    · cases h0
    · cases hfiles
      cases h
      exact Files.fprint_set ..
  · rename_i hopens
    rw [if_neg hopens] at hcases
    obtain ⟨-, rfl, rfl⟩ | ⟨files, h0, -⟩ := hcases
    · cases h
      rfl
    · cases h0

theorem save_ok (henv : ∀ path, env.opens path = true) {r : Int}
    (h : k.save env filename text = .ok (r, k')) :
    k'.files = k.files.set (k.directory.shown ++ cstr filename) text ∧
      k'.directory.shown = k.directory.shown := by
  have hfiles := files_of_save h
  rw [if_pos (henv _)] at hfiles
  exact ⟨hfiles, shown_of_save h⟩

/-- A file that is there is opened, and read. -/
theorem openFile_read (henv : ∀ path, env.opens path = true)
    (hfile : k.files (k.directory.shown ++ cstr filename) = some text)
    (h : k.openFile env filename .read = .ok (file, k')) :
    (file.map fun path => k'.files.content path) = some text ∧ k'.files = k.files ∧
      k'.directory.shown = k.directory.shown := by
  have hfiles := files_of_openFile_read h
  refine ⟨?_, hfiles, (openFile_ok h).1⟩
  obtain ⟨d, path, -, rfl, ⟨hnone, -, -⟩ | ⟨files, -, rfl, -⟩⟩ := openFile_cases h
  · rw [Files.fopen, if_pos ⟨henv _, by rw [hfile]; rfl⟩] at hnone
    cases hnone
  · rw [Option.map_some, Files.content, hfiles, hfile, Option.getD_some]

end Disk

namespace Chatter
variable {p p' : Chatter} {env : ChatEnv} {r : CommandResult} {dir : Bytes}

/-! ## What leaves the nicknames alone -/

/-- What a round changes that neither sets a nickname nor loads one; of the files it is the
history. -/
structure Quiet (p p' : Chatter) : Prop where
  shown : p'.directory.shown = p.directory.shown
  myNick : p'.myNick = p.myNick
  peerNick : p'.peerNick = p.peerNick
  peerUid : p'.peerUid = p.peerUid
  historyPath : p'.historyPath = p.historyPath
  files : ∀ path, path ≠ p.historyPath.toStr → p'.files path = p.files path

theorem Quiet.refl (p : Chatter) : Quiet p p := ⟨rfl, rfl, rfl, rfl, rfl, fun _ _ => rfl⟩

theorem Quiet.trans {q : Chatter} (h : Quiet p q) (h' : Quiet q p') : Quiet p p' where
  shown := h'.shown.trans h.shown
  myNick := h'.myNick.trans h.myNick
  peerNick := h'.peerNick.trans h.peerNick
  peerUid := h'.peerUid.trans h.peerUid
  historyPath := h'.historyPath.trans h.historyPath
  files path hne := (h'.files path (h.historyPath.symm ▸ hne)).trans (h.files path hne)

/-- What happens in the part that the two clients share. -/
theorem quiet_user {u : User} (hnick : u.peerNick = p.peerNick) (huid : u.peerUid = p.peerUid) :
    Quiet p { p with toUser := u } := ⟨rfl, rfl, hnick, huid, rfl, fun _ _ => rfl⟩

theorem quiet_print (p : Chatter) (line : Bytes) : Quiet p (p.print line) := quiet_user rfl rfl

theorem quiet_lmpSend (p : Chatter) (env : ChatEnv) (type : UInt8) (payload : Bytes) :
    Quiet p (p.lmpSend env type payload).2 := by
  unfold lmpSend
  split
  · exact quiet_user rfl rfl
  · exact .refl p

theorem quiet_historyAppend (p : Chatter) (env : ChatEnv) (speaker message : Bytes) :
    Quiet p (p.historyAppend env speaker message).2 := by
  unfold historyAppend
  split
  · exact .refl p
  split
  · exact .refl p
  · rename_i files hfiles
    refine ⟨rfl, rfl, rfl, rfl, rfl, fun path hne => ?_⟩
    exact (Files.fprint_of_ne hne).trans (Files.fopen_append_of_ne hfiles hne)

theorem quiet_sendCommand {u u' : User} (hu : Quiet p { p with toUser := u }) {env : UserEnv}
    {type : UInt8} {payload : Bytes} (h : u.sendCommand env type payload = (r, u')) :
    Quiet p { p with toUser := u' } := by
  have hsame : u'.peerNick = u.peerNick ∧ u'.peerUid = u.peerUid := by
    obtain rfl : _ = u' := congrArg Prod.snd h
    unfold User.sendCommand User.lmpSend
    cases env.sendOk <;> exact ⟨rfl, rfl⟩
  exact quiet_user (hsame.1.trans hu.peerNick) (hsame.2.trans hu.peerUid)

theorem quiet_of_send {e : CommandEntry ChatEnv Chatter Halt} (he : e ∈ initCommands)
    (hsticker : e.name ≠ str "sticker") (hnick : e.name ≠ str "nick") {send : ChatSend}
    (hs : e.send = some send) {args : Bytes} (h : send env e.code args p = .ok (r, p')) :
    Quiet p p' := by
  cases isCommand_of_mem he with
  | msg =>
    cases hs
    unfold msgSend at h
    dsimp only at h
    split at h <;> cases h
    · exact quiet_lmpSend ..
    · exact (quiet_lmpSend ..).trans (quiet_historyAppend ..)
  | nick => exact absurd rfl hnick
  | meow =>
    cases hs
    obtain ⟨u, hu, rfl⟩ := liftSend_ok h
    cases hu
    exact quiet_user rfl rfl
  | sticker => exact absurd rfl hsticker
  | grpObj =>
    cases hs
    obtain ⟨u, hu, rfl⟩ := liftSend_ok h
    exact quiet_sendCommand (.refl p) (Except.ok.inj hu)
  | grpInfo =>
    cases hs
    obtain ⟨u, hu, rfl⟩ := liftSend_ok h
    obtain ⟨-, line, rfl⟩ := User.grpInfoSend_ok hu
    exact quiet_user rfl rfl
  | load =>
    cases hs
    obtain ⟨u, hu, rfl⟩ := liftSend_ok h
    obtain ⟨-, -, line, rfl⟩ | ⟨-, out, hu⟩ := User.userGrpLoadMsgSend_ok hu
    · exact quiet_user rfl rfl
    · refine quiet_sendCommand ?_ hu
      exact quiet_user rfl rfl
  | hangman =>
    cases hs
    obtain ⟨u, hu, rfl⟩ := liftSend_ok h
    obtain hu | ⟨-, line, rfl⟩ := User.userGrpHangmanSend_ok hu
    · exact quiet_sendCommand (.refl p) hu
    · exact quiet_user rfl rfl
  | ack | error | uid | initMember | loadingMsg => cases hs

/-- The line is the command `/nick`. -/
def IsNick (line : Bytes) : Prop :=
  (stripNewline line).head? = some 0x2F ∧
    commandName ((stripNewline line).drop 1) = some (str "nick")

instance (line : Bytes) : Decidable (IsNick line) := inferInstanceAs (Decidable (_ ∧ _))

theorem quiet_of_typed {line : Bytes} (hsticker : ¬ IsSticker line) (hnick : ¬ IsNick line)
    (h : p.typed env line = .ok p') : Quiet p p' := by
  unfold typed at h
  dsimp only at h
  split at h
  · rename_i hhead
    obtain ⟨⟨r, q⟩, hq, h⟩ := bind_ok h
    have hquiet : Quiet p q := by
      rcases dispatchSend_named hq with rfl | ⟨e, he, hname, send, args, hs, -, hq⟩
      · exact .refl _
      · refine quiet_of_send he (fun hst => ?_) (fun hni => ?_) hs hq
        · exact hsticker ⟨hhead, hst ▸ hname⟩
        · exact hnick ⟨hhead, hni ▸ hname⟩
    cases r <;> cases h
    · exact hquiet
    · exact hquiet.trans (quiet_print ..)
    · exact hquiet.trans (quiet_print ..)
  · cases h
    split
    · exact (quiet_lmpSend ..).trans (quiet_historyAppend ..)
    · exact quiet_lmpSend ..

theorem quiet_of_recv {e : CommandEntry ChatEnv Chatter Halt} (he : e ∈ initCommands)
    (huid : e.code ≠ LMP_UID) (hnick : e.code ≠ LMP_NICK) {recv : ChatRecv}
    (hr : e.recv = some recv) {code : UInt8} {buf : Bytes} {len : Nat}
    (h : recv env code buf len p = .ok (r, p')) : Quiet p p' := by
  cases isCommand_of_mem he with
  | msg =>
    cases hr
    cases h
    exact (quiet_print ..).trans (quiet_historyAppend ..)
  | nick => exact absurd rfl hnick
  | ack | error =>
    cases hr
    obtain ⟨u, hu, rfl⟩ := liftRecv_ok h
    cases hu
    exact quiet_user rfl rfl
  | uid => exact absurd rfl huid
  | sticker =>
    cases hr
    unfold stickerRecv at h
    dsimp only at h
    split at h <;> cases h
    exact (quiet_print ..).trans (quiet_historyAppend ..)
  | grpObj =>
    cases hr
    obtain ⟨u, hu, rfl⟩ := liftRecv_ok h
    obtain ⟨i, line, rfl⟩ := User.grpObjRecv_ok hu
    exact quiet_user rfl rfl
  | load =>
    cases hr
    obtain ⟨u, hu, rfl⟩ := liftRecv_ok h
    obtain rfl := User.userGrpLoadMsgRecv_ok hu
    exact quiet_user rfl rfl
  | loadingMsg =>
    cases hr
    obtain ⟨u, hu, rfl⟩ := liftRecv_ok h
    obtain ⟨s, line, rfl⟩ := User.userGrpLoadingMsgRecv_ok hu
    exact quiet_user rfl rfl
  | hangman =>
    cases hr
    obtain ⟨u, hu, rfl⟩ := liftRecv_ok h
    obtain ⟨out, rfl⟩ := User.userGrpHangmanRecv_ok hu
    exact quiet_user rfl rfl
  | meow | grpInfo | initMember => cases hr

theorem quiet_of_receive {f : Frame} {buf : Bytes} (huid : f.type ≠ LMP_UID)
    (hnick : f.type ≠ LMP_NICK) (h : p.receive env f buf = .ok p') : Quiet p p' := by
  obtain ⟨res, q, hq, rfl⟩ := receive_ok h
  have hquiet : Quiet p q := by
    rcases dispatchRecv_ok hq with rfl | ⟨e, he, hcode, recv, hr, hq⟩
    · exact .refl _
    · exact quiet_of_recv he (hcode ▸ huid) (hcode ▸ hnick) hr hq
  split
  · exact hquiet.trans (quiet_print ..)
  · exact hquiet

/-- A line that is typed or a frame that is received, and that sets no nickname. -/
def QuietOp (_ : Chatter) : ClientOp → Prop
  | .typed _ stdin => ∀ line ∈ readLine stdin, ¬ IsSticker line ∧ ¬ IsNick line
  | .received _ f _ => f.type ≠ LMP_UID ∧ f.type ≠ LMP_NICK
  | _ => False

instance (p : Chatter) : (op : ClientOp) → Decidable (p.QuietOp op)
  | .typed _ stdin => inferInstanceAs (Decidable (∀ line ∈ readLine stdin, _))
  | .received .. => inferInstanceAs (Decidable (_ ∧ _))
  | .getUserDirectory _ | .openFile .. | .chat .. => .isFalse id

theorem quiet_of_run {ops : List ClientOp} (hops : Meets perform QuietOp p ops)
    (h : exec perform p ops = .ok p') : Quiet p p' := by
  refine exec_invariant (I := fun q => Quiet p q) ?_ (.refl p) hops h
  intro q op q' hq hop hstep
  cases op with
  | typed env stdin =>
    rw [perform] at hstep
    split at hstep
    · cases hstep
      exact hq
    · rename_i line hline
      obtain ⟨hsticker, hnick⟩ := hop line hline
      exact hq.trans (quiet_of_typed hsticker hnick hstep)
  | received env f buf => exact hq.trans (quiet_of_receive hop.1 hop.2 hstep)
  | getUserDirectory | openFile | chat => exact hop.elim

/-! ## Sessions -/

/-- A process of the user in which the user directory has not been moved. -/
def InSession (home username : Option Bytes) (p : Chatter) : Prop :=
  ∃ files p₀ ops, main home username files = .ok p₀ ∧
    Meets perform (fun p op => ¬ p.FirstSticker op) p₀ ops ∧ exec perform p₀ ops = .ok p

/-- The next session of the user, with the files that `p` has left; they can be opened. -/
def Restarts (home username : Option Bytes) (p p' : Chatter) : Prop :=
  ∃ p₀ env rand, main home username p.files = .ok p₀ ∧ (∀ path, env.opens path = true) ∧
    p₀.chatLoop env rand = .ok p'

/-- Where the files of a process lie whose user directory is `dir`. -/
structure Placed (dir : Bytes) (p : Chatter) : Prop where
  shown : p.directory.shown = dir
  history : p.historyPath.toStr = [] ∨ str "history.txt" <:+ p.historyPath.toStr

theorem Placed.quiet (h : Placed dir p) (hq : Quiet p p') : Placed dir p' :=
  ⟨hq.shown.trans h.shown, hq.historyPath.symm ▸ h.history⟩

/-- The file with a nickname is not the history. -/
theorem Placed.ne_history (h : Placed dir p) {path : Bytes} (hpath : str "nick.txt" <:+ path) :
    path ≠ p.historyPath.toStr := by
  rintro rfl
  rcases h.history with hnil | hsuffix
  · rw [hnil] at hpath
    exact absurd hpath (by decide)
  · rcases List.suffix_or_suffix_of_suffix hpath hsuffix with h | h
    · exact absurd h (by decide)
    · exact absurd h (by decide)

theorem history_of_prepare (h : p.historyPrepare env = .ok p') :
    p'.historyPath.toStr = [] ∨ str "history.txt" <:+ p'.historyPath.toStr := by
  by_cases huid : p.peerUid.toStr = []
  · unfold historyPrepare at h
    dsimp only at h
    rw [if_pos huid] at h
    cases h
    exact .inl rfl
  · obtain ⟨d, peerDir, historyPath, rfl, -, hpath⟩ := historyPrepare_ok h
    refine .inr ?_
    rw [hpath huid]
    exact List.suffix_append_of_suffix (by decide)

theorem history_of_perform {op : ClientOp} (h : p.perform op = .ok p')
    (hp : p.historyPath.toStr = [] ∨ str "history.txt" <:+ p.historyPath.toStr) :
    p'.historyPath.toStr = [] ∨ str "history.txt" <:+ p'.historyPath.toStr := by
  cases op with
  | getUserDirectory env =>
    obtain ⟨d, -, h⟩ := bind_ok h
    cases h
    exact hp
  | openFile env filename mode =>
    obtain ⟨⟨file, k⟩, -, h⟩ := bind_ok h
    cases h
    exact hp
  | chat env rand =>
    obtain ⟨⟨file, k⟩, -, h⟩ := bind_ok h
    obtain ⟨nick, -, h⟩ := bind_ok h
    obtain ⟨⟨uid, k'⟩, -, h⟩ := bind_ok h
    cases h
    exact .inl rfl
  | typed env stdin =>
    rw [perform] at h
    split at h
    · cases h
      exact hp
    · rename_i line hline
      have hacts := acts_of_typed (length_lt_of_readLine hline) h
      rw [hacts.keeps.historyPath]
      exact hp
  | received env f buf =>
    by_cases hf : f.type = LMP_UID
    · obtain ⟨r, h⟩ := uidRecv_of_receive hf h
      obtain ⟨peerUid, q, k, nick, stdout, -, hq, -, -, rfl⟩ := uidRecv_ok h
      have hhistory := history_of_prepare hq
      exact hhistory
    · rw [(acts_of_receive hf h).keeps.historyPath]
      exact hp

theorem placed_of_session {home username : Option Bytes} (h : InSession home username p) :
    Placed (userDir home username) p := by
  obtain ⟨files, p₀, ops, h₀, hops, h⟩ := h
  obtain ⟨hdirectory, hstickers⟩ := main_ok h₀
  have hhistory : p₀.historyPath.toStr = [] := by
    obtain ⟨d, -, h₀⟩ := bind_ok h₀
    cases h₀
    rfl
  have hend := exec_invariant (I := fun p : Chatter =>
      DirectoryIs (userDir home username) p.stickers p.toDisk ∧
        p.stickers.historyLoaded = false ∧
        (p.historyPath.toStr = [] ∨ str "history.txt" <:+ p.historyPath.toStr))
    (fun p op p' hI hno h => by
      obtain ⟨hd, hkeep⟩ := directoryIs_of_perform h hI.1
      exact ⟨hd, hkeep hno hI.2.1, history_of_perform h hI.2.2⟩)
    ⟨by
      rw [DirectoryIs, hstickers]
      exact Directory.shown_of_flagHandler hdirectory, by rw [hstickers]; rfl, .inl hhistory⟩
    hops h
  obtain ⟨hd, hunloaded, hhistory⟩ := hend
  rw [DirectoryIs, hunloaded] at hd
  exact ⟨hd, hhistory⟩

theorem files_of_getUid {k k' : Disk} {env : FileEnv} {rand : Nat}
    {uid : CharArray (UID_LENGTH + 1)} (henv : ∀ path, env.opens path = true)
    (h : getUid k env rand = .ok (uid, k')) {path : Bytes} (hpath : ¬ str "uid.txt" <:+ path) :
    k'.files path = k.files path := by
  obtain ⟨⟨file, k₁⟩, hopen, h⟩ := bind_ok h
  have hfiles := Disk.files_of_openFile_read hopen
  dsimp only at h
  split at h
  · cases h
    exact congrFun hfiles path
  · obtain ⟨⟨r, k₂⟩, hsave, h⟩ := bind_ok h
    dsimp only at h
    split at h
    · cases h
    · cases h
      rw [(Disk.save_ok henv hsave).1, ← hfiles]
      refine Files.set_of_ne ?_
      rintro rfl
      exact hpath (List.suffix_append_of_suffix (by decide))

/-- What `chat_loop` starts with. -/
theorem chatLoop_reads {rand : Nat} (henv : ∀ path, env.opens path = true)
    (h : p.chatLoop env rand = .ok p') : Placed p.directory.shown p' ∧
      p'.peerNick = .copyStr _ (str "Peer") ∧
      (∀ path, ¬ str "uid.txt" <:+ path → p'.files path = p.files path) ∧
      ∀ text, p.files (p.directory.shown ++ str "nick.txt") = some text →
        scanNick (.copyStr _ (str "You")) text = .ok p'.myNick := by
  obtain ⟨⟨file, k⟩, hopen, h⟩ := bind_ok h
  obtain ⟨nick, hnick, h⟩ := bind_ok h
  obtain ⟨⟨uid, k'⟩, huid, h⟩ := bind_ok h
  cases h
  have hfiles := Disk.files_of_openFile_read hopen
  have hshown := (shown_of_getUid huid).trans (Disk.openFile_ok hopen).1
  refine ⟨⟨hshown, .inl rfl⟩, rfl, fun path hpath => ?_, fun text htext => ?_⟩
  · exact (files_of_getUid henv huid hpath).trans (congrFun hfiles path)
  · have hread := (Disk.openFile_read henv htext hopen).1
    rw [hread] at hnick
    exact hnick

/-! ## Setting a nickname and loading it -/

/-- What there is after `/nick`. -/
theorem nickSend_ok (henv : ∀ path, env.opens path = true) {code : UInt8} {args : Bytes}
    (h : nickSend env code args p = .ok (r, p')) (hp : Placed dir p) : Placed dir p' ∧
      p'.myNick = .copyStr _ args ∧
      p'.files (dir ++ str "nick.txt") = some p'.myNick.toStr := by
  obtain ⟨⟨i, p₁⟩, h₁, h⟩ := bind_ok h
  obtain ⟨⟨j, k⟩, hk, h₁⟩ := bind_ok h₁
  cases h₁
  obtain ⟨hfiles, hshown⟩ := Disk.save_ok henv hk
  let q : Chatter := { p with myNick := .copyStr _ args, toDisk := k }
  have hplaced : Placed dir q := ⟨hshown.trans hp.shown, hp.history⟩
  have hfile : q.files (dir ++ str "nick.txt") = some q.myNick.toStr := by
    have hset : q.files = p.files.set (dir ++ str "nick.txt") q.myNick.toStr := by
      rw [← hp.shown]
      exact hfiles
    rw [hset]
    exact Files.set_self ..
  have hquiet : Quiet q p' := by
    have hp' : (q.lmpSend env code args).2 = p' := congrArg Prod.snd (Except.ok.inj h)
    exact hp' ▸ quiet_lmpSend q env code args
  refine ⟨hplaced.quiet hquiet, hquiet.myNick, ?_⟩
  rw [hquiet.files _ (hplaced.ne_history (List.suffix_append _ _)), hquiet.myNick]
  exact hfile

/-- A frame with a nickname is handled by `nick_recv`. -/
theorem nickRecv_of_receive {f : Frame} {buf : Bytes} (hf : f.type = LMP_NICK)
    (h : p.receive env f buf = .ok p') : ∃ r,
      nickRecv env LMP_NICK (f.received buf).buf (f.received buf).len p = .ok (r, p') := by
  obtain ⟨res, q, hq, rfl⟩ := receive_ok h
  rw [hf] at hq
  change nickRecv env LMP_NICK (f.received buf).buf (f.received buf).len p = _ at hq
  have hres : res ≠ .unrecognized := by
    obtain ⟨⟨i, p₁⟩, -, hq⟩ := bind_ok hq
    have hcode := congrArg Prod.fst (Except.ok.inj hq)
    dsimp only at hcode
    rw [← hcode]
    split <;> decide
  rw [if_neg hres]
  exact ⟨res, hq⟩

/-- The file with the nickname of a peer, in the user directory `dir`. -/
def peerNickPath (dir uid : Bytes) : Bytes := dir ++ str "peers/" ++ uid ++ str "/nick.txt"

theorem toStr_peerNickFile {uid : Bytes} (huid : NulFree uid) {name : StrBuf 32}
    (h : peerNickFile uid = .ok name) : name.toStr = str "peers/" ++ uid ++ str "/nick.txt" := by
  have hfree : NulFree (str "peers/" ++ uid ++ str "/nick.txt") :=
    nulFree_append (nulFree_append (by decide) huid) (by decide)
  rw [StrBuf.toStr_of_ofStr? (ok_of_orOverflow h), hfree.cstr_eq]

theorem path_peerNickFile {uid : Bytes} (huid : NulFree uid) {name : StrBuf 32}
    (h : peerNickFile uid = .ok name) (dir : Bytes) :
    dir ++ cstr name.toStr = peerNickPath dir uid := by
  rw [name.nulFree.cstr_eq, toStr_peerNickFile huid h, peerNickPath, ← List.append_assoc,
    ← List.append_assoc]

theorem suffix_peerNickPath (dir uid : Bytes) : str "nick.txt" <:+ peerNickPath dir uid :=
  List.suffix_append_of_suffix (by decide)

/-- What there is after the peer has said its nickname. -/
theorem nickRecv_ok (henv : ∀ path, env.opens path = true) {code : UInt8} {buf : Bytes} {len : Nat}
    (h : nickRecv env code buf len p = .ok (r, p')) (hp : Placed dir p) : Placed dir p' ∧
      p'.peerNick = .copyStr _ buf ∧
      p'.files (peerNickPath dir p'.peerUid.toStr) = some p'.peerNick.toStr := by
  obtain ⟨⟨i, p₁⟩, h₁, h⟩ := bind_ok h
  obtain ⟨name, hname, h₁⟩ := bind_ok h₁
  obtain ⟨⟨j, k⟩, hk, h₁⟩ := bind_ok h₁
  cases h₁
  obtain ⟨hfiles, hshown⟩ := Disk.save_ok henv hk
  rw [path_peerNickFile (cstr_nulFree _) hname] at hfiles
  let q : Chatter := { p with peerNick := .copyStr _ buf, toDisk := k }
  have hplaced : Placed dir q := ⟨hshown.trans hp.shown, hp.history⟩
  have hfile : q.files (peerNickPath dir q.peerUid.toStr) = some q.peerNick.toStr := by
    have hset : q.files = p.files.set (peerNickPath dir p.peerUid.toStr) q.peerNick.toStr := by
      rw [← hp.shown]
      exact hfiles
    rw [hset]
    exact Files.set_self ..
  have hquiet : Quiet q p' := by
    let line := str "*** Peer is now known as: " ++ q.peerNick.toStr ++ str "\n"
    have hp' : ((q.print line).lmpSend env LMP_ACK (str "nickname ack")).2 = p' :=
      congrArg Prod.snd (Except.ok.inj h)
    exact hp' ▸ (quiet_print q line).trans (quiet_lmpSend ..)
  refine ⟨hplaced.quiet hquiet, hquiet.peerNick, ?_⟩
  rw [hquiet.files _ (hplaced.ne_history (suffix_peerNickPath ..)), hquiet.peerNick,
    hquiet.peerUid]
  exact hfile

/-- The nickname that is loaded when a peer sends its uid. -/
theorem peerNick_of_uid (henv : ∀ path, env.opens path = true) {f : Frame} {buf : Bytes}
    (hf : f.type = LMP_UID) (h : p.receive env f buf = .ok p') (hp : p.directory.shown = dir)
    {text : Bytes}
    (hfile : p.files (peerNickPath dir (cstr (f.payload.take 8))) = some text) :
    scanNick p.peerNick text = .ok p'.peerNick := by
  obtain ⟨r, h⟩ := uidRecv_of_receive hf h
  change uidRecv env LMP_UID (f.received buf).received.buf (f.received buf).received.len p = _ at h
  rw [uidRecv_eq] at h
  obtain ⟨q, hq, h⟩ := bind_ok h
  obtain ⟨⟨i, q'⟩, hload, hend⟩ := bind_ok h
  obtain ⟨d, peerDir, historyPath, rfl, hshown, -⟩ := historyPrepare_ok hq
  have hshown : d.shown = dir := hshown.trans hp
  obtain ⟨name, hname, hload⟩ := bind_ok hload
  obtain ⟨⟨file, k⟩, hopen, hload⟩ := bind_ok hload
  have hpath : d.shown ++ cstr name.toStr = peerNickPath dir (cstr (f.payload.take 8)) := by
    rw [path_peerNickFile (cstr_nulFree _) hname, hshown]
    exact congrArg (peerNickPath dir) (p.peerUid_takeUid f buf)
  have hread := (Disk.openFile_read (k := ⟨d, p.files⟩) henv (hpath ▸ hfile) hopen).1
  have hnick : q'.peerNick = p'.peerNick := by
    dsimp only at hend
    split at hend
    · cases hend
      rfl
    · obtain ⟨stdout, hstdout⟩ := historyLoad_eq q' env
      rw [hstdout] at hend
      cases hend
      rfl
  cases file with
  | none => cases hread
  | some path =>
    obtain ⟨nick, hscan, hload⟩ := bind_ok hload
    cases hload
    rw [Option.map_some, Option.some.injEq] at hread
    rw [← hnick, ← hread]
    exact hscan

/-- What the array keeps of a nickname is one word. -/
def Storable (nick : Bytes) : Prop := Unspaced ((cstr nick).take (NICKNAME_MAX_LEN - 1))

instance (nick : Bytes) : Decidable (Storable nick) := inferInstanceAs (Decidable (Unspaced _))

theorem scanNick_copyStr_iff {nick : Bytes} {start nick' : CharArray NICKNAME_MAX_LEN}
    (hstart : Unspaced start.toStr)
    (h : scanNick start (CharArray.copyStr NICKNAME_MAX_LEN nick).toStr = .ok nick') :
    nick'.toStr = (CharArray.copyStr NICKNAME_MAX_LEN nick).toStr ↔ Storable nick := by
  have hstr := CharArray.toStr_copyStr (n := NICKNAME_MAX_LEN) (by decide) nick
  rw [hstr] at h ⊢
  refine scanNick_iff ((cstr_nulFree nick).take _) hstart h ?_
  exact Nat.le_trans (List.length_take_le _ _) (by decide)

section
variable {home username : Option Bytes} {q x : Chatter} {tail : List ClientOp}

/-- The next session begins where the last one has ended. -/
theorem restart_ok (h : Restarts home username q x) :
    Placed (userDir home username) x ∧ x.peerNick = .copyStr _ (str "Peer") ∧
      (∀ path, ¬ str "uid.txt" <:+ path → x.files path = q.files path) ∧
      ∀ text, q.files (userDir home username ++ str "nick.txt") = some text →
        scanNick (.copyStr _ (str "You")) text = .ok x.myNick := by
  obtain ⟨p₀, env, rand, h₀, henv, h⟩ := h
  obtain ⟨d, hd, h₀⟩ := bind_ok h₀
  cases h₀
  have hshown : d.shown = userDir home username := Directory.shown_of_flagHandler hd
  have hchat := chatLoop_reads henv h
  dsimp only at hchat
  rw [hshown] at hchat
  exact hchat

/-- The user's nickname, when nothing else has set one. -/
theorem myNick_of_restart (hp : Placed (userDir home username) p)
    (henv : ∀ path, env.opens path = true) {code : UInt8} {args : Bytes}
    (hnick : nickSend env code args p = .ok (r, p')) (htail : Meets perform QuietOp p' tail)
    (hq : exec perform p' tail = .ok q) (hx : Restarts home username q x) :
    x.myNick.toStr = q.myNick.toStr ↔ Storable args := by
  obtain ⟨hp', hmine, hfile⟩ := nickSend_ok henv hnick hp
  have hquiet := quiet_of_run htail hq
  rw [← hquiet.files _ (hp'.ne_history (List.suffix_append _ _))] at hfile
  have hscan := (restart_ok hx).2.2.2 _ hfile
  rw [hmine] at hscan
  rw [hquiet.myNick, hmine]
  exact scanNick_copyStr_iff (by decide +kernel) hscan

/-- The nickname of a peer. -/
theorem peerNick_of_restart (hp : Placed (userDir home username) p)
    (henv : ∀ path, env.opens path = true) {code : UInt8} {buf : Bytes} {len : Nat}
    (hnick : nickRecv env code buf len p = .ok (r, p')) (htail : Meets perform QuietOp p' tail)
    (hq : exec perform p' tail = .ok q) (hx : Restarts home username q x)
    {tail' : List ClientOp} {x' y : Chatter} (htail' : Meets perform QuietOp x tail')
    (hx' : exec perform x tail' = .ok x') {env' : ChatEnv}
    (henv' : ∀ path, env'.opens path = true) {f : Frame} {buf' : Bytes} (hf : f.type = LMP_UID)
    (huid : cstr (f.payload.take 8) = q.peerUid.toStr)
    (hy : x'.receive env' f buf' = .ok y) : y.peerNick.toStr = q.peerNick.toStr ↔ Storable buf := by
  obtain ⟨hp', hpeer, hfile⟩ := nickRecv_ok henv hnick hp
  have hquiet := quiet_of_run htail hq
  obtain ⟨hx₀, hstart, hfiles, -⟩ := restart_ok hx
  have hquiet' := quiet_of_run htail' hx'
  have hnot : ¬ str "uid.txt" <:+ peerNickPath (userDir home username) p'.peerUid.toStr := by
    intro h
    rcases List.suffix_or_suffix_of_suffix h (suffix_peerNickPath _ _) with h | h
    · exact absurd h (by decide)
    · exact absurd h (by decide)
  have hsuffix := suffix_peerNickPath (userDir home username) p'.peerUid.toStr
  rw [← hquiet.files _ (hp'.ne_history hsuffix), ← hfiles _ hnot,
    ← hquiet'.files _ (hx₀.ne_history hsuffix), ← hquiet.peerUid, ← huid] at hfile
  have hscan := peerNick_of_uid henv' hf hy (hx₀.quiet hquiet').shown hfile
  rw [hquiet'.peerNick, hstart, hpeer] at hscan
  rw [hquiet.peerNick, hpeer]
  exact scanNick_copyStr_iff (by decide +kernel) hscan

end

/-- A nickname is the same after a restart if and only if what the array keeps of it is one word.
This goes for the user's own and for the one of a peer. -/
theorem nickname_iff {home username : Option Bytes} (hp : InSession home username p)
    (henv : ∀ path, env.opens path = true) :
    (∀ {args r p' tail q x}, nickSend env LMP_NICK args p = .ok (r, p') →
      Meets perform QuietOp p' tail → exec perform p' tail = .ok q →
        Restarts home username q x → (x.myNick.toStr = q.myNick.toStr ↔ Storable args)) ∧
    ∀ {f : Frame} {buf : Bytes} {p' : Chatter} {tail q x}, f.type = LMP_NICK →
      p.receive env f buf = .ok p' → Meets perform QuietOp p' tail → exec perform p' tail = .ok q →
        Restarts home username q x → ∀ {tail' x'}, Meets perform QuietOp x tail' →
          exec perform x tail' = .ok x' → ∀ {env' : ChatEnv} {g : Frame} {buf' y},
            (∀ path, env'.opens path = true) → g.type = LMP_UID →
              cstr (g.payload.take 8) = q.peerUid.toStr → x'.receive env' g buf' = .ok y →
                (y.peerNick.toStr = q.peerNick.toStr ↔ Storable f.payload) := by
  have hplaced := placed_of_session hp
  constructor
  · intro args r p' tail q x hnick htail hq hx
    exact myNick_of_restart hplaced henv hnick htail hq hx
  · intro f buf p' tail q x hf h htail hq hx tail' x' htail' hx' env' g buf' y henv' hg huid hy
    obtain ⟨r, hnick⟩ := nickRecv_of_receive hf h
    have hiff := peerNick_of_restart hplaced henv hnick htail hq hx htail' hx' henv' hg huid hy
    have hcstr : cstr (f.received buf).buf = cstr f.payload := cstr_received f buf
    rw [Storable, hcstr] at hiff
    exact hiff

theorem nickname_iff_ann : ∃ p r p' x, InSession (str "/home/ann") none p ∧
    nickSend .allOk LMP_NICK (str "ann") p = .ok (r, p') ∧ Restarts (str "/home/ann") none p' x ∧
      x.myNick.toStr = p'.myNick.toStr := by
  obtain ⟨p₀, h₀, hok, hrun⟩ := exists_ok (x := main (str "/home/ann") none fun _ => none)
    (P := fun p₀ => (exec perform p₀ [.chat .allOk 7]).isOk ∧
      ∀ p ∈ (exec perform p₀ [.chat .allOk 7]).toOption,
        (nickSend .allOk LMP_NICK (str "ann") p).isOk ∧
          ∀ y ∈ (nickSend .allOk LMP_NICK (str "ann") p).toOption,
            (main (str "/home/ann") none y.2.files).isOk ∧
              ∀ q ∈ (main (str "/home/ann") none y.2.files).toOption, (q.chatLoop .allOk 7).isOk)
    rfl (by decide +kernel)
  obtain ⟨p, hp, hok, hrun⟩ := exists_ok hok hrun
  obtain ⟨⟨r, p'⟩, hnick, hok, hrun⟩ := exists_ok hok hrun
  obtain ⟨q₀, hq₀, hok⟩ := exists_ok hok hrun
  obtain ⟨x, hx, -⟩ := exists_ok (P := fun _ => True) hok fun _ _ => trivial
  have hsession : InSession (str "/home/ann") none p :=
    ⟨_, p₀, [.chat .allOk 7], h₀, ⟨nofun, by split <;> trivial⟩, hp⟩
  have hrestart : Restarts (str "/home/ann") none p' x := ⟨q₀, .allOk, 7, hq₀, fun _ => rfl, hx⟩
  have hiff := (nickname_iff hsession fun _ => rfl).1 hnick
    (show Meets perform QuietOp p' [] from trivial) (show exec perform p' [] = .ok p' from rfl)
    hrestart
  exact ⟨p, r, p', x, hsession, hnick, hrestart, hiff.mpr (by decide +kernel)⟩

/-- A nickname of two words. -/
theorem nickname_cut : ∃ p r p' x, InSession (str "/home/ann") none p ∧
    nickSend .allOk LMP_NICK (str "mary ann") p = .ok (r, p') ∧
      Restarts (str "/home/ann") none p' x ∧ p'.myNick.toStr = str "mary ann" ∧
        x.myNick.toStr = str "mary" := by
  obtain ⟨p₀, h₀, hok, hrun⟩ := exists_ok (x := main (str "/home/ann") none fun _ => none)
    (P := fun p₀ => (exec perform p₀ [.chat .allOk 7]).isOk ∧
      ∀ p ∈ (exec perform p₀ [.chat .allOk 7]).toOption,
        (nickSend .allOk LMP_NICK (str "mary ann") p).isOk ∧
          ∀ y ∈ (nickSend .allOk LMP_NICK (str "mary ann") p).toOption,
            (main (str "/home/ann") none y.2.files).isOk ∧
              ∀ q ∈ (main (str "/home/ann") none y.2.files).toOption,
                (q.chatLoop .allOk 7).isOk ∧ ∀ x ∈ (q.chatLoop .allOk 7).toOption,
                  y.2.myNick.toStr = str "mary ann" ∧ x.myNick.toStr = str "mary")
    rfl (by decide +kernel)
  obtain ⟨p, hp, hok, hrun⟩ := exists_ok hok hrun
  obtain ⟨⟨r, p'⟩, hnick, hok, hrun⟩ := exists_ok hok hrun
  obtain ⟨q₀, hq₀, hok, hrun⟩ := exists_ok hok hrun
  obtain ⟨x, hx, hsession, hnext⟩ := exists_ok hok hrun
  exact ⟨p, r, p', x, ⟨_, p₀, [.chat .allOk 7], h₀, ⟨nofun, by split <;> trivial⟩, hp⟩, hnick,
    ⟨q₀, .allOk, 7, hq₀, fun _ => rfl, hx⟩, hsession, hnext⟩

end Chatter

end SocketSpeak
