import SocketSpeak.Peer.Deeds

/-!
# The history of all sessions

A user chats, with one peer after another, and each time starts the program anew. What is appended
to the history with a peer in one session is there in all later ones (`Archived`), and it is printed
when the peer comes back (`replayed_of_run`).
-/

namespace SocketSpeak
open CLib Sys

/-- A line of the history. -/
structure Entry where
  speaker : Bytes
  message : Bytes

def Entry.line (e : Entry) : Bytes := chatLine e.speaker e.message

namespace Chatter
variable {p p' q : Chatter} {env : ChatEnv} {r : CommandResult} {code : UInt8} {dir : Bytes}

/-! ## What is appended -/

/-- The file is a history. -/
def IsHistory (path : Bytes) : Prop := str "history.txt" <:+ path

/-- Of the histories, only the one with the peer changes: `es` is appended to it. -/
structure Records (p p' : Chatter) (es : List Entry) : Prop where
  content : ∀ path, IsHistory path → p'.files.content path = p.files.content path ++
    if path = p.historyPath.toStr then es.flatMap Entry.line else []
  speaker : ∀ e ∈ es, (e.speaker = p.myNick.toStr ∨ e.speaker = p.peerNick.toStr) ∧
    NulFree e.message

theorem records_none (h : ∀ path, IsHistory path → p'.files.content path = p.files.content path) :
    Records p p' [] := by
  refine ⟨fun path hpath => ?_, fun _ he => by cases he⟩
  rw [h path hpath, List.flatMap_nil, ite_self, List.append_nil]

theorem Records.append {es es' : List Entry} (h : Records p q es) (h' : Records q p' es')
    (hmine : q.myNick = p.myNick) (hpeer : q.peerNick = p.peerNick)
    (hpath : q.historyPath = p.historyPath) : Records p p' (es ++ es') := by
  refine ⟨fun path hp => ?_, List.forall_mem_append.mpr ⟨h.speaker, fun e he => ?_⟩⟩
  · rw [h'.content path hp, h.content path hp, hpath, List.append_assoc, List.flatMap_append]
    split <;> rfl
  · rw [← hmine, ← hpeer]
    exact h'.speaker e he

theorem records_historyAppend (p : Chatter) (env : ChatEnv) {speaker message : Bytes}
    (hspeaker : speaker = p.myNick.toStr ∨ speaker = p.peerNick.toStr) (hfree : NulFree message) :
    ∃ es, Records p (p.historyAppend env speaker message).2 es := by
  unfold historyAppend
  split
  · exact ⟨[], records_none fun _ _ => rfl⟩
  split
  · exact ⟨[], records_none fun _ _ => rfl⟩
  · rename_i files hfiles
    refine ⟨[⟨speaker, message⟩], fun path _ => ?_, List.forall_mem_singleton.mpr ⟨hspeaker, hfree⟩⟩
    dsimp only
    split
    · rename_i heq
      rw [heq, Files.content_fprint, Files.content_of_fopen_append hfiles, List.flatMap_singleton]
      rfl
    · rename_i hne
      rw [Files.content_fprint_of_ne hne, Files.content_of_fopen_append hfiles, List.append_nil]

/-- The catalogue of stickers is no history. -/
theorem content_of_createSticker {c c' : Catalogue} {k k' : Disk} {env : FileEnv}
    {keys name line : Bytes} (h : createSticker c k env keys name = .ok (line, c', k'))
    (hd : DirectoryIs dir c k) (hl : c.historyLoaded = true) {path : Bytes}
    (hpath : IsHistory path) : k'.files.content path = k.files.content path := by
  rcases createSticker_ok h with ⟨-, -, rfl⟩ | ⟨e, -, -, -, hsave⟩
  · rfl
  obtain ⟨d, hget, hsave⟩ := bind_ok hsave
  have hne : path ≠ d.userDirectory.toStr := by
    rw [Directory.userDirectory_of_get hget, hd, hl, if_pos rfl]
    rintro rfl
    have hsuffix : str "saved_stickers.txt" <:+ dir ++ str "saved_stickers.txt" :=
      List.suffix_append _ _
    rcases List.suffix_or_suffix_of_suffix hpath hsuffix with h | h
    · exact absurd h (by decide)
    · exact absurd h (by decide)
  dsimp only at hsave
  split at hsave
  · cases hsave
    rfl
  · rename_i files hfiles
    cases hsave
    rw [Files.content_fprint_of_ne hne, Files.content_of_fopen_append hfiles]

theorem Does.records (h : Does code p p') (hd : DirectoryIs dir p.stickers p.toDisk) :
    ∃ es, Records p p' es := by
  induction h with
  | done => exact ⟨[], records_none fun _ _ => rfl⟩
  | user _ _ _ _ ih =>
    obtain ⟨es, hes⟩ := ih
    exact ⟨es, hes.content, hes.speaker⟩
  | @send q env payload _ ih =>
    obtain ⟨es, hes⟩ := ih
    obtain ⟨up, hup⟩ := q.up_lmpSend env code payload
    rw [hup]
    exact ⟨es, hes.content, hes.speaker⟩
  | @append q env speaker message h hspeaker hfree ih =>
    obtain ⟨es, hes⟩ := ih
    obtain ⟨es', hes'⟩ := records_historyAppend q env hspeaker hfree
    exact ⟨es ++ es', hes.append hes' h.nicks.1 h.nicks.2 h.acts.keeps.historyPath⟩
  | @create q env keys name line c k h hl hc ih =>
    obtain ⟨es, hes⟩ := ih
    have hdir := h.acts.directoryIs hd
    refine ⟨es, fun path hpath => ?_, hes.speaker⟩
    rw [← hes.content path hpath]
    exact content_of_createSticker hc hdir hl hpath
  | @load q env c k h hl ih =>
    obtain ⟨es, hes⟩ := ih
    refine ⟨es, fun path hpath => ?_, hes.speaker⟩
    rw [← hes.content path hpath]
    exact congrArg (fun files => files.content path) (files_of_ensureLoaded hl)

theorem ne_of_isHistory {path file : Bytes} (hpath : IsHistory path)
    (hfile : str "nick.txt" <:+ file) : path ≠ file := by
  rintro rfl
  rcases List.suffix_or_suffix_of_suffix hpath hfile with h | h
  · exact absurd h (by decide)
  · exact absurd h (by decide)

theorem records_of_typed {line : Bytes} (h : p.typed env line = .ok p')
    (hd : DirectoryIs dir p.stickers p.toDisk) : ∃ es, Records p p' es := by
  cases utters_of_typed h with
  | plain _ hdoes => exact hdoes.records hd
  | nick _ _ _ hfiles =>
    refine ⟨[], records_none fun path hpath => hfiles path ?_⟩
    exact ne_of_isHistory hpath (List.suffix_append _ _)

theorem records_of_receive {f : Frame} {buf : Bytes} (huid : f.type ≠ LMP_UID)
    (h : p.receive env f buf = .ok p') (hd : DirectoryIs dir p.stickers p.toDisk) :
    ∃ es, Records p p' es := by
  by_cases hnick : f.type = LMP_NICK
  · have hfiles := (nick_of_receive hnick h).2.2.2
    refine ⟨[], records_none fun path hpath => hfiles path ?_⟩
    exact ne_of_isHistory hpath (suffix_peerNickPath _ _)
  · have hdoes : Does LMP_MSG p p' := does_of_receive huid hnick h
    exact hdoes.records hd

/-! ## A new session -/

theorem content_of_chatLoop {rand : Nat} (h : p.chatLoop env rand = .ok p') {path : Bytes}
    (hpath : IsHistory path) : p'.files.content path = p.files.content path := by
  obtain ⟨⟨file, k⟩, hopen, h⟩ := bind_ok h
  obtain ⟨nick, -, h⟩ := bind_ok h
  obtain ⟨⟨uid, k'⟩, huid, h⟩ := bind_ok h
  cases h
  have hfiles := Disk.files_of_openFile_read hopen
  obtain ⟨⟨file', k₁⟩, hopen', huid⟩ := bind_ok huid
  have hfiles' := Disk.files_of_openFile_read hopen'
  dsimp only at huid
  split at huid
  · cases huid
    exact congrArg (·.content path) (hfiles'.trans hfiles)
  · obtain ⟨⟨i, k₂⟩, hsave, huid⟩ := bind_ok huid
    have hne : path ≠ k₁.directory.shown ++ cstr (str "uid.txt") := by
      rintro rfl
      have hsuffix : str "uid.txt" <:+ k₁.directory.shown ++ cstr (str "uid.txt") :=
        List.suffix_append_of_suffix (by decide)
      rcases List.suffix_or_suffix_of_suffix hpath hsuffix with h | h
      · exact absurd h (by decide)
      · exact absurd h (by decide)
    have hsame := Disk.content_of_save hsave hne
    dsimp only at huid
    split at huid
    · cases huid
    · cases huid
      rw [hsame]
      exact congrArg (·.content path) (hfiles'.trans hfiles)

/-- The program is started, and has come to `pthread_create` in `chat_loop`. -/
def startUp (home username : Option Bytes) (files : Files) (env : ChatEnv) (rand : Nat) :
    Except Halt Chatter := do
  let p ← main home username files
  p.chatLoop env rand

/-- The history with this peer has not been loaded. -/
structure Fresh (p : Chatter) : Prop where
  stickers : p.stickers.historyLoaded = false
  historyPath : p.historyPath.toStr = []
  historyLoaded : p.historyLoaded = false

theorem Acts.historyLoaded {S : UInt8 → Bytes → Prop} {L : Prop} (h : Acts S L p p') :
    p'.historyLoaded = p.historyLoaded := by
  induction h with
  | done => rfl
  | user _ _ _ ih | nick _ ih | save _ _ _ ih | create _ _ _ ih | load _ _ _ ih => exact ih
  | @send q env type payload _ _ ih =>
    obtain ⟨up, hup⟩ := q.up_lmpSend env type payload
    rwa [hup]
  | @append q env speaker message _ ih =>
    obtain ⟨files, hfiles⟩ := q.files_historyAppend env speaker message
    rwa [hfiles]

theorem Fresh.acts {S : UInt8 → Bytes → Prop} (hp : p.Fresh) (h : Acts S False p p') :
    p'.Fresh where
  stickers := h.loaded_eq.trans hp.stickers
  historyPath := (congrArg StrBuf.toStr h.keeps.historyPath).trans hp.historyPath
  historyLoaded := h.historyLoaded.trans hp.historyLoaded

theorem startUp_ok {home username : Option Bytes} {files : Files} {rand : Nat}
    (h : startUp home username files env rand = .ok p) :
    DirectoryIs (userDir home username) p.stickers p.toDisk ∧ p.peerUidReady = false ∧ p.Fresh ∧
      ∀ path, IsHistory path → p.files.content path = files.content path := by
  obtain ⟨q, hq, h⟩ := bind_ok h
  obtain ⟨hdirectory, hstickers⟩ := main_ok hq
  have hdir : DirectoryIs (userDir home username) q.stickers q.toDisk := by
    rw [hstickers]
    exact Directory.shown_of_flagHandler hdirectory
  have hfiles : q.files = files := by
    obtain ⟨d, -, hq⟩ := bind_ok hq
    cases hq
    rfl
  obtain ⟨hdir', hsame⟩ := directoryIs_of_chatLoop h hdir
  refine ⟨hdir', (chatLoop_ok h).2.2, ⟨?_, ?_, ?_⟩, fun path hpath => ?_⟩
  · rw [hsame, hstickers]
    rfl
  · obtain ⟨⟨file, k⟩, -, h⟩ := bind_ok h
    obtain ⟨nick, -, h⟩ := bind_ok h
    obtain ⟨⟨uid, k'⟩, -, h⟩ := bind_ok h
    cases h
    rfl
  · obtain ⟨⟨file, k⟩, -, h⟩ := bind_ok h
    obtain ⟨nick, -, h⟩ := bind_ok h
    obtain ⟨⟨uid, k'⟩, -, h⟩ := bind_ok h
    cases h
    rfl
  · rw [content_of_chatLoop h hpath, hfiles]

/-! ## The peer comes back -/

theorem stdout_foldl_print (lines : List Bytes) (p : Chatter) :
    (lines.foldl print p).stdout = p.stdout ++ lines := by
  induction lines generalizing p with
  | nil => exact (List.append_nil _).symm
  | cons l ls ih =>
    rw [List.foldl_cons, ih]
    exact List.append_assoc p.stdout [l] ls

theorem flatten_map_cstr {content : Bytes} (h : NulFree content) :
    ((fgetsAll 512 content).map cstr).flatten = content := by
  have hsame : (fgetsAll 512 content).map cstr = fgetsAll 512 content := by
    refine (List.map_congr_left fun l hl => ?_).trans (List.map_id _)
    refine NulFree.cstr_eq fun h0 => h ?_
    rw [← flatten_fgetsAll (n := 512) (by decide) content]
    exact List.mem_flatten_of_mem hl h0
  rw [hsame, flatten_fgetsAll (by decide)]

theorem historyLoad_shows (hne : p.historyPath.toStr ≠ [])
    (hopens : env.opens p.historyPath.toStr = true) (hfree : NulFree p.history) :
    ∃ pieces, (p.historyLoad env).stdout = p.stdout ++ pieces ∧ pieces.flatten = p.history := by
  rw [historyLoad, if_neg hne, Files.fopen, hopens]
  by_cases hsome : (p.files p.historyPath.toStr).isSome = true
  · rw [if_pos ⟨rfl, hsome⟩]
    exact ⟨_, stdout_foldl_print _ p, flatten_map_cstr hfree⟩
  · rw [if_neg fun h => hsome h.2]
    refine ⟨[], (List.append_nil _).symm, ?_⟩
    rw [history, Files.content, Option.not_isSome_iff_eq_none.mp hsome]
    rfl

/-- The first frame with a uid has the history loaded. -/
theorem load_of_uidRecv {type : UInt8} {buf : Bytes} {len : Nat}
    (h : uidRecv env type buf len p = .ok (r, p')) (hfresh : p.historyLoaded = false) :
    ∃ q : Chatter, q.stdout = p.stdout ∧ q.files = p.files ∧
      p' = { q.historyLoad env with historyLoaded := true, peerUidReady := true } := by
  obtain ⟨q, hq, h⟩ := bind_ok h
  obtain ⟨⟨i, q₁⟩, hq₁, h⟩ := bind_ok h
  obtain ⟨k, nick, rfl, -, hfiles⟩ := loadPeerNick_ok hq₁
  obtain ⟨d, peerDir, historyPath, rfl, -, -⟩ := historyPrepare_ok hq
  dsimp only at h
  rw [hfresh] at h
  cases h
  refine ⟨_, ?_, ?_, rfl⟩
  · rfl
  · exact hfiles

/-- The history with a peer is printed when it sends its uid. -/
theorem shows_of_uid {uid : CharArray (UID_LENGTH + 1)} {buf : Bytes} (huid : IsUid uid)
    (hd : p.directory.shown = dir) (hfresh : p.historyLoaded = false)
    (hopens : env.opens (historyFile dir uid.toStr) = true)
    (hfree : NulFree (p.files.content (historyFile dir uid.toStr)))
    (h : p.receive env (lmpFrame LMP_UID uid.toStr) buf = .ok p') : ∃ pieces,
      p'.stdout = p.stdout ++ pieces ∧
        pieces.flatten = p.files.content (historyFile dir uid.toStr) := by
  obtain ⟨-, -, hpath, -⟩ := receive_uid huid hd h
  obtain ⟨r, h⟩ := uidRecv_of_receive rfl h
  obtain ⟨q, hstdout, hfiles, rfl⟩ := load_of_uidRecv h hfresh
  have hsame : q.historyPath.toStr = historyFile dir uid.toStr := by
    obtain ⟨stdout, hload⟩ := q.historyLoad_eq env
    rw [hload] at hpath
    exact hpath
  have hhistory : q.history = p.files.content (historyFile dir uid.toStr) := by
    rw [history, hfiles, hsame]
  have hne : q.historyPath.toStr ≠ [] := by
    rw [hsame]
    exact List.append_ne_nil_of_right_ne_nil _ (by decide)
  obtain ⟨pieces, hpieces, hflat⟩ := historyLoad_shows hne (hsame.symm ▸ hopens)
    (hhistory.symm ▸ hfree)
  rw [hstdout] at hpieces
  exact ⟨pieces, hpieces, hflat.trans hhistory⟩

end Chatter

/-! ## Sessions -/

/-- What a user does: one session after another, on the same files. -/
structure Life where
  proc : Chatter
  /-- What has been appended to the history with each peer, by its uid. -/
  archive : Bytes → Bytes

inductive LifeEvent where
  /-- The program is ended, and started again. -/
  | restart (env : ChatEnv) (rand : Nat)
  | typed (env : ChatEnv) (stdin : Bytes)
  | received (env : ChatEnv) (f : Frame) (buf : Bytes)

namespace Life
open Chatter
variable {home username : Option Bytes} {files : Files} {l l' : Life} {e : LifeEvent} {uid : Bytes}

/-- The process goes on, and what it appends to its history is put into the archive. -/
def become (l : Life) (p : Chatter) : Life where
  proc := p
  archive uid := l.archive uid ++
    if l.proc.peerUidReady ∧ uid = l.proc.peerUid.toStr then p.history.drop l.proc.history.length
    else []

/-- Lines are read when the uid of the peer is there. -/
def step (home username : Option Bytes) (l : Life) : LifeEvent → Except ChatStop Life
  | .restart env rand =>
    ((startUp home username l.proc.files env rand).mapError ChatStop.halt).map fun p =>
      { l with proc := p }
  | .typed env stdin =>
    if l.proc.peerUidReady then
      match readLine stdin with
      | none => .ok l
      | some line => ((l.proc.typed env line).mapError ChatStop.halt).map l.become
    else .error .disabled
  | .received env f buf => ((l.proc.receive env f buf).mapError ChatStop.halt).map l.become

/-- A uid that the peer sends is a uid, and it is the first one of the session. -/
def Regular (l : Life) : LifeEvent → Prop
  | .received _ f _ => f.type = LMP_UID → l.proc.peerUidReady = false ∧
    ∃ uid : CharArray (UID_LENGTH + 1), IsUid uid ∧ f = lmpFrame LMP_UID uid.toStr
  | .restart .. | .typed .. => True

/-- The invariant: the archive is on the disk. -/
structure Archived (files : Files) (dir : Bytes) (l : Life) : Prop where
  directory : DirectoryIs dir l.proc.stickers l.proc.toDisk
  fresh : l.proc.peerUidReady = false → l.proc.Fresh
  historyPath : l.proc.peerUidReady = true →
    l.proc.historyPath.toStr = historyFile dir l.proc.peerUid.toStr
  content : ∀ uid, l.proc.files.content (historyFile dir uid) = l.archive uid
  entries : ∀ uid, ∃ es : List Entry, (∀ e ∈ es, NulFree e.line) ∧
    l.archive uid = files.content (historyFile dir uid) ++ es.flatMap Entry.line

theorem historyFile_inj {dir uid uid' : Bytes} (h : historyFile dir uid = historyFile dir uid') :
    uid = uid' :=
  List.append_cancel_left (List.append_cancel_right h)

theorem isHistory_historyFile (dir uid : Bytes) : IsHistory (historyFile dir uid) :=
  List.suffix_append_of_suffix (by decide)

theorem nulFree_line {p : Chatter} {e : Entry}
    (hspeaker : e.speaker = p.myNick.toStr ∨ e.speaker = p.peerNick.toStr)
    (hfree : NulFree e.message) : NulFree e.line := by
  have hname : NulFree e.speaker := by
    rcases hspeaker with h | h
    · exact h ▸ cstr_nulFree _
    · exact h ▸ cstr_nulFree _
  refine nulFree_append (nulFree_append (nulFree_append (nulFree_append ?_ hname) ?_) hfree) ?_
  · decide
  · decide
  · decide

variable {dir : Bytes} {p : Chatter} {es : List Entry}

theorem Archived.eq_historyPath_iff (hl : l.Archived files dir) (uid : Bytes) :
    historyFile dir uid = l.proc.historyPath.toStr ↔
      l.proc.peerUidReady ∧ uid = l.proc.peerUid.toStr := by
  cases hready : l.proc.peerUidReady with
  | true =>
    rw [hl.historyPath hready]
    exact ⟨fun h => ⟨rfl, historyFile_inj h⟩, fun h => congrArg _ h.2⟩
  | false =>
    rw [(hl.fresh hready).historyPath]
    refine ⟨fun h => ?_, fun h => (by cases h.1)⟩
    exact absurd h (List.append_ne_nil_of_right_ne_nil _ (by decide))

theorem Archived.archive_become (hl : l.Archived files dir) (hr : Records l.proc p es)
    (hpath : p.historyPath = l.proc.historyPath) (uid : Bytes) :
    (l.become p).archive uid = l.archive uid ++
      if l.proc.peerUidReady ∧ uid = l.proc.peerUid.toStr then es.flatMap Entry.line else [] := by
  rw [Life.become]
  dsimp only
  split
  · rename_i hpeer
    have heq := (hl.eq_historyPath_iff uid).mpr hpeer
    have hcontent := hr.content _ (heq ▸ isHistory_historyFile dir uid)
    rw [if_pos rfl] at hcontent
    rw [history, history, hpath, hcontent, List.drop_left]
  · rfl

/-- A step that is no handshake. -/
theorem Archived.become (hl : l.Archived files dir) (hr : Records l.proc p es)
    (hsame : SameHandshake l.proc p) (hd : DirectoryIs dir p.stickers p.toDisk)
    (hfresh : l.proc.peerUidReady = false → p.Fresh) : (l.become p).Archived files dir := by
  refine ⟨hd, fun hno => hfresh (hsame.ready ▸ hno), fun hready => ?_, fun uid => ?_, fun uid => ?_⟩
  · have hpath := hl.historyPath (hsame.ready ▸ hready)
    change p.historyPath.toStr = historyFile dir p.peerUid.toStr
    rw [hsame.historyPath, hsame.peerUid, hpath]
  · rw [hl.archive_become hr hsame.historyPath, ← hl.content uid]
    refine (hr.content _ (isHistory_historyFile dir uid)).trans ?_
    simp only [hl.eq_historyPath_iff uid]
  · obtain ⟨es', hes', heq⟩ := hl.entries uid
    rw [hl.archive_become hr hsame.historyPath, heq, List.append_assoc]
    split
    · refine ⟨es' ++ es, List.forall_mem_append.mpr ⟨hes', fun e he => ?_⟩, ?_⟩
      · exact nulFree_line (hr.speaker e he).1 (hr.speaker e he).2
      · rw [List.flatMap_append]
    · exact ⟨es', hes', by rw [List.append_nil]⟩

theorem Archived.typed {env : ChatEnv} {line : Bytes} (hl : l.Archived files dir)
    (hready : l.proc.peerUidReady = true) (hline : line.length < LINE_SIZE)
    (h : l.proc.typed env line = .ok p) : (l.become p).Archived files dir := by
  obtain ⟨es, hes⟩ := records_of_typed h hl.directory
  have hacts := acts_of_typed hline h
  refine hl.become hes hacts.keeps.toSameHandshake (hacts.directoryIs hl.directory) fun hno => ?_
  rw [hready] at hno
  cases hno

theorem Archived.receive {env : ChatEnv} {f : Frame} {buf : Bytes} (hl : l.Archived files dir)
    (huid : f.type ≠ LMP_UID) (h : l.proc.receive env f buf = .ok p) :
    (l.become p).Archived files dir := by
  obtain ⟨es, hes⟩ := records_of_receive huid h hl.directory
  have hacts := acts_of_receive huid h
  exact hl.become hes hacts.keeps.toSameHandshake (hacts.directoryIs hl.directory) fun hno =>
    (hl.fresh hno).acts hacts

theorem Archived.shown (hl : l.Archived files dir) (hready : l.proc.peerUidReady = false) :
    l.proc.directory.shown = dir := by
  have hdir := hl.directory
  rw [DirectoryIs, (hl.fresh hready).stickers] at hdir
  exact hdir

/-- The handshake. -/
theorem Archived.greet {env : ChatEnv} {uid : CharArray (UID_LENGTH + 1)} {buf : Bytes}
    (hl : l.Archived files dir) (hready : l.proc.peerUidReady = false) (huid : IsUid uid)
    (h : l.proc.receive env (lmpFrame LMP_UID uid.toStr) buf = .ok p) :
    (l.become p).Archived files dir := by
  obtain ⟨hset, hpeer, hpath, -, -, hfiles⟩ := receive_uid huid (hl.shown hready) h
  have harchive : ∀ uid, (l.become p).archive uid = l.archive uid := by
    intro uid
    rw [Life.become, hready]
    exact List.append_nil _
  refine ⟨(directoryIs_of_uid rfl h hl.directory).1, fun hno => ?_, fun _ => ?_, fun uid => ?_,
    fun uid => ?_⟩
  · change p.peerUidReady = false at hno
    rw [hset] at hno
    cases hno
  · change p.historyPath.toStr = historyFile dir p.peerUid.toStr
    rw [hpath, hpeer]
  · rw [harchive, ← hl.content uid]
    exact congrArg (·.content (historyFile dir uid)) hfiles
  · rw [harchive]
    exact hl.entries uid

theorem Archived.step (hl : l.Archived files (userDir home username)) (hr : Regular l e)
    (h : step home username l e = .ok l') : l'.Archived files (userDir home username) := by
  cases e with
  | restart env rand =>
    cases hp : startUp home username l.proc.files env rand with
    | error => rw [Life.step, hp] at h; cases h
    | ok p =>
      rw [Life.step, hp] at h
      cases h
      obtain ⟨hdir, hready, hfresh, hcontent⟩ := startUp_ok hp
      refine ⟨hdir, fun _ => hfresh, fun hno => ?_, fun uid => ?_, hl.entries⟩
      · change p.peerUidReady = true at hno
        rw [hready] at hno
        cases hno
      · exact (hcontent _ (isHistory_historyFile _ uid)).trans (hl.content uid)
  | typed env stdin =>
    rw [Life.step] at h
    split at h
    · rename_i hready
      split at h
      · cases h
        exact hl
      · rename_i line hline
        cases hp : l.proc.typed env line with
        | error => rw [hp] at h; cases h
        | ok p =>
          rw [hp] at h
          cases h
          exact hl.typed hready (length_lt_of_readLine hline) hp
    · cases h
  | received env f buf =>
    cases hp : l.proc.receive env f buf with
    | error => rw [Life.step, hp] at h; cases h
    | ok p =>
      rw [Life.step, hp] at h
      cases h
      by_cases hf : f.type = LMP_UID
      · obtain ⟨hready, uid, huid, rfl⟩ := hr hf
        exact hl.greet hready huid hp
      · exact hl.receive hf hp

/-- The first session of a user. -/
def start (home username : Option Bytes) (files : Files) (p : Chatter) : Life where
  proc := p
  archive uid := files.content (historyFile (userDir home username) uid)

theorem archived_start {p : Chatter} {env : ChatEnv} {rand : Nat}
    (h : startUp home username files env rand = .ok p) :
    (start home username files p).Archived files (userDir home username) := by
  obtain ⟨hdir, hready, hfresh, hcontent⟩ := startUp_ok h
  refine ⟨hdir, fun _ => hfresh, fun hno => ?_, fun uid => ?_, fun uid => ?_⟩
  · change p.peerUidReady = true at hno
    rw [hready] at hno
    cases hno
  · exact hcontent _ (isHistory_historyFile _ uid)
  · exact ⟨[], fun _ he => (by cases he), (List.append_nil _).symm⟩

/-- **What has been said is kept and shown again.** Whatever a user types in however many sessions,
whatever its peers send, as long as what they send as their uid is one and comes once, and whichever
files and sends fail: the history with each peer is what there was at first, which holds no NUL, and
the lines that have been appended in the sessions with this peer, and when the peer sends its uid in
a new session, all of it is printed, if the file can be opened. -/
theorem replayed_of_run {p : Chatter} {env : ChatEnv} {rand : Nat} {es : List LifeEvent}
    (hp : startUp home username files env rand = .ok p)
    (hfiles : ∀ path, IsHistory path → NulFree (files.content path))
    (hes : Meets (step home username) Regular (start home username files p) es)
    (h : exec (step home username) (start home username files p) es = .ok l)
    (uid : CharArray (UID_LENGTH + 1)) (huid : IsUid uid) :
    let path := historyFile (userDir home username) uid.toStr
    l.proc.files.content path = l.archive uid.toStr ∧
    (∃ entries : List Entry, l.archive uid.toStr = files.content path ++
      entries.flatMap Entry.line) ∧
    ∀ env buf l', l.proc.peerUidReady = false → env.opens path = true →
      l.step home username (.received env (lmpFrame LMP_UID uid.toStr) buf) = .ok l' →
        ∃ pieces, l'.proc.stdout = l.proc.stdout ++ pieces ∧
          pieces.flatten = l.archive uid.toStr := by
  intro path
  have hl := exec_invariant (I := Archived files (userDir home username))
    (fun _ _ _ hl hr hs => hl.step hr hs) (archived_start hp) hes h
  obtain ⟨entries, hfree, heq⟩ := hl.entries uid.toStr
  refine ⟨hl.content uid.toStr, ⟨entries, heq⟩, fun env buf l' hready hopens hs => ?_⟩
  have hcontent : NulFree (l.proc.files.content path) := by
    rw [hl.content uid.toStr, heq]
    refine nulFree_append (hfiles _ (isHistory_historyFile _ _)) fun h0 => ?_
    obtain ⟨e, he, h0⟩ := List.mem_flatMap.mp h0
    exact hfree e he h0
  cases hr : l.proc.receive env (lmpFrame LMP_UID uid.toStr) buf with
  | error => rw [Life.step, hr] at hs; cases hs
  | ok q =>
    rw [Life.step, hr] at hs
    cases hs
    obtain ⟨pieces, hpieces, hflat⟩ := shows_of_uid huid (hl.shown hready)
      (hl.fresh hready).historyLoaded hopens hcontent hr
    exact ⟨pieces, hpieces, hflat.trans (hl.content uid.toStr)⟩

/-- Ann says a word to Bob, and starts the program again. -/
theorem replayed_of_run_annSaysHi :
    let uid : CharArray (UID_LENGTH + 1) := .copyStr _ (str "10000008")
    let home := some (str "/home/ann")
    let path := historyFile (userDir home none) uid.toStr
    ∃ p l, startUp home none (fun _ => none) .allOk 7 = .ok p ∧
      exec (step home none) (start home none (fun _ => none) p)
        [.received .allOk (lmpFrame LMP_UID uid.toStr) [], .typed .allOk (str "hi\n"),
          .restart .allOk 7] = .ok l ∧
      l.archive uid.toStr = str "[You]: hi\n" ∧ l.proc.peerUidReady = false ∧
      ∀ env buf l', l.proc.peerUidReady = false → env.opens path = true →
        l.step home none (.received env (lmpFrame LMP_UID uid.toStr) buf) = .ok l' →
          ∃ pieces, l'.proc.stdout = l.proc.stdout ++ pieces ∧
            pieces.flatten = l.archive uid.toStr := by
  intro uid home path
  have huid : IsUid uid := isUid_of_valid (by decide +kernel)
  obtain ⟨p, hp, hok, hrun⟩ := exists_ok (x := startUp home none (fun _ => none) .allOk 7)
    (P := fun p => (exec (step home none) (start home none (fun _ => none) p)
        [.received .allOk (lmpFrame LMP_UID uid.toStr) [], .typed .allOk (str "hi\n"),
          .restart .allOk 7]).isOk ∧
      ∀ l ∈ (exec (step home none) (start home none (fun _ => none) p)
        [.received .allOk (lmpFrame LMP_UID uid.toStr) [], .typed .allOk (str "hi\n"),
          .restart .allOk 7]).toOption,
        l.archive uid.toStr = str "[You]: hi\n" ∧ l.proc.peerUidReady = false)
    rfl (by decide +kernel)
  obtain ⟨l, hl, harchive, hready⟩ := exists_ok hok hrun
  have hregular : Meets (step home none) Regular (start home none (fun _ => none) p)
      [.received .allOk (lmpFrame LMP_UID uid.toStr) [], .typed .allOk (str "hi\n"),
        .restart .allOk 7] := by
    refine ⟨fun _ => ⟨(startUp_ok hp).2.1, uid, huid, rfl⟩, ?_⟩
    split
    · refine ⟨trivial, ?_⟩
      split
      · refine ⟨trivial, ?_⟩
        split <;> trivial
      · trivial
    · trivial
  have hnone : ∀ path, IsHistory path → NulFree (Files.content (fun _ => none) path) :=
    fun _ _ h0 => by cases h0
  exact ⟨p, l, hp, hl, harchive, hready, (replayed_of_run hp hnone hregular hl uid huid).2.2⟩

end Life

end SocketSpeak
