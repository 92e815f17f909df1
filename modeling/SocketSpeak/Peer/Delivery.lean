import SocketSpeak.Peer.Handshake

/-!
# What is sent and what is recorded

Next to the two processes an `Exchange` keeps what each of them has sent as a message, and what its
receiver has filed. What one has sent is what the other has filed and what is still between them.
-/

namespace SocketSpeak
open CLib Sys

/-! ## The history file -/

namespace Disk
variable {k k' : Disk} {env : FileEnv} {filename text path : Bytes} {mode : OpenMode}

theorem content_of_openFile {file : Option Bytes}
    (h : k.openFile env filename mode = .ok (file, k'))
    (hne : path ≠ k.directory.shown ++ cstr filename) :
    k'.files.content path = k.files.content path := by
  obtain ⟨d, path', -, rfl, ⟨-, -, rfl⟩ | ⟨files, hfiles, -, rfl⟩⟩ := openFile_cases h
  · rfl
  · cases mode with
    | read => rw [Files.eq_of_fopen_read hfiles]
    | write => exact Files.content_of_fopen_write hfiles hne
    | append => exact Files.content_of_fopen_append hfiles

theorem content_of_save {r : Int} (h : k.save env filename text = .ok (r, k'))
    (hne : path ≠ k.directory.shown ++ cstr filename) :
    k'.files.content path = k.files.content path := by
  obtain ⟨⟨file, k₁⟩, hopen, h⟩ := bind_ok h
  have hcontent := content_of_openFile hopen hne
  cases file with
  | none =>
    cases h
    exact hcontent
  | some written =>
    cases h
    obtain ⟨rfl, -⟩ := (openFile_ok hopen).2 written rfl
    rw [← hcontent]
    exact Files.content_fprint_of_ne hne

end Disk

theorem isPrefix_saveSticker {k k' : Disk} {env : FileEnv} {e : StickerEntry}
    (h : saveSticker k env e = .ok k') (path : Bytes) :
    k.files.content path <+: k'.files.content path := by
  obtain ⟨d, -, h⟩ := bind_ok h
  dsimp only at h
  split at h
  · cases h
    exact List.prefix_refl _
  · rename_i files hfiles
    cases h
    exact Files.isPrefix_fprint (Files.content_of_fopen_append hfiles) _ _

namespace Chatter
variable {S : UInt8 → Bytes → Prop} {L : Prop} {p p' : Chatter} {env : ChatEnv} {path : Bytes}

theorem isPrefix_historyAppend (p : Chatter) (env : ChatEnv) (speaker message path : Bytes) :
    p.files.content path <+: (p.historyAppend env speaker message).2.files.content path := by
  unfold historyAppend
  split
  · exact List.prefix_refl _
  · split
    · exact List.prefix_refl _
    · rename_i files hfiles
      exact Files.isPrefix_fprint (Files.content_of_fopen_append hfiles) _ _

/-- A history is only appended to: what is written anew has another name. -/
theorem Acts.grows (h : Acts S L p p') (hpath : str "history.txt" <:+ path) :
    p.files.content path <+: p'.files.content path := by
  induction h with
  | done => exact List.prefix_refl _
  | user _ _ _ ih | nick _ ih => exact ih
  | send _ _ ih => rwa [toDisk_lmpSend]
  | append _ ih => exact ih.trans (isPrefix_historyAppend ..)
  | @save p' env filename text r k _ hname hk ih =>
    have hne : path ≠ p'.directory.shown ++ cstr filename := by
      rintro rfl
      have hsuffix := List.suffix_of_suffix_length_le (List.suffix_append_of_suffix hname) hpath
        (by decide)
      exact absurd hsuffix (by decide)
    have hcontent : k.files.content path = p'.files.content path := Disk.content_of_save hk hne
    exact hcontent ▸ ih
  | create _ _ hc ih =>
    rcases createSticker_ok hc with ⟨-, -, rfl⟩ | ⟨e, -, -, -, hsave⟩
    · exact ih
    · exact ih.trans (isPrefix_saveSticker hsave path)
  | load _ _ hl ih => exact (congrArg (Files.content · path) (files_of_ensureLoaded hl)) ▸ ih

theorem history_historyAppend (hpath : p.historyPath.toStr ≠ [])
    (hopen : env.opens p.historyPath.toStr = true) (speaker message : Bytes) :
    (p.historyAppend env speaker message).2.history = p.history ++ chatLine speaker message := by
  rw [historyAppend, if_neg hpath, Files.fopen, if_pos hopen]
  dsimp only
  rw [history, Files.content_fprint, Files.content_set]
  rfl

/-- A message is filed. -/
theorem history_of_message {f : Frame} {buf : Bytes} (hf : f.type = LMP_MSG)
    (hfree : NulFree f.payload) (hpath : p.historyPath.toStr ≠ [])
    (hopen : env.opens p.historyPath.toStr = true) (h : p.receive env f buf = .ok p') :
    p'.history = p.history ++ chatLine p.peerNick.toStr f.payload := by
  obtain ⟨res, q, hq, rfl⟩ := receive_ok h
  rw [hf] at hq
  change msgRecv env LMP_MSG (f.payload ++ 0 :: _) f.payload.length p = _ at hq
  rw [msgRecv, hfree.cstr_append_nul] at hq
  cases hq
  rw [if_neg (by decide)]
  exact history_historyAppend (p := p.print _) hpath hopen _ _

theorem chatLoop_ok {rand : Nat} (h : p.chatLoop env rand = .ok p') :
    IsUid p'.myUid ∧ p'.up = [] ∧ p'.peerUidReady = false := by
  obtain ⟨⟨file, k⟩, -, h⟩ := bind_ok h
  obtain ⟨nick, -, h⟩ := bind_ok h
  obtain ⟨⟨uid, k'⟩, huid, h⟩ := bind_ok h
  cases h
  have hid := isUid_of_getUid huid
  have hcopy : (CharArray.copyStr (UID_LENGTH + 1) uid.toStr).toStr = uid.toStr :=
    CharArray.toStr_copyStr_of_lt (cstr_nulFree _) (by rw [hid.1]; decide)
  refine ⟨?_, rfl, rfl⟩
  unfold IsUid
  rw [hcopy]
  exact hid

end Chatter

/-! ## Counting -/

/-- The texts of the messages among the frames. -/
def texts (fs : List Frame) : List Bytes := (fs.filter (·.type = LMP_MSG)).map Frame.payload

theorem texts_append (fs fs' : List Frame) : texts (fs ++ fs') = texts fs ++ texts fs' := by
  rw [texts, List.filter_append, List.map_append]
  rfl

theorem texts_singleton (f : Frame) :
    texts [f] = if f.type = LMP_MSG then [f.payload] else [] := by
  by_cases hmsg : f.type = LMP_MSG
  · simp [texts, hmsg]
  · simp [texts, hmsg]

namespace ChatNet
open Chatter Party
variable {dirs : Host → Bytes} {n n' : ChatNet} {h k : Host} {a b : Party} {e : ChatEvent}
  {env : ChatEnv} {stdin buf : Bytes} {f : Frame}

/-- The frames that the event takes out of the channel to `h`. -/
def taken (n : ChatNet) (h : Host) : ChatEvent → List Frame
  | .main .. => []
  | .receive k _ _ => if k = h then (n h.other).up.take 1 else []

/-- The frames that `h` has put into its channel from `n` to `n'`. -/
def added (n n' : ChatNet) (h : Host) : List Frame := (n' h).up.drop (n h).up.length

/-- The texts that `h` has filed as received: a line with each of them is at the end of its history
now. -/
def filed (n n' : ChatNet) (h : Host) (e : ChatEvent) : List Bytes :=
  (texts (n.taken h e)).filter fun text =>
    (n' h).history = (n h).history ++ chatLine (n h).peerNick.toStr text

/-- Sends succeed, and the history of the process that goes on can be opened. -/
def Succeeds (n : ChatNet) (e : ChatEvent) : Prop :=
  e.env.sendOk = true ∧
    ((n e.host).historyPath.toStr ≠ [] → e.env.opens (n e.host).historyPath.toStr = true)

instance (n : ChatNet) (e : ChatEvent) : Decidable (n.Succeeds e) :=
  inferInstanceAs (Decidable (_ ∧ _))

/-- But for the uids, what a process receives and what it sends comes after the handshake. -/
structure AfterHandshake (dirs : Host → Bytes) (n : ChatNet) (e : ChatEvent) : Prop where
  received : ∀ f ∈ n.taken e.host e, f.type ≠ LMP_UID →
    Greeted (dirs e.host) (n e.host.other) (n e.host)
  sent : ∀ n', n.step e = .ok n' → ∀ f ∈ n.added n' e.host, f.type ≠ LMP_UID →
    Greeted (dirs e.host) (n e.host.other) (n e.host)

/-- What a round of the process `h` leaves as it is, where it has received `fs`. -/
structure Round (n : ChatNet) (h : Host) (fs : List Frame) (a b : Party) : Prop where
  myUid : a.myUid = (n h).myUid
  grows : ∀ path, str "history.txt" <:+ path →
    (n h).files.content path <+: a.files.content path
  writes : (n h).up <+: a.up
  reads : ∃ up, (n h.other).up = fs ++ up ∧ b = (n h.other).unread up

theorem round_of_active {fs up : List Frame} (hact : (n h).Active a)
    (hup : (n h.other).up = fs ++ up) : Round n h fs a ((n h.other).unread up) := by
  obtain ⟨out, hout, -⟩ := hact.acts.keeps.up
  exact ⟨hact.acts.keeps.myUid, fun path hpath => hact.acts.grows hpath, ⟨out, hout.symm⟩,
    up, hup, rfl⟩

theorem Handshaken.main_round (hn : Handshaken dirs n) (hsend : env.sendOk = true)
    (ha : (n h).mainStep env stdin = .ok a) : Round n h [] a (n h.other) := by
  rcases mainStep_ok (hn h).1 hsend ha with rfl | ⟨-, rfl⟩ | hact
  · exact ⟨rfl, fun _ _ => List.prefix_refl _, List.prefix_refl _, _, rfl, rfl⟩
  · exact ⟨rfl, fun _ _ => List.prefix_refl _, List.prefix_append _ _, _, rfl, rfl⟩
  · exact round_of_active hact rfl

theorem Handshaken.receive_round (hn : Handshaken dirs n) (hab : Received n h env buf a b) :
    Round n h ((n h.other).up.take 1) a b := by
  cases hab with
  | hangUp hnil hact =>
    have hround : Round n h [] (n h).hangUp (n h.other) := round_of_active hact rfl
    refine ⟨hround.myUid, hround.grows, hround.writes, (n h.other).up, ?_, rfl⟩
    rw [hnil]
    rfl
  | @frame f up p hup _ _ hact =>
    rw [hup]
    exact round_of_active hact hup
  | @greeting up p hup hno hready hp =>
    obtain ⟨-, -, -, huid, hupp, hfiles⟩ := hn.greeted hready hp
    rw [hup]
    refine ⟨huid, fun path _ => ?_, ?_, up, hup, rfl⟩
    · exact hfiles.symm ▸ List.prefix_refl _
    · exact hupp.symm ▸ List.prefix_refl _

/-- Every event is a round of one process. -/
theorem Handshaken.round (hn : Handshaken dirs n) (hsend : e.env.sendOk = true)
    (h : n.step e = .ok n') :
    ∃ a b, n' = put e.host a b ∧ Round n e.host (n.taken e.host e) a b := by
  cases e with
  | main k env stdin =>
    obtain ⟨a, ha, rfl⟩ := step_main h
    exact ⟨a, n k.other, rfl, hn.main_round hsend ha⟩
  | receive k env buf =>
    obtain ⟨a, b, hab, rfl⟩ := step_receive h
    have htaken : n.taken k (.receive k env buf) = (n k.other).up.take 1 := if_pos rfl
    exact ⟨a, b, rfl, htaken ▸ hn.receive_round (hn.received hab)⟩

theorem taken_cases (n : ChatNet) (h : Host) (e : ChatEvent) :
    n.taken h e = [] ∨ ∃ f, n.taken h e = [f] := by
  unfold taken
  split
  · exact .inl rfl
  · split
    · cases (n h.other).up with
      | nil => exact .inl rfl
      | cons f up => exact .inr ⟨f, rfl⟩
    · exact .inl rfl

theorem taken_other (n : ChatNet) (e : ChatEvent) : n.taken e.host.other e = [] := by
  cases e with
  | main => rfl
  | receive k env buf => exact if_neg k.other_ne.symm

/-- Nothing is lost between the processes, and nothing comes in between. -/
theorem Handshaken.frames (hn : Handshaken dirs n) (hsend : e.env.sendOk = true)
    (h : n.step e = .ok n') (k : Host) :
    (n k).up ++ n.added n' k = n.taken k.other e ++ (n' k).up := by
  obtain ⟨a, b, rfl, hround⟩ := hn.round hsend h
  rcases e.host.eq_or_eq_other k with rfl | rfl
  · obtain ⟨out, hout⟩ := hround.writes
    rw [taken_other, added, put_self, ← hout, List.drop_left]
    rfl
  · obtain ⟨up, hup, rfl⟩ := hround.reads
    rw [Host.other_other, added, put_other, hup, List.length_append]
    have hnew : up.drop ((n.taken e.host e).length + up.length) = [] :=
      List.drop_eq_nil_of_le (Nat.le_add_left _ _)
    exact (congrArg (_ ++ ·) hnew).trans (List.append_nil _)

theorem Handshaken.keeps (hn : Handshaken dirs n) (hsend : e.env.sendOk = true)
    (h : n.step e = .ok n') (k : Host) : (n' k).myUid = (n k).myUid ∧
      ∀ path, str "history.txt" <:+ path →
        (n k).files.content path <+: (n' k).files.content path := by
  obtain ⟨a, b, rfl, hround⟩ := hn.round hsend h
  rcases e.host.eq_or_eq_other k with rfl | rfl
  · rw [put_self]
    exact ⟨hround.myUid, hround.grows⟩
  · obtain ⟨up, -, rfl⟩ := hround.reads
    rw [put_other]
    exact ⟨rfl, fun _ _ => List.prefix_refl _⟩

/-! ### The handshake comes first -/

theorem Handshaken.greeted_of_taken (hn : Handshaken dirs n) (hf : f ∈ n.taken h e)
    (hne : f.type ≠ LMP_UID) : Greeted (dirs h) (n h.other) (n h) := by
  cases e with
  | main => cases hf
  | receive k env buf =>
    rw [taken] at hf
    split at hf
    · cases hready : (n h).peerUidReady with
      | true => exact ((hn h).2.passed hready).1
      | false =>
        cases hup : (n h.other).up with
        | nil => rw [hup] at hf; cases hf
        | cons g up =>
          rw [hup] at hf
          obtain rfl := List.mem_singleton.mp hf
          obtain ⟨rfl, -⟩ := (hn h).2.uid hup hready
          exact absurd rfl hne
    · cases hf

theorem added_put (n : ChatNet) (h : Host) (a b : Party) {out : List Frame}
    (hup : a.up = (n h).up ++ out) : n.added (put h a b) h = out := by
  rw [added, put_self, hup, List.drop_left]

theorem Handshaken.greeted_of_added (hn : Handshaken dirs n) (hsend : e.env.sendOk = true)
    (h : n.step e = .ok n') (hf : f ∈ n.added n' e.host) (hne : f.type ≠ LMP_UID) :
    Greeted (dirs e.host) (n e.host.other) (n e.host) := by
  cases hready : (n e.host).peerUidReady with
  | true => exact ((hn e.host).2.passed hready).1
  | false =>
    exfalso
    cases e with
    | main k env stdin =>
      dsimp only [ChatEvent.host] at hready hf
      obtain ⟨a, ha, rfl⟩ := step_main h
      rcases mainStep_ok (hn k).1 hsend ha with rfl | ⟨-, rfl⟩ | hact
      · have hnone : n.added (put k (n k) (n k.other)) k = [] :=
          added_put n k _ _ (List.append_nil _).symm
        rw [hnone] at hf
        cases hf
      · rw [added_put n k _ _ rfl] at hf
        exact hne (congrArg Frame.type (List.mem_singleton.mp hf))
      · rw [hact.ready] at hready
        cases hready
    | receive k env buf =>
      dsimp only [ChatEvent.host] at hready hf
      obtain ⟨a, b, hab, rfl⟩ := step_receive h
      cases hn.received hab with
      | hangUp _ hact | frame _ _ _ hact =>
        rw [hact.ready] at hready
        cases hready
      | greeting _ _ _ hp =>
        obtain ⟨-, -, -, -, hup, -⟩ := hn.greeted hready hp
        rw [added_put n k _ _ (hup.trans (List.append_nil _).symm)] at hf
        cases hf

/-! ### What is filed -/

theorem Handshaken.history_of_taken (hn : Handshaken dirs n) (hs : n.Succeeds e)
    (hstep : n.step e = .ok n') (hf : f ∈ n.taken k e) (hmsg : f.type = LMP_MSG) :
    (n' k).history = (n k).history ++ chatLine (n k).peerNick.toStr f.payload ∧
      (n k).historyPath.toStr = historyFile (dirs k) (n k.other).myUid.toStr ∧
      (n' k).historyPath = (n k).historyPath := by
  have huid : f.type ≠ LMP_UID := by
    rw [hmsg]
    decide
  have hpath := (hn.greeted_of_taken hf huid).historyPath
  cases e with
  | main => cases hf
  | receive j env buf =>
    rw [taken] at hf
    split at hf
    · rename_i hhost
      subst hhost
      obtain ⟨a, b, hab, rfl⟩ := step_receive hstep
      rw [put_self]
      cases hn.received hab with
      | hangUp hnil _ =>
        rw [hnil] at hf
        cases hf
      | @frame g up p hup _ hp hact =>
        rw [hup] at hf
        obtain rfl := List.mem_singleton.mp hf
        have hne : (n j).historyPath.toStr ≠ [] := by
          rw [hpath]
          exact List.append_ne_nil_of_right_ne_nil _ (by decide)
        refine ⟨history_of_message hmsg ?_ hne ?_ hp, hpath, hact.acts.keeps.historyPath⟩
        · exact ((hn j).2.fits f (hup ▸ List.mem_cons_self)).2 hmsg
        · exact hs.2 hne
      | greeting hup _ _ _ =>
        rw [hup] at hf
        obtain rfl := List.mem_singleton.mp hf
        exact absurd rfl huid
    · cases hf

theorem Handshaken.filed_eq (hn : Handshaken dirs n) (hs : n.Succeeds e)
    (h : n.step e = .ok n') (k : Host) : n.filed n' k e = texts (n.taken k e) := by
  apply List.filter_eq_self.mpr
  intro text htext
  obtain ⟨f, hf, rfl⟩ := List.mem_map.mp htext
  obtain ⟨hf, hmsg⟩ := List.mem_filter.mp hf
  exact decide_eq_true (hn.history_of_taken hs h hf (of_decide_eq_true hmsg)).1

/-- What is filed is in the history afterwards. -/
theorem Handshaken.content_eq (hn : Handshaken dirs n) (hs : n.Succeeds e)
    (hstep : n.step e = .ok n') (hf : f ∈ n.taken k e) (hmsg : f.type = LMP_MSG) :
    (n' k).files.content (historyFile (dirs k) (n k.other).myUid.toStr) =
      (n k).files.content (historyFile (dirs k) (n k.other).myUid.toStr) ++
        chatLine (n k).peerNick.toStr f.payload := by
  obtain ⟨hhistory, hpath, hsame⟩ := hn.history_of_taken hs hstep hf hmsg
  rw [history, history, hsame, hpath] at hhistory
  exact hhistory

end ChatNet

/-- There is a line with each of the texts in the file, in their order. -/
inductive Filed : List Bytes → Bytes → Prop
  | start (content) : Filed [] content
  | line {ts content} (nick text) : Filed ts content →
    Filed (ts ++ [text]) (content ++ chatLine nick text)
  | more {ts content} (rest) : Filed ts content → Filed ts (content ++ rest)

theorem Filed.grow {ts : List Bytes} {content content' : Bytes} (h : Filed ts content)
    (hpre : content <+: content') : Filed ts content' := by
  obtain ⟨rest, rfl⟩ := hpre
  exact h.more rest

/-- The two processes, and what they have done so far. -/
structure Exchange where
  net : ChatNet
  sent : Host → List Bytes
  recorded : Host → List Bytes

namespace Exchange

def start (net : ChatNet) : Exchange := ⟨net, fun _ => [], fun _ => []⟩

def step (x : Exchange) (e : ChatEvent) : Except ChatStop Exchange :=
  (x.net.step e).map fun net => {
    net
    sent h := x.sent h ++ texts (x.net.added net h)
    recorded h := x.recorded h ++ x.net.filed net h e }

variable {dirs : Host → Bytes} {x x' : Exchange} {e : ChatEvent}

theorem step_ok (h : x.step e = .ok x') : x.net.step e = .ok x'.net ∧
    (∀ h, x'.sent h = x.sent h ++ texts (x.net.added x'.net h)) ∧
    ∀ h, x'.recorded h = x.recorded h ++ x.net.filed x'.net h e := by
  cases hn : x.net.step e with
  | error => rw [step, hn] at h; cases h
  | ok n =>
    rw [step, hn] at h
    cases h
    exact ⟨rfl, fun _ => rfl, fun _ => rfl⟩

/-- What `h` has filed, in its history with the other process. -/
def InHistory (dirs : Host → Bytes) (x : Exchange) (h : Host) : Prop :=
  Filed (x.recorded h)
    ((x.net h).files.content (historyFile (dirs h) (x.net h.other).myUid.toStr))

/-- The invariant: what has been sent has been filed, or is on its way. -/
structure Delivers (dirs : Host → Bytes) (x : Exchange) : Prop where
  handshaken : x.net.Handshaken dirs
  sent : ∀ h, x.sent h.other = x.recorded h ++ texts (x.net h.other).up
  filed : ∀ h, x.InHistory dirs h

theorem Delivers.step (hd : x.Delivers dirs) (hs : x.net.Succeeds e) (h : x.step e = .ok x') :
    x'.Delivers dirs := by
  obtain ⟨hstep, hsent, hrecorded⟩ := step_ok h
  have hn := hd.handshaken
  refine ⟨hn.step hs.1 hstep, fun k => ?_, fun k => ?_⟩
  · have hframes := congrArg texts (hn.frames hs.1 hstep k.other)
    rw [texts_append, texts_append, k.other_other] at hframes
    calc x'.sent k.other
        = x.recorded k ++ (texts (x.net k.other).up ++ texts (x.net.added x'.net k.other)) := by
          rw [hsent, hd.sent, List.append_assoc]
      _ = x.recorded k ++ x.net.filed x'.net k e ++ texts (x'.net k.other).up := by
          rw [hframes, hn.filed_eq hs hstep, List.append_assoc]
      _ = x'.recorded k ++ texts (x'.net k.other).up := by rw [hrecorded]
  · obtain ⟨huid, hgrows⟩ := hn.keeps hs.1 hstep k
    have huid' := (hn.keeps hs.1 hstep k.other).1
    have hmore := (hd.filed k).grow (hgrows _ (List.suffix_append_of_suffix (by decide)))
    rw [InHistory, hrecorded, huid', hn.filed_eq hs hstep]
    rcases x.net.taken_cases k e with hnil | ⟨f, hf⟩
    · rw [hnil]
      exact (List.append_nil (x.recorded k)).symm ▸ hmore
    rw [hf, texts_singleton]
    split
    · rename_i hmsg
      rw [hn.content_eq hs hstep (hf ▸ List.mem_singleton_self f) hmsg]
      exact .line _ _ (hd.filed k)
    · rw [List.append_nil]
      exact hmore

/-! ## Runs -/

end Exchange

/-- The process of a user has started a chat. -/
def Opened (home username : Option Bytes) (a : Party) : Prop :=
  ∃ files env rand, Party.chat home username files env rand = .ok a

theorem sound_of_opened {home username : Option Bytes} {a : Party}
    (h : Opened home username a) : a.Sound (userDir home username) ∧ a.up = [] ∧
      a.peerUidReady = false ∧ a.phase = .starting := by
  obtain ⟨files, env, rand, h⟩ := h
  obtain ⟨p, hp, h⟩ := bind_ok h
  obtain ⟨q, hq, h⟩ := bind_ok h
  cases h
  obtain ⟨hdirectory, hstickers⟩ := Chatter.main_ok hp
  have hdir : DirectoryIs (userDir home username) p.stickers p.toDisk := by
    rw [hstickers]
    exact Directory.shown_of_flagHandler hdirectory
  obtain ⟨hdir', hsame⟩ := Chatter.directoryIs_of_chatLoop hq hdir
  have hloaded : q.stickers.historyLoaded = false := by
    rw [hsame, hstickers]
    rfl
  obtain ⟨huid, hup, hready⟩ := Chatter.chatLoop_ok hq
  exact ⟨⟨hdir', huid, fun _ => ⟨hloaded, .inl rfl⟩⟩, hup, hready, rfl⟩

namespace Exchange
variable {x x₀ : Exchange} {n : ChatNet} {home username : Host → Option Bytes}
  {dirs : Host → Bytes} {es : List ChatEvent}

theorem delivers_start (hstart : ∀ h, Opened (home h) (username h) (n h)) :
    (start n).Delivers fun h => userDir (home h) (username h) := by
  refine ⟨fun h => ?_, fun h => ?_, fun h => .start _⟩
  · obtain ⟨hsound, -, hready, -⟩ := sound_of_opened (hstart h)
    obtain ⟨-, hup, -, hphase⟩ := sound_of_opened (hstart h.other)
    have hnone : ∀ {P : Frame → Prop}, ∀ f ∈ (n h.other).up, P f := by
      intro P f hf
      rw [hup] at hf
      cases hf
    refine ⟨hsound, fun _ => ⟨hup, hready⟩, fun hx => absurd hphase hx, fun hy => ?_,
      fun _ => hnone, hnone⟩
    rw [start, hready] at hy
    cases hy
  · rw [start, (sound_of_opened (hstart h.other)).2.1]
    rfl

theorem delivers_of_run (hd : x₀.Delivers dirs)
    (hes : Meets step (fun x e => x.net.Succeeds e) x₀ es) (h : exec step x₀ es = .ok x) :
    Meets step (fun x e => x.net.AfterHandshake dirs e) x₀ es ∧ x.Delivers dirs := by
  have hstep : ∀ (x : Exchange) e x', x.Delivers dirs → x.net.Succeeds e → x.step e = .ok x' →
      x'.Delivers dirs := fun _ _ _ hd hs h => hd.step hs h
  refine ⟨meets_of_invariant hstep (fun x e hd hs => ?_) hd hes, exec_invariant hstep hd hes h⟩
  exact ⟨fun f hf hne => hd.handshaken.greeted_of_taken hf hne,
    fun n' h f hf hne => hd.handshaken.greeted_of_added hs.1 h hf hne⟩

/-- Two processes talk to each other, and every send succeeds and every history can be opened. But
for the uids, they neither receive nor send anything before the handshake; and at all times what one
has sent is what the other has filed, in its history with it, and what is still on the way. -/
theorem delivered_of_run (hstart : ∀ h, Opened (home h) (username h) (n h))
    (hes : Meets step (fun x e => x.net.Succeeds e) (start n) es)
    (h : exec step (start n) es = .ok x) :
    Meets step (fun x e => x.net.AfterHandshake (fun h => userDir (home h) (username h)) e)
      (start n) es ∧
    ∀ h, x.sent h.other = x.recorded h ++ texts (x.net h.other).up ∧
      x.InHistory (fun h => userDir (home h) (username h)) h := by
  obtain ⟨hafter, hd⟩ := delivers_of_run (delivers_start hstart) hes h
  exact ⟨hafter, fun h => ⟨hd.sent h, hd.filed h⟩⟩

theorem delivered_of_run_hi :
    let es : List ChatEvent := [.main .fst .allOk [], .main .snd .allOk [],
      .receive .fst .allOk [], .receive .snd .allOk [], .main .fst .allOk [],
      .main .fst .allOk (str "hi\n"), .receive .snd .allOk []]
    ∃ a b x, Party.chat (str "/home/ann") none (fun _ => none) .allOk 7 = .ok a ∧
      Party.chat (str "/home/bob") none (fun _ => none) .allOk 8 = .ok b ∧
      exec step (start (ChatNet.put .fst a b)) es = .ok x ∧ x.sent .fst = [str "hi"] ∧
      x.recorded .snd = [str "hi"] ∧ Filed (x.recorded .snd) ((x.net .snd).files.content
        (historyFile (str "/home/bob/lmp/default/") (str "10000007"))) := by
  intro es
  obtain ⟨n, hn, hes, hok, hrun⟩ :=
    exists_ok (x := (do
      let a ← Party.chat (str "/home/ann") none (fun _ => none) .allOk 7
      let b ← Party.chat (str "/home/bob") none (fun _ => none) .allOk 8
      return ChatNet.put .fst a b : Except Halt ChatNet))
      (P := fun n => Meets step (fun x e => x.net.Succeeds e) (start n) es ∧
        (exec step (start n) es).isOk ∧ ∀ x ∈ (exec step (start n) es).toOption,
          x.sent .fst = [str "hi"] ∧ x.recorded .snd = [str "hi"] ∧
            (x.net .fst).myUid.toStr = str "10000007")
      rfl (by decide +kernel)
  obtain ⟨a, ha, hn⟩ := bind_ok hn
  obtain ⟨b, hb, hn⟩ := bind_ok hn
  cases hn
  obtain ⟨x, hx, hsent, hrecorded, huid⟩ := exists_ok hok hrun
  have hopened : ∀ h : Host, Opened (if h = .fst then str "/home/ann" else str "/home/bob") none
      (ChatNet.put .fst a b h) := by
    intro h
    cases h with
    | fst => exact ⟨_, _, _, ha⟩
    | snd => exact ⟨_, _, _, hb⟩
  have hfiled := ((delivered_of_run hopened hes hx).2 .snd).2
  have hdir : userDir (str "/home/bob") none = str "/home/bob/lmp/default/" := by decide +kernel
  refine ⟨a, b, x, ha, hb, hx, hsent, hrecorded, ?_⟩
  rw [← hdir, ← huid]
  exact hfiled

end Exchange

end SocketSpeak
