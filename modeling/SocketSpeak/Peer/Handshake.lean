import SocketSpeak.Peer.ChatNet

/-!
# The handshake

The frame with the uid is the first one in each direction, and a process that has not received it
sends nothing but its own (`Channel`). So every other frame comes from a process that has its
history path, and meets one that has it too (`Handshaken`).
-/

namespace SocketSpeak
open CLib Sys

/-! ## Rounds -/

/-- Where the history with the peer `uid` lies, in the user directory `dir`. -/
def historyFile (dir uid : Bytes) : Bytes := dir ++ str "peers/" ++ uid ++ str "/history.txt"

namespace Chatter
variable {S S' : UInt8 → Bytes → Prop} {L : Prop} {p p' : Chatter} {env : ChatEnv} {dir : Bytes}

/-- What only the frame with the uid changes. -/
structure SameHandshake (p p' : Chatter) : Prop where
  myUid : p'.myUid = p.myUid
  ready : p'.peerUidReady = p.peerUidReady
  peerUid : p'.peerUid = p.peerUid
  historyPath : p'.historyPath = p.historyPath

theorem SameHandshake.refl (p : Chatter) : SameHandshake p p := ⟨rfl, rfl, rfl, rfl⟩

/-- A round that is no handshake; the frames that it sends are in `S`. -/
structure Keeps (S : UInt8 → Bytes → Prop) (p p' : Chatter) : Prop extends
    SameHandshake p p' where
  up : ∃ out, p'.up = p.up ++ out ∧ ∀ f ∈ out, S f.type f.payload

theorem Keeps.refl (p : Chatter) : Keeps S p p :=
  ⟨.refl p, [], (List.append_nil _).symm, fun _ hf => by cases hf⟩

theorem Acts.keeps (h : Acts S L p p') : Keeps S p p' := by
  induction h with
  | done => exact .refl p
  | user _ hup huid ih =>
    exact ⟨⟨ih.myUid, ih.ready, huid.trans ih.peerUid, ih.historyPath⟩, hup ▸ ih.up⟩
  | nick _ ih | save _ _ _ ih | create _ _ _ ih | load _ _ _ ih =>
    exact ⟨⟨ih.myUid, ih.ready, ih.peerUid, ih.historyPath⟩, ih.up⟩
  | @send p' env type payload _ hs ih =>
    obtain ⟨out, hup, hout⟩ := ih.up
    unfold lmpSend
    split
    · refine ⟨⟨ih.myUid, ih.ready, ih.peerUid, ih.historyPath⟩,
        out ++ [lmpFrame type payload], ?_, ?_⟩
      · dsimp only
        rw [hup, List.append_assoc]
      · intro f hf
        rcases List.mem_append.mp hf with hf | hf
        · exact hout f hf
        · rw [List.mem_singleton.mp hf]
          exact hs
    · exact ih
  | @append p' env speaker message _ ih =>
    obtain ⟨files, hfiles⟩ := p'.files_historyAppend env speaker message
    rw [hfiles]
    exact ⟨⟨ih.myUid, ih.ready, ih.peerUid, ih.historyPath⟩, ih.up⟩

theorem sendable_of_answers {code type : UInt8} {payload : Bytes}
    (h : Answers code type payload) : Sendable type payload := by
  obtain ⟨-, rfl, rfl⟩ := h
  exact sendable_of_ne (by decide) (by decide) (by decide)

/-- The frame with a uid sets the history path, and sends nothing. -/
theorem receive_uid {uid : CharArray (UID_LENGTH + 1)} {buf : Bytes} (huid : IsUid uid)
    (hd : p.directory.shown = dir) (h : p.receive env (lmpFrame LMP_UID uid.toStr) buf = .ok p') :
    p'.peerUidReady = true ∧ p'.peerUid.toStr = uid.toStr ∧
      p'.historyPath.toStr = historyFile dir uid.toStr ∧
      p'.myUid = p.myUid ∧ p'.up = p.up ∧ p'.files = p.files := by
  obtain ⟨r, h⟩ := uidRecv_of_receive rfl h
  obtain ⟨peerUid, q, k, nick, stdout, hpeer, hq, -, hfiles, rfl⟩ := uidRecv_ok h
  obtain ⟨d, peerDir, historyPath, rfl, -, hpath⟩ := historyPrepare_ok hq
  have hlen : uid.toStr.length = 8 := huid.1
  have hstr : peerUid.toStr = uid.toStr := by
    rw [hpeer]
    change (CharArray.ofBytes (UID_LENGTH + 1)
      ((uid.toStr ++ 0 :: _).take (min uid.toStr.length 8) ++ 0 :: _)).toStr = _
    rw [hlen, Nat.min_self, ← hlen, List.take_left]
    exact CharArray.toStr_ofBytes_nul (cstr_nulFree _) (by rw [hlen]; decide)
  have hne : peerUid.toStr ≠ [] := by
    rw [hstr]
    exact List.ne_nil_of_length_eq_add_one hlen
  refine ⟨rfl, hstr, ?_, rfl, rfl, hfiles⟩
  rw [hpath hne, hstr, hd]
  rfl

end Chatter

namespace Party
variable {dir : Bytes} {a a' b b' : Party} {env : ChatEnv} {stdin buf : Bytes}

/-- What holds of a process whose user directory is `dir`: before the handshake the catalogue is not
loaded, and no line is read. -/
structure Sound (dir : Bytes) (a : Party) : Prop where
  directory : DirectoryIs dir a.stickers a.toDisk
  uid : IsUid a.myUid
  waits : a.peerUidReady = false →
    a.stickers.historyLoaded = false ∧ (a.phase = .starting ∨ a.phase = .waiting)

/-- The frame that `lmp_send_uid` sends. -/
def uidFrame (a : Party) : Frame := lmpFrame LMP_UID a.myUid.toStr

/-- The main thread has sent its uid. -/
def hello (a : Party) : Party :=
  { a with toChatter := { a.toChatter with up := a.up ++ [a.uidFrame] }, phase := .waiting }

/-- What has been written and not been read is `up` now. -/
def unread (b : Party) (up : List Frame) : Party :=
  { b with toChatter := { b.toChatter with up := up } }

/-- A round after the handshake that may send and that may load the catalogue. -/
structure Active (a a' : Party) : Prop where
  ready : a.peerUidReady = true
  phase : a.phase ≠ .starting
  phase' : a'.phase ≠ .starting
  acts : Chatter.Acts Chatter.Sendable True a.toChatter a'.toChatter

theorem Sound.ready (ha : a.Sound dir) (hs : a.phase ≠ .starting) (hw : a.phase ≠ .waiting) :
    a.peerUidReady = true := by
  by_contra hno
  exact (ha.waits (by simpa using hno)).2.elim hs hw

theorem mainStep_ok (ha : a.Sound dir) (hsend : env.sendOk = true)
    (h : a.mainStep env stdin = .ok a') :
    a' = a ∨ (a.phase = .starting ∧ a' = a.hello) ∨ a.Active a' := by
  unfold mainStep at h
  split at h
  · rename_i hphase
    cases h
    have hne : a.myUid.toStr ≠ [] := List.ne_nil_of_length_eq_add_one ha.uid.1
    refine .inr (.inl ⟨hphase, ?_⟩)
    rw [hello, Chatter.sendUid, if_neg hne, Chatter.lmpSend, if_pos hsend]
    rfl
  · rename_i hphase
    cases h
    split
    · rename_i hset
      exact .inr (.inr ⟨hset, by rw [hphase]; decide, fun h => (by cases h), .done⟩)
    · exact .inl rfl
  · rename_i hphase
    have hset := ha.ready (by rw [hphase]; decide) (by rw [hphase]; decide)
    have hstart : a.phase ≠ .starting := by rw [hphase]; decide
    split at h
    · cases h
      exact .inr (.inr ⟨hset, hstart, fun h => (by cases h), .done⟩)
    · rename_i line hline
      cases ht : a.typed env line with
      | error e => rw [ht] at h; cases h
      | ok p =>
        rw [ht] at h
        cases h
        have hacts := Chatter.acts_of_typed (Chatter.length_lt_of_readLine hline) ht
        exact .inr (.inr ⟨hset, hstart, hstart, hacts.mono (fun _ _ h => h) fun _ => trivial⟩)
  · cases h
    exact .inl rfl

/-- The receiver returns, or handles the frame that comes first. -/
theorem receiveStep_ok (h : a.receiveStep b env buf = .ok (a', b')) :
    (b.up = [] ∧ b.phase = .closed ∧ a' = a.hangUp ∧ b' = b) ∨ ∃ f up, b.up = f :: up ∧
      b' = b.unread up ∧ (RECV_BUF_SIZE ≤ f.payload.length ∧ a' = a.hangUp ∨
        ∃ p, a.receive { env with sendOk := env.sendOk && a.phase ≠ .closed } f buf = .ok p ∧
          a' = { a with toChatter := p }) := by
  unfold receiveStep at h
  split at h
  · cases h
  split at h
  · rename_i hup
    split at h
    · rename_i hclosed
      cases h
      exact .inl ⟨hup, hclosed, rfl, rfl⟩
    · cases h
  · rename_i f up hup
    split at h
    · cases hr : a.receive { env with sendOk := env.sendOk && a.phase ≠ .closed } f buf with
      | error e => rw [hr] at h; cases h
      | ok p =>
        rw [hr] at h
        cases h
        exact .inr ⟨f, up, hup, rfl, .inr ⟨p, hr, rfl⟩⟩
    · rename_i hlong
      cases h
      exact .inr ⟨f, up, hup, rfl, .inl ⟨Nat.not_lt.mp hlong, rfl⟩⟩

theorem Active.sound (h : a.Active a') (ha : a.Sound dir) : a'.Sound dir where
  directory := h.acts.directoryIs ha.directory
  uid := by
    rw [IsUid, h.acts.keeps.myUid]
    exact ha.uid
  waits hno := by
    rw [h.acts.keeps.ready, h.ready] at hno
    cases hno

end Party

/-! ## The channels -/

namespace ChatNet
open Chatter Party
variable {dir : Bytes} {x x' y y' : Party} {f : Frame} {up : List Frame}

/-- `y` has processed the uid of `x`, and has set its history path. -/
structure Greeted (dir : Bytes) (x y : Party) : Prop where
  ready : y.peerUidReady = true
  peerUid : y.peerUid.toStr = x.myUid.toStr
  historyPath : y.historyPath.toStr = historyFile dir x.myUid.toStr

/-- What holds between `x` and the process that reads what it writes. -/
structure Channel (dir : Bytes) (x y : Party) : Prop where
  start : x.phase = .starting → x.up = [] ∧ y.peerUidReady = false
  pending : x.phase ≠ .starting → y.peerUidReady = false →
    ∃ fs, x.up = x.uidFrame :: fs ∧ ∀ f ∈ fs, f.type ≠ LMP_UID
  passed : y.peerUidReady = true → Greeted dir x y ∧ ∀ f ∈ x.up, f.type ≠ LMP_UID
  quiet : x.peerUidReady = false → ∀ f ∈ x.up, f.type = LMP_UID
  fits : ∀ f ∈ x.up, f.payload.length < RECV_BUF_SIZE ∧ (f.type = LMP_MSG → NulFree f.payload)

theorem Greeted.keeps (hg : Greeted dir x y) (huid : x'.myUid = x.myUid)
    (h : SameHandshake y.toChatter y'.toChatter) : Greeted dir x' y' := by
  refine ⟨h.ready.trans hg.ready, ?_, ?_⟩
  · rw [h.peerUid, huid]
    exact hg.peerUid
  · rw [h.historyPath, huid]
    exact hg.historyPath

theorem Channel.read (hc : Channel dir x y) (h : SameHandshake y.toChatter y'.toChatter) :
    Channel dir x y' := by
  have hready := h.ready
  refine ⟨fun hx => ?_, fun hx hy => ?_, fun hy => ?_, hc.quiet, hc.fits⟩
  · exact ⟨(hc.start hx).1, hready.trans (hc.start hx).2⟩
  · exact hc.pending hx (hready ▸ hy)
  · obtain ⟨hgreeted, hno⟩ := hc.passed (hready ▸ hy)
    exact ⟨hgreeted.keeps rfl h, hno⟩

/-- A process that has the uid of the other one writes `out`. -/
theorem Channel.write {out : List Frame} (hc : Channel dir x y) (huid : x'.myUid = x.myUid)
    (hready : x'.peerUidReady = true) (hphase : x'.phase = .starting ↔ x.phase = .starting)
    (hup : x'.up = x.up ++ out) (hout : ∀ f ∈ out, Sendable f.type f.payload)
    (hnone : x.phase = .starting → out = []) : Channel dir x' y := by
  refine ⟨fun hx => ?_, fun hx hy => ?_, fun hy => ?_, fun hx => ?_, ?_⟩
  · rw [hup, hnone (hphase.mp hx), List.append_nil]
    exact hc.start (hphase.mp hx)
  · obtain ⟨fs, hfs, hno⟩ := hc.pending (fun h => hx (hphase.mpr h)) hy
    refine ⟨fs ++ out, ?_, List.forall_mem_append.mpr ⟨hno, fun f hf => (hout f hf).not_uid⟩⟩
    rw [hup, hfs, uidFrame, uidFrame, huid]
    rfl
  · obtain ⟨hgreeted, hno⟩ := hc.passed hy
    rw [hup]
    refine ⟨hgreeted.keeps huid (.refl _), ?_⟩
    exact List.forall_mem_append.mpr ⟨hno, fun f hf => (hout f hf).not_uid⟩
  · rw [hready] at hx
    cases hx
  · rw [hup]
    exact List.forall_mem_append.mpr
      ⟨hc.fits, fun f hf => ⟨(hout f hf).fits, (hout f hf).nulFree⟩⟩

theorem Channel.active (hc : Channel dir x y) (h : x.Active x') : Channel dir x' y := by
  obtain ⟨⟨huid, hready, -, -⟩, out, hup, hout⟩ := h.acts.keeps
  apply hc.write huid (hready.trans h.ready) (iff_of_false h.phase' h.phase) hup hout
  exact fun hx => absurd hx h.phase

theorem Channel.hello (hc : Channel dir x y) (hx : x.phase = .starting) (huid : IsUid x.myUid) :
    Channel dir x.hello y := by
  obtain ⟨hnil, hready⟩ := hc.start hx
  have hup : x.hello.up = [x.uidFrame] := congrArg (· ++ [x.uidFrame]) hnil
  refine ⟨fun h => (by cases h), fun _ _ => ⟨[], hup, fun f hf => by cases hf⟩, fun hy => ?_,
    fun _ => ?_, ?_⟩
  · rw [hready] at hy
    cases hy
  · rw [hup]
    exact List.forall_mem_singleton.mpr rfl
  · rw [hup]
    have hmsg : LMP_UID ≠ LMP_MSG := by decide
    refine List.forall_mem_singleton.mpr ⟨?_, fun h => absurd h hmsg⟩
    exact Nat.lt_of_le_of_lt (Nat.le_of_eq huid.1) (by decide)

/-- A frame is received, and the handshake has taken place when it has been. -/
theorem Channel.pop (hc : Channel dir x y) (hup : x.up = f :: up)
    (hno : ∀ g ∈ up, g.type ≠ LMP_UID) (hg : Greeted dir x y') :
    Channel dir (x.unread up) y' := by
  have hmem : ∀ {g}, g ∈ up → g ∈ x.up := fun hg => hup ▸ List.mem_cons_of_mem f hg
  refine ⟨fun hx => ?_, fun _ hn => ?_, fun _ => ⟨hg.keeps rfl (.refl _), hno⟩,
    fun hx g hg => hc.quiet hx g (hmem hg), fun g hg => hc.fits g (hmem hg)⟩
  · have hnil := (hc.start hx).1
    rw [hup] at hnil
    cases hnil
  · rw [hg.ready] at hn
    cases hn

/-- Whoever reads has been sent a uid. -/
theorem Channel.started (hc : Channel dir x y) (h : y.peerUidReady = true ∨ x.up ≠ []) :
    x.phase ≠ .starting := by
  intro hx
  obtain ⟨hnil, hno⟩ := hc.start hx
  rcases h with hy | hne
  · rw [hno] at hy
    cases hy
  · exact hne hnil

section Net
variable {dirs : Host → Bytes} {n n' : ChatNet} {h : Host} {a b : Party} {env : ChatEnv}
  {stdin buf : Bytes} {e : ChatEvent}

/-- What holds at all times, where `dirs` are the two user directories. -/
def Handshaken (dirs : Host → Bytes) (n : ChatNet) : Prop :=
  ∀ h, (n h).Sound (dirs h) ∧ Channel (dirs h) (n h.other) (n h)

theorem handshaken_put (ha : a.Sound (dirs h)) (hb : b.Sound (dirs h.other))
    (hba : Channel (dirs h) b a) (hab : Channel (dirs h.other) a b) :
    Handshaken dirs (put h a b) := by
  intro k
  rcases h.eq_or_eq_other k with rfl | rfl
  · rw [put_self, put_other]
    exact ⟨ha, hba⟩
  · rw [h.other_other, put_self, put_other]
    exact ⟨hb, hab⟩

theorem Handshaken.channel (hn : Handshaken dirs n) (h : Host) :
    Channel (dirs h.other) (n h) (n h.other) := by
  have hc := (hn h.other).2
  rwa [h.other_other] at hc

theorem Handshaken.main (hn : Handshaken dirs n) (hsend : env.sendOk = true)
    (ha : (n h).mainStep env stdin = .ok a) : Handshaken dirs (put h a (n h.other)) := by
  obtain ⟨hsound, hba⟩ := hn h
  have hb := (hn h.other).1
  have hab := hn.channel h
  rcases mainStep_ok hsound hsend ha with rfl | ⟨hphase, rfl⟩ | hact
  · exact handshaken_put hsound hb hba hab
  · refine handshaken_put ⟨hsound.directory, hsound.uid, fun hno => ?_⟩ hb
      (hba.read ⟨rfl, rfl, rfl, rfl⟩) (hab.hello hphase hsound.uid)
    exact ⟨(hsound.waits hno).1, .inr rfl⟩
  · exact handshaken_put (hact.sound hsound) hb (hba.read hact.acts.keeps.toSameHandshake)
      (hab.active hact)

/-- The frame that is received first is the one with the uid. -/
theorem Channel.uid (hc : Channel dir x y) (hup : x.up = f :: up) (hy : y.peerUidReady = false) :
    f = x.uidFrame ∧ ∀ g ∈ up, g.type ≠ LMP_UID := by
  obtain ⟨fs, hfs, hno⟩ := hc.pending (hc.started (.inr (hup ▸ List.cons_ne_nil f up))) hy
  rw [hup, List.cons.injEq] at hfs
  obtain ⟨rfl, rfl⟩ := hfs
  exact ⟨rfl, hno⟩

theorem Handshaken.greeted (hn : Handshaken dirs n) {p : Chatter}
    (hready : (n h).peerUidReady = false)
    (hp : (n h).receive env (n h.other).uidFrame buf = .ok p) :
    p.peerUidReady = true ∧ p.peerUid.toStr = (n h.other).myUid.toStr ∧
      p.historyPath.toStr = historyFile (dirs h) (n h.other).myUid.toStr ∧
      p.myUid = (n h).myUid ∧ p.up = (n h).up ∧ p.files = (n h).files := by
  have hsound := (hn h).1
  refine receive_uid (hn h.other).1.uid ?_ hp
  rw [hsound.directory, (hsound.waits hready).1]
  rfl

/-- A round of the receiver of `h`: what becomes of it, and of the other process. -/
inductive Received (n : ChatNet) (h : Host) (env : ChatEnv) (buf : Bytes) : Party → Party → Prop
  | hangUp : (n h.other).up = [] → (n h).Active (n h).hangUp →
    Received n h env buf (n h).hangUp (n h.other)
  | frame {f up p} : (n h.other).up = f :: up → f.type ≠ LMP_UID →
    (n h).receive { env with sendOk := env.sendOk && (n h).phase ≠ .closed } f buf = .ok p →
    (n h).Active { n h with toChatter := p } →
    Received n h env buf { n h with toChatter := p } ((n h.other).unread up)
  | greeting {up p} : (n h.other).up = (n h.other).uidFrame :: up →
    (∀ f ∈ up, f.type ≠ LMP_UID) → (n h).peerUidReady = false →
    (n h).receive { env with sendOk := env.sendOk && (n h).phase ≠ .closed }
      (n h.other).uidFrame buf = .ok p →
    Received n h env buf { n h with toChatter := p } ((n h.other).unread up)

theorem Handshaken.received (hn : Handshaken dirs n)
    (hab : (n h).receiveStep (n h.other) env buf = .ok (a, b)) : Received n h env buf a b := by
  obtain ⟨hsound, hread⟩ := hn h
  have hwrite := hn.channel h
  rcases receiveStep_ok hab with ⟨hnil, hclosed, rfl, rfl⟩ | ⟨f, up, hup, rfl, hcase⟩
  · have hstarted : (n h.other).phase ≠ .starting := by rw [hclosed]; decide
    have hready : (n h).peerUidReady = true := by
      by_contra hno
      obtain ⟨fs, hfs, -⟩ := hread.pending hstarted (by simpa using hno)
      rw [hnil] at hfs
      cases hfs
    have hgreeted := (hn h.other).1.ready hstarted (by rw [hclosed]; decide)
    have hstart := hwrite.started (.inl hgreeted)
    exact .hangUp hnil ⟨hready, hstart, hstart, Acts.print .done _⟩
  have hmem : f ∈ (n h.other).up := hup ▸ List.mem_cons_self
  rcases hcase with ⟨hlong, -⟩ | ⟨p, hp, rfl⟩
  · exact absurd (hread.fits f hmem).1 (Nat.not_lt.mpr hlong)
  cases hready : (n h).peerUidReady with
  | false =>
    obtain ⟨rfl, hno⟩ := hread.uid hup hready
    exact .greeting hup hno hready hp
  | true =>
    have huid := (hread.passed hready).2 f hmem
    -- the other process has sent more than its uid, so it has the one of this process
    have hstart : (n h).phase ≠ .starting := by
      apply hwrite.started
      by_contra hno
      exact huid (hread.quiet (by simpa using fun h => hno (.inl h)) f hmem)
    exact .frame hup huid hp ⟨hready, hstart, hstart,
      (acts_of_receive huid hp).mono (fun _ _ => sendable_of_answers) False.elim⟩

theorem Handshaken.receive (hn : Handshaken dirs n) (hab : Received n h env buf a b) :
    Handshaken dirs (put h a b) := by
  obtain ⟨hsound, hread⟩ := hn h
  have hb := (hn h.other).1
  have hwrite := hn.channel h
  cases hab with
  | hangUp hnil hact =>
    exact handshaken_put (hact.sound hsound) hb (hread.read hact.acts.keeps.toSameHandshake)
      (hwrite.active hact)
  | @frame f up p hup huid hp hact =>
    have hread' : Channel (dirs h) (n h.other) { n h with toChatter := p } :=
      hread.read hact.acts.keeps.toSameHandshake
    obtain ⟨hg, hno⟩ := hread'.passed (hact.acts.keeps.ready.trans hact.ready)
    exact handshaken_put (hact.sound hsound) ⟨hb.directory, hb.uid, hb.waits⟩
      (hread'.pop hup (fun g hg => hno g (hup ▸ List.mem_cons_of_mem f hg)) hg)
      ((hwrite.active hact).read ⟨rfl, rfl, rfl, rfl⟩)
  | @greeting up p hup hno hready hp =>
    obtain ⟨hdir, -⟩ := directoryIs_of_uid rfl hp hsound.directory
    obtain ⟨hset, hpeer, hpath, huid, hupp, -⟩ := hn.greeted hready hp
    have hwrite' : Channel (dirs h.other) { n h with toChatter := p } (n h.other) := by
      have hout : p.up = (n h).up ++ [] := hupp.trans (List.append_nil _).symm
      refine hwrite.write huid hset Iff.rfl hout ?_ fun _ => rfl
      exact fun f hf => absurd hf List.not_mem_nil
    refine handshaken_put ⟨hdir, ?_, fun hnot => ?_⟩ ⟨hb.directory, hb.uid, hb.waits⟩
      (hread.pop hup hno ⟨hset, hpeer, hpath⟩) (hwrite'.read ⟨rfl, rfl, rfl, rfl⟩)
    · rw [IsUid, huid]
      exact hsound.uid
    · rw [hset] at hnot
      cases hnot

theorem Handshaken.step (hn : Handshaken dirs n) (hsend : e.env.sendOk = true)
    (h : n.step e = .ok n') : Handshaken dirs n' := by
  cases e with
  | main k env stdin =>
    obtain ⟨a, ha, rfl⟩ := step_main h
    exact hn.main hsend ha
  | receive k env buf =>
    obtain ⟨a, b, hab, rfl⟩ := step_receive h
    exact hn.receive (hn.received hab)

end Net

end ChatNet

end SocketSpeak
