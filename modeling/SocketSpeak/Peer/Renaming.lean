import SocketSpeak.Peer.Deeds

/-!
# The nicknames of a chat

A nickname is set on both sides by one frame, and acknowledged by another. `Turn` says what a round
has to do with this, and `Attests` what holds between the process that a nickname belongs to and the
one that shows it. So the messages are shown under the nickname that they were typed under, and when
every nickname has been acknowledged the other side has the last one.
-/

namespace SocketSpeak
open CLib Sys

/-! ## What a frame does to the nicknames -/

namespace Chatter
variable {p p' : Chatter} {env : ChatEnv}

theorem message_of_receive {f : Frame} {buf : Bytes} (hf : f.type = LMP_MSG)
    (hfree : NulFree f.payload) (h : p.receive env f buf = .ok p') :
    p'.stdout = p.stdout ++ [chatLine p.peerNick.toStr f.payload] := by
  obtain ⟨res, q, hq, rfl⟩ := receive_ok h
  rw [hf] at hq
  change msgRecv env LMP_MSG (f.payload ++ 0 :: _) f.payload.length p = _ at hq
  rw [msgRecv, hfree.cstr_append_nul] at hq
  cases hq
  rw [if_neg (by decide)]
  obtain ⟨files, hfiles⟩ := (p.print (chatLine p.peerNick.toStr f.payload)).files_historyAppend env
    p.peerNick.toStr f.payload
  exact congrArg (fun q : Chatter => q.stdout) hfiles

theorem up_of_receive {f : Frame} {buf : Bytes} (huid : f.type ≠ LMP_UID)
    (hnick : f.type ≠ LMP_NICK) (h : p.receive env f buf = .ok p') : p'.up = p.up := by
  obtain ⟨out, hup, hout⟩ := (acts_of_receive huid h).keeps.up
  cases out with
  | nil => rw [hup, List.append_nil]
  | cons g out => exact absurd (hout g List.mem_cons_self).1 hnick

theorem myNick_of_uid {f : Frame} {buf : Bytes} (hf : f.type = LMP_UID)
    (h : p.receive env f buf = .ok p') : p'.myNick = p.myNick := by
  obtain ⟨r, h⟩ := uidRecv_of_receive hf h
  obtain ⟨peerUid, q, k, nick, stdout, -, hq, -, -, rfl⟩ := uidRecv_ok h
  obtain ⟨d, peerDir, historyPath, rfl, -, -⟩ := historyPrepare_ok hq
  rfl

end Chatter

/-! ## A round of one process -/

/-- How many of the frames have the type. -/
def countOf (type : UInt8) (fs : List Frame) : Nat := fs.countP fun f => f.type = type

section
variable {type : UInt8} {fs fs' : List Frame} {f : Frame}

theorem countOf_append : countOf type (fs ++ fs') = countOf type fs + countOf type fs' :=
  List.countP_append

theorem countOf_eq_zero : countOf type fs = 0 ↔ ∀ f ∈ fs, f.type ≠ type := by
  simp [countOf]

theorem countOf_singleton (h : f.type = type) : countOf type [f] = 1 := by
  simp [countOf, h]

theorem texts_eq_nil (h : ∀ f ∈ fs, f.type ≠ LMP_MSG) : texts fs = [] := by
  rw [texts, List.filter_eq_nil_iff.mpr fun f hf => by simpa using h f hf]
  rfl

end

/-- What a frame does to the nickname that is held of its sender; the one that is loaded with a uid
may be any. -/
def Renames (nick : CharArray NICKNAME_MAX_LEN) (f : Frame) (nick' : CharArray NICKNAME_MAX_LEN) :
    Prop :=
  if f.type = LMP_NICK then nick' = .copyStr _ f.payload
  else if f.type = LMP_UID then True
  else nick' = nick

theorem renames_self {nick : CharArray NICKNAME_MAX_LEN} {f : Frame} (hf : f.type ≠ LMP_NICK) :
    Renames nick f nick := by
  rw [Renames, if_neg hf]
  split <;> trivial

theorem exists_renames (nick : CharArray NICKNAME_MAX_LEN) (f : Frame) :
    ∃ nick', Renames nick f nick' := by
  by_cases hf : f.type = LMP_NICK
  · exact ⟨_, by rw [Renames, if_pos hf]⟩
  · exact ⟨nick, renames_self hf⟩

theorem renames_uid {nick nick' : CharArray NICKNAME_MAX_LEN} {f : Frame} (hf : f.type = LMP_UID) :
    Renames nick f nick' := by
  rw [Renames, if_neg (by rw [hf]; decide), if_pos hf]
  trivial

theorem eq_of_renames {nick nick' : CharArray NICKNAME_MAX_LEN} {f : Frame}
    (hnick : f.type ≠ LMP_NICK) (huid : f.type ≠ LMP_UID) (h : Renames nick f nick') :
    nick' = nick := by
  rwa [Renames, if_neg hnick, if_neg huid] at h

theorem keeps_renames {P : CharArray NICKNAME_MAX_LEN → Prop} {f : Frame}
    (hnick : f.type ≠ LMP_NICK) (huid : f.type ≠ LMP_UID) : Fifo.Keeps Renames P f :=
  fun _ _ hr h => eq_of_renames hnick huid h ▸ hr

theorem sets_renames {f : Frame} (hnick : f.type = LMP_NICK) :
    Fifo.Sets Renames (· = .copyStr _ f.payload) f := by
  intro r r' h
  rwa [Renames, if_pos hnick] at h

namespace ChatNet
open Chatter Party
variable {dirs : Host → Bytes} {n n' : ChatNet} {h k : Host} {a b : Party} {e : ChatEvent}
  {env : ChatEnv} {stdin buf : Bytes} {f : Frame} {fs out : List Frame}

/-- The types of all frames that are sent. -/
def frameTypes : List UInt8 := LMP_UID :: LMP_NICK :: LMP_ACK :: commandTypes

/-- What a round that receives `fs` sends. -/
structure Sends (x x' : Party) (fs out : List Frame) : Prop where
  writes : x'.up = x.up ++ out
  start : x'.phase = .starting → x.phase = .starting ∧ out = []
  closed : x.phase = .closed → x'.phase = .closed ∧ out = []
  types : ∀ f ∈ out, f.type ∈ frameTypes
  uid : ∀ f ∈ out, f.type = LMP_UID → x.phase = .starting
  mine : x'.myNick = x.myNick ∧ (∀ f ∈ out, f.type ≠ LMP_NICK) ∨
    ∃ args, x'.myNick = .copyStr _ args ∧ out = [lmpFrame LMP_NICK args]
  /-- After `shutdown` a nickname is not acknowledged. -/
  acks : countOf LMP_ACK out = if x.phase = .closed then 0 else countOf LMP_NICK fs

/-- What a round of `h` has to do with the nicknames, where it receives `fs` and sends `out`. -/
structure Turn (n : ChatNet) (h : Host) (fs out : List Frame) (a b : Party) : Prop extends
    Sends (n h) a fs out where
  reads : ∃ up, (n h.other).up = fs ++ up ∧ b = (n h.other).unread up
  renames : Fifo.Takes Renames fs (n h).peerNick a.peerNick
  shows : ∀ f ∈ fs, f.type = LMP_MSG →
    a.stdout = (n h).stdout ++ [chatLine (n h).peerNick.toStr f.payload]
  hangsUp : a.receiving = (n h).receiving ∨ (n h.other).up = [] ∧ (n h.other).phase = .closed

section
variable {x x' : Party}

theorem sends_none (hup : x'.up = x.up) (hmine : x'.myNick = x.myNick)
    (hstart : x'.phase = .starting → x.phase = .starting)
    (hclosed : x.phase = .closed → x'.phase = .closed) (hfs : ∀ f ∈ fs, f.type ≠ LMP_NICK) :
    Sends x x' fs [] where
  writes := hup.trans (List.append_nil _).symm
  start h := ⟨hstart h, rfl⟩
  closed h := ⟨hclosed h, rfl⟩
  types _ hf := by cases hf
  uid _ hf := by cases hf
  mine := .inl ⟨hmine, fun _ hf => by cases hf⟩
  acks := by
    rw [countOf_eq_zero.mpr hfs]
    exact (ite_self 0).symm

theorem ne_of_forall {code type : UInt8} (hout : ∀ f ∈ out, f.type = code) (hne : code ≠ type) :
    ∀ f ∈ out, f.type ≠ type := fun f hf htype => hne ((hout f hf).symm.trans htype)

/-- What a typed line sends. -/
theorem sends_of_utters (hphase : x.phase = .looping) {p : Chatter}
    (h : x.toChatter.Utters true p) : ∃ out, Sends x { x with toChatter := p } [] out := by
  have hstart : x.phase ≠ .starting := by rw [hphase]; decide
  have hclosed : x.phase ≠ .closed := by rw [hphase]; decide
  cases h with
  | @plain code hcode hp =>
    obtain ⟨out, hup, hout⟩ := hp.acts.keeps.up
    have hne : ∀ {type}, type ∉ commandTypes → ∀ f ∈ out, f.type ≠ type := fun ht =>
      ne_of_forall hout fun heq => ht (heq ▸ hcode)
    refine ⟨out, hup, fun hs => absurd hs hstart, fun hc => absurd hc hclosed, fun f hf => ?_,
      fun f hf huid => absurd huid (hne (by decide) f hf), .inl ⟨hp.nicks.1, hne (by decide)⟩, ?_⟩
    · rw [hout f hf]
      simp [frameTypes, hcode]
    · rw [countOf_eq_zero.mpr (hne (by decide))]
      exact (ite_self 0).symm
  | @nick args hmine hpeer hup _ =>
    have hout : ∀ f ∈ [lmpFrame LMP_NICK args], f.type = LMP_NICK :=
      List.forall_mem_singleton.mpr rfl
    rw [if_pos rfl] at hup
    refine ⟨_, hup, fun hs => absurd hs hstart, fun hc => absurd hc hclosed, fun f hf => ?_,
      fun f hf huid => absurd huid (ne_of_forall hout (by decide) f hf), .inr ⟨args, hmine, rfl⟩,
      ?_⟩
    · rw [hout f hf]
      decide
    · rw [countOf_eq_zero.mpr (ne_of_forall hout (by decide))]
      exact (ite_self 0).symm

end

theorem turn_main (hs : (n h).Sound (dirs h)) (hsend : env.sendOk = true)
    (ha : (n h).mainStep env stdin = .ok a) : ∃ out, Turn n h [] out a (n h.other) := by
  have hturn : ∀ {p phase out}, Sends (n h) { n h with toChatter := p, phase } [] out →
      p.peerNick = (n h).peerNick →
        ∃ out, Turn n h [] out { n h with toChatter := p, phase } (n h.other) :=
    fun hsends hpeer => ⟨_, hsends, ⟨_, rfl, rfl⟩, hpeer, fun _ hf => (by cases hf), .inl rfl⟩
  have hidle : ∀ phase : ChatPhase, phase ≠ .starting → ((n h).phase = .closed → phase = .closed) →
      ∃ out, Turn n h [] out { n h with phase } (n h.other) := fun _ hstart hclosed =>
    hturn (sends_none rfl rfl (fun hs => absurd hs hstart) hclosed fun _ hf => by cases hf) rfl
  unfold mainStep at ha
  split at ha
  · rename_i hphase
    cases ha
    have hne : (n h).myUid.toStr ≠ [] := List.ne_nil_of_length_eq_add_one hs.uid.1
    have hhello : ((n h).sendUid env).2 = (n h).hello.toChatter := by
      rw [sendUid, if_neg hne, Chatter.lmpSend, if_pos hsend]
      rfl
    rw [hhello]
    have hout : ∀ f ∈ [(n h).uidFrame], f.type = LMP_UID := List.forall_mem_singleton.mpr rfl
    refine hturn ⟨rfl, fun hs => (by cases hs), fun hc => ?_, fun f hf => ?_, fun _ _ _ => hphase,
      .inl ⟨rfl, ne_of_forall hout (by decide)⟩, ?_⟩ rfl
    · rw [hphase] at hc
      cases hc
    · rw [hout f hf]
      decide
    · rw [countOf_eq_zero.mpr (ne_of_forall hout (by decide))]
      exact (ite_self 0).symm
  · rename_i hphase
    cases ha
    have hwait : (n h).phase = .closed → ∀ phase : ChatPhase, phase = .closed := by
      rw [hphase]
      exact fun hc => by cases hc
    split
    · exact hidle _ (by decide) fun hc => hwait hc _
    · exact hidle (n h).phase (by rw [hphase]; decide) fun hc => hc
  · rename_i hphase
    split at ha
    · cases ha
      exact hidle _ (by decide) fun _ => rfl
    · rename_i line hline
      cases ht : (n h).typed env line with
      | error e => rw [ht] at ha; cases ha
      | ok p =>
        rw [ht] at ha
        cases ha
        have hutters := utters_of_typed ht
        rw [hsend] at hutters
        obtain ⟨out, hsends⟩ := sends_of_utters hphase hutters
        exact hturn hsends hutters.peerNick
  · rename_i hphase
    cases ha
    exact hidle (n h).phase (by rw [hphase]; decide) fun hc => hc

/-- A round of the receiver, for a frame that has been read. -/
theorem turn_frame {up : List Frame} {p : Chatter} (hup : (n h.other).up = f :: up)
    (hstart : (n h).phase ≠ .starting) (huid : f.type ≠ LMP_UID)
    (hfree : f.type = LMP_MSG → NulFree f.payload) (hsend : env.sendOk = true)
    (hp : (n h).receive { env with sendOk := env.sendOk && (n h).phase ≠ .closed } f buf =
      .ok p) : ∃ out, Turn n h [f] out { n h with toChatter := p } ((n h.other).unread up) := by
  have hshow : ∀ g ∈ [f], g.type = LMP_MSG →
      p.stdout = (n h).stdout ++ [chatLine (n h).peerNick.toStr g.payload] :=
    List.forall_mem_singleton.mpr fun hmsg => message_of_receive hmsg (hfree hmsg) hp
  by_cases hnick : f.type = LMP_NICK
  · obtain ⟨hmine, hpeer, hout, -⟩ := nick_of_receive hnick hp
    have hren : Renames (n h).peerNick f p.peerNick := by
      rw [Renames, if_pos hnick]
      exact hpeer
    by_cases hclosed : (n h).phase = .closed
    · rw [if_neg (by simp [hclosed]), List.append_nil] at hout
      refine ⟨[], ⟨hout.trans (List.append_nil _).symm, fun hs => absurd hs hstart,
        fun hc => ⟨hc, rfl⟩, fun _ hg => (by cases hg), fun _ hg => (by cases hg),
        .inl ⟨hmine, fun _ hg => by cases hg⟩, (if_pos hclosed).symm⟩, ⟨up, hup, rfl⟩,
        ⟨_, hren, rfl⟩, hshow, .inl rfl⟩
    · rw [if_pos (by simp [hsend, hclosed])] at hout
      have hack : ∀ f ∈ [lmpFrame LMP_ACK (str "nickname ack")], f.type = LMP_ACK :=
        List.forall_mem_singleton.mpr rfl
      refine ⟨_, ⟨hout, fun hs => absurd hs hstart, fun hc => absurd hc hclosed, fun g hg => ?_,
        fun g hg huid => absurd huid (ne_of_forall hack (by decide) g hg),
        .inl ⟨hmine, ne_of_forall hack (by decide)⟩, ?_⟩, ⟨up, hup, rfl⟩, ⟨_, hren, rfl⟩, hshow,
        .inl rfl⟩
      · rw [hack g hg]
        decide
      · rw [if_neg hclosed, countOf_singleton hnick]
        rfl
  · have hquiet := quiet_of_receive huid hnick hp
    have hnone : Sends (n h) { n h with toChatter := p } [f] [] :=
      sends_none (up_of_receive huid hnick hp) hquiet.myNick (fun hs => hs) (fun hc => hc)
        (List.forall_mem_singleton.mpr hnick)
    exact ⟨[], hnone, ⟨up, hup, rfl⟩, ⟨_, hquiet.peerNick.symm ▸ renames_self hnick, rfl⟩, hshow,
      .inl rfl⟩

theorem Handshaken.turn_receive (hn : Handshaken dirs n) (hsend : env.sendOk = true)
    (hab : (n h).receiveStep (n h.other) env buf = .ok (a, b)) :
    ∃ out, Turn n h ((n h.other).up.take 1) out a b := by
  have hstep := receiveStep_ok hab
  cases hn.received hab with
  | hangUp hnil hact =>
    have hclosed : (n h.other).phase = .closed := by
      rcases hstep with ⟨-, hclosed, -⟩ | ⟨f, up, hup, -⟩
      · exact hclosed
      · rw [hnil] at hup
        cases hup
    rw [hnil]
    exact ⟨[], sends_none rfl rfl (fun hs => hs) (fun hc => hc) fun _ hf => (by cases hf),
      ⟨[], hnil, by rw [← hnil]; rfl⟩, rfl, fun _ hf => (by cases hf), .inr ⟨hnil, hclosed⟩⟩
  | @frame f up p hup huid hp hact =>
    rw [hup]
    have hfree := ((hn h).2.fits f (hup ▸ List.mem_cons_self)).2
    exact turn_frame hup hact.phase huid hfree hsend hp
  | @greeting up p hup _ hready hp =>
    obtain ⟨-, -, -, -, hupp, -⟩ := hn.greeted hready hp
    rw [hup]
    have huid : ∀ f ∈ [(n h.other).uidFrame], f.type = LMP_UID := List.forall_mem_singleton.mpr rfl
    refine ⟨[], sends_none hupp (myNick_of_uid rfl hp) (fun hs => hs) (fun hc => hc) ?_,
      ⟨up, hup, rfl⟩, ⟨_, renames_uid rfl, rfl⟩, fun g hg hmsg => ?_, .inl rfl⟩
    · exact ne_of_forall huid (by decide)
    · exact absurd hmsg (ne_of_forall huid (by decide) g hg)

/-- What an event has to do with the nicknames. -/
theorem Handshaken.turn (hn : Handshaken dirs n) (hsend : e.env.sendOk = true)
    (h : n.step e = .ok n') : ∃ a b, n' = put e.host a b ∧
      Turn n e.host (n.taken e.host e) (n.added n' e.host) a b := by
  cases e with
  | main k env stdin =>
    obtain ⟨a, ha, rfl⟩ := step_main h
    obtain ⟨out, hturn⟩ := turn_main (hn k).1 hsend ha
    have hadded := added_put n k a (n k.other) hturn.writes
    exact ⟨a, n k.other, rfl, hadded.symm ▸ hturn⟩
  | receive k env buf =>
    obtain ⟨a, b, hab, rfl⟩ := step_receive h
    obtain ⟨out, hturn⟩ := hn.turn_receive hsend hab
    have htaken : n.taken k (.receive k env buf) = (n k.other).up.take 1 := if_pos rfl
    have hadded := added_put n k a b hturn.writes
    exact ⟨a, b, rfl, htaken.symm ▸ hadded.symm ▸ hturn⟩

theorem Turn.added_other (h : Turn n k fs out a b) : n.added (put k a b) k.other = [] := by
  obtain ⟨up, hup, rfl⟩ := h.reads
  rw [added, put_other, hup, List.length_append]
  exact List.drop_eq_nil_of_le (Nat.le_add_left _ _)

end ChatNet

/-! ## What is said and what is shown -/

/-- A message that has been sent; the nickname is the one that its sender has set, if it has. -/
structure Said where
  nick : Option Bytes
  text : Bytes
  deriving DecidableEq

/-- A message that a process has printed. -/
structure Shown where
  nick : Bytes
  text : Bytes
  deriving DecidableEq

/-- The message is shown, under the nickname of its sender. -/
def Said.ShownAs (s : Said) (t : Shown) : Prop := t.text = s.text ∧ ∀ nick ∈ s.nick, t.nick = nick

/-- The messages under way are `said`, and each of them will be shown under its nickname. -/
def Carries : CharArray NICKNAME_MAX_LEN → List Frame → List Said → Prop
  | _, [], said => said = []
  | nick, f :: fs, said =>
    if f.type = LMP_MSG then ∃ s said', said = s :: said' ∧ s.ShownAs ⟨nick.toStr, f.payload⟩ ∧
      Carries nick fs said'
    else ∀ nick', Renames nick f nick' → Carries nick' fs said

section
variable {nick nick' : CharArray NICKNAME_MAX_LEN} {fs fs' : List Frame} {said said' : List Said}
  {f : Frame}

theorem Carries.append (h : Carries nick fs said)
    (h' : Fifo.wp Renames (Carries · fs' said') fs nick) :
    Carries nick (fs ++ fs') (said ++ said') := by
  induction fs generalizing nick said with
  | nil =>
    obtain rfl := h
    exact h'
  | cons f fs ih =>
    rw [Carries] at h
    rw [List.cons_append, Carries]
    split at h
    · rename_i hmsg
      obtain ⟨s, rest, rfl, hs, h⟩ := h
      rw [if_pos hmsg]
      refine ⟨s, rest ++ said', rfl, hs, ih h (h' nick (renames_self ?_))⟩
      rw [hmsg]
      decide
    · rename_i hmsg
      rw [if_neg hmsg]
      exact fun r hr => ih (h r hr) (h' r hr)

theorem carries_nil (hfs : ∀ f ∈ fs, f.type ≠ LMP_MSG) : Carries nick fs [] := by
  induction fs generalizing nick with
  | nil => rfl
  | cons f fs ih =>
    rw [Carries, if_neg (hfs f List.mem_cons_self)]
    exact fun r _ => ih fun g hg => hfs g (List.mem_cons_of_mem f hg)

theorem carries_texts {tag : Option Bytes} (h : ∀ t ∈ tag, nick.toStr = t ∧
    ∀ f ∈ fs, f.type ≠ LMP_NICK ∧ f.type ≠ LMP_UID) :
    Carries nick fs ((texts fs).map (Said.mk tag)) := by
  induction fs generalizing nick with
  | nil => rfl
  | cons f fs ih =>
    have hrest : ∀ r, (∀ t ∈ tag, r.toStr = t) → Carries r fs ((texts fs).map (Said.mk tag)) :=
      fun r hr => ih fun t ht => ⟨hr t ht, fun g hg => (h t ht).2 g (List.mem_cons_of_mem f hg)⟩
    rw [← List.singleton_append, texts_append, texts_singleton, List.singleton_append, Carries]
    split
    · exact ⟨⟨tag, f.payload⟩, _, rfl, ⟨rfl, fun t ht => (h t ht).1⟩,
        hrest nick fun t ht => (h t ht).1⟩
    · refine fun r hr => hrest r fun t ht => ?_
      obtain ⟨hnick, huid⟩ := (h t ht).2 f List.mem_cons_self
      rw [eq_of_renames hnick huid hr]
      exact (h t ht).1

/-- The frame that is received is a message that has been said, or no message. -/
theorem Carries.deliver (h : Carries nick (f :: fs) said) (hr : Renames nick f nick') :
    ∃ told pending, said = told ++ pending ∧
      List.Forall₂ Said.ShownAs told ((texts [f]).map (Shown.mk nick.toStr)) ∧
        Carries nick' fs pending := by
  rw [Carries] at h
  rw [texts_singleton]
  split at h
  · rename_i hmsg
    obtain ⟨s, pending, rfl, hs, h⟩ := h
    have hsame : nick' = nick :=
      eq_of_renames (by rw [hmsg]; decide) (by rw [hmsg]; decide) hr
    rw [if_pos hmsg, hsame]
    exact ⟨[s], pending, rfl, .cons hs .nil, h⟩
  · rename_i hmsg
    rw [if_neg hmsg]
    exact ⟨[], said, rfl, .nil, h nick' hr⟩

theorem Carries.texts_eq (h : Carries nick fs said) : said.map Said.text = texts fs := by
  induction fs generalizing nick said with
  | nil =>
    obtain rfl := h
    rfl
  | cons f fs ih =>
    rw [Carries] at h
    rw [← List.singleton_append, texts_append, texts_singleton]
    split at h
    · rename_i hmsg
      obtain ⟨s, rest, rfl, hs, h⟩ := h
      rw [if_pos hmsg, List.map_cons, ih h, ← hs.1]
      rfl
    · rename_i hmsg
      rw [if_neg hmsg]
      obtain ⟨r, hr⟩ := exists_renames nick f
      exact ih (h r hr)

end

/-- What `h` has shown: a line for each of the messages that it has received. -/
def ChatNet.shown (n n' : ChatNet) (h : Host) (e : ChatEvent) : List Shown :=
  ((texts (n.taken h e)).filter fun text =>
    (n' h).stdout = (n h).stdout ++ [chatLine (n h).peerNick.toStr text]).map
      (Shown.mk (n h).peerNick.toStr)

/-- The two processes, and what has been said and shown so far. -/
structure Conversation where
  net : ChatNet
  /-- The nicknames that a process has sent. -/
  named : Host → Nat
  /-- The acknowledgements that it has received. -/
  acked : Host → Nat
  /-- The nicknames that the other process has received after its `shutdown`. -/
  unanswered : Host → Nat
  said : Host → List Said
  shown : Host → List Shown

theorem ChatNet.Turn.shown_eq {n : ChatNet} {h : Host} {fs out : List Frame} {a b : Party}
    {e : ChatEvent} (ht : ChatNet.Turn n h fs out a b) (hfs : n.taken h e = fs) :
    n.shown (put h a b) h e = (texts fs).map (Shown.mk (n h).peerNick.toStr) := by
  rw [shown, hfs, put_self]
  refine congrArg _ (List.filter_eq_self.mpr fun text htext => ?_)
  obtain ⟨f, hf, rfl⟩ := List.mem_map.mp htext
  obtain ⟨hf, hmsg⟩ := List.mem_filter.mp hf
  exact decide_eq_true (ht.shows f hf (of_decide_eq_true hmsg))

namespace Conversation
open ChatNet
variable {dirs : Host → Bytes} {c c' : Conversation} {e : ChatEvent} {h : Host}

def start (net : ChatNet) : Conversation :=
  ⟨net, fun _ => 0, fun _ => 0, fun _ => 0, fun _ => [], fun _ => []⟩

/-- The nickname that `h` has set. -/
def ownNick (c : Conversation) (h : Host) : Option Bytes :=
  if c.named h = 0 then none else some (c.net h).myNick.toStr

def step (c : Conversation) (e : ChatEvent) : Except ChatStop Conversation :=
  (c.net.step e).map fun net => {
    net
    named h := c.named h + countOf LMP_NICK (c.net.added net h)
    acked h := c.acked h + countOf LMP_ACK (c.net.taken h e)
    unanswered h := c.unanswered h +
      if (c.net h.other).phase = .closed then countOf LMP_NICK (c.net.taken h.other e) else 0
    said h := c.said h ++ (texts (c.net.added net h)).map (Said.mk (c.ownNick h))
    shown h := c.shown h ++ c.net.shown net h e }

theorem step_ok (h : c.step e = .ok c') : c.net.step e = .ok c'.net ∧ c' = {
    net := c'.net
    named h := c.named h + countOf LMP_NICK (c.net.added c'.net h)
    acked h := c.acked h + countOf LMP_ACK (c.net.taken h e)
    unanswered h := c.unanswered h +
      if (c.net h.other).phase = .closed then countOf LMP_NICK (c.net.taken h.other e) else 0
    said h := c.said h ++ (texts (c.net.added c'.net h)).map (Said.mk (c.ownNick h))
    shown h := c.shown h ++ c.net.shown c'.net h e } := by
  cases hn : c.net.step e with
  | error => rw [step, hn] at h; cases h
  | ok n =>
    rw [step, hn] at h
    cases h
    exact ⟨rfl, rfl⟩

/-- What holds of `h` and of what the other process knows of it. -/
structure Attests (c : Conversation) (h : Host) : Prop where
  start : (c.net h).phase = .starting → c.named h = 0
  nick : c.named h ≠ 0 → Fifo.wp Renames (· = (c.net h).myNick) (c.net h).up
    (c.net h.other).peerNick
  acks : c.named h = c.acked h + c.unanswered h + countOf LMP_NICK (c.net h).up +
    countOf LMP_ACK (c.net h.other).up
  said : ∃ told pending, c.said h = told ++ pending ∧
    List.Forall₂ Said.ShownAs told (c.shown h.other) ∧
      Carries (c.net h.other).peerNick (c.net h).up pending

variable {fs out : List Frame} {a b : Party}

/-- A round of `h` itself. -/
theorem Attests.writes (hc : c.Attests h) (ht : Turn c.net h fs out a b)
    (hnet : c'.net = put h a b) (hnamed : c'.named h = c.named h + countOf LMP_NICK out)
    (hacked : c'.acked h = c.acked h + countOf LMP_ACK fs)
    (hun : c'.unanswered h = c.unanswered h)
    (hsaid : c'.said h = c.said h ++ (texts out).map (Said.mk (c.ownNick h)))
    (hshown : c'.shown h.other = c.shown h.other) : c'.Attests h := by
  obtain ⟨up, hup, rfl⟩ := ht.reads
  have ha : c'.net h = a := by rw [hnet, put_self]
  have hb : c'.net h.other = (c.net h.other).unread up := by rw [hnet, put_other]
  have huid : c.named h ≠ 0 → ∀ f ∈ out, f.type ≠ LMP_UID := fun hne f hf huid =>
    hne (hc.start (ht.uid f hf huid))
  refine ⟨fun hs => ?_, fun hne => ?_, ?_, ?_⟩
  · rw [ha] at hs
    obtain ⟨hphase, rfl⟩ := ht.start hs
    rw [hnamed, hc.start hphase]
    rfl
  · rw [ha, hb, ht.writes]
    change Fifo.wp Renames _ _ (c.net h.other).peerNick
    rcases ht.mine with ⟨hmine, hout⟩ | ⟨args, hmine, rfl⟩
    · rw [hnamed, countOf_eq_zero.mpr hout] at hne
      rw [hmine]
      exact Fifo.wp_append_keeps (hc.nick hne) fun f hf => keeps_renames (hout f hf) (huid hne f hf)
    · have hsets : Fifo.Sets Renames (· = a.myNick) (lmpFrame LMP_NICK args) :=
        hmine.symm ▸ sets_renames rfl
      exact Fifo.wp_append_sets List.mem_cons_self hsets
        (List.forall_mem_singleton.mpr hsets.keeps)
  · have hacks := hc.acks
    rw [hup, countOf_append] at hacks
    rw [hnamed, hacked, hun, ha, hb, ht.writes, countOf_append]
    change _ = _ + _ + _ + countOf LMP_ACK up
    omega
  · obtain ⟨told, pending, heq, htold, hcarries⟩ := hc.said
    refine ⟨told, pending ++ (texts out).map (Said.mk (c.ownNick h)), ?_, ?_, ?_⟩
    · rw [hsaid, heq, List.append_assoc]
    · rw [hshown]
      exact htold
    · rw [ha, hb, ht.writes]
      refine hcarries.append ?_
      rcases ht.mine with ⟨-, hout⟩ | ⟨args, -, rfl⟩
      · by_cases hzero : c.named h = 0
        · rw [ownNick, if_pos hzero]
          exact Fifo.wp_of_forall fun r => carries_texts fun _ ht => by cases ht
        · rw [ownNick, if_neg hzero]
          refine Fifo.wp_mono (fun r hr => carries_texts fun t ht => ?_) (hc.nick hzero)
          obtain rfl := Option.some.inj ht
          exact ⟨congrArg CharArray.toStr hr, fun f hf => ⟨hout f hf, huid hzero f hf⟩⟩
      · have hnick : ∀ f ∈ [lmpFrame LMP_NICK args], f.type ≠ LMP_MSG :=
          List.forall_mem_singleton.mpr (show LMP_NICK ≠ LMP_MSG by decide)
        rw [texts_eq_nil hnick]
        exact Fifo.wp_of_forall fun r => carries_nil hnick

/-- A round of the other process. -/
theorem Attests.reads (hc : c.Attests h.other) (ht : Turn c.net h fs out a b)
    (hnet : c'.net = put h a b) (hnamed : c'.named h.other = c.named h.other)
    (hacked : c'.acked h.other = c.acked h.other)
    (hun : c'.unanswered h.other = c.unanswered h.other +
      if (c.net h).phase = .closed then countOf LMP_NICK fs else 0)
    (hsaid : c'.said h.other = c.said h.other)
    (hfs : fs = [] ∨ ∃ f, fs = [f]) (hshown : c'.shown h = c.shown h ++
      (texts fs).map (Shown.mk (c.net h).peerNick.toStr)) : c'.Attests h.other := by
  obtain ⟨up, hup, rfl⟩ := ht.reads
  have ha : c'.net h = a := by rw [hnet, put_self]
  have hb : c'.net h.other = (c.net h.other).unread up := by rw [hnet, put_other]
  obtain ⟨hstart, hnick, hacks, hsays⟩ := hc
  rw [h.other_other] at hnick hacks hsays
  refine ⟨fun hs => ?_, fun hne => ?_, ?_, ?_⟩
  · rw [hnamed]
    rw [hb] at hs
    exact hstart hs
  · rw [h.other_other, ha, hb]
    rw [hnamed] at hne
    have hwp := hnick hne
    rw [hup] at hwp
    exact Fifo.wp_takes hwp ht.renames
  · have hack := ht.acks
    rw [hup, countOf_append] at hacks
    rw [h.other_other, hnamed, hacked, hun, ha, hb, ht.writes, countOf_append]
    change _ = _ + _ + countOf LMP_NICK up + _
    split at hack
    · rename_i hclosed
      rw [if_pos hclosed]
      omega
    · rename_i hopen
      rw [if_neg hopen]
      omega
  · obtain ⟨told, pending, heq, htold, hcarries⟩ := hsays
    have hren := ht.renames
    rw [hup] at hcarries
    rw [h.other_other, ha, hb, hsaid, hshown]
    rcases hfs with rfl | ⟨f, rfl⟩
    · have hsame : a.peerNick = (c.net h).peerNick := hren
      rw [hsame]
      exact ⟨told, pending, heq, (List.append_nil (c.shown h)).symm ▸ htold, hcarries⟩
    · obtain ⟨nick, hren, rfl⟩ := hren
      obtain ⟨told', pending', rfl, htold', hcarries⟩ := hcarries.deliver hren
      refine ⟨told ++ told', pending', ?_, List.rel_append htold htold', hcarries⟩
      rw [heq, List.append_assoc]

theorem Attests.step (hn : c.net.Handshaken dirs) (hc : ∀ h, c.Attests h)
    (hsend : e.env.sendOk = true) (h : c.step e = .ok c') (k : Host) : c'.Attests k := by
  obtain ⟨hstep, heq⟩ := step_ok h
  obtain ⟨a, b, hnet, ht⟩ := hn.turn hsend hstep
  have hnone := c.net.taken_other e
  have hadded := ht.added_other
  rw [← hnet] at hadded
  rcases e.host.eq_or_eq_other k with rfl | rfl
  · refine (hc e.host).writes ht hnet ?_ ?_ ?_ ?_ ?_
    all_goals rw [heq]
    · dsimp only
      rw [hnone]
      exact (congrArg (_ + ·) (ite_self 0)).trans (Nat.add_zero _)
    · dsimp only
      rw [ChatNet.shown, hnone]
      exact List.append_nil _
  · refine (hc e.host.other).reads ht hnet ?_ ?_ ?_ ?_ (c.net.taken_cases e.host e) ?_
    all_goals rw [heq]
    · dsimp only
      rw [hadded]
      rfl
    · dsimp only
      rw [hnone]
      rfl
    · dsimp only
      rw [e.host.other_other]
    · dsimp only
      rw [hadded]
      exact List.append_nil _
    · dsimp only
      rw [hnet, ht.shown_eq rfl]

/-! ## Runs -/

section
variable {n : ChatNet} {home username : Host → Option Bytes} {es : List ChatEvent}

theorem attests_of_run (hstart : ∀ h, Opened (home h) (username h) (n h))
    (hes : Meets step (fun _ e => e.env.sendOk = true) (start n) es)
    (h : exec step (start n) es = .ok c) (k : Host) : c.Attests k := by
  have hn := (Exchange.delivers_start hstart).handshaken
  have hend := exec_invariant (I := fun c : Conversation =>
      c.net.Handshaken (fun h => userDir (home h) (username h)) ∧ ∀ h, c.Attests h)
    (fun c e c' hI hsend h => ⟨hI.1.step hsend (step_ok h).1, Attests.step hI.1 hI.2 hsend h⟩)
    ⟨hn, fun k => ?_⟩ hes h
  · exact hend.2 k
  · have hup : ∀ h, (n h).up = [] := fun h => (sound_of_opened (hstart h)).2.1
    refine ⟨fun _ => rfl, fun hne => absurd rfl hne, ?_, [], [], rfl, .nil, ?_⟩
    · change 0 = 0 + 0 + countOf LMP_NICK (n k).up + countOf LMP_ACK (n k.other).up
      rw [hup, hup]
      rfl
    · change Carries _ (n k).up []
      rw [hup]
      rfl

/-- Two processes talk to each other, every send succeeds before `shutdown`, and frames are written
whole. Each nickname that one of them has
sent is under way, or its acknowledgement is, or it has been acknowledged, or it was received after
the other's `shutdown`. Once it has sent one, the other process will have the nickname that it has
now when what is under way has been received; if no nickname and no acknowledgement is missing, it
has it already. -/
theorem acknowledged_of_run (hstart : ∀ h, Opened (home h) (username h) (n h))
    (hes : Meets step (fun _ e => e.env.sendOk = true) (start n) es)
    (h : exec step (start n) es = .ok c) (k : Host) :
    c.named k = c.acked k + c.unanswered k + countOf LMP_NICK (c.net k).up +
      countOf LMP_ACK (c.net k.other).up ∧
    (c.named k ≠ 0 → Fifo.wp Renames (· = (c.net k).myNick) (c.net k).up
      (c.net k.other).peerNick) ∧
    (c.named k ≠ 0 → c.named k = c.acked k + c.unanswered k →
      (c.net k.other).peerNick = (c.net k).myNick) := by
  obtain ⟨-, hnick, hacks, -⟩ := attests_of_run hstart hes h k
  refine ⟨hacks, hnick, fun hne hall => ?_⟩
  refine Fifo.of_wp (P := (· = (c.net k).myNick)) (hnick hne) fun f hf => renames_self ?_
  have hzero : countOf LMP_NICK (c.net k).up = 0 := by omega
  exact countOf_eq_zero.mp hzero f hf

theorem acknowledged_of_run_ann :
    let es : List ChatEvent := [.main .fst .allOk [], .main .snd .allOk [],
      .receive .fst .allOk [], .receive .snd .allOk [], .main .fst .allOk [],
      .main .fst .allOk (str "/nick ann\n"), .receive .snd .allOk [], .receive .fst .allOk []]
    ∃ n c, (∀ h : Host, Opened (some (str "/home/ann")) none (n h)) ∧
      exec step (start n) es = .ok c ∧ c.named .fst = 1 ∧ c.acked .fst = 1 ∧
        (c.net .snd).peerNick = (c.net .fst).myNick := by
  intro es
  obtain ⟨a, ha, hes, hok, hrun⟩ :=
    exists_ok (x := Party.chat (str "/home/ann") none (fun _ => none) .allOk 7)
      (P := fun a => Meets step (fun _ e => e.env.sendOk = true) (start (put .fst a a)) es ∧
        (exec step (start (put .fst a a)) es).isOk ∧
          ∀ c ∈ (exec step (start (put .fst a a)) es).toOption, 
            c.named .fst = 1 ∧ c.acked .fst = 1 ∧ c.unanswered .fst = 0)
      rfl (by decide +kernel)
  obtain ⟨c, hc, hnamed, hacked, hun⟩ := exists_ok hok hrun
  have hopened : ∀ h : Host, Opened (some (str "/home/ann")) none (put .fst a a h) := by
    intro h
    cases h with
    | fst | snd => exact ⟨_, _, _, ha⟩
  refine ⟨put .fst a a, c, hopened, hc, hnamed, hacked, ?_⟩
  refine (acknowledged_of_run hopened hes hc .fst).2.2 ?_ ?_
  · rw [hnamed]
    decide
  · rw [hnamed, hacked, hun]

/-- Where frames are written whole and sends succeed, a process has shown the messages of the other
one in the order in which they were sent, and each under the nickname that the other one had then,
if it had sent one; those that it has not shown are under way. -/
theorem attributed_of_run (hstart : ∀ h, Opened (home h) (username h) (n h))
    (hes : Meets step (fun _ e => e.env.sendOk = true) (start n) es)
    (h : exec step (start n) es = .ok c) (k : Host) : ∃ told pending,
      c.said k = told ++ pending ∧ List.Forall₂ Said.ShownAs told (c.shown k.other) ∧
        pending.map Said.text = texts (c.net k).up := by
  obtain ⟨told, pending, hsaid, hshown, hcarries⟩ := (attests_of_run hstart hes h k).said
  exact ⟨told, pending, hsaid, hshown, hcarries.texts_eq⟩

theorem attributed_of_run_ann :
    let es : List ChatEvent := [.main .fst .allOk [], .main .snd .allOk [],
      .receive .fst .allOk [], .receive .snd .allOk [], .main .fst .allOk [],
      .main .fst .allOk (str "/nick ann\n"), .main .fst .allOk (str "hi\n"),
      .receive .snd .allOk [], .receive .snd .allOk []]
    ∃ n c, (∀ h : Host, Opened (some (str "/home/ann")) none (n h)) ∧
      exec step (start n) es = .ok c ∧ c.said .fst = [⟨some (str "ann"), str "hi"⟩] ∧
        c.shown .snd = [⟨str "ann", str "hi"⟩] ∧ ∃ told pending, c.said .fst = told ++ pending ∧
          List.Forall₂ Said.ShownAs told (c.shown .snd) ∧
            pending.map Said.text = texts (c.net .fst).up := by
  intro es
  obtain ⟨a, ha, hes, hok, hrun⟩ :=
    exists_ok (x := Party.chat (str "/home/ann") none (fun _ => none) .allOk 7)
      (P := fun a => Meets step (fun _ e => e.env.sendOk = true) (start (put .fst a a)) es ∧
        (exec step (start (put .fst a a)) es).isOk ∧
          ∀ c ∈ (exec step (start (put .fst a a)) es).toOption, 
            c.said .fst = [⟨some (str "ann"), str "hi"⟩] ∧
              c.shown .snd = [⟨str "ann", str "hi"⟩])
      rfl (by decide +kernel)
  obtain ⟨c, hc, hsaid, hshown⟩ := exists_ok hok hrun
  have hopened : ∀ h : Host, Opened (some (str "/home/ann")) none (put .fst a a h) := by
    intro h
    cases h with
    | fst | snd => exact ⟨_, _, _, ha⟩
  exact ⟨put .fst a a, c, hopened, hc, hsaid, hshown, attributed_of_run hopened hes hc .fst⟩

end

end Conversation

end SocketSpeak
