import SocketSpeak.CLib.Lists
import SocketSpeak.CLib.Sequencer
import SocketSpeak.Group.Net

/-!
# The order of the messages

The server relays what a client says to all the others before it reads the next frame, so it is the
server that puts the messages in an order. Each client receives what has been relayed since its
connection was accepted, in this order and but for its own messages (`sees_of_run`).
-/

namespace SocketSpeak
open CLib Sys

/-- The types that the server relays, and does not send by itself. -/
def IsChat (type : UInt8) : Prop :=
  type ∉ [LMP_NICK, LMP_GRP_INIT_MEMBER, LMP_GRP_LOAD_MSG, LMP_GRP_LOADING_MSG, LMP_GRP_HANGMAN,
    LMP_GRP_OBJ]

instance (type : UInt8) : Decidable (IsChat type) := inferInstanceAs (Decidable (_ ∉ _))

/-- The messages among the frames. -/
def chats (fs : List Frame) : List Frame := fs.filter fun f => IsChat f.type

@[simp] theorem chats_nil : chats [] = [] := rfl

@[simp] theorem chats_append (fs fs' : List Frame) : chats (fs ++ fs') = chats fs ++ chats fs' :=
  List.filter_append ..

theorem chats_eq_nil {fs : List Frame} (h : ∀ f ∈ fs, ¬ IsChat f.type) : chats fs = [] :=
  List.filter_eq_nil_iff.mpr fun f hf => by simpa using h f hf

/-! ## What is relayed -/

/-- The output has the frame `g` for each of these descriptors once. -/
theorem framesTo_flatMap {env : Env} {fd : Int} {ps : List PollFd}
    (hnd : (ps.map PollFd.fd).Nodup) (g : Frame) :
    framesTo fd (ps.flatMap fun p => if env.sendOk p.fd then [⟨p.fd, g⟩] else []) =
      if fd ∈ ps.map PollFd.fd ∧ env.sendOk fd then [g] else [] := by
  induction ps with
  | nil => simp
  | cons p ps ih =>
    rw [List.map_cons, List.nodup_cons] at hnd
    obtain ⟨hnot, hnd⟩ := hnd
    rw [List.flatMap_cons, framesTo_append, ih hnd, List.map_cons]
    by_cases hp : fd = p.fd
    · subst hp
      by_cases hok : env.sendOk p.fd = true
      · simp [hnot, hok, framesTo]
      · simp [hok, framesTo]
    · by_cases hok : env.sendOk p.fd = true
      · simp [hp, hok, framesTo, Ne.symm hp]
      · simp [hp, hok, framesTo]

namespace Server
variable {s s' : Server} {env : Env} {i k : Nat} {fd fd' : Int} {f : Frame} {buf : Bytes}
  {out : List Output} {status : Int}

/-- What the server relays when it handles the frame `f` from `pfds[i]`, if it does. -/
def chatOf (s : Server) (i : Nat) (f : Frame) : Option Frame :=
  if IsChat f.type ∧ ¬ (f.type = LMP_MSG ∧ ∃ m ∈ (s.group.member (i - 1)).toOption, s.IsGuess m)
  then some (groupLmpFrame f.type f.payload (i - 1)) else none

/-- A relay reaches every connection but the sender's once. -/
theorem TableOk.framesTo_relay (ht : s.TableOk) (hfd' : fd' ∈ s.conns) (type : UInt8)
    (payload : Bytes) : framesTo fd' (s.relay env i fd type payload) =
      if fd' ≠ fd ∧ env.sendOk fd' then [groupLmpFrame type payload (i - 1)] else [] := by
  have hnd : ((s.pfds.filter fun p => p.fd ≠ s.listener ∧ p.fd ≠ fd).map PollFd.fd).Nodup :=
    (ht.head ▸ ht.nodup : (s.pfds.map PollFd.fd).Nodup).sublist (List.filter_sublist.map _)
  have hmem : fd' ∈ (s.pfds.filter fun p => p.fd ≠ s.listener ∧ p.fd ≠ fd).map PollFd.fd ↔
      fd' ≠ fd := by
    rw [List.mem_map]
    constructor
    · rintro ⟨p, hp, rfl⟩
      simp only [List.mem_filter, decide_eq_true_eq] at hp
      exact hp.2.2
    · intro hne
      obtain ⟨p, hp, hl, rfl⟩ := ht.mem_conns.mp hfd'
      exact ⟨p, by simp [hp, hl, hne], rfl⟩
  refine (framesTo_flatMap hnd (groupLmpFrame type payload (i - 1))).trans ?_
  simp only [hmem]

theorem chats_broadcast (s : Server) (env : Env) (fd : Int) :
    chats (framesTo fd (s.sendNewGroupToUsers env).2) = [] := by
  apply chats_eq_nil
  intro f hf
  obtain ⟨o, ho, rfl⟩ := List.mem_map.mp hf
  have ho := List.mem_of_mem_filter ho
  rw [sendNewGroupToUsers_eq] at ho
  obtain ⟨p, -, ho⟩ := List.mem_flatMap.mp ho
  rw [type_of_lmpSend o ho]
  decide

/-- Handling a frame sends the message that it is to all connections but the sender's, and no other
message to anyone. -/
theorem chats_of_frame (ht : s.TableOk) (hpoll : s.pollFd i = .ok fd) (hfd' : fd' ∈ s.conns)
    (hok : env.sendOk fd') (h : s.step (.frame i f buf env) = .ok (out, s')) :
    chats (framesTo fd' out) = if fd' ≠ fd then (s.chatOf i f).toList else [] := by
  obtain ⟨fd₁, hfd₁, -, -, hh⟩ := handled_of_frame h
  obtain rfl : fd₁ = fd := Except.ok.inj (hfd₁.symm.trans hpoll)
  have hnone : ¬ IsChat f.type → s.chatOf i f = none := fun hf => if_neg fun h => hf h.1
  cases hh with
  | nick m hf _ _ _ hout =>
    rw [hout, chats_broadcast, hnone (by rw [hf]; decide)]
    simp
  | init g hf _ _ _ hout =>
    rw [hout, chats_broadcast, hnone (by rw [hf]; decide)]
    simp
  | relayed hf hmsg _ _ hout =>
    rw [hout, ht.framesTo_relay hfd']
    by_cases hchat : IsChat f.type
    · have hsome : s.chatOf i f = some (groupLmpFrame f.type f.payload (i - 1)) := by
        apply if_pos
        refine ⟨hchat, fun ⟨hm, m', hm', hguess⟩ => ?_⟩
        obtain ⟨m, hm, hnot, -⟩ := hmsg hm
        rw [hm] at hm'
        cases hm'
        exact hnot hguess
      have hself : chats [groupLmpFrame f.type f.payload (i - 1)] =
          [groupLmpFrame f.type f.payload (i - 1)] := by
        simp [chats, groupLmpFrame, hchat]
      rw [hsome]
      by_cases hne : fd' = fd₁
      · simp [hne]
      · simp [hne, hok, hself]
    · have hself : chats [groupLmpFrame f.type f.payload (i - 1)] = [] := by
        simp [chats, groupLmpFrame, hchat]
      rw [hnone hchat]
      split
      · rw [hself]
        simp
      · simp
  | answered m hf hm hguess _ _ hout =>
    have hno : chats (framesTo fd' out) = [] := by
      apply chats_eq_nil
      intro g hg
      obtain ⟨o, ho, rfl⟩ := List.mem_map.mp hg
      have hans := hout o (List.mem_of_mem_filter ho)
      intro hchat
      simp only [Answer, List.mem_cons, List.not_mem_nil, or_false] at hans
      rcases hans with hans | hans | hans <;> rw [hans] at hchat <;> exact absurd hchat (by decide)
    have hnot : s.chatOf i f = none := by
      apply if_neg
      rintro ⟨hchat, hmsg⟩
      simp only [List.mem_cons, List.not_mem_nil, or_false] at hf
      rcases hf with hf | hf | hf
      · rw [hf] at hchat
        exact absurd hchat (by decide)
      · rw [hf] at hchat
        exact absurd hchat (by decide)
      · exact hmsg ⟨hf, m, by rw [hm]; rfl, hguess hf⟩
    rw [hno, hnot]
    simp

theorem chats_of_hangup (h : s.step (.hangup (k + 1) status env) = .ok (out, s')) (fd : Int) :
    chats (framesTo fd out) = [] := by
  rw [(handled_of_hangup h).2.2.2.2]
  exact chats_broadcast _ _ _

end Server

namespace GroupNet

/-- The connection whose frame the server relays as a message with the event, and the message. -/
def chatServed (n : GroupNet) : GroupEvent → Option (Int × Frame)
  | .serve k _ _ =>
    match n.conns[k]? with
    | none => none
    | some fd =>
      match (n.link fd).user.up with
      | [] => none
      | f :: _ =>
        if f.payload.length < RECV_BUF_SIZE then
          (n.world.server.chatOf (k + 1) f).map fun g => (fd, g)
        else none
  | _ => none

/-- The connection that the server closes with the event. -/
def closing (n : GroupNet) : GroupEvent → Option Int
  | .serve k _ _ =>
    match n.conns[k]? with
    | none => none
    | some fd =>
      match (n.link fd).user.up with
      | [] => none
      | f :: _ => if f.payload.length < RECV_BUF_SIZE then none else some fd
  | .hangup k _ _ => n.conns[k]?
  | _ => none

end GroupNet

/-! ## The readers -/

/-- What the messages on the connection are to its client. -/
def chatsDown (ms : List Sent) : List Frame := chats (ms.map Sent.frame)

@[simp] theorem chatsDown_append (ms ms' : List Sent) :
    chatsDown (ms ++ ms') = chatsDown ms ++ chatsDown ms' := by
  rw [chatsDown, List.map_append, chats_append, chatsDown, chatsDown]

theorem chatsDown_cons (m : Sent) (ms : List Sent) :
    chatsDown (m :: ms) = chatsDown [m] ++ chatsDown ms := chatsDown_append [m] ms

/-- A connection over its whole life: how many messages had been relayed when it was accepted, and
when it was closed, and the messages that its client has received. -/
structure Reader where
  fd : Int
  joined : Nat
  left : Option Nat
  seen : List Frame

namespace Reader

/-- The messages that are relayed to the reader, with their numbers. -/
def due (r : Reader) (log : List (Int × Frame)) : List (Nat × Frame) :=
  Sequencer.due r.fd r.joined (r.left.getD log.length) log

/-- The client has received the messages that are relayed to it, but for those under way. -/
structure Sees (r : Reader) (log : List (Int × Frame)) (down : List Sent) : Prop where
  joined_le : r.joined ≤ log.length
  left_le : ∀ j ∈ r.left, j ≤ log.length
  received : r.seen ++ chatsDown down = (r.due log).map Prod.snd

/-- The messages that the client has received, with their numbers. -/
def taken (r : Reader) (log : List (Int × Frame)) : List (Nat × Frame) :=
  (r.due log).take r.seen.length

variable {r : Reader} {log : List (Int × Frame)} {down : List Sent} {ms : List Sent} {m : Sent}

theorem sees_join (fd : Int) (log : List (Int × Frame)) :
    Sees ⟨fd, log.length, none, []⟩ log [] :=
  ⟨Nat.le_refl _, by simp, by rw [due, Option.getD_none, Sequencer.due_joined]; rfl⟩

/-- Something is sent on the connection that is no message. -/
theorem Sees.post (h : r.Sees log down) (hms : chatsDown ms = []) : r.Sees log (down ++ ms) :=
  ⟨h.joined_le, h.left_le, by rw [chatsDown_append, hms, List.append_nil, h.received]⟩

/-- A message is relayed. -/
theorem Sees.relay (h : r.Sees log down) (hleft : r.left = none) {e : Int × Frame}
    (hms : chatsDown ms = if r.fd ≠ e.1 then [e.2] else []) :
    r.Sees (log ++ [e]) (down ++ ms) := by
  refine ⟨?_, by simp [hleft], ?_⟩
  · rw [List.length_append]
    exact Nat.le_add_right_of_le h.joined_le
  · have hreceived := h.received
    rw [due, hleft, Option.getD_none] at hreceived ⊢
    rw [Sequencer.due_concat h.joined_le, List.map_append, ← hreceived, chatsDown_append, hms,
      ← List.append_assoc]
    by_cases hfd : r.fd = e.1
    · simp [hfd]
    · simp [hfd, Ne.symm hfd]

/-- Nothing is relayed on a closed connection. -/
theorem Sees.gone (h : r.Sees log down) (hleft : r.left.isSome) (es : List (Int × Frame)) :
    r.Sees (log ++ es) down := by
  obtain ⟨j, hj⟩ := Option.isSome_iff_exists.mp hleft
  have hle := h.left_le j hj
  have hreceived := h.received
  refine ⟨?_, fun j' hj' => ?_, ?_⟩
  · rw [List.length_append]
    exact Nat.le_add_right_of_le h.joined_le
  · rw [List.length_append]
    exact Nat.le_add_right_of_le (h.left_le j' hj')
  · rw [due, hj, Option.getD_some] at hreceived ⊢
    rw [Sequencer.due_left hle, hreceived]

/-- The connection is closed. -/
theorem Sees.close (h : r.Sees log down) (hleft : r.left = none) :
    { r with left := some log.length }.Sees log down := by
  have hreceived := h.received
  refine ⟨h.joined_le, by simp, ?_⟩
  rw [due, hleft, Option.getD_none] at hreceived
  exact hreceived

/-- The client receives a frame. -/
theorem Sees.deliver (h : r.Sees log (m :: ms)) :
    { r with seen := r.seen ++ chatsDown [m] }.Sees log ms := by
  have hreceived := h.received
  rw [chatsDown_cons, ← List.append_assoc] at hreceived
  exact ⟨h.joined_le, h.left_le, hreceived⟩

theorem Sees.taken_eq (h : r.Sees log down) : (r.taken log).map Prod.snd = r.seen := by
  rw [taken, List.map_take, ← h.received, List.take_left]

end Reader

/-! ## The run with its log -/

/-- The group, the messages that have been relayed, each with the connection that it came from, and
the connections as readers: those that are open, and the closed ones. -/
structure Sequenced where
  net : GroupNet
  log : List (Int × Frame)
  reader : Int → Reader
  gone : List Reader

namespace Sequenced

def start (listener : Int) (info : GroupInfo) : Sequenced where
  net := .start listener info
  log := []
  reader fd := ⟨fd, 0, none, []⟩
  gone := []

/-- The reader after its client has received the next frame of the connection. -/
def readNext (r : Reader) (l : Link) : Reader :=
  { r with seen := r.seen ++ chatsDown (l.down.take 1) }

def readerAfter (q : Sequenced) : GroupEvent → Int → Reader
  | .accept fd _ _ => Function.update q.reader fd ⟨fd, q.log.length, none, []⟩
  | .deliver fd _ _ => Function.update q.reader fd (readNext (q.reader fd) (q.net.link fd))
  | _ => q.reader

/-- The readers of the closed connections, after what is received on one of them. -/
def drained (q : Sequenced) : GroupEvent → List Reader
  | .drain j _ _ =>
    match q.gone[j]?, q.net.closed[j]? with
    | some r, some l => q.gone.set j (readNext r l)
    | _, _ => q.gone
  | _ => q.gone

def goneAfter (q : Sequenced) (e : GroupEvent) : List Reader :=
  q.drained e ++
    ((q.net.closing e).map fun fd => { q.reader fd with left := some q.log.length }).toList

def step (q : Sequenced) (e : GroupEvent) : Except Stop Sequenced :=
  (q.net.step e).map fun net =>
    ⟨net, q.log ++ (q.net.chatServed e).toList, q.readerAfter e, q.goneAfter e⟩

/-- All the readers. -/
def readers (q : Sequenced) : List Reader := q.net.conns.map q.reader ++ q.gone

/-- What the readers have received and what is under way to them is what has been relayed. -/
structure Sound (q : Sequenced) : Prop where
  table : q.net.world.server.TableOk
  here : ∀ fd ∈ q.net.conns, (q.reader fd).fd = fd ∧ (q.reader fd).left = none ∧
    (q.reader fd).Sees q.log (q.net.link fd).down
  gone : List.Forall₂ (fun r l => r.left.isSome ∧ r.Sees q.log l.down) q.gone q.net.closed

variable {q q' : Sequenced} {fd : Int} {k : Nat} {buf : Bytes} {env : Env} {status : Int}
  {f : Frame} {up : List Frame}

/-! ## Steps -/

/-- The server reads the next frame of a client, or closes the connection if it is too long. -/
theorem serve_cases {n n' : GroupNet} (h : n.step (.serve k buf env) = .ok n') : ∃ fd f up,
    n.conns[k]? = some fd ∧ (n.link fd).user.up = f :: up ∧
    (f.payload.length < RECV_BUF_SIZE ∧
        (n.read fd up).serverStep (.frame (k + 1) f buf env) = .ok n' ∨
      ¬ f.payload.length < RECV_BUF_SIZE ∧ (n.read fd up).close fd k (-4) env = .ok n') := by
  simp only [GroupNet.step] at h
  split at h
  · cases h
  rename_i fd hfd
  split at h
  · cases h
  rename_i f up hup
  split at h
  · rename_i hlen
    exact ⟨fd, f, up, hfd, hup, .inl ⟨hlen, ok_of_liftFault h⟩⟩
  · rename_i hlen
    exact ⟨fd, f, up, hfd, hup, .inr ⟨hlen, ok_of_liftFault h⟩⟩

theorem sound_accept (hI : q.Sound) (hfd : fd ∉ q.net.world.server.listener :: q.net.conns)
    {n₁ : GroupNet} (h : q.net.serverStep (.accept fd) = .ok n₁) (m : GroupMember)
    (hnet : q'.net = n₁.setLink fd (.start m)) (hlog : q'.log = q.log)
    (hreader : q'.reader = Function.update q.reader fd ⟨fd, q.log.length, none, []⟩)
    (hgone : q'.gone = q.gone) : q'.Sound := by
  obtain ⟨ht, -, -, hc, hlink, hold⟩ := GroupNet.accept_ok hI.table hfd h
  refine ⟨hnet ▸ ht, fun fd' hfd' => ?_, ?_⟩
  · rw [hnet] at hfd'
    rw [hnet, hreader, hlog, GroupNet.link_setLink, hlink]
    by_cases hne : fd' = fd
    · subst hne
      rw [if_pos rfl, Function.update_self]
      exact ⟨rfl, rfl, Reader.sees_join _ _⟩
    · rw [if_neg hne, Function.update_of_ne hne]
      exact hI.here fd' (hold fd' hfd' hne)
  · rw [hgone, hlog, hnet]
    exact hc ▸ hI.gone

/-- Something changes on a connection, but not what is under way on it. -/
theorem sound_setLink (hI : q.Sound) {l : Link} (hdown : l.down = (q.net.link fd).down)
    (hnet : q'.net = q.net.setLink fd l) (hlog : q'.log = q.log) (hreader : q'.reader = q.reader)
    (hgone : q'.gone = q.gone) : q'.Sound := by
  refine ⟨hnet ▸ hI.table, fun fd' hfd' => ?_, ?_⟩
  · rw [hnet] at hfd'
    have hold := hI.here fd' hfd'
    rw [hnet, hreader, hlog, GroupNet.link_setLink]
    split
    · rename_i he
      subst he
      rw [hdown]
      exact hold
    · exact hold
  · rw [hgone, hlog, hnet]
    exact hI.gone

theorem sound_frame (hI : q.Sound) (hk : q.net.conns[k]? = some fd)
    (hok : ∀ fd ∈ q.net.conns, env.sendOk fd)
    (h : (q.net.read fd up).serverStep (.frame (k + 1) f buf env) = .ok q'.net)
    (hlog : q'.log = q.log ++
      ((q.net.world.server.chatOf (k + 1) f).map fun g => (fd, g)).toList)
    (hreader : q'.reader = q.reader) (hgone : q'.gone = q.gone) : q'.Sound := by
  obtain ⟨out, hs, -, hc, hlink⟩ := GroupNet.serverStep_ok h
  have hs : q.net.world.server.step (.frame (k + 1) f buf env) = .ok (out, q'.net.world.server) :=
    hs
  have hpoll := hI.table.pollFd.mpr hk
  have hclosed : q'.net.closed = q.net.closed := hc
  refine ⟨hI.table.frame hs, fun fd' hfd' => ?_, ?_⟩
  · have hfd' : fd' ∈ q.net.conns := by
      rw [GroupNet.conns, (Server.conns_of_frame hs).2.1] at hfd'
      exact hfd'
    obtain ⟨hr, hleft, hsees⟩ := hI.here fd' hfd'
    have hchats := Server.chats_of_frame hI.table hpoll hfd' (hok fd' hfd') hs
    have hdown : (q'.net.link fd').down = (q.net.link fd').down ++
        sentTo out (q.net.world.server.nicknameFor (.frame (k + 1) f buf env)) fd' := by
      rw [hlink, GroupNet.link_read]
      split
      · rename_i he
        subst he
        rfl
      · rfl
    rw [hreader]
    refine ⟨hr, hleft, ?_⟩
    rw [hdown, hlog]
    rw [← map_frame_sentTo out _ fd'] at hchats
    cases hchat : q.net.world.server.chatOf (k + 1) f with
    | none =>
      rw [hchat] at hchats
      rw [Option.map_none, Option.toList_none, List.append_nil]
      exact hsees.post (hchats.trans (ite_self _))
    | some g =>
      rw [hchat] at hchats
      rw [Option.map_some, Option.toList_some]
      refine hsees.relay hleft (hchats.trans ?_)
      rw [hr]
      rfl
  · rw [hgone, hclosed, hlog]
    exact hI.gone.imp fun r l hr => ⟨hr.1, hr.2.gone hr.1 _⟩

/-- A connection is closed; `net` is the group, but for what its client has written. -/
theorem sound_close (hI : q.Sound) (net : GroupNet) (hw : net.world = q.net.world)
    (hdown : ∀ fd, (net.link fd).down = (q.net.link fd).down) (hc : net.closed = q.net.closed)
    (hk : q.net.conns[k]? = some fd) (h : net.close fd k status env = .ok q'.net)
    (hlog : q'.log = q.log) (hreader : q'.reader = q.reader)
    (hgone : q'.gone = q.gone ++ [{ q.reader fd with left := some q.log.length }]) :
    q'.Sound := by
  obtain ⟨n₁, h₁, hw', hl, hc'⟩ := GroupNet.close_ok h
  obtain ⟨out, hs, -, -, hlink⟩ := GroupNet.serverStep_ok h₁
  rw [hw, ← hw'] at hs
  obtain ⟨hlt, -⟩ := List.getElem?_eq_some_iff.mp hk
  refine ⟨hI.table.hangup hlt hs, fun fd' hfd' => ?_, ?_⟩
  · have hfd' : fd' ∈ q.net.conns := by
      rw [GroupNet.conns, (Server.conns_of_hangup hI.table hlt hs).2] at hfd'
      exact mem_of_mem_swapRemove hfd'
    obtain ⟨hr, hleft, hsees⟩ := hI.here fd' hfd'
    rw [hreader, hlog, hl, hlink]
    refine ⟨hr, hleft, ?_⟩
    rw [Link.post, hdown]
    apply hsees.post
    rw [chatsDown, map_frame_sentTo]
    exact Server.chats_of_hangup hs fd'
  · rw [hgone, hc', hc, hlog]
    obtain ⟨-, hleft, hsees⟩ := hI.here fd (List.mem_of_getElem? hk)
    refine List.rel_append hI.gone (.cons ⟨rfl, ?_⟩ .nil)
    rw [hdown]
    exact hsees.close hleft

theorem sound_deliver (hI : q.Sound) (hfd : fd ∈ q.net.conns) {m : Sent} {ms : List Sent} {u : User}
    (hdown : (q.net.link fd).down = m :: ms)
    (hnet : q'.net = q.net.setLink fd { q.net.link fd with user := u, down := ms })
    (hlog : q'.log = q.log)
    (hreader : q'.reader = Function.update q.reader fd (readNext (q.reader fd) (q.net.link fd)))
    (hgone : q'.gone = q.gone) : q'.Sound := by
  refine ⟨hnet ▸ hI.table, fun fd' hfd' => ?_, ?_⟩
  · rw [hnet] at hfd'
    rw [hnet, hreader, hlog, GroupNet.link_setLink]
    by_cases hne : fd' = fd
    · subst hne
      obtain ⟨hr, hleft, hsees⟩ := hI.here fd' hfd'
      rw [if_pos rfl, Function.update_self, readNext, hdown]
      rw [hdown] at hsees
      exact ⟨hr, hleft, hsees.deliver⟩
    · rw [if_neg hne, Function.update_of_ne hne]
      exact hI.here fd' hfd'
  · rw [hgone, hlog, hnet]
    exact hI.gone

theorem sound_drain (hI : q.Sound) {j : Nat} {l : Link} {m : Sent} {ms : List Sent} {u : User}
    (hl : q.net.closed[j]? = some l) (hdown : l.down = m :: ms)
    (hnet : q'.net = { q.net with closed := q.net.closed.set j { l with user := u, down := ms } })
    (hlog : q'.log = q.log) (hreader : q'.reader = q.reader)
    (hgone : ∀ r, q.gone[j]? = some r → q'.gone = q.gone.set j (readNext r l)) : q'.Sound := by
  obtain ⟨r, hr, hleft, hsees⟩ := getElem?_of_forall₂ hI.gone hl
  refine ⟨hnet ▸ hI.table, fun fd' hfd' => ?_, ?_⟩
  · rw [hnet] at hfd'
    rw [hnet, hreader, hlog]
    exact hI.here fd' hfd'
  · rw [hgone r hr, hnet, hlog]
    rw [hdown] at hsees
    have hnext : (readNext r l).Sees q.log ms := by
      rw [readNext, hdown]
      exact hsees.deliver
    exact forall₂_set (a := readNext r l) (b := { l with user := u, down := ms }) hI.gone
      ⟨hleft, hnext⟩ j

theorem sound_step {e : GroupEvent} (hI : q.Sound) (hok : q.net.SendsOk e)
    (h : q.step e = .ok q') : q'.Sound := by
  obtain ⟨net, hnet, rfl⟩ := ok_of_map h
  cases e with
  | serve k buf env =>
    obtain ⟨fd, f, up, hk, hup, ⟨hlen, h⟩ | ⟨hlen, h⟩⟩ := serve_cases hnet
    · refine sound_frame hI hk hok h ?_ rfl ?_
      · simp only [GroupNet.chatServed, hk, hup, if_pos hlen]
      · simp only [goneAfter, GroupNet.closing, hk, hup, if_pos hlen]
        exact List.append_nil _
    · refine sound_close hI (q.net.read fd up) rfl (fun fd' => ?_) rfl hk h ?_ rfl ?_
      · rw [GroupNet.link_read]
        split
        · rename_i he
          rw [he]
        · rfl
      · simp only [GroupNet.chatServed, hk, hup, if_neg hlen]
        exact List.append_nil _
      · simp only [goneAfter, GroupNet.closing, hk, hup, if_neg hlen]
        rfl
  | accept fd uid nickname =>
    cases GroupNet.moved_of_step hnet with
    | accept hfd h₁ =>
      exact sound_accept hI hfd h₁ _ rfl (List.append_nil _) rfl (List.append_nil _)
  | typed fd line env =>
    cases GroupNet.moved_of_step hnet with
    | @typed _ _ _ u hfd hu =>
      exact sound_setLink hI (l := { q.net.link fd with user := u }) rfl rfl (List.append_nil _) rfl
        (List.append_nil _)
  | hangup k status env =>
    cases GroupNet.moved_of_step hnet with
    | hangup hk h₁ =>
      refine sound_close hI q.net rfl (fun _ => rfl) rfl hk h₁ (List.append_nil _) rfl ?_
      simp only [goneAfter, GroupNet.closing, hk]
      rfl
  | deliver fd buf env =>
    cases GroupNet.moved_of_step hnet with
    | deliver hfd hdown hu =>
      exact sound_deliver hI hfd hdown rfl (List.append_nil _) rfl (List.append_nil _)
  | drain j buf env =>
    cases GroupNet.moved_of_step hnet with
    | drain hl hdown hu =>
      refine sound_drain hI hl hdown rfl (List.append_nil _) rfl fun r hr => ?_
      simp only [goneAfter, drained, GroupNet.closing, hr, hl]
      exact List.append_nil _

/-! ## Main result -/

theorem sound_start (listener : Int) (info : GroupInfo) : (start listener info).Sound :=
  ⟨.start listener info, fun _ h => (by cases h), .nil⟩

theorem Sound.exists_sees (hI : q.Sound) {r : Reader} (hr : r ∈ q.readers) :
    ∃ down, r.Sees q.log down := by
  rcases List.mem_append.mp hr with hr | hr
  · obtain ⟨fd, hfd, rfl⟩ := List.mem_map.mp hr
    exact ⟨_, (hI.here fd hfd).2.2⟩
  · obtain ⟨j, hj, rfl⟩ := List.getElem_of_mem hr
    have hlen : j < q.net.closed.length := hI.gone.length_eq ▸ hj
    exact ⟨_, (hI.gone.get hj hlen).2⟩

/-- **Total order.** Where the sends of the server succeed, what a client has received and what is
under way to it are the messages that the server has relayed since it accepted the connection and
before it closed it, in the server's order and but for the client's own ones. So any two clients, of
open or closed connections, have received the messages that both have in the same order. -/
theorem sees_of_run (listener : Int) (info : GroupInfo) (es : List GroupEvent)
    (hC : Meets step (fun q e => q.net.SendsOk e) (start listener info) es)
    (h : exec step (start listener info) es = .ok q) :
    (∀ fd ∈ q.net.conns, (q.reader fd).fd = fd ∧ (q.reader fd).left = none ∧
      (q.reader fd).seen ++ chatsDown (q.net.link fd).down =
        ((q.reader fd).due q.log).map Prod.snd) ∧
    List.Forall₂ (fun r l => r.left.isSome ∧
      r.seen ++ chatsDown l.down = (r.due q.log).map Prod.snd) q.gone q.net.closed ∧
    ∀ r ∈ q.readers, ∀ r' ∈ q.readers, (r.taken q.log).map Prod.snd = r.seen ∧
      (r.taken q.log).filter (· ∈ r'.taken q.log) =
        (r'.taken q.log).filter (· ∈ r.taken q.log) := by
  have hI : q.Sound := exec_invariant (fun _ _ _ hI hC h => sound_step hI hC h)
    (sound_start listener info) hC h
  refine ⟨fun fd hfd => ?_, hI.gone.imp fun r l ⟨hleft, hsees⟩ => ⟨hleft, hsees.received⟩,
    fun r hr r' hr' => ?_⟩
  · obtain ⟨hr, hleft, hsees⟩ := hI.here fd hfd
    exact ⟨hr, hleft, hsees.received⟩
  · obtain ⟨down, hsees⟩ := hI.exists_sees hr
    exact ⟨hsees.taken_eq, Sequencer.same_order (List.take_prefix _ _) (List.take_prefix _ _)⟩

/-- cid is accepted after the first message, and both of the others say something more. -/
def threeSpeak : List GroupEvent :=
  GroupNet.annAndBob ++ [.typed 5 (str "hi\n") .allOk, .serve 0 [] .allOk,
    .accept 7 (str "c0000003") (str "cid"), .serve 2 [] .allOk, .typed 5 (str "ho\n") .allOk,
    .typed 6 (str "hey\n") .allOk, .serve 1 [] .allOk, .serve 0 [] .allOk, .deliver 7 [] .allOk,
    .deliver 7 [] .allOk, .deliver 7 [] .allOk, .hangup 0 (-2) .allOk, .drain 0 [] .allOk,
    .drain 0 [] .allOk]

theorem sees_of_run_threeSpeak :
    ∃ q, exec step (start 3 gserverInfo) threeSpeak = .ok q ∧
      (q.reader 7).seen =
        [groupLmpFrame LMP_MSG (str "hey") 1, groupLmpFrame LMP_MSG (str "ho") 0] ∧
      q.gone.map Reader.seen = [[groupLmpFrame LMP_MSG (str "hey") 1]] ∧
      (q.reader 7).seen ++ chatsDown (q.net.link 7).down =
        ((q.reader 7).due q.log).map Prod.snd := by
  have hC : Meets step (fun q e => q.net.SendsOk e) (start 3 gserverInfo) threeSpeak := by
    decide +kernel
  obtain ⟨q, h, hfd, hseen, hgone⟩ := exists_ok (P := fun q => 7 ∈ q.net.conns ∧
      (q.reader 7).seen =
        [groupLmpFrame LMP_MSG (str "hey") 1, groupLmpFrame LMP_MSG (str "ho") 0] ∧
      q.gone.map Reader.seen = [[groupLmpFrame LMP_MSG (str "hey") 1]])
    (show (exec step (start 3 gserverInfo) threeSpeak).isOk by decide +kernel) (by decide +kernel)
  exact ⟨q, h, hseen, hgone, ((sees_of_run 3 gserverInfo threeSpeak hC h).1 7 hfd).2.2⟩

end Sequenced

end SocketSpeak
