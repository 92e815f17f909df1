import SocketSpeak.CLib.Fifo
import SocketSpeak.Group.Clients

/-!
# The group over its connections

The server and a `gclient` at the other end of each connection, with the frames that are under way.
A frame that the server relays is kept together with the nickname that its table has for the sender
then; nobody sees that but the statements about the run.
-/

namespace SocketSpeak
open CLib Sys Fifo

/-- `sizeof(buf)` in `handle_client_data` and in `receiver` -/
def RECV_BUF_SIZE : Nat := 4096

/-- A frame on its way to a client. -/
structure Sent where
  frame : Frame
  nickname : Option Bytes
  deriving DecidableEq

/-- A connection: the client, and what the server has sent and the client has not received.
`greeted` tells whether the group object has been sent. -/
structure Link where
  user : User
  down : List Sent
  greeted : Bool

namespace Link

def start (m : GroupMember) : Link := ⟨.start m, [], false⟩

def post (l : Link) (ms : List Sent) : Link :=
  { l with
    down := l.down ++ ms
    greeted := l.greeted || ms.any fun m => m.frame.type = LMP_GRP_OBJ }

theorem post_nil (l : Link) : l.post [] = l := by simp [post]

/-- The receiver of the client takes the next frame. -/
def deliver (l : Link) (env : UserEnv) (buf : Bytes) : Option (Except Fault Link) :=
  match l.down with
  | [] => none
  | m :: ms =>
    if m.frame.payload.length < RECV_BUF_SIZE then
      some ((l.user.receive env m.frame buf).map fun u => { l with user := u, down := ms })
    else none

end Link

/-- `closed` are the connections that the server has closed; their clients may still receive. -/
structure GroupNet where
  world : World
  link : Int → Link
  closed : List Link

inductive GroupEvent where
  /-- A client with this uid and nickname is accepted as `fd`. -/
  | accept (fd : Int) (uid nickname : Bytes)
  /-- A line is typed at the client on `fd`. -/
  | typed (fd : Int) (line : Bytes) (env : UserEnv)
  /-- The server handles the next frame on `pfds[k + 1]`. -/
  | serve (k : Nat) (buf : Bytes) (env : Env)
  /-- The server's receive on `pfds[k + 1]` fails. -/
  | hangup (k : Nat) (status : Int) (env : Env)
  /-- The client on `fd` receives the next frame. -/
  | deliver (fd : Int) (buf : Bytes) (env : UserEnv)
  /-- The client on the closed connection `j` receives the next frame. -/
  | drain (j : Nat) (buf : Bytes) (env : UserEnv)

/-- Why an event is no step. -/
inductive Stop where
  | disabled
  | fault (f : Fault)
  deriving DecidableEq

def liftFault {α : Type} : Except Fault α → Except Stop α := Except.mapError Stop.fault

/-- The nickname in the slot of `pfds[i]`. -/
def Server.senderNickname (s : Server) (i : Nat) : Option Bytes :=
  match s.group.member (i - 1) with
  | .ok m => some m.nickname.toStr
  | .error _ => none

/-- The nickname that the table has for the sender of a message. -/
def Server.nicknameFor (s : Server) : ServerEvent → Option Bytes
  | .frame i f _ _ => if f.type = LMP_MSG then s.senderNickname i else none
  | _ => none

/-- What of `out` goes to `fd`. -/
def sentTo (out : List Output) (nickname : Option Bytes) (fd : Int) : List Sent :=
  (out.filter fun o => o.fd = fd).map fun o =>
    ⟨o.frame, if o.frame.type = LMP_MSG then nickname else none⟩

namespace GroupNet

def start (listener : Int) (info : GroupInfo) : GroupNet where
  world := .start listener info
  link _ := .start .zero
  closed := []

def conns (n : GroupNet) : List Int := n.world.server.conns

def setLink (n : GroupNet) (fd : Int) (l : Link) : GroupNet :=
  { n with link := Function.update n.link fd l }

/-- The server handles an event. -/
def serverStep (n : GroupNet) (e : ServerEvent) : Except Fault GroupNet :=
  (n.world.server.step e).map fun (out, s) =>
    { n with
      world := ⟨s, n.world.announcedAfter e⟩
      link := fun fd => (n.link fd).post (sentTo out (n.world.server.nicknameFor e) fd) }

/-- The server closes the connection `pfds[k + 1]`, which is `fd`. -/
def close (n : GroupNet) (fd : Int) (k : Nat) (status : Int) (env : Env) : Except Fault GroupNet :=
  (n.serverStep (.hangup (k + 1) status env)).map fun n' =>
    { n' with closed := n'.closed ++ [n.link fd] }

def step (n : GroupNet) : GroupEvent → Except Stop GroupNet
  | .accept fd uid nickname =>
    if fd ∈ n.world.server.listener :: n.conns then .error .disabled
    else
      (liftFault (n.serverStep (.accept fd))).map fun n =>
        n.setLink fd (.start (userMemberInfo uid nickname))
  | .typed fd line env =>
    if fd ∈ n.conns then
      (liftFault ((n.link fd).user.typed env line)).map fun u =>
        n.setLink fd { n.link fd with user := u }
    else .error .disabled
  | .serve k buf env =>
    match n.conns[k]? with
    | none => .error .disabled
    | some fd =>
      match (n.link fd).user.up with
      | [] => .error .disabled
      | f :: up =>
        let n := n.setLink fd { n.link fd with user := { (n.link fd).user with up } }
        if f.payload.length < RECV_BUF_SIZE then liftFault (n.serverStep (.frame (k + 1) f buf env))
        else liftFault (n.close fd k (-4) env)
  | .hangup k status env =>
    match n.conns[k]? with
    | none => .error .disabled
    | some fd => liftFault (n.close fd k status env)
  | .deliver fd buf env =>
    if fd ∈ n.conns then
      match (n.link fd).deliver env buf with
      | none => .error .disabled
      | some l => (liftFault l).map fun l => n.setLink fd l
    else .error .disabled
  | .drain j buf env =>
    match (n.closed[j]?).bind fun l => l.deliver env buf with
    | none => .error .disabled
    | some l => (liftFault l).map fun l => { n with closed := n.closed.set j l }

end GroupNet

/-! ## The steps -/

theorem ok_of_liftFault {α : Type} {x : Except Fault α} {a : α} (h : liftFault x = .ok a) :
    x = .ok a := mapError_eq_ok.mp h

theorem Link.deliver_ok {l : Link} {env : UserEnv} {buf : Bytes} {x : Except Fault Link} {l' : Link}
    (h : l.deliver env buf = some x) (hx : x = .ok l') : ∃ m ms u, l.down = m :: ms ∧
      l.user.receive env m.frame buf = .ok u ∧ l' = { l with user := u, down := ms } := by
  unfold deliver at h
  split at h
  · cases h
  rename_i m ms hdown
  split at h
  · cases h
    obtain ⟨u, hu, rfl⟩ := ok_of_map hx
    exact ⟨m, ms, u, hdown, hu, rfl⟩
  · cases h

namespace GroupNet

/-- The server has read a frame of the client on `fd`, which has written `up` besides. -/
def read (n : GroupNet) (fd : Int) (up : List Frame) : GroupNet :=
  n.setLink fd { n.link fd with user := { (n.link fd).user with up } }

/-- All that an event can do. -/
inductive Moved (n : GroupNet) : GroupEvent → GroupNet → Prop
  | accept {fd uid nickname n₁} : fd ∉ n.world.server.listener :: n.conns →
    n.serverStep (.accept fd) = .ok n₁ →
    Moved n (.accept fd uid nickname) (n₁.setLink fd (.start (userMemberInfo uid nickname)))
  | typed {fd line env u} : fd ∈ n.conns → (n.link fd).user.typed env line = .ok u →
    Moved n (.typed fd line env) (n.setLink fd { n.link fd with user := u })
  | serve {k buf env fd f up n'} : n.conns[k]? = some fd → (n.link fd).user.up = f :: up →
    (n.read fd up).serverStep (.frame (k + 1) f buf env) = .ok n' →
    Moved n (.serve k buf env) n'
  | overlong {k buf env fd f up n'} : n.conns[k]? = some fd → (n.link fd).user.up = f :: up →
    (n.read fd up).close fd k (-4) env = .ok n' → Moved n (.serve k buf env) n'
  | hangup {k status env fd n'} : n.conns[k]? = some fd → n.close fd k status env = .ok n' →
    Moved n (.hangup k status env) n'
  | deliver {fd buf env m ms u} : fd ∈ n.conns → (n.link fd).down = m :: ms →
    (n.link fd).user.receive env m.frame buf = .ok u →
    Moved n (.deliver fd buf env) (n.setLink fd { n.link fd with user := u, down := ms })
  | drain {j buf env l m ms u} : n.closed[j]? = some l → l.down = m :: ms →
    l.user.receive env m.frame buf = .ok u →
    Moved n (.drain j buf env)
      { n with closed := n.closed.set j { l with user := u, down := ms } }

variable {n n' : GroupNet}

theorem moved_of_step {e : GroupEvent} (h : n.step e = .ok n') : Moved n e n' := by
  cases e with
  | accept fd uid nickname =>
    simp only [step] at h
    split at h
    · cases h
    · rename_i hfd
      obtain ⟨n₁, h₁, rfl⟩ := ok_of_map h
      exact .accept hfd (ok_of_liftFault h₁)
  | typed fd line env =>
    simp only [step] at h
    split at h
    · rename_i hfd
      obtain ⟨u, hu, rfl⟩ := ok_of_map h
      exact .typed hfd (ok_of_liftFault hu)
    · cases h
  | serve k buf env =>
    simp only [step] at h
    split at h
    · cases h
    rename_i fd hfd
    split at h
    · cases h
    rename_i f up hup
    split at h
    · exact .serve hfd hup (ok_of_liftFault h)
    · exact .overlong hfd hup (ok_of_liftFault h)
  | hangup k status env =>
    simp only [step] at h
    split at h
    · cases h
    · rename_i fd hfd
      exact .hangup hfd (ok_of_liftFault h)
  | deliver fd buf env =>
    simp only [step] at h
    split at h
    · rename_i hfd
      split at h
      · cases h
      · rename_i x hx
        obtain ⟨l, hl, rfl⟩ := ok_of_map h
        obtain ⟨m, ms, u, hdown, hu, rfl⟩ := Link.deliver_ok hx (ok_of_liftFault hl)
        exact .deliver hfd hdown hu
    · cases h
  | drain j buf env =>
    simp only [step] at h
    split at h
    · cases h
    · rename_i x hx
      obtain ⟨l₀, hl₀, hx⟩ := Option.bind_eq_some_iff.mp hx
      obtain ⟨l, hl, rfl⟩ := ok_of_map h
      obtain ⟨m, ms, u, hdown, hu, rfl⟩ := Link.deliver_ok hx (ok_of_liftFault hl)
      exact .drain hl₀ hdown hu

theorem serverStep_ok {e : ServerEvent} (h : n.serverStep e = .ok n') :
    ∃ out, n.world.server.step e = .ok (out, n'.world.server) ∧
      n'.world.announced = n.world.announcedAfter e ∧ n'.closed = n.closed ∧
      ∀ fd, n'.link fd = (n.link fd).post (sentTo out (n.world.server.nicknameFor e) fd) := by
  obtain ⟨⟨out, s⟩, hs, rfl⟩ := ok_of_map h
  exact ⟨out, hs, rfl, rfl, fun _ => rfl⟩

/-- What accepting a connection does, but for the client on it. -/
theorem accept_ok (ht : n.world.server.TableOk) {fd : Int}
    (hfd : fd ∉ n.world.server.listener :: n.conns) (h : n.serverStep (.accept fd) = .ok n') :
    n'.world.server.TableOk ∧ n'.world.server.group = n.world.server.group ∧
      n'.world.announced = Function.update n.world.announced fd none ∧ n'.closed = n.closed ∧
      n'.link = n.link ∧ ∀ fd' ∈ n'.conns, fd' ≠ fd → fd' ∈ n.conns := by
  obtain ⟨out, hs, ha, hc, hlink⟩ := serverStep_ok h
  simp only [Server.step, Except.ok.injEq, Prod.mk.injEq] at hs
  obtain ⟨rfl, hs⟩ := hs
  refine ⟨hs ▸ ht.accept hfd, ?_, ha, hc, ?_, fun fd' hfd' hne => ?_⟩
  · rw [← hs, Server.group_handleNewConnection]
  · funext fd'
    rw [hlink]
    exact Link.post_nil _
  · rw [conns, ← hs, Server.mem_conns_accept ht] at hfd'
    exact hfd'.resolve_right fun h => hne h.2

theorem close_ok {fd : Int} {k : Nat} {status : Int} {env : Env}
    (h : n.close fd k status env = .ok n') : ∃ n₁,
      n.serverStep (.hangup (k + 1) status env) = .ok n₁ ∧ n'.world = n₁.world ∧
      n'.link = n₁.link ∧ n'.closed = n.closed ++ [n.link fd] := by
  obtain ⟨n₁, h₁, rfl⟩ := ok_of_map h
  obtain ⟨-, -, -, hc, -⟩ := serverStep_ok h₁
  exact ⟨n₁, h₁, rfl, rfl, by rw [← hc]⟩

end GroupNet

/-! ## What the server sends -/

namespace Server
variable {s s' : Server} {i k : Nat} {f : Frame} {buf : Bytes} {env : Env} {status : Int}
  {out : List Output}

/-- The frame with the group object. -/
def objFrame (s : Server) : Frame := lmpFrame LMP_GRP_OBJ s.group.toBytes

/-- Every connection gets the group object, and nobody gets anything else. -/
structure Broadcast (s : Server) (out : List Output) : Prop where
  reaches : ∀ fd ∈ s.conns, (⟨fd, s.objFrame⟩ : Output) ∈ out
  only : ∀ o ∈ out, o.frame = s.objFrame

theorem TableOk.broadcast (ht : s.TableOk) (hok : ∀ fd ∈ s.conns, env.sendOk fd) :
    s.Broadcast (s.sendNewGroupToUsers env).2 := by
  rw [sendNewGroupToUsers_eq]
  refine ⟨fun fd hfd => ?_, fun o ho => ?_⟩
  · obtain ⟨p, hp, hl, rfl⟩ := ht.mem_conns.mp hfd
    exact List.mem_flatMap.mpr ⟨p, by simp [hp, hl], mem_lmpSend.mpr ⟨hok _ hfd, rfl⟩⟩
  · obtain ⟨p, -, ho⟩ := List.mem_flatMap.mp ho
    rw [(mem_lmpSend.mp ho).2]
    rfl

/-- What handling a frame sends: the group object if it has changed, else the frame itself to the
others, or answers. -/
inductive Sends (s : Server) (i : Nat) (f : Frame) (out : List Output) (s' : Server) : Prop
  | broadcast : f.type ≠ LMP_MSG → s'.Broadcast out → Sends s i f out s'
  | relay : f.type ≠ LMP_GRP_INIT_MEMBER → s'.group = s.group →
    (f.type = LMP_MSG → ∃ m, s.group.member (i - 1) = .ok m) →
    (∀ o ∈ out, s.pollFd i ≠ .ok o.fd ∧ o.frame = groupLmpFrame f.type f.payload (i - 1)) →
    Sends s i f out s'
  | answer : f.type ≠ LMP_GRP_INIT_MEMBER → s'.group = s.group →
    (∀ o ∈ out, Answer o.frame.type) → Sends s i f out s'

theorem sends_of_frame (ht : s.TableOk) (hok : ∀ fd ∈ s.conns, env.sendOk fd)
    (h : s.step (.frame i f buf env) = .ok (out, s')) : Sends s i f out s' := by
  have ht' := ht.frame h
  have hok' : ∀ fd ∈ s'.conns, env.sendOk fd := by
    rw [(conns_of_frame h).2.1]
    exact hok
  obtain ⟨fd, hfd, -, -, hh⟩ := handled_of_frame h
  cases hh with
  | nick m hf _ _ _ hout => exact .broadcast (by rw [hf]; decide) (hout ▸ ht'.broadcast hok')
  | init g hf _ _ _ hout => exact .broadcast (by rw [hf]; decide) (hout ▸ ht'.broadcast hok')
  | relayed hf hmsg _ hg hout =>
    refine .relay (fun hinit => by simp [hinit] at hf) hg (fun hm => ?_) fun o ho => ?_
    · obtain ⟨m, hm, -⟩ := hmsg hm
      exact ⟨m, hm⟩
    · rw [hout] at ho
      obtain ⟨p, hp, ho⟩ := List.mem_flatMap.mp ho
      obtain ⟨-, rfl⟩ := mem_groupLmpSend.mp ho
      rw [hfd]
      simp only [List.mem_filter, decide_eq_true_eq] at hp
      exact ⟨fun heq => hp.2.2 (Except.ok.inj heq).symm, rfl⟩
  | answered m hf _ _ hg _ hout =>
    refine .answer ?_ hg hout
    rintro hinit
    rw [hinit] at hf
    exact absurd hf (by decide)

theorem broadcast_of_hangup (ht : s.TableOk) (hk : k < s.conns.length)
    (hok : ∀ fd ∈ s.conns, env.sendOk fd)
    (h : s.step (.hangup (k + 1) status env) = .ok (out, s')) : s'.Broadcast out := by
  obtain ⟨-, -, -, -, hout⟩ := handled_of_hangup h
  rw [hout]
  refine (ht.hangup hk h).broadcast fun fd hfd => hok fd ?_
  rw [(conns_of_hangup ht hk h).2] at hfd
  exact mem_of_mem_swapRemove hfd

end Server

/-! ## The copies of the group object -/

/-- What the client makes of its copy when it receives the frame; the rest of its buffer may hold
anything. -/
def takes (g : Group) (m : Sent) (g' : Group) : Prop := ∃ buf, g' =
  if m.frame.type = LMP_GRP_OBJ then .ofBytes (m.frame.received buf).buf else g

theorem takes_of_receive {u u' : User} {env : UserEnv} {m : Sent} {buf : Bytes}
    (h : u.receive env m.frame buf = .ok u') : takes u.userGroup m u'.userGroup :=
  ⟨buf, User.userGroup_of_receive h⟩

theorem keeps_of_ne {m : Sent} (hm : m.frame.type ≠ LMP_GRP_OBJ) (P : Group → Prop) :
    Keeps takes P m := by
  rintro g g' hg ⟨buf, rfl⟩
  rwa [if_neg hm]

theorem sets_objFrame {m : Sent} {s : Server} (hm : m.frame = s.objFrame) :
    Sets takes (· = s.group) m := by
  rintro g g' ⟨buf, rfl⟩
  rw [hm]
  exact Group.ofBytes_toBytes_append _ _

theorem map_frame_sentTo (out : List Output) (nickname : Option Bytes) (fd : Int) :
    (sentTo out nickname fd).map Sent.frame = framesTo fd out := by
  rw [sentTo, framesTo, List.map_map]
  rfl

theorem mem_sentTo {out : List Output} {nickname : Option Bytes} {fd : Int} {m : Sent} :
    m ∈ sentTo out nickname fd ↔ ∃ o ∈ out, o.fd = fd ∧
      m = ⟨o.frame, if o.frame.type = LMP_MSG then nickname else none⟩ := by
  simp [sentTo, and_assoc, eq_comm]

/-- After a broadcast the copy will be the server's object, whatever was under way before. -/
theorem wp_broadcast {s : Server} {out : List Output} (hb : s.Broadcast out) {fd : Int}
    (hfd : fd ∈ s.conns) (nickname : Option Bytes) (ms : List Sent) (g : Group) :
    wp takes (· = s.group) (ms ++ sentTo out nickname fd) g := by
  apply wp_append_sets (mem_sentTo.mpr ⟨_, hb.reaches fd hfd, rfl, rfl⟩) (sets_objFrame rfl)
  intro m hm
  obtain ⟨o, ho, -, rfl⟩ := mem_sentTo.mp hm
  exact (sets_objFrame (hb.only o ho)).keeps

namespace GroupNet

theorem link_setLink (n : GroupNet) (fd fd' : Int) (l : Link) :
    (n.setLink fd l).link fd' = if fd' = fd then l else n.link fd' := by
  by_cases h : fd' = fd
  · subst h
    rw [if_pos rfl]
    exact Function.update_self ..
  · rw [if_neg h]
    exact Function.update_of_ne h ..

theorem link_read (n : GroupNet) (fd fd' : Int) (up : List Frame) : (n.read fd up).link fd' =
    if fd' = fd then { n.link fd with user := { (n.link fd).user with up } } else n.link fd' :=
  n.link_setLink fd fd' _

/-- Every send of the server succeeds. -/
def SendsOk (n : GroupNet) : GroupEvent → Prop
  | .serve _ _ env => ∀ fd ∈ n.conns, env.sendOk fd
  | .hangup _ _ env => ∀ fd ∈ n.conns, env.sendOk fd
  | _ => True

instance (n : GroupNet) : ∀ e, Decidable (n.SendsOk e)
  | .serve .. => inferInstanceAs (Decidable (∀ fd ∈ n.conns, _))
  | .hangup .. => inferInstanceAs (Decidable (∀ fd ∈ n.conns, _))
  | .accept .. | .typed .. | .deliver .. | .drain .. => .isTrue trivial

/-- Two clients have announced themselves, and everything has been received. -/
def annAndBob : List GroupEvent :=
  [.accept 5 (str "a0000001") (str "ann"), .serve 0 [] .allOk, .deliver 5 [] .allOk,
    .accept 6 (str "b0000002") (str "bob"), .serve 1 [] .allOk, .deliver 5 [] .allOk,
    .deliver 6 [] .allOk]

end GroupNet

end SocketSpeak
