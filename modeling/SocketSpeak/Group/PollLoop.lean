import SocketSpeak.CLib.Simulation
import SocketSpeak.Group.Net
import SocketSpeak.Group.PollRound

/-!
# The poll loop and the events

The server does not choose the next event freely: `poll` fills in the `revents` of the whole table,
then the loop of `process_connections` goes through it and handles what is marked, while the clients
go on. All that is proved of the runs of `GroupNet` holds of that loop all the same: forgetting the
`revents` and the index of the loop, the two have the same runs.
-/

namespace SocketSpeak
open CLib Sys

/-! ## Forgetting what `poll` has found -/

theorem map_bind_eq {φ α β γ : Type} (x : Except φ α) (f : α → Except φ β) (g : β → γ) :
    (x >>= f).map g = x >>= fun a => (f a).map g := by
  cases x <;> rfl

def PollFd.forget (p : PollFd) : PollFd := { p with revents := 0 }

@[simp] theorem PollFd.fd_forget (p : PollFd) : p.forget.fd = p.fd := rfl

namespace Server
variable (s : Server) (env : Env) (i : Nat) (fd : Int)

def forget : Server := { s with pfds := s.pfds.map PollFd.forget }

@[simp] theorem pfds_forget : s.forget.pfds = s.pfds.map PollFd.forget := rfl

@[simp] theorem fdCount_forget : s.forget.fdCount = s.fdCount := by simp [fdCount]

@[simp] theorem conns_forget : s.forget.conns = s.conns := by
  simp [conns, ← List.map_tail, Function.comp_def]

@[simp] theorem pollFd_forget (i : Int) : s.forget.pollFd i = s.pollFd i := by
  unfold pollFd
  by_cases hi : i < 0
  · simp only [hi, if_true]
  · simp only [hi, if_false, pfds_forget, List.getElem?_map]
    cases s.pfds[i.toNat]? <;> rfl

theorem tableOk_forget : s.forget.TableOk ↔ s.TableOk := by
  have hfd : s.forget.pfds.map PollFd.fd = s.pfds.map PollFd.fd := by simp [Function.comp_def]
  constructor
  · rintro ⟨hhead, hnd⟩
    rw [hfd, conns_forget] at hhead
    rw [conns_forget] at hnd
    exact ⟨hhead, hnd⟩
  · rintro ⟨hhead, hnd⟩
    exact ⟨by rw [hfd, conns_forget]; exact hhead, by rw [conns_forget]; exact hnd⟩

/-! No handler reads the `revents`. -/

theorem sendNewGroupLoop_forget (listener : Int) (g : Group) (ps : List PollFd) :
    sendNewGroupLoop env listener g (ps.map PollFd.forget) =
      sendNewGroupLoop env listener g ps := by
  induction ps with
  | nil => rfl
  | cons p ps ih => simp only [List.map_cons, sendNewGroupLoop, PollFd.fd_forget, ih]

@[simp] theorem sendNewGroupToUsers_forget :
    s.forget.sendNewGroupToUsers env = s.sendNewGroupToUsers env :=
  sendNewGroupLoop_forget env s.listener s.group s.pfds

@[simp] theorem relay_forget (type : UInt8) (payload : Bytes) :
    s.forget.relay env i fd type payload = s.relay env i fd type payload := by
  simp only [relay, pfds_forget, List.filter_map, List.flatMap_map]
  rfl

theorem handleNewConnection_forget :
    s.forget.handleNewConnection fd = (s.handleNewConnection fd).forget := by
  unfold handleNewConnection
  split
  · rfl
  · rw [addToPfds, fdCount_forget]
    simp [addToPfds, forget, PollFd.forget]
    rfl

theorem delFromPfds_forget : s.forget.delFromPfds i = (s.delFromPfds i).map forget := by
  simp only [delFromPfds, fdCount_forget, pfds_forget, ← map_swapRemove, map_bind_eq]
  rfl

@[simp] theorem sendToPlayer_forget (response uid : Bytes) :
    s.forget.sendToPlayer env response uid = s.sendToPlayer env response uid := by
  simp only [sendToPlayer, pollFd_forget]
  rfl

@[simp] theorem sendToPlayers_forget (response : Bytes) (uids : List Bytes) :
    s.forget.sendToPlayers env response uids = s.sendToPlayers env response uids := by
  induction uids with
  | nil => rfl
  | cons uid uids ih => simp only [sendToPlayers, sendToPlayer_forget, ih]

/-- The frames that go out and the state after them, without the `revents`. -/
def forgetAfter (r : List Output × Server) : List Output × Server := (r.1, r.2.forget)

theorem clientHangup_forget :
    s.forget.clientHangup env i = (s.clientHangup env i).map forgetAfter := by
  unfold clientHangup
  rw [map_bind_eq, delFromPfds_forget]
  cases s.delFromPfds i with
  | error => rfl
  | ok s' =>
    simp only [Except.map, ok_bind, pure_eq_ok, sendNewGroupToUsers_forget]
    rfl

theorem clientNick_forget (buf : Bytes) :
    s.forget.clientNick env i buf = (s.clientNick env i buf).map forgetAfter := by
  simp only [clientNick, map_bind_eq]
  refine bind_congr fun m => bind_congr fun group => ?_
  exact congrArg (fun r : Int × List Output => Except.ok (r.2, _))
    (sendNewGroupToUsers_forget { s with group } env)

theorem clientInitMember_forget (buf : Bytes) :
    s.forget.clientInitMember env buf = (s.clientInitMember env buf).map forgetAfter := by
  simp only [clientInitMember, map_bind_eq]
  refine bind_congr fun g => bind_congr fun group => ?_
  exact congrArg (fun r : Int × List Output => Except.ok (r.2, _))
    (sendNewGroupToUsers_forget { s with group } env)

theorem clientLoadMsg_forget :
    s.forget.clientLoadMsg env i fd = (s.clientLoadMsg env i fd).map forgetAfter := by
  simp only [clientLoadMsg, map_bind_eq]
  rfl

theorem clientGuess_forget (m : GroupMember) (buf : Bytes) :
    s.forget.clientGuess env fd m buf = (s.clientGuess env fd m buf).map forgetAfter := by
  simp only [clientGuess, sendToPlayers_forget, apply_ite (Except.map forgetAfter), map_bind_eq]
  rfl

theorem clientMsg_forget (r : Received) :
    s.forget.clientMsg env i fd r = (s.clientMsg env i fd r).map forgetAfter := by
  simp only [clientMsg, relay_forget, clientGuess_forget, apply_ite (Except.map forgetAfter),
    map_bind_eq]
  rfl

theorem clientHangman_forget (buf : Bytes) :
    s.forget.clientHangman env i fd buf = (s.clientHangman env i fd buf).map forgetAfter := by
  simp only [clientHangman, pfds_forget, List.filter_map, List.flatMap_map, Function.comp_def,
    PollFd.fd_forget, apply_ite (Except.map forgetAfter), map_bind_eq]
  rfl

theorem handleClientData_forget (r : Except Int Received) :
    s.forget.handleClientData env i r = (s.handleClientData env i r).map forgetAfter := by
  simp only [handleClientData, pollFd_forget, map_bind_eq]
  refine bind_congr fun fd => ?_
  cases r with
  | error => exact clientHangup_forget s env i
  | ok r =>
    simp only [apply_ite (Except.map forgetAfter), clientNick_forget, clientInitMember_forget,
      clientLoadMsg_forget, clientHangman_forget, clientMsg_forget, relay_forget]
    rfl

theorem step_forget (e : ServerEvent) : s.forget.step e = (s.step e).map forgetAfter := by
  cases e with
  | accept fd => exact congrArg (fun s => Except.ok ([], s)) (handleNewConnection_forget s fd)
  | frame i f buf env => exact handleClientData_forget s env i (.ok (f.received buf).received)
  | hangup i status env => exact handleClientData_forget s env i (.error status)

end Server

namespace GroupNet
variable (n : GroupNet)

def forget : GroupNet := { n with world := { n.world with server := n.world.server.forget } }

@[simp] theorem link_forget : n.forget.link = n.link := rfl

@[simp] theorem conns_forget : n.forget.conns = n.conns := n.world.server.conns_forget

theorem announcedAfter_forget (e : ServerEvent) :
    n.forget.world.announcedAfter e = n.world.announcedAfter e := by
  cases e with
  | accept | hangup => rfl
  | frame i f buf env =>
    simp only [World.announcedAfter, forget, Server.pollFd_forget]

theorem serverStep_forget (e : ServerEvent) :
    n.forget.serverStep e = (n.serverStep e).map forget := by
  have hs : n.forget.world.server.step e = (n.world.server.step e).map Server.forgetAfter :=
    n.world.server.step_forget e
  rw [serverStep, serverStep, hs, announcedAfter_forget]
  cases n.world.server.step e <;> rfl

theorem close_forget (fd : Int) (k : Nat) (status : Int) (env : Env) :
    n.forget.close fd k status env = (n.close fd k status env).map forget := by
  rw [close, close, serverStep_forget]
  cases n.serverStep (.hangup (k + 1) status env) <;> rfl

theorem liftFault_map {α β : Type} (x : Except Fault α) (f : α → β) :
    liftFault (x.map f) = (liftFault x).map f := by
  cases x <;> rfl

/-- The events do not depend on the `revents`. -/
theorem step_forget (e : GroupEvent) : n.forget.step e = (n.step e).map forget := by
  cases e with
  | accept fd uid nickname =>
    simp only [step, conns_forget, serverStep_forget, apply_ite (Except.map forget)]
    refine if_congr Iff.rfl rfl ?_
    cases n.serverStep (.accept fd) <;> rfl
  | typed fd line env =>
    simp only [step, conns_forget, link_forget, apply_ite (Except.map forget)]
    refine if_congr Iff.rfl ?_ rfl
    cases (n.link fd).user.typed env line <;> rfl
  | serve k buf env =>
    simp only [step, conns_forget, link_forget]
    cases n.conns[k]? with
    | none => rfl
    | some fd =>
      cases hup : (n.link fd).user.up with
      | nil => simp only [hup]; rfl
      | cons f up =>
        simp only [hup, apply_ite (Except.map forget), ← liftFault_map]
        refine if_congr Iff.rfl ?_ ?_
        · exact congrArg liftFault ((n.read fd up).serverStep_forget _)
        · exact congrArg liftFault ((n.read fd up).close_forget fd k (-4) env)
  | hangup k status env =>
    simp only [step, conns_forget, close_forget]
    cases n.conns[k]? with
    | none => rfl
    | some fd => exact liftFault_map _ _
  | deliver fd buf env =>
    simp only [step, conns_forget, link_forget, apply_ite (Except.map forget)]
    refine if_congr Iff.rfl ?_ rfl
    cases (n.link fd).deliver env buf with
    | none => rfl
    | some l => cases l <;> rfl
  | drain j buf env =>
    have hclosed : n.forget.closed = n.closed := rfl
    simp only [step, hclosed]
    cases (n.closed[j]?).bind fun l => l.deliver env buf with
    | none => rfl
    | some l => cases l <;> rfl

theorem tableOk_of_forget {n n' : GroupNet} (h : n'.forget = n.forget)
    (ht : n.world.server.TableOk) : n'.world.server.TableOk := by
  have hs : n'.world.server.forget = n.world.server.forget :=
    congrArg (fun n => n.world.server) h
  rwa [← Server.tableOk_forget, hs, Server.tableOk_forget]

theorem tableOk_step {n n' : GroupNet} {e : GroupEvent} (ht : n.world.server.TableOk)
    (h : n.step e = .ok n') : n'.world.server.TableOk := by
  cases moved_of_step h with
  | accept hfd h₁ => exact (accept_ok ht hfd h₁).1
  | typed | deliver | drain => exact ht
  | serve hk _ h₁ =>
    obtain ⟨out, hs, -⟩ := serverStep_ok h₁
    exact ht.frame hs
  | overlong hk _ h₁ =>
    obtain ⟨n₁, h₂, hw, -⟩ := close_ok h₁
    obtain ⟨out, hs, -⟩ := serverStep_ok h₂
    rw [hw]
    exact Server.TableOk.hangup ht (List.getElem?_eq_some_iff.mp hk).1 hs
  | hangup hk h₁ =>
    obtain ⟨n₁, h₂, hw, -⟩ := close_ok h₁
    obtain ⟨out, hs, -⟩ := serverStep_ok h₂
    rw [hw]
    exact ht.hangup (List.getElem?_eq_some_iff.mp hk).1 hs

end GroupNet

/-! ## The poll loop -/

/-- `process_connections` at `pfds[i]`; at the end of the table the next is `poll`. -/
structure PollNet where
  net : GroupNet
  i : Nat

/-- What comes in for a ready entry. -/
inductive Arrival where
  /-- `accept` returns a connection to a client with this uid and nickname. -/
  | new (fd : Int) (uid nickname : Bytes)
  /-- `accept` fails. -/
  | none
  /-- `lmp_recv` takes the next frame; its buffer held `buf`. -/
  | frame (buf : Bytes) (env : Env)
  /-- `lmp_recv` fails. -/
  | broken (status : Int) (env : Env)

inductive PollEvent where
  /-- `poll` returns with these `revents`. -/
  | poll (revents : List Nat)
  /-- The loop examines the next entry. -/
  | iterate (a : Arrival)
  /-- A client types or receives. -/
  | client (e : GroupEvent)

def GroupEvent.OfClient : GroupEvent → Prop
  | .typed .. | .deliver .. | .drain .. => True
  | _ => False

instance : DecidablePred GroupEvent.OfClient
  | .typed .. | .deliver .. | .drain .. => .isTrue trivial
  | .accept .. | .serve .. | .hangup .. => .isFalse fun h => h

def GroupNet.polled (n : GroupNet) (revents : List Nat) : GroupNet :=
  { n with world := { n.world with server := { n.world.server with
      pfds := List.zipWith (fun c r => { c with revents := r }) n.world.server.pfds revents } } }

namespace PollNet

/-- `group_server_TCP_listen` before the first `poll` -/
def start (listener : Int) (info : GroupInfo) : PollNet :=
  ⟨.start listener info, (Server.start listener info).fdCount⟩

def server (p : PollNet) : Server := p.net.world.server

/-- The connection `pfds[i]`, which is `fd`, is closed, and the slot is examined again. -/
def hangup (p : PollNet) (fd : Int) (status : Int) (env : Env) : Except Stop PollNet :=
  (liftFault (p.net.serverStep (.hangup p.i status env))).map fun n =>
    ⟨{ n with closed := n.closed ++ [p.net.link fd] }, p.i⟩

/-- The entry `pfds[i]`, which is ready, has the descriptor `fd`. -/
def handle (p : PollNet) (fd : Int) : Arrival → Except Stop PollNet
  | .new newfd uid nickname =>
    if fd = p.server.listener ∧ newfd ∉ p.server.listener :: p.server.conns then
      (liftFault (p.net.serverStep (.accept newfd))).map fun n =>
        ⟨n.setLink newfd (.start (userMemberInfo uid nickname)), p.i + 1⟩
    else .error .disabled
  | .none => if fd = p.server.listener then .ok ⟨p.net, p.i + 1⟩ else .error .disabled
  | .frame buf env =>
    if fd = p.server.listener then .error .disabled
    else
      match (p.net.link fd).user.up with
      | [] => .error .disabled
      | f :: up =>
        if f.payload.length < RECV_BUF_SIZE then
          (liftFault ((p.net.read fd up).serverStep (.frame p.i f buf env))).map fun n =>
            ⟨n, p.i + 1⟩
        else hangup ⟨p.net.read fd up, p.i⟩ fd (-4) env
  | .broken status env =>
    if fd = p.server.listener then .error .disabled else p.hangup fd status env

def step (p : PollNet) : PollEvent → Except Stop PollNet
  | .poll revents =>
    if p.i = p.server.fdCount ∧ revents.length = p.server.fdCount then
      .ok ⟨p.net.polled revents, 0⟩
    else .error .disabled
  | .iterate a =>
    match p.server.pfds[p.i]? with
    | none => .error .disabled
    | some c => if c.Ready then p.handle c.fd a else .ok ⟨p.net, p.i + 1⟩
  | .client e =>
    if e.OfClient then (p.net.step e).map fun n => ⟨n, p.i⟩ else .error .disabled

end PollNet

/-! ## The loop takes the steps of the events -/

theorem GroupNet.forget_polled (n : GroupNet) {revents : List Nat}
    (hlen : revents.length = n.world.server.fdCount) : (n.polled revents).forget = n.forget := by
  have h : ∀ (ps : List PollFd) (rs : List Nat), rs.length = ps.length →
      (List.zipWith (fun c r => ({ c with revents := r } : PollFd)) ps rs).map PollFd.forget =
        ps.map PollFd.forget := by
    intro ps
    induction ps with
    | nil => intro rs _; rfl
    | cons c ps ih =>
      intro rs hrs
      cases rs with
      | nil => cases hrs
      | cons r rs =>
        rw [List.zipWith_cons_cons, List.map_cons, List.map_cons, ih rs (Nat.succ.inj hrs)]
        rfl
  simp only [forget, polled, Server.forget, h _ _ hlen]

namespace PollNet
variable {p p' : PollNet} {fd : Int} {k : Nat}

theorem handle_new (hl : fd = p.server.listener) (newfd : Int) (uid nickname : Bytes) :
    p.handle fd (.new newfd uid nickname) =
      (p.net.step (.accept newfd uid nickname)).map fun n => ⟨n, p.i + 1⟩ := by
  by_cases hnew : newfd ∈ p.server.listener :: p.server.conns
  · have hstep : p.net.step (.accept newfd uid nickname) = .error .disabled := if_pos hnew
    rw [handle, if_neg fun h => h.2 hnew, hstep]
    rfl
  · have hstep : p.net.step (.accept newfd uid nickname) = _ := if_neg hnew
    rw [handle, if_pos ⟨hl, hnew⟩, hstep]
    cases p.net.serverStep (.accept newfd) <;> rfl

theorem hangup_eq (hi : p.i = k + 1) (status : Int) (env : Env) :
    p.hangup fd status env =
      (liftFault (p.net.close fd k status env)).map fun n => ⟨n, p.i⟩ := by
  rw [hangup, GroupNet.close, hi]
  cases h : p.net.serverStep (.hangup (k + 1) status env) <;> rfl

theorem handle_frame (hi : p.i = k + 1) (hk : p.net.conns[k]? = some fd)
    (hl : fd ≠ p.server.listener) (buf : Bytes) (env : Env) :
    ∃ j, p.handle fd (.frame buf env) =
      (p.net.step (.serve k buf env)).map fun n => ⟨n, j⟩ := by
  simp only [handle, if_neg hl, GroupNet.step, hk]
  cases hup : (p.net.link fd).user.up with
  | nil => exact ⟨0, rfl⟩
  | cons f up =>
    simp only
    split
    · exact ⟨p.i + 1, by rw [hi]; rfl⟩
    · exact ⟨p.i, hangup_eq (p := ⟨p.net.read fd up, p.i⟩) hi (-4) env⟩

theorem handle_broken (hi : p.i = k + 1) (hk : p.net.conns[k]? = some fd)
    (hl : fd ≠ p.server.listener) (status : Int) (env : Env) :
    p.handle fd (.broken status env) =
      (p.net.step (.hangup k status env)).map fun n => ⟨n, p.i⟩ := by
  simp only [handle, if_neg hl, GroupNet.step, hk]
  exact hangup_eq hi status env

/-- Where the entry `pfds[i]` of a table comes from. -/
theorem at_entry (ht : p.server.TableOk) {c : PollFd} (hc : p.server.pfds[p.i]? = some c) :
    c.fd = p.server.listener ∧ p.i = 0 ∨
      c.fd ≠ p.server.listener ∧ ∃ k, p.i = k + 1 ∧ p.net.conns[k]? = some c.fd := by
  have hget : (p.server.listener :: p.server.conns)[p.i]? = some c.fd := by
    rw [← ht.head, List.getElem?_map, hc]
    rfl
  cases hi : p.i with
  | zero =>
    rw [hi] at hget
    exact .inl ⟨(Option.some.inj hget).symm, rfl⟩
  | succ k =>
    rw [hi, List.getElem?_cons_succ] at hget
    refine .inr ⟨?_, k, rfl, hget⟩
    rintro hl
    exact (List.nodup_cons.mp ht.nodup).1 (hl ▸ List.mem_of_getElem? hget)

/-- A step of the loop is disabled, or it is one of the events, or the events do not see it. -/
theorem step_cases (ht : p.server.TableOk) (e : PollEvent) :
    p.step e = .error .disabled ∨
      (∃ p', p.step e = .ok p' ∧ p'.net.forget = p.net.forget ∧ p'.server.TableOk) ∨
      ∃ g j, p.step e = (p.net.step g).map fun n => ⟨n, j⟩ := by
  cases e with
  | poll revents =>
    by_cases h : p.i = p.server.fdCount ∧ revents.length = p.server.fdCount
    · have hforget := p.net.forget_polled h.2
      exact .inr (.inl ⟨_, if_pos h, hforget, GroupNet.tableOk_of_forget hforget ht⟩)
    · exact .inl (if_neg h)
  | client e =>
    by_cases h : e.OfClient
    · exact .inr (.inr ⟨e, p.i, if_pos h⟩)
    · exact .inl (if_neg h)
  | iterate a =>
    cases hc : p.server.pfds[p.i]? with
    | none => exact .inl (by simp only [step, hc])
    | some c =>
      simp only [step, hc]
      split
      · rcases at_entry ht hc with ⟨hl, hi⟩ | ⟨hl, k, hi, hk⟩
        · cases a with
          | new fd uid nickname => exact .inr (.inr ⟨_, _, handle_new hl fd uid nickname⟩)
          | none => exact .inr (.inl ⟨_, if_pos hl, rfl, ht⟩)
          | frame | broken => exact .inl (if_pos hl)
        · cases a with
          | new => exact .inl (if_neg fun h => hl h.1)
          | none => exact .inl (if_neg hl)
          | frame buf env =>
            obtain ⟨j, h⟩ := handle_frame hi hk hl buf env
            exact .inr (.inr ⟨_, j, h⟩)
          | broken status env => exact .inr (.inr ⟨_, _, handle_broken hi hk hl status env⟩)
      · exact .inr (.inl ⟨_, rfl, rfl, ht⟩)

/-- The loop and the events are in the same state. -/
structure Matches (p : PollNet) (n : GroupNet) : Prop where
  table : p.server.TableOk
  forget : p.net.forget = n

/-- The loop reaches nothing that the events do not. -/
theorem simulated : Simulation step GroupNet.step (fun x => x ≠ .disabled) Matches where
  ok := by
    rintro p n e p' ⟨ht, rfl⟩ h
    rcases step_cases ht e with hs | ⟨p₁, hs, hforget, ht'⟩ | ⟨g, j, hs⟩
    · rw [hs] at h
      cases h
    · rw [hs] at h
      cases h
      exact ⟨[], _, rfl, ht', hforget⟩
    · rw [hs] at h
      obtain ⟨n', hn', rfl⟩ := ok_of_map h
      refine ⟨[g], n'.forget, ?_, GroupNet.tableOk_step ht hn', rfl⟩
      rw [exec_singleton, GroupNet.step_forget, hn']
      rfl
  error := by
    rintro p n e x ⟨ht, rfl⟩ h hx
    rcases step_cases ht e with hs | ⟨p₁, hs, -⟩ | ⟨g, j, hs⟩
    · rw [hs] at h
      cases h
      exact absurd rfl hx
    · rw [hs] at h
      cases h
    · rw [hs] at h
      refine ⟨[g], ?_⟩
      rw [exec_singleton, GroupNet.step_forget]
      cases hg : p.net.step g with
      | ok n' => rw [hg] at h; cases h
      | error y => rw [hg] at h; cases h; rfl

/-! ## The events are steps of the loop -/

/-- No entry from `pfds[i]` on is ready. -/
def Quiet (p : PollNet) (i : Nat) : Prop :=
  ∀ j c, i ≤ j → p.server.pfds[j]? = some c → ¬ c.Ready

/-- The loop passes what is not ready. -/
theorem exec_pass (d : Nat) (hd : p.i + d ≤ p.server.fdCount)
    (hq : ∀ j c, p.i ≤ j → j < p.i + d → p.server.pfds[j]? = some c → ¬ c.Ready) :
    exec step p (List.replicate d (.iterate .none)) = .ok ⟨p.net, p.i + d⟩ := by
  induction d generalizing p with
  | zero => rfl
  | succ d ih =>
    have hlt : p.i < p.server.pfds.length := by
      rw [Server.fdCount] at hd
      omega
    have hc := List.getElem?_eq_getElem hlt
    have hstep : p.step (.iterate .none) = .ok ⟨p.net, p.i + 1⟩ := by
      simp only [step, hc, if_neg (hq _ _ (Nat.le_refl _) (by omega) hc)]
    rw [List.replicate_succ, exec_cons_ok]
    refine ⟨_, hstep, ?_⟩
    have hsucc : p.i + 1 + d = p.i + (d + 1) := by omega
    have hrest := ih (p := ⟨p.net, p.i + 1⟩) (hsucc ▸ hd) fun j c hj hlt hc =>
      hq j c (Nat.le_of_succ_le hj) (hsucc ▸ hlt) hc
    rw [hrest, hsucc]

theorem exec_finish (hq : p.Quiet p.i) (hle : p.i ≤ p.server.fdCount) :
    ∃ es, exec step p es = .ok ⟨p.net, p.server.fdCount⟩ := by
  refine ⟨List.replicate (p.server.fdCount - p.i) (.iterate .none), ?_⟩
  rw [exec_pass _ (by omega) fun j c hj _ hc => hq j c hj hc]
  congr
  omega

theorem ready_iff (c : PollFd) (i j : Nat) :
    PollFd.Ready { c with revents := if j = i then POLLIN else 0 } ↔ j = i := by
  by_cases h : j = i <;> simp [PollFd.Ready, h, POLLIN, POLLHUP]

/-- `poll` finds but one entry ready, and the loop gets to it. -/
theorem exec_focus {i : Nat} (hpoll : p.i = p.server.fdCount) (hi : i < p.server.fdCount) :
    ∃ es q c, exec step p es = .ok q ∧ q.net.forget = p.net.forget ∧ q.i = i ∧
      q.server.pfds[i]? = some c ∧ c.Ready ∧ q.Quiet (i + 1) := by
  let revents := (List.range p.server.fdCount).map fun j => if j = i then POLLIN else 0
  have hlen : revents.length = p.server.fdCount := by simp [revents]
  let q : PollNet := ⟨p.net.polled revents, 0⟩
  have hget : ∀ j c, q.server.pfds[j]? = some c → (c.Ready ↔ j = i) := by
    intro j c hc
    obtain ⟨c', r, -, hr, rfl⟩ := List.getElem?_zipWith_eq_some.mp hc
    obtain ⟨j', hj', rfl⟩ := List.mem_map.mp (List.mem_of_getElem? hr)
    have hj : j < p.server.fdCount := hlen ▸ (List.getElem?_eq_some_iff.mp hr).1
    simp only [revents, List.getElem?_map, List.getElem?_range hj, Option.map_some,
      Option.some.injEq] at hr
    rw [← hr]
    exact ready_iff c' i j
  have hcount : q.server.fdCount = p.server.fdCount := by
    rw [← Server.fdCount_forget, ← p.server.fdCount_forget]
    exact congrArg (fun n => n.world.server.fdCount) (p.net.forget_polled hlen)
  have hlt : i < q.server.pfds.length := Nat.lt_of_lt_of_eq hi hcount.symm
  obtain ⟨c, hc⟩ : ∃ c, q.server.pfds[i]? = some c := ⟨_, List.getElem?_eq_getElem hlt⟩
  have hpass : exec step q (List.replicate i (.iterate .none)) = .ok ⟨q.net, 0 + i⟩ :=
    exec_pass i (by rw [hcount, Nat.zero_add]; exact Nat.le_of_lt hi) fun j c _ hj hc hr =>
      absurd ((hget j c hc).mp hr) (by simp only [q] at hj; omega)
  rw [Nat.zero_add] at hpass
  refine ⟨.poll revents :: List.replicate i (.iterate .none), ⟨q.net, i⟩, c,
    exec_cons_ok.mpr ⟨q, if_pos ⟨hpoll, hlen⟩, hpass⟩, p.net.forget_polled hlen, rfl, hc,
    (hget i c hc).mpr rfl, fun j c hj hc hr => ?_⟩
  have := (hget j c hc).mp hr
  omega

theorem rest_of_hangup {status : Int} {env : Env} (hi : p.i < p.server.fdCount)
    (hq : p.Quiet (p.i + 1)) (h : p.hangup fd status env = .ok p') :
    p'.Quiet p'.i ∧ p'.i ≤ p'.server.fdCount := by
  obtain ⟨n, hn, rfl⟩ := ok_of_map h
  obtain ⟨out, hs, -⟩ := GroupNet.serverStep_ok (ok_of_liftFault hn)
  obtain ⟨-, -, hpfds, -⟩ := Server.handled_of_hangup hs
  have hlen : n.world.server.pfds.length = p.server.pfds.length - 1 := by
    rw [hpfds, length_swapRemove]
    rfl
  refine ⟨fun j c hj hc => ?_, ?_⟩
  · have hlt : j < n.world.server.pfds.length := (List.getElem?_eq_some_iff.mp hc).1
    have hc : (swapRemove p.server.pfds p.i)[j]? = some c := hpfds ▸ hc
    have hj : p.i ≤ j := hj
    rw [getElem?_swapRemove (by omega)] at hc
    split at hc
    · rw [List.getLast?_eq_getElem?] at hc
      exact hq _ c (by omega) hc
    · exact hq j c (by omega) hc
  · have hi : p.i < p.server.pfds.length := hi
    have hle : p.i ≤ n.world.server.pfds.length := by omega
    exact hle

theorem rest_of_pfds {n : GroupNet} (hpfds : n.world.server.pfds = p.server.pfds)
    (hi : p.i < p.server.fdCount) (hq : p.Quiet (p.i + 1)) :
    Quiet ⟨n, p.i + 1⟩ (p.i + 1) ∧ p.i + 1 ≤ n.world.server.fdCount := by
  refine ⟨fun j c hj hc => hq j c hj (hpfds ▸ hc), ?_⟩
  rw [Server.fdCount, hpfds]
  exact hi

theorem rest_of_new {n : GroupNet} {newfd : Int}
    (hs : p.server.handleNewConnection newfd = n.world.server) (hi : p.i < p.server.fdCount)
    (hq : p.Quiet (p.i + 1)) :
    Quiet ⟨n, p.i + 1⟩ (p.i + 1) ∧ p.i + 1 ≤ n.world.server.fdCount := by
  rw [Server.handleNewConnection] at hs
  split at hs
  · exact rest_of_pfds (congrArg Server.pfds hs.symm) hi hq
  · have hpfds : n.world.server.pfds = p.server.pfds ++ [⟨newfd, POLLIN, 0⟩] := by
      rw [← hs]
      rfl
    refine ⟨fun j c hj hc => ?_, ?_⟩
    · have hc : (p.server.pfds ++ [⟨newfd, POLLIN, 0⟩])[j]? = some c := hpfds ▸ hc
      rw [List.getElem?_append] at hc
      split at hc
      · exact hq j c hj hc
      · obtain rfl := List.mem_singleton.mp (List.mem_of_getElem? hc)
        exact Round.not_ready_new newfd
    · rw [Server.fdCount, hpfds, List.length_append]
      exact Nat.le_succ_of_le hi

/-- After an entry has been handled, the loop goes on with those that are not ready. -/
theorem rest_of_handle {a : Arrival} (hi : p.i < p.server.fdCount) (hq : p.Quiet (p.i + 1))
    (h : p.handle fd a = .ok p') : p'.Quiet p'.i ∧ p'.i ≤ p'.server.fdCount := by
  cases a with
  | new newfd uid nickname =>
    simp only [handle] at h
    split at h
    · obtain ⟨n, hn, rfl⟩ := ok_of_map h
      obtain ⟨out, hs, -⟩ := GroupNet.serverStep_ok (ok_of_liftFault hn)
      have hs : p.server.handleNewConnection newfd = n.world.server :=
        congrArg Prod.snd (Except.ok.inj hs)
      exact rest_of_new hs hi hq
    · cases h
  | none =>
    simp only [handle] at h
    split at h
    · cases h
      exact ⟨hq, hi⟩
    · cases h
  | frame buf env =>
    simp only [handle] at h
    split at h
    · cases h
    split at h
    · cases h
    split at h
    · obtain ⟨n, hn, rfl⟩ := ok_of_map h
      obtain ⟨out, hs, -⟩ := GroupNet.serverStep_ok (ok_of_liftFault hn)
      obtain ⟨-, -, -, hpfds, -⟩ := Server.handled_of_frame hs
      exact rest_of_pfds hpfds hi hq
    · exact rest_of_hangup (p := ⟨p.net.read fd _, p.i⟩) hi hq h
  | broken status env =>
    simp only [handle] at h
    split at h
    · cases h
    · exact rest_of_hangup hi hq h

theorem world_of_client {n n' : GroupNet} {e : GroupEvent} (he : e.OfClient)
    (h : n.step e = .ok n') : n'.world = n.world := by
  cases GroupNet.moved_of_step h with
  | typed | deliver | drain => rfl
  | accept | serve | overlong | hangup => cases he

/-- The loop comes to take the event, and from there to the next `poll`. -/
def Takes (p : PollNet) (e : GroupEvent) : Prop :=
  ∃ es q d j, exec step p es = .ok q ∧ q.net.forget = p.net.forget ∧
    q.step d = (q.net.step e).map (fun n => ⟨n, j⟩) ∧
    ∀ q', q.step d = .ok q' → ∃ es', exec step q' es' = .ok ⟨q'.net, q'.server.fdCount⟩

theorem takes_client (hpoll : p.i = p.server.fdCount) {e : GroupEvent} (he : e.OfClient) :
    p.Takes e := by
  refine ⟨[], p, .client e, p.i, rfl, rfl, if_pos he, fun q' h => ⟨[], ?_⟩⟩
  rw [step, if_pos he] at h
  obtain ⟨n, hn, rfl⟩ := ok_of_map h
  have hcount : n.world.server.fdCount = p.i := by rw [world_of_client he hn, hpoll]; rfl
  rw [server, hcount]
  rfl

/-- What comes in at `pfds[i]` is the event. -/
theorem takes_entry {i : Nat} {a : Arrival} {e : GroupEvent} (ht : p.server.TableOk)
    (hpoll : p.i = p.server.fdCount) (hi : i < p.server.fdCount)
    (heq : ∀ (q : PollNet) c, q.server.TableOk → q.i = i → q.server.pfds[q.i]? = some c →
      ∃ j, q.handle c.fd a = (q.net.step e).map fun n => ⟨n, j⟩) : p.Takes e := by
  obtain ⟨es, q, c, hes, hforget, rfl, hc, hr, hquiet⟩ := exec_focus hpoll hi
  obtain ⟨j, hj⟩ := heq q c (GroupNet.tableOk_of_forget hforget ht) rfl hc
  have hstep : q.step (.iterate a) = q.handle c.fd a := by simp only [step, hc, if_pos hr]
  refine ⟨es, q, .iterate a, j, hes, hforget, hstep.trans hj, fun q' h => ?_⟩
  obtain ⟨hquiet', hle⟩ :=
    rest_of_handle (List.getElem?_eq_some_iff.mp hc).1 hquiet (hstep ▸ h)
  exact exec_finish hquiet' hle

theorem takes (ht : p.server.TableOk) (hpoll : p.i = p.server.fdCount) {e : GroupEvent}
    (he : p.net.step e ≠ .error .disabled) : p.Takes e := by
  have hcount := ht.fdCount
  cases e with
  | typed | deliver | drain => exact takes_client hpoll trivial
  | accept fd uid nickname =>
    refine takes_entry (i := 0) (a := .new fd uid nickname) ht hpoll (by omega)
      fun q c ht' hi hc => ⟨q.i + 1, ?_⟩
    rcases at_entry ht' hc with ⟨hl, -⟩ | ⟨-, k, hk, -⟩
    · exact handle_new hl fd uid nickname
    · omega
  | serve k buf env =>
    cases hk : p.net.conns[k]? with
    | none => exact absurd (by simp only [GroupNet.step, hk]) he
    | some fd =>
      have hlt : k < p.server.conns.length := (List.getElem?_eq_some_iff.mp hk).1
      refine takes_entry (i := k + 1) (a := .frame buf env) ht hpoll (by omega)
        fun q c ht' hi hc => ?_
      rcases at_entry ht' hc with ⟨-, h0⟩ | ⟨hl, k', hk', hconn⟩
      · omega
      · obtain rfl : k' = k := by omega
        exact handle_frame hi hconn hl buf env
  | hangup k status env =>
    cases hk : p.net.conns[k]? with
    | none => exact absurd (by simp only [GroupNet.step, hk]) he
    | some fd =>
      have hlt : k < p.server.conns.length := (List.getElem?_eq_some_iff.mp hk).1
      refine takes_entry (i := k + 1) (a := .broken status env) ht hpoll (by omega)
        fun q c ht' hi hc => ?_
      rcases at_entry ht' hc with ⟨-, h0⟩ | ⟨hl, k', hk', hconn⟩
      · omega
      · obtain rfl : k' = k := by omega
        exact ⟨q.i, handle_broken hi hconn hl status env⟩

/-- The loop reaches all that the events do. -/
theorem realizes : Simulation GroupNet.step step (fun x => x ≠ .disabled)
    (fun n p => p.Matches n ∧ p.i = p.server.fdCount) where
  ok := by
    rintro n p e n' ⟨⟨ht, rfl⟩, hpoll⟩ h
    have he : p.net.step e ≠ .error .disabled := by
      intro he
      rw [GroupNet.step_forget, he] at h
      cases h
    obtain ⟨es, q, d, j, hes, hforget, hd, hrest⟩ := takes ht hpoll he
    rw [← hforget, GroupNet.step_forget] at h
    obtain ⟨m, hm, rfl⟩ := ok_of_map h
    rw [hm] at hd
    obtain ⟨es', hes'⟩ := hrest _ hd
    have htq := GroupNet.tableOk_of_forget hforget ht
    refine ⟨es ++ d :: es', _, exec_append hes (exec_cons_ok.mpr ⟨_, hd, hes'⟩), ?_, rfl⟩
    exact ⟨GroupNet.tableOk_step htq hm, rfl⟩
  error := by
    rintro n p e x ⟨⟨ht, rfl⟩, hpoll⟩ h hx
    have he : p.net.step e ≠ .error .disabled := by
      intro he
      rw [GroupNet.step_forget, he] at h
      cases h
      exact hx rfl
    obtain ⟨es, q, d, j, hes, hforget, hd, -⟩ := takes ht hpoll he
    rw [← hforget, GroupNet.step_forget] at h
    refine ⟨es ++ [d], ?_⟩
    rw [exec_append_eq hes, exec_singleton, hd]
    cases hm : q.net.step e with
    | ok m => rw [hm] at h; cases h
    | error y => rw [hm] at h; cases h; rfl

theorem matches_start (listener : Int) (info : GroupInfo) :
    (start listener info).Matches (.start listener info) :=
  ⟨Server.TableOk.start listener info, rfl⟩

/-- Without the `revents` and the index, the loop comes to the states that the events come to, and
to the same faults. -/
theorem same_runs (listener : Int) (info : GroupInfo) :
    (∀ n, (∃ es p, exec step (start listener info) es = .ok p ∧ p.net.forget = n) ↔
      ∃ gs, exec GroupNet.step (.start listener info) gs = .ok n) ∧
    ∀ f, (∃ es, exec step (start listener info) es = .error (.fault f)) ↔
      ∃ gs, exec GroupNet.step (.start listener info) gs = .error (.fault f) := by
  have hstart := matches_start listener info
  refine ⟨fun n => ⟨?_, ?_⟩, fun f => ⟨?_, ?_⟩⟩
  · rintro ⟨es, p, hes, rfl⟩
    obtain ⟨gs, n, hgs, -, rfl⟩ := simulated.run hstart hes
    exact ⟨gs, hgs⟩
  · rintro ⟨gs, hgs⟩
    obtain ⟨es, p, hes, hm, -⟩ := realizes.run ⟨hstart, rfl⟩ hgs
    exact ⟨es, p, hes, hm.forget⟩
  · rintro ⟨es, hes⟩
    exact simulated.stops hstart (fun h => by cases h) hes
  · rintro ⟨gs, hgs⟩
    exact realizes.stops ⟨hstart, rfl⟩ (fun h => by cases h) hgs

end PollNet

end SocketSpeak
