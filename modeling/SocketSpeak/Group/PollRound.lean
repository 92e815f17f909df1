import Mathlib.Data.List.Nodup
import SocketSpeak.Group.Alignment
import SocketSpeak.Group.Receivers

/-!
# A round of the server

`process_connections`: after each `poll` the loop goes through the table of connections and handles
those that are ready. A hangup moves the last entry to the place of the closed connection, which is
looked at once more; a new connection goes to the end of the table, where the loop still gets to.
`gserver` leaves `SIGPIPE` as it is, so that a send to a connection that has been reset may end the
process in the middle of a round.
-/

namespace SocketSpeak
open CLib Sys

def POLLHUP : Nat := 16

/-- `revents & (POLLIN | POLLHUP)` -/
def PollFd.Ready (p : PollFd) : Prop := p.revents &&& (POLLIN ||| POLLHUP) ≠ 0

instance (p : PollFd) : Decidable p.Ready := inferInstanceAs (Decidable (_ ≠ _))

/-- What comes in during a round: the descriptor that `accept` returns, and for each descriptor what
`lmp_recv` gets from it (a frame and what the buffer held before, or a failure), what the outside
decides while that is handled, and to which other descriptors a send raises `SIGPIPE` then, be it
with its header or with its payload. -/
structure RoundInput where
  accepted : Int
  recv : Int → Except Int (Frame × Bytes)
  env : Int → Env
  sigpipe : Int → Int → Bool

/-- What the process meets while `fd` is handled, as far as it gets: a send that raises `SIGPIPE` is
made like one that succeeds. -/
def RoundInput.envAt (inp : RoundInput) (fd : Int) : Env :=
  { inp.env fd with sendOk := fun fd' => (inp.env fd).sendOk fd' || inp.sigpipe fd fd' }

/-- What ends the process within a round. -/
inductive Death where
  | fault (f : Fault)
  | sigpipe
  deriving DecidableEq

/-- The loop at its head: the index, the descriptors that have been handled and what was sent. -/
structure Round where
  server : Server
  i : Nat
  handled : List Int
  out : List Output

namespace Round

def start (s : Server) : Round := ⟨s, 0, [], []⟩

/-- What the descriptor `fd` at `pfds[i]` is handled for. -/
def event (r : Round) (inp : RoundInput) (fd : Int) : ServerEvent :=
  if fd = r.server.listener then .accept inp.accepted
  else match inp.recv fd with
    | .ok (f, buf) => .frame r.i f buf (inp.envAt fd)
    | .error status => .hangup r.i status (inp.envAt fd)

/-- The index after the event: where a connection was closed, the slot is examined again. -/
def nextIndex (i : Nat) : ServerEvent → Nat
  | .hangup .. => i
  | _ => i + 1

/-- The entry `fd` is ready. None of the frames that it makes the server send may raise a signal. -/
def handle (inp : RoundInput) (r : Round) (fd : Int) : Except Death Round := do
  let (out, server) ← (r.server.step (r.event inp fd)).mapError .fault
  if out.any fun o => inp.sigpipe fd o.fd then .error .sigpipe
  else return ⟨server, nextIndex r.i (r.event inp fd), r.handled ++ [fd], r.out ++ out⟩

/-- One iteration; there is none any more at the end of the table. -/
def step (inp : RoundInput) (r : Round) (_ : Unit) : Except Death Round :=
  match r.server.pfds[r.i]? with
  | none => .ok r
  | some p => if p.Ready then r.handle inp p.fd else .ok { r with i := r.i + 1 }

end Round

/-- `process_connections`. Each iteration moves the index or shortens the table, and one connection
at most is added. -/
def processConnections (s : Server) (inp : RoundInput) : Except Death Round :=
  exec (Round.step inp) (.start s) (List.replicate (s.fdCount + 1) ())

/-! ## The table -/

namespace Server
variable {s s' : Server} {env : Env} {i : Nat} {fd : Int} {buf : Bytes} {out : List Output}

theorem pollFd_of_getElem? {p : PollFd} (hp : s.pfds[i]? = some p) : s.pollFd i = .ok p.fd := by
  have hneg : ¬ (i : Int) < 0 := by omega
  rw [pollFd, if_neg hneg, Int.toNat_natCast, hp]

theorem fdSize_of_clientHangman (h : s.clientHangman env i fd buf = .ok (out, s')) :
    s'.fdSize = s.fdSize := by
  obtain ⟨m, -, h⟩ := bind_ok h
  split at h
  · split at h <;> (cases h; rfl)
  split at h
  · cases h; rfl
  split at h
  · split at h <;> (cases h; rfl)
  · cases h; rfl

theorem fdSize_of_clientGuess {m : GroupMember} (h : s.clientGuess env fd m buf = .ok (out, s')) :
    s'.fdSize = s.fdSize := by
  unfold clientGuess at h
  split at h
  · cases h; rfl
  split at h
  · cases h; rfl
  · obtain ⟨out', -, h⟩ := bind_ok h
    cases h; rfl

theorem fdSize_of_frame {f : Frame} (h : s.step (.frame i f buf env) = .ok (out, s')) :
    s'.fdSize = s.fdSize := by
  obtain ⟨fd, -, hd⟩ := dispatched_of_frame h
  cases hd with
  | nick _ h =>
    obtain ⟨m, -, h⟩ := bind_ok h
    obtain ⟨g, -, h⟩ := bind_ok h
    cases h; rfl
  | init _ h =>
    obtain ⟨g, -, h⟩ := bind_ok h
    obtain ⟨g', -, h⟩ := bind_ok h
    cases h; rfl
  | load _ h =>
    obtain ⟨m, -, h⟩ := bind_ok h
    cases h; rfl
  | hangman _ h => exact fdSize_of_clientHangman h
  | guess m _ _ _ h => exact fdSize_of_clientGuess h
  | message _ _ _ _ hr => cases hr; rfl
  | other _ hr => cases hr; rfl

theorem fdSize_of_hangup {status : Int} (h : s.step (.hangup i status env) = .ok (out, s')) :
    s'.fdSize = s.fdSize := by
  obtain ⟨fd, -, h⟩ := bind_ok h
  obtain ⟨s₁, h₁, h⟩ := bind_ok h
  obtain ⟨last, -, h₁⟩ := bind_ok h₁
  obtain ⟨g, -, h₁⟩ := bind_ok h₁
  obtain ⟨g', -, h₁⟩ := bind_ok h₁
  cases h₁
  cases h; rfl

/-- The connections and the listener that `poll` reports. -/
def ReadyFd (s : Server) (fd : Int) : Prop := ∃ p ∈ s.pfds, p.fd = fd ∧ p.Ready

instance (s : Server) (fd : Int) : Decidable (s.ReadyFd fd) :=
  inferInstanceAs (Decidable (∃ p ∈ s.pfds, _))

/-- `members[k]` belongs to `pfds[k + 1]` for all `k`: `owner` gives the member of each client. -/
structure Belongs (s : Server) (owner : Int → GroupMember) : Prop where
  count : s.group.memberCount.val = s.conns.length
  room : s.conns.length ≤ MAX_GROUP_MEMBERS
  slot : ∀ (k : Nat) (fd : Int), s.conns[k]? = some fd → s.group.members[k]? = some (owner fd)

end Server

namespace RoundInput

/-- Nothing is received from `fd`. -/
def Fails (inp : RoundInput) (fd : Int) : Prop := ¬ (inp.recv fd).isOk

/-- The member of the client `fd` after what is received from it. -/
def renamed (inp : RoundInput) (owner : Int → GroupMember) (fd : Int) : GroupMember :=
  match inp.recv fd with
  | .ok (f, _) => if f.type = LMP_NICK then { owner fd with nickname := .copyStr _ f.payload }
    else owner fd
  | .error _ => owner fd

/-- The members of the clients after the round. -/
def ownerAfter (inp : RoundInput) (s : Server) (owner : Int → GroupMember) (fd : Int) :
    GroupMember :=
  if s.ReadyFd fd then inp.renamed owner fd else owner fd

/-- Nobody comes in: no connection, and no member of a client that is connected. -/
def Settled (inp : RoundInput) (s : Server) : Prop :=
  ¬ s.ReadyFd s.listener ∧ ∀ fd ∈ s.conns, s.ReadyFd fd → ∀ f buf, inp.recv fd = .ok (f, buf) →
    f.type ≠ LMP_GRP_INIT_MEMBER

end RoundInput

/-- The loop that began in `s` has come to its end. Every descriptor that was ready has been handled
once, and no other one; the table holds the listener, the clients from which something was received
or that were not ready, and the new one, each once; its members are aligned if they were. -/
structure Round.Served (r : Round) (s : Server) (inp : RoundInput) : Prop where
  ended : r.i = r.server.fdCount
  once : r.handled.Nodup
  mem_handled : ∀ fd, fd ∈ r.handled ↔ s.ReadyFd fd
  table : r.server.TableOk
  listener : r.server.listener = s.listener
  mem_conns : ∀ fd, fd ∈ r.server.conns ↔ (fd ∈ s.conns ∧ ¬ (s.ReadyFd fd ∧ inp.Fails fd)) ∨
    (s.ReadyFd s.listener ∧ inp.accepted ≠ -1 ∧ fd = inp.accepted)
  size : r.server.fdCount ≤ r.server.fdSize
  aligned : inp.Settled s → ∀ owner, s.Belongs owner → r.server.Belongs (inp.ownerAfter s owner)

/-! ## One iteration -/

namespace Round
variable {s : Server} {inp : RoundInput} {r r' : Round} {p : PollFd} {gone : List PollFd}

/-- All that an iteration can do with the entry `p` at the index. -/
inductive Stepped (inp : RoundInput) (r : Round) (p : PollFd) (r' : Round) : Prop
  | skip : ¬ p.Ready → r'.server = r.server → r'.i = r.i + 1 → r'.handled = r.handled →
    Stepped inp r p r'
  | accept : p.Ready → p.fd = r.server.listener →
    r'.server = r.server.handleNewConnection inp.accepted → r'.i = r.i + 1 →
    r'.handled = r.handled ++ [p.fd] → Stepped inp r p r'
  | frame (f : Frame) (buf : Bytes) (out : List Output) : p.Ready → p.fd ≠ r.server.listener →
    inp.recv p.fd = .ok (f, buf) →
    r.server.step (.frame r.i f buf (inp.envAt p.fd)) = .ok (out, r'.server) → r'.i = r.i + 1 →
    r'.handled = r.handled ++ [p.fd] → Stepped inp r p r'
  | hangup (status : Int) (out : List Output) : p.Ready → p.fd ≠ r.server.listener →
    inp.recv p.fd = .error status →
    r.server.step (.hangup r.i status (inp.envAt p.fd)) = .ok (out, r'.server) → r'.i = r.i →
    r'.handled = r.handled ++ [p.fd] → Stepped inp r p r'

theorem handle_eq_ok {fd : Int} : r.handle inp fd = .ok r' ↔
    ∃ out server, r.server.step (r.event inp fd) = .ok (out, server) ∧
      (∀ o ∈ out, inp.sigpipe fd o.fd = false) ∧
      r' = ⟨server, nextIndex r.i (r.event inp fd), r.handled ++ [fd], r.out ++ out⟩ := by
  have hany : ∀ out : List Output, (out.any fun o => inp.sigpipe fd o.fd) = false ↔
      ∀ o ∈ out, inp.sigpipe fd o.fd = false := fun out => by simp
  unfold handle
  constructor
  · intro h
    obtain ⟨⟨out, server⟩, hs, h⟩ := bind_ok h
    dsimp only at h
    split at h
    · cases h
    · rename_i hquiet
      cases h
      exact ⟨out, server, mapError_eq_ok.mp hs, (hany out).mp (Bool.eq_false_iff.mpr hquiet), rfl⟩
  · rintro ⟨out, server, hs, hquiet, rfl⟩
    rw [mapError_eq_ok.mpr hs, ok_bind]
    dsimp only
    rw [if_neg (Bool.eq_false_iff.mp ((hany out).mpr hquiet))]
    rfl

theorem stepped_of_step (hp : r.server.pfds[r.i]? = some p) (h : step inp r () = .ok r') :
    Stepped inp r p r' := by
  simp only [step, hp] at h
  split at h
  · rename_i hr
    obtain ⟨out, server, hs, -, rfl⟩ := handle_eq_ok.mp h
    unfold event at hs ⊢
    split at hs
    · rename_i hl
      cases hs
      rw [if_pos hl]
      exact .accept hr hl rfl rfl rfl
    rename_i hl
    rw [if_neg hl]
    cases hrecv : inp.recv p.fd with
    | ok fb =>
      rw [hrecv] at hs
      exact .frame fb.1 fb.2 out hr hl hrecv hs rfl rfl
    | error status =>
      rw [hrecv] at hs
      exact .hangup status out hr hl hrecv hs rfl rfl
  · rename_i hr
    cases h
    exact .skip hr rfl rfl rfl

/-- The connection that has been accepted so far; the listener comes first. -/
def accepted (r : Round) (s : Server) (inp : RoundInput) : List PollFd :=
  if 0 < r.i ∧ s.ReadyFd s.listener ∧ inp.accepted ≠ -1 then [⟨inp.accepted, POLLIN, 0⟩] else []

/-- The loop at its head: `gone` are the connections that have been closed. -/
structure Going (s : Server) (inp : RoundInput) (gone : List PollFd) (r : Round) : Prop where
  table : r.server.TableOk
  listener : r.server.listener = s.listener
  le : r.i ≤ r.server.fdCount
  size : r.server.fdCount ≤ r.server.fdSize
  perm : (gone ++ r.server.pfds).Perm (s.pfds ++ r.accepted s inp)
  handled : r.handled.Perm
    (((gone ++ r.server.pfds.take r.i).filter PollFd.Ready).map PollFd.fd)
  gone_fails : ∀ p ∈ gone, p.Ready ∧ p.fd ≠ s.listener ∧ inp.Fails p.fd
  kept : ∀ p ∈ r.server.pfds.take r.i, p.Ready → p.fd ≠ s.listener → ¬ inp.Fails p.fd

theorem not_ready_new (fd : Int) : ¬ PollFd.Ready ⟨fd, POLLIN, 0⟩ := by simp [PollFd.Ready]

theorem going_start (ht : s.TableOk) (hsize : s.fdCount ≤ s.fdSize) :
    Going s inp [] (.start s) := by
  refine ⟨ht, rfl, Nat.zero_le _, hsize, ?_, by simp [start], by simp, by simp [start]⟩
  simp [start, accepted]

theorem fd_eq_listener (ht : r.server.TableOk) (hp : r.server.pfds[r.i]? = some p) :
    p.fd = r.server.listener ↔ r.i = 0 := by
  have hget : (r.server.listener :: r.server.conns)[r.i]? = some p.fd := by
    rw [← ht.head, List.getElem?_map, hp]
    rfl
  constructor
  · intro hl
    have hlt := (List.getElem?_eq_some_iff.mp hget).1
    rw [hl] at hget
    have h0 : (r.server.listener :: r.server.conns)[0]? = some r.server.listener := rfl
    exact (List.getElem?_inj hlt ht.nodup).mp (hget.trans h0.symm)
  · intro h0
    rw [h0] at hget
    exact (Option.some.inj hget).symm

theorem take_succ (hp : r.server.pfds[r.i]? = some p) :
    r.server.pfds.take (r.i + 1) = r.server.pfds.take r.i ++ [p] := by
  rw [List.take_add_one, hp]
  rfl

/-- The entry is done with. -/
theorem Going.handled_succ (hI : Going s inp gone r) (hp : r.server.pfds[r.i]? = some p)
    (hr : p.Ready) : (r.handled ++ [p.fd]).Perm
      (((gone ++ r.server.pfds.take (r.i + 1)).filter PollFd.Ready).map PollFd.fd) := by
  rw [take_succ hp, ← List.append_assoc, List.filter_append, List.map_append]
  have hone : [p].filter (fun p => PollFd.Ready p) = [p] := by simp [hr]
  rw [hone]
  exact hI.handled.append_right _

theorem accepted_eq (h : 0 < r.i ↔ 0 < r'.i) : r'.accepted s inp = r.accepted s inp := by
  simp only [accepted, h]

theorem eq_of_fd (ht : s.TableOk) {p p' : PollFd} (hp : p ∈ s.pfds) (hp' : p' ∈ s.pfds)
    (h : p.fd = p'.fd) : p = p' :=
  List.inj_on_of_nodup_map (ht.head ▸ ht.nodup) hp hp' h

theorem Going.readyFd_listener (hI : Going s inp gone r) (hp : r.server.pfds[r.i]? = some p)
    (h0 : r.i = 0) : s.ReadyFd s.listener ↔ p.Ready := by
  have hl := (fd_eq_listener hI.table hp).mpr h0
  have hmem := List.mem_of_getElem? hp
  have hperm := hI.perm
  rw [accepted, if_neg (by omega), List.append_nil] at hperm
  constructor
  · rintro ⟨p', hp', hl', hr⟩
    rcases List.mem_append.mp (hperm.mem_iff.mpr hp') with hg | hm
    · exact absurd hl' (hI.gone_fails p' hg).2.1
    · rw [← hI.listener, ← hl] at hl'
      rwa [← eq_of_fd hI.table hm hmem hl']
  · intro hr
    exact ⟨p, hperm.mem_iff.mp (List.mem_append_right _ hmem), hl.trans hI.listener, hr⟩

theorem going_skip (hI : Going s inp gone r) (hp : r.server.pfds[r.i]? = some p) (hr : ¬ p.Ready)
    (hs : r'.server = r.server) (hi : r'.i = r.i + 1) (hh : r'.handled = r.handled) :
    Going s inp gone r' := by
  have hlt := (List.getElem?_eq_some_iff.mp hp).1
  have hacc : r'.accepted s inp = r.accepted s inp := by
    rcases Nat.eq_zero_or_pos r.i with h0 | hpos
    · have hnot := mt (hI.readyFd_listener hp h0).mp hr
      rw [accepted, if_neg fun h => hnot h.2.1, accepted, if_neg fun h => hnot h.2.1]
    · exact accepted_eq (by omega)
  refine ⟨hs ▸ hI.table, hs ▸ hI.listener, ?_, hs ▸ hI.size, ?_, ?_, hI.gone_fails, ?_⟩
  · rw [hs, hi]
    exact hlt
  · rw [hs, hacc]
    exact hI.perm
  · have hone : [p].filter (fun p => PollFd.Ready p) = [] := by simp [hr]
    rw [hh, hs, hi, take_succ hp, ← List.append_assoc, List.filter_append, hone, List.append_nil]
    exact hI.handled
  · rw [hs, hi, take_succ hp]
    intro q hq
    rcases List.mem_append.mp hq with hq | hq
    · exact hI.kept q hq
    · rw [List.mem_singleton.mp hq]
      exact fun h => absurd h hr

theorem going_frame {f : Frame} {buf : Bytes} {out : List Output} (hI : Going s inp gone r)
    (hp : r.server.pfds[r.i]? = some p) (hr : p.Ready) (hl : p.fd ≠ r.server.listener)
    (hrecv : inp.recv p.fd = .ok (f, buf))
    (hs : r.server.step (.frame r.i f buf (inp.envAt p.fd)) = .ok (out, r'.server))
    (hi : r'.i = r.i + 1) (hh : r'.handled = r.handled ++ [p.fd]) : Going s inp gone r' := by
  have hlt := (List.getElem?_eq_some_iff.mp hp).1
  have hpos : r.i ≠ 0 := mt (fd_eq_listener hI.table hp).mpr hl
  obtain ⟨-, -, hlis, hpfds, -⟩ := Server.handled_of_frame hs
  have hcount : r'.server.fdCount = r.server.fdCount := by
    rw [Server.fdCount, hpfds, Server.fdCount]
  refine ⟨hI.table.frame hs, hlis.trans hI.listener, ?_, ?_, ?_, ?_, hI.gone_fails, ?_⟩
  · rw [hcount, hi]
    exact hlt
  · rw [hcount, Server.fdSize_of_frame hs]
    exact hI.size
  · rw [hpfds, accepted_eq (r := r) (by omega)]
    exact hI.perm
  · rw [hh, hpfds, hi]
    exact hI.handled_succ hp hr
  · rw [hpfds, hi, take_succ hp]
    intro q hq
    rcases List.mem_append.mp hq with hq | hq
    · exact hI.kept q hq
    · rw [List.mem_singleton.mp hq]
      intro _ _ hf
      exact hf (by rw [hrecv]; rfl)

theorem going_hangup {status : Int} {out : List Output} (hI : Going s inp gone r)
    (hp : r.server.pfds[r.i]? = some p) (hr : p.Ready) (hl : p.fd ≠ r.server.listener)
    (hrecv : inp.recv p.fd = .error status)
    (hs : r.server.step (.hangup r.i status (inp.envAt p.fd)) = .ok (out, r'.server))
    (hi : r'.i = r.i) (hh : r'.handled = r.handled ++ [p.fd]) : Going s inp (p :: gone) r' := by
  have hlt := (List.getElem?_eq_some_iff.mp hp).1
  have hpos : r.i ≠ 0 := mt (fd_eq_listener hI.table hp).mpr hl
  obtain ⟨k, hk, hkc⟩ := hI.table.exists_conn (Nat.pos_of_ne_zero hpos) hlt
  obtain ⟨hlis, -, hpfds, -⟩ := Server.handled_of_hangup hs
  have hcount : r'.server.fdCount = r.server.fdCount - 1 := by
    rw [Server.fdCount, hpfds, length_swapRemove, Server.fdCount]
  have htake : r'.server.pfds.take r'.i = r.server.pfds.take r.i := by
    rw [hpfds, hi, take_swapRemove hlt]
  have hle : r.i < r.server.fdCount := hlt
  refine ⟨?_, hlis.trans hI.listener, by omega, ?_, ?_, ?_, ?_, ?_⟩
  · rw [hk] at hs
    exact hI.table.hangup hkc hs
  · rw [hcount, Server.fdSize_of_hangup hs]
    exact Nat.le_trans (Nat.sub_le _ _) hI.size
  · rw [hpfds, accepted_eq (r := r) (by omega)]
    have hswap := (perm_swapRemove hp).symm.append_left gone
    exact (List.perm_middle.symm.trans hswap).trans hI.perm
  · rw [hh, htake, List.cons_append, List.filter_cons_of_pos (by simpa using hr), List.map_cons]
    exact (List.perm_append_singleton _ _).trans (hI.handled.cons _)
  · intro q hq
    rcases List.mem_cons.mp hq with rfl | hq
    · refine ⟨hr, hI.listener ▸ hl, ?_⟩
      rw [RoundInput.Fails, hrecv]
      exact Bool.false_ne_true
    · exact hI.gone_fails q hq
  · rw [htake]
    exact hI.kept

/-- The entry of the listener is no client that has failed. -/
theorem Going.kept_listener (hI : Going s inp gone r) (hp : r.server.pfds[r.i]? = some p)
    (hl : p.fd = r.server.listener) : ∀ q ∈ r.server.pfds.take (r.i + 1), q.Ready →
      q.fd ≠ s.listener → ¬ inp.Fails q.fd := by
  rw [take_succ hp]
  intro q hq
  rcases List.mem_append.mp hq with hq | hq
  · exact hI.kept q hq
  · rw [List.mem_singleton.mp hq]
    exact fun _ h => absurd (hl.trans hI.listener) h

/-- `accept` fails. -/
theorem going_accept_failed (h1 : inp.accepted = -1) (hI : Going s inp gone r)
    (hp : r.server.pfds[r.i]? = some p) (hr : p.Ready) (hl : p.fd = r.server.listener)
    (hs : r'.server = r.server.handleNewConnection inp.accepted) (hi : r'.i = r.i + 1)
    (hh : r'.handled = r.handled ++ [p.fd]) : Going s inp gone r' := by
  have hlt := (List.getElem?_eq_some_iff.mp hp).1
  have hacc : ∀ r : Round, r.accepted s inp = [] := fun r => if_neg fun h => h.2.2 h1
  rw [Server.handleNewConnection, if_pos h1] at hs
  refine ⟨hs ▸ hI.table, hs ▸ hI.listener, ?_, hs ▸ hI.size, ?_, ?_, hI.gone_fails, ?_⟩
  · rw [hs, hi]
    exact hlt
  · rw [hs, hacc, ← hacc r]
    exact hI.perm
  · rw [hh, hs, hi]
    exact hI.handled_succ hp hr
  · rw [hs, hi]
    exact hI.kept_listener hp hl

/-- A connection is accepted. -/
theorem going_accept_new (h1 : inp.accepted ≠ -1) (hnew : inp.accepted ∉ s.listener :: s.conns)
    (ht : s.TableOk) (hI : Going s inp gone r) (hp : r.server.pfds[r.i]? = some p) (hr : p.Ready)
    (hl : p.fd = r.server.listener) (hs : r'.server = r.server.handleNewConnection inp.accepted)
    (hi : r'.i = r.i + 1) (hh : r'.handled = r.handled ++ [p.fd]) : Going s inp gone r' := by
  have hlt := (List.getElem?_eq_some_iff.mp hp).1
  have h0 := (fd_eq_listener hI.table hp).mp hl
  have hready := (hI.readyFd_listener hp h0).mpr hr
  have hperm := hI.perm
  rw [accepted, if_neg (by omega), List.append_nil] at hperm
  have hmem : inp.accepted ∉ r.server.listener :: r.server.conns := by
    rw [← hI.table.head]
    intro hm
    obtain ⟨q, hq, hqfd⟩ := List.mem_map.mp hm
    apply hnew
    rw [← ht.head]
    exact List.mem_map.mpr ⟨q, hperm.mem_iff.mp (List.mem_append_right _ hq), hqfd⟩
  have htable := hI.table.accept hmem
  rw [← hs] at htable
  rw [Server.handleNewConnection, if_neg h1, Server.addToPfds] at hs
  have hpfds : r'.server.pfds = r.server.pfds ++ [⟨inp.accepted, POLLIN, 0⟩] := by rw [hs]
  have hacc : r'.accepted s inp = [⟨inp.accepted, POLLIN, 0⟩] := if_pos ⟨by omega, hready, h1⟩
  have hcount : r'.server.fdCount = r.server.fdCount + 1 := by
    rw [Server.fdCount, hpfds, List.length_append, Server.fdCount]
    rfl
  have htake : r'.server.pfds.take r'.i = r.server.pfds.take (r.i + 1) := by
    rw [hpfds, hi, List.take_append_of_le_length hlt]
  have hle : r.i < r.server.fdCount := hlt
  refine ⟨htable, by rw [hs]; exact hI.listener, by omega, ?_, ?_, ?_, hI.gone_fails, ?_⟩
  · have hsize := hI.size
    rw [hcount, hs]
    simp only
    split <;> omega
  · rw [hpfds, hacc, ← List.append_assoc]
    exact hperm.append_right _
  · rw [hh, htake]
    exact hI.handled_succ hp hr
  · rw [htake]
    exact hI.kept_listener hp hl

/-- An iteration keeps what holds at the head of the loop. -/
theorem going_step (ht : s.TableOk)
    (hnew : inp.accepted ≠ -1 → inp.accepted ∉ s.listener :: s.conns)
    (hI : ∃ gone, Going s inp gone r) (h : step inp r () = .ok r') :
    ∃ gone, Going s inp gone r' := by
  obtain ⟨gone, hI⟩ := hI
  cases hp : r.server.pfds[r.i]? with
  | none =>
    simp only [step, hp] at h
    cases h
    exact ⟨gone, hI⟩
  | some p =>
    cases stepped_of_step hp h with
    | skip hr hs hi hh => exact ⟨gone, going_skip hI hp hr hs hi hh⟩
    | accept hr hl hs hi hh =>
      by_cases h1 : inp.accepted = -1
      · exact ⟨gone, going_accept_failed h1 hI hp hr hl hs hi hh⟩
      · exact ⟨gone, going_accept_new h1 (hnew h1) ht hI hp hr hl hs hi hh⟩
    | frame f buf out hr hl hrecv hs hi hh =>
      exact ⟨gone, going_frame hI hp hr hl hrecv hs hi hh⟩
    | hangup status out hr hl hrecv hs hi hh =>
      exact ⟨p :: gone, going_hangup hI hp hr hl hrecv hs hi hh⟩

/-! ## The end of the loop -/

/-- A bound on the iterations that are left. -/
def left (r : Round) : Nat := r.server.fdCount - r.i + if r.i = 0 then 1 else 0

theorem left_step (hI : Going s inp gone r) (hp : r.server.pfds[r.i]? = some p)
    (h : step inp r () = .ok r') : r'.left < r.left := by
  have hlt : r.i < r.server.fdCount := (List.getElem?_eq_some_iff.mp hp).1
  have hiff := fd_eq_listener hI.table hp
  unfold left
  cases stepped_of_step hp h with
  | skip hr hs hi =>
    rw [hs, hi, if_neg (Nat.succ_ne_zero _)]
    omega
  | accept hr hl hs hi =>
    have hcount : r'.server.fdCount ≤ r.server.fdCount + 1 := by
      rw [hs, Server.handleNewConnection]
      split <;> simp [Server.addToPfds, Server.fdCount]
    rw [hi, if_neg (Nat.succ_ne_zero _), if_pos (hiff.mp hl)]
    omega
  | frame f buf out hr hl hrecv hs hi =>
    rw [(Server.conns_of_frame hs).2.2, hi, if_neg (Nat.succ_ne_zero _)]
    omega
  | hangup status out hr hl hrecv hs hi =>
    obtain ⟨-, -, hpfds, -⟩ := Server.handled_of_hangup hs
    have hcount : r'.server.fdCount = r.server.fdCount - 1 := by
      rw [Server.fdCount, hpfds, length_swapRemove, Server.fdCount]
    rw [hcount, hi, if_neg (mt hiff.mpr hl)]
    omega

theorem left_of_ended (hI : Going s inp gone r) (hp : r.server.pfds[r.i]? = none) :
    r.left = 0 := by
  have hle : r.server.fdCount ≤ r.i := List.getElem?_eq_none_iff.mp hp
  have hpos := hI.table.fdCount
  rw [left, if_neg (by omega)]
  omega

/-- The iterations are enough. -/
theorem left_of_exec (ht : s.TableOk)
    (hnew : inp.accepted ≠ -1 → inp.accepted ∉ s.listener :: s.conns) {n : Nat}
    (hI : ∃ gone, Going s inp gone r) (hn : r.left ≤ n)
    (h : exec (step inp) r (List.replicate n ()) = .ok r') : r'.left = 0 := by
  induction n generalizing r with
  | zero =>
    cases h
    exact Nat.le_zero.mp hn
  | succ n ih =>
    obtain ⟨m, hm, h⟩ := exec_cons_ok.mp h
    have hgoing := going_step ht hnew hI hm
    obtain ⟨gone, hI⟩ := hI
    apply ih hgoing _ h
    cases hp : r.server.pfds[r.i]? with
    | none =>
      simp only [step, hp] at hm
      cases hm
      rw [left_of_ended hI hp]
      exact Nat.zero_le n
    | some p => exact Nat.le_of_lt_succ (Nat.lt_of_lt_of_le (left_step hI hp hm) hn)

/-! ## The members -/

/-- The members of the clients when the round has come to `r`. -/
def ownerAt (r : Round) (inp : RoundInput) (owner : Int → GroupMember) (fd : Int) : GroupMember :=
  if fd ∈ r.handled then inp.renamed owner fd else owner fd

end Round

/-- The connections have announced the members `owner`. -/
def Server.withOwner (s : Server) (owner : Int → GroupMember) : World :=
  ⟨s, fun fd => some (owner fd)⟩

/-- All connections have announced themselves in order. -/
theorem ordered_of_belongs {s : Server} {owner : Int → GroupMember} (ht : s.TableOk)
    (hb : s.Belongs owner) : (s.withOwner owner).Ordered := by
  refine ⟨ht, hb.room, Int.le_of_eq hb.count, fun k hk => ?_, fun k m hm => ?_⟩
  · have hcount := hb.count
    have hget : s.conns[k]? = some s.conns[k] := List.getElem?_eq_getElem hk
    apply iff_of_true
    · change ((s.conns[k]?).bind _).isSome
      rw [hget]
      rfl
    · change (k : Int) < s.group.memberCount.val
      rw [hcount]
      exact Int.ofNat_lt.mpr hk
  · obtain ⟨fd, hfd, h⟩ := Option.bind_eq_some_iff.mp hm
    cases h
    exact hb.slot k fd hfd

theorem belongs_of_ordered {s : Server} {owner : Int → GroupMember}
    (hI : (s.withOwner owner).Ordered) (hcount : s.group.memberCount.val = s.conns.length) :
    s.Belongs owner := by
  refine ⟨hcount, hI.room, fun k fd hfd => hI.slot k _ ?_⟩
  change (s.conns[k]?).bind _ = _
  rw [hfd]
  rfl

namespace Round
variable {s : Server} {inp : RoundInput} {r r' : Round} {p : PollFd} {gone : List PollFd}
  {owner : Int → GroupMember}

theorem ownerAt_start : (start s).ownerAt inp owner = owner := by
  funext fd
  simp [ownerAt, start]

theorem announce_renamed {f : Frame} {buf : Bytes} {fd : Int} (hrecv : inp.recv fd = .ok (f, buf))
    (hf : f.type ≠ LMP_GRP_INIT_MEMBER) :
    announce f (some (r.ownerAt inp owner fd)) = some (inp.renamed owner fd) := by
  by_cases hnick : f.type = LMP_NICK
  · rw [announce_nick hnick]
    simp only [ownerAt, RoundInput.renamed, hrecv, hnick, if_true, Option.map_some]
    split <;> rfl
  · rw [announce_of_ne hf hnick]
    simp only [ownerAt, RoundInput.renamed, hrecv, hnick, if_false, ite_self]

theorem renamed_of_error {status : Int} {fd : Int} (hrecv : inp.recv fd = .error status) :
    inp.renamed owner fd = owner fd := by
  simp only [RoundInput.renamed, hrecv]

/-- The member of the client that has been handled. -/
theorem ownerAt_handled {fd fd' : Int} (hh : r'.handled = r.handled ++ [fd]) :
    r'.ownerAt inp owner fd' =
      if fd' = fd then inp.renamed owner fd else r.ownerAt inp owner fd' := by
  simp only [ownerAt, hh, List.mem_append, List.mem_singleton]
  by_cases hfd : fd' = fd
  · simp [hfd]
  · simp [hfd]

/-- A frame keeps the members aligned. -/
theorem belongs_frame {f : Frame} {buf : Bytes} {out : List Output} (hI : Going s inp gone r)
    (hb : r.server.Belongs (r.ownerAt inp owner)) (hp : r.server.pfds[r.i]? = some p)
    (hl : p.fd ≠ r.server.listener) (hrecv : inp.recv p.fd = .ok (f, buf))
    (hf : f.type ≠ LMP_GRP_INIT_MEMBER)
    (hs : r.server.step (.frame r.i f buf (inp.envAt p.fd)) = .ok (out, r'.server))
    (hh : r'.handled = r.handled ++ [p.fd]) : r'.server.Belongs (r'.ownerAt inp owner) := by
  have hlt := (List.getElem?_eq_some_iff.mp hp).1
  have hpos : r.i ≠ 0 := mt (fd_eq_listener hI.table hp).mpr hl
  obtain ⟨k, hk, hkc⟩ := hI.table.exists_conn (Nat.pos_of_ne_zero hpos) hlt
  obtain ⟨-, hconns, -⟩ := Server.conns_of_frame hs
  have hcount := Server.memberCount_of_frame hs
  rw [if_neg hf, Int.add_zero] at hcount
  have hann : (r.server.withOwner (r.ownerAt inp owner)).announcedAfter
      (.frame r.i f buf (inp.envAt p.fd)) = fun fd => some (r'.ownerAt inp owner fd) := by
    funext fd
    simp only [World.announcedAfter, Server.withOwner, Server.pollFd_of_getElem? hp]
    rw [announce_renamed hrecv hf, Function.update_apply, ownerAt_handled hh]
    split <;> rfl
  have hw : (r.server.withOwner (r.ownerAt inp owner)).step (.frame r.i f buf (inp.envAt p.fd)) =
      .ok (r'.server.withOwner (r'.ownerAt inp owner)) := by
    rw [World.step, hann]
    change (r.server.step _).map _ = _
    rw [hs]
    rfl
  rw [hk] at hw
  have hord := World.ordered_frame (ordered_of_belongs hI.table hb) hkc hf hw
  exact belongs_of_ordered hord (by rw [hcount, hconns, hb.count])

/-- So does a hangup. -/
theorem belongs_hangup {status : Int} {out : List Output} (hI : Going s inp gone r)
    (hb : r.server.Belongs (r.ownerAt inp owner)) (hp : r.server.pfds[r.i]? = some p)
    (hl : p.fd ≠ r.server.listener) (hrecv : inp.recv p.fd = .error status)
    (hs : r.server.step (.hangup r.i status (inp.envAt p.fd)) = .ok (out, r'.server))
    (hh : r'.handled = r.handled ++ [p.fd]) : r'.server.Belongs (r'.ownerAt inp owner) := by
  have hlt := (List.getElem?_eq_some_iff.mp hp).1
  have hpos : r.i ≠ 0 := mt (fd_eq_listener hI.table hp).mpr hl
  obtain ⟨k, hk, hkc⟩ := hI.table.exists_conn (Nat.pos_of_ne_zero hpos) hlt
  have hcount := Server.memberCount_of_hangup hs
  have howner : r'.ownerAt inp owner = r.ownerAt inp owner := by
    funext fd
    rw [ownerAt_handled hh, renamed_of_error hrecv]
    split
    · rename_i hfd
      rw [hfd, ownerAt, renamed_of_error hrecv, ite_self]
    · rfl
  have hw : (r.server.withOwner (r.ownerAt inp owner)).step
      (.hangup r.i status (inp.envAt p.fd)) =
      .ok (r'.server.withOwner (r'.ownerAt inp owner)) := by
    rw [World.step, howner]
    change (r.server.step _).map _ = _
    rw [hs]
    rfl
  rw [hk] at hw hs
  have hord := World.ordered_hangup (ordered_of_belongs hI.table hb) hkc (.inr (.inl hb.count)) hw
  apply belongs_of_ordered hord
  rw [hcount, (Server.conns_of_hangup hI.table hkc hs).2, length_swapRemove, hb.count]
  omega

/-- What is known at the head of the loop of a round in which nobody comes in. -/
structure Tracked (s : Server) (inp : RoundInput) (owner : Int → GroupMember) (r : Round) :
    Prop where
  going : ∃ gone, Going s inp gone r
  belongs : r.server.Belongs (r.ownerAt inp owner)

/-- The entry at the index is one of the table at the beginning. -/
theorem Going.mem_old (hI : Going s inp gone r) (hq : ¬ s.ReadyFd s.listener)
    (hp : r.server.pfds[r.i]? = some p) : p ∈ s.pfds := by
  have hperm := hI.perm
  rw [accepted, if_neg fun h => hq h.2.1, List.append_nil] at hperm
  exact hperm.mem_iff.mp (List.mem_append_right _ (List.mem_of_getElem? hp))

theorem Going.not_listener (hI : Going s inp gone r) (hq : ¬ s.ReadyFd s.listener)
    (hp : r.server.pfds[r.i]? = some p) (hr : p.Ready) : p.fd ≠ r.server.listener := by
  intro hl
  exact hq ⟨p, hI.mem_old hq hp, hl.trans hI.listener, hr⟩

/-- The frame is none that brings a member in. -/
theorem Going.not_init (ht : s.TableOk) (hI : Going s inp gone r) (hq : inp.Settled s)
    (hp : r.server.pfds[r.i]? = some p) (hr : p.Ready) {f : Frame} {buf : Bytes}
    (hrecv : inp.recv p.fd = .ok (f, buf)) : f.type ≠ LMP_GRP_INIT_MEMBER := by
  have hmem := hI.mem_old hq.1 hp
  have hl := hI.not_listener hq.1 hp hr
  rw [hI.listener] at hl
  exact hq.2 p.fd (ht.mem_conns.mpr ⟨p, hmem, hl, rfl⟩) ⟨p, hmem, rfl, hr⟩ f buf hrecv

theorem tracked_step (ht : s.TableOk)
    (hnew : inp.accepted ≠ -1 → inp.accepted ∉ s.listener :: s.conns) (hq : inp.Settled s)
    (hI : Tracked s inp owner r) (h : step inp r () = .ok r') : Tracked s inp owner r' := by
  obtain ⟨⟨gone, hgoing⟩, hb⟩ := hI
  refine ⟨going_step ht hnew ⟨gone, hgoing⟩ h, ?_⟩
  cases hp : r.server.pfds[r.i]? with
  | none =>
    simp only [step, hp] at h
    cases h
    exact hb
  | some p =>
    cases stepped_of_step hp h with
    | skip hr hs hi hh =>
      have howner : r'.ownerAt inp owner = r.ownerAt inp owner := by
        funext fd
        rw [ownerAt, hh, ownerAt]
      rw [hs, howner]
      exact hb
    | accept hr hl => exact absurd hl (hgoing.not_listener hq.1 hp hr)
    | frame f buf out hr hl hrecv hs hi hh =>
      exact belongs_frame hgoing hb hp hl hrecv (hgoing.not_init ht hq hp hr hrecv) hs hh
    | hangup status out hr hl hrecv hs hi hh =>
      exact belongs_hangup hgoing hb hp hl hrecv hs hh

/-! ## What may end the round -/

/-- What comes next is in range of the tables, and none of the connections that it makes the server
send to raises a signal. -/
def Safe (inp : RoundInput) (r : Round) (_ : Unit) : Prop :=
  ∀ p ∈ r.server.pfds[r.i]?, p.Ready → r.server.InRange (r.event inp p.fd) ∧
    ∀ fd ∈ r.server.receivers p.fd (r.event inp p.fd), inp.sigpipe p.fd fd = false

instance (inp : RoundInput) (r : Round) (u : Unit) : Decidable (r.Safe inp u) :=
  inferInstanceAs (Decidable (∀ p ∈ r.server.pfds[r.i]?, _ → _ ∧ _))

/-- Every iteration of the round is safe. -/
def Fits (s : Server) (inp : RoundInput) : Prop :=
  Meets (step inp) (Safe inp) (start s) (List.replicate (s.fdCount + 1) ())

instance (s : Server) (inp : RoundInput) : Decidable (Fits s inp) :=
  inferInstanceAs (Decidable (Meets ..))

theorem left_start (s : Server) : (start s).left = s.fdCount + 1 := rfl

/-- The table at the end of the loop. -/
structure Ended (s : Server) (inp : RoundInput) (gone : List PollFd) (r : Round) : Prop where
  going : Going s inp gone r
  ended : r.i = r.server.fdCount

theorem ended_of_exec (ht : s.TableOk) (hsize : s.fdCount ≤ s.fdSize)
    (hnew : inp.accepted ≠ -1 → inp.accepted ∉ s.listener :: s.conns)
    (h : processConnections s inp = .ok r) : ∃ gone, Ended s inp gone r := by
  have hstart : ∃ gone, Going s inp gone (start s) := ⟨[], going_start ht hsize⟩
  have hleft := left_of_exec ht hnew hstart (Nat.le_of_eq (left_start s)) h
  obtain ⟨gone, hI⟩ : ∃ gone, Going s inp gone r :=
    exec_invariant (fun _ _ _ hI _ h => going_step ht hnew hI h) hstart
      (meets_of_forall (fun _ _ => trivial) (C := fun _ _ => True) _ _) h
  refine ⟨gone, hI, ?_⟩
  have hle := hI.le
  rw [left] at hleft
  omega

theorem Ended.take (hE : Ended s inp gone r) : r.server.pfds.take r.i = r.server.pfds :=
  List.take_of_length_le (Nat.le_of_eq hE.ended.symm)

theorem Ended.handled (hE : Ended s inp gone r) :
    r.handled.Perm ((s.pfds.filter PollFd.Ready).map PollFd.fd) := by
  have hperm := hE.going.handled
  rw [hE.take] at hperm
  have hnew : (r.accepted s inp).filter (fun p => PollFd.Ready p) = [] := by
    rw [accepted]
    split
    · exact List.filter_cons_of_neg (by simpa using not_ready_new inp.accepted)
    · rfl
  have hall := (hE.going.perm.filter (fun p => PollFd.Ready p)).map PollFd.fd
  rw [List.filter_append s.pfds, hnew, List.append_nil] at hall
  exact hperm.trans hall

theorem Ended.mem_handled (hE : Ended s inp gone r) (fd : Int) :
    fd ∈ r.handled ↔ s.ReadyFd fd := by
  rw [hE.handled.mem_iff, List.mem_map, Server.ReadyFd]
  simp only [List.mem_filter, decide_eq_true_eq]
  exact exists_congr fun p => by tauto

theorem Ended.mem_conns (ht : s.TableOk)
    (hnew : inp.accepted ≠ -1 → inp.accepted ∉ s.listener :: s.conns) (hE : Ended s inp gone r)
    (fd : Int) : fd ∈ r.server.conns ↔ (fd ∈ s.conns ∧ ¬ (s.ReadyFd fd ∧ inp.Fails fd)) ∨
      (s.ReadyFd s.listener ∧ inp.accepted ≠ -1 ∧ fd = inp.accepted) := by
  have hI := hE.going
  have hcount := hI.table.fdCount
  have hended := hE.ended
  have hmem : ∀ p, p ∈ gone ∨ p ∈ r.server.pfds ↔ p ∈ s.pfds ∨ p ∈ r.accepted s inp := by
    intro p
    rw [← List.mem_append, hI.perm.mem_iff, List.mem_append]
  rw [hI.table.mem_conns, ht.mem_conns, hI.listener]
  have hacc : ∀ p, p ∈ r.accepted s inp ↔
      (s.ReadyFd s.listener ∧ inp.accepted ≠ -1) ∧ p = ⟨inp.accepted, POLLIN, 0⟩ := by
    intro p
    rw [accepted]
    split
    · rename_i h
      simp [h.2.1, h.2.2]
    · rename_i h
      simp only [List.not_mem_nil, false_iff]
      rintro ⟨h', -⟩
      exact h ⟨by omega, h'⟩
  constructor
  · rintro ⟨p, hp, hl, rfl⟩
    rcases (hmem p).mp (.inr hp) with hold | hnew
    · refine .inl ⟨⟨p, hold, hl, rfl⟩, ?_⟩
      rintro ⟨⟨p', hp', hfd, hr⟩, hf⟩
      rw [eq_of_fd ht hp' hold hfd] at hr
      exact hI.kept p (hE.take.symm ▸ hp) hr hl hf
    · obtain ⟨⟨hr, h1⟩, rfl⟩ := (hacc p).mp hnew
      exact .inr ⟨hr, h1, rfl⟩
  · rintro (⟨⟨p, hp, hl, rfl⟩, hnot⟩ | ⟨hr, h1, rfl⟩)
    · rcases (hmem p).mpr (.inl hp) with hg | hm
      · obtain ⟨hr, -, hf⟩ := hI.gone_fails p hg
        exact absurd ⟨⟨p, hp, rfl, hr⟩, hf⟩ hnot
      · exact ⟨p, hm, hl, rfl⟩
    · rcases (hmem _).mpr (.inr ((hacc _).mpr ⟨⟨hr, h1⟩, rfl⟩)) with hg | hm
      · exact absurd (hI.gone_fails _ hg).1 (not_ready_new _)
      · refine ⟨_, hm, ?_, rfl⟩
        intro hl
        exact hnew h1 (by rw [show inp.accepted = s.listener from hl]; exact List.mem_cons_self)

theorem served_of_exec (ht : s.TableOk) (hsize : s.fdCount ≤ s.fdSize)
    (hnew : inp.accepted ≠ -1 → inp.accepted ∉ s.listener :: s.conns)
    (h : processConnections s inp = .ok r) : r.Served s inp := by
  obtain ⟨gone, hE⟩ := ended_of_exec ht hsize hnew h
  refine ⟨hE.ended, ?_, hE.mem_handled, hE.going.table, hE.going.listener,
    hE.mem_conns ht hnew, hE.going.size, ?_⟩
  · have hnd : (s.pfds.map PollFd.fd).Nodup := ht.head ▸ ht.nodup
    exact hE.handled.nodup_iff.mpr (hnd.sublist (List.filter_sublist.map _))
  · intro hq owner hb
    have hstart : Tracked s inp owner (start s) :=
      ⟨⟨[], going_start ht hsize⟩, by rwa [ownerAt_start]⟩
    have hI : Tracked s inp owner r :=
      exec_invariant (fun _ _ _ hI _ h => tracked_step ht hnew hq hI h) hstart
        (meets_of_forall (fun _ _ => trivial) (C := fun _ _ => True) _ _) h
    have howner : r.ownerAt inp owner = inp.ownerAfter s owner := by
      funext fd
      simp only [ownerAt, RoundInput.ownerAfter, hE.mem_handled]
    exact howner ▸ hI.belongs

/-- A message that is relayed to a connection that has been reset. -/
example :
    let s : Server := { Server.start 3 gserverInfo with
      pfds := [⟨3, POLLIN, 0⟩, ⟨5, POLLIN, POLLIN⟩, ⟨6, POLLIN, 0⟩] }
    let inp : RoundInput := ⟨-1, fun _ => .ok (lmpFrame LMP_MSG (str "hi"), []), fun _ => .allOk,
      fun _ fd => fd = 6⟩
    (processConnections s inp).isOk = false ∧
      (processConnections s { inp with sigpipe := fun _ _ => false }).isOk := by decide +kernel

end Round

end SocketSpeak
