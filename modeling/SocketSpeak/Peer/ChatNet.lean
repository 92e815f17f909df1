import SocketSpeak.Peer.Discovery
import SocketSpeak.Peer.UserDirectory

/-!
# Two peers

Two processes in `chat_loop`, each with its main thread and its `receiver`, at the two ends of a
connection. A round of a thread is one step. What a process has written and the other one has not
read is its `up`.

The sends of the header and of the payload are one step: the frames of the two threads of a process
are not mixed, as they may be where `Lmp/TwoThreads` has the bytes. A send after `shutdown` fails,
without a signal.
-/

namespace SocketSpeak
open CLib Sys

/-- Where the main thread is in `chat_loop`, after `pthread_create`. -/
inductive ChatPhase where
  /-- before `lmp_send_uid` -/
  | starting
  /-- in the loop that waits for `peer_uid_ready` -/
  | waiting
  | looping
  /-- after `shutdown(sock, SHUT_WR)` -/
  | closed
  deriving DecidableEq

/-- A process with its two threads; `receiving` tells whether `receiver` has not returned. -/
structure Party extends Chatter where
  phase : ChatPhase
  receiving : Bool

/-- Why an event is no step. -/
inductive ChatStop where
  | disabled
  | halt (h : Halt)
  deriving DecidableEq

namespace Party

/-- A process that has come to `pthread_create` in `chat_loop`. -/
def chat (home username : Option Bytes) (files : Files) (env : ChatEnv) (rand : Nat) :
    Except Halt Party := do
  let p ← Chatter.main home username files
  let p ← p.chatLoop env rand
  return ⟨p, .starting, true⟩

/-- The next round of the main thread, where `stdin` is what there is to read. Its frames are
written whole. -/
def mainStep (a : Party) (env : ChatEnv) (stdin : Bytes) : Except Halt Party :=
  match a.phase with
  | .starting => .ok { a with toChatter := (a.sendUid env).2, phase := .waiting }
  | .waiting => .ok (if a.peerUidReady then { a with phase := .looping } else a)
  | .looping =>
    match Chatter.readLine stdin with
    | none => .ok { a with phase := .closed }
    | some line => (a.typed env line).map fun p => { a with toChatter := p }
  | .closed => .ok a

/-- `receiver` returns. -/
def hangUp (a : Party) : Party :=
  { a with toChatter := a.print (str "*** Peer disconnected.\n"), receiving := false }

/-- The next round of the receiver of `a`, which reads what `b` has written. Its answer is written
whole, or not at all after `shutdown`, where a send fails and `SIGPIPE` is left out. -/
def receiveStep (a b : Party) (env : ChatEnv) (buf : Bytes) : Except ChatStop (Party × Party) :=
  if a.receiving = false then .error .disabled
  else
    match b.up with
    | [] => if b.phase = .closed then .ok (a.hangUp, b) else .error .disabled
    | f :: up =>
      if f.payload.length < RECV_BUF_SIZE then
        ((a.receive { env with sendOk := env.sendOk && a.phase ≠ .closed } f buf).mapError
          ChatStop.halt).map fun p => ({ a with toChatter := p }, { b with up := up })
      else .ok (a.hangUp, { b with up := up })

end Party

abbrev ChatNet := Host → Party

inductive ChatEvent where
  /-- The main thread of `h` goes on. -/
  | main (h : Host) (env : ChatEnv) (stdin : Bytes)
  /-- The receiver of `h` goes on. -/
  | receive (h : Host) (env : ChatEnv) (buf : Bytes)

namespace ChatEvent

def host : ChatEvent → Host
  | .main h _ _ | .receive h _ _ => h

def env : ChatEvent → ChatEnv
  | .main _ env _ | .receive _ env _ => env

end ChatEvent

namespace ChatNet

/-- `h` is `a` now, and the other host is `b`. -/
def put (h : Host) (a b : Party) : ChatNet := fun k => if k = h then a else b

def step (n : ChatNet) : ChatEvent → Except ChatStop ChatNet
  | .main h env stdin =>
    (((n h).mainStep env stdin).mapError ChatStop.halt).map fun a => put h a (n h.other)
  | .receive h env buf =>
    ((n h).receiveStep (n h.other) env buf).map fun (a, b) => put h a b

section
variable {n n' : ChatNet} {h : Host} {env : ChatEnv} {stdin buf : Bytes}

theorem step_main (hs : n.step (.main h env stdin) = .ok n') :
    ∃ a, (n h).mainStep env stdin = .ok a ∧ n' = put h a (n h.other) := by
  cases ha : (n h).mainStep env stdin with
  | error => rw [step, ha] at hs; cases hs
  | ok a => rw [step, ha] at hs; cases hs; exact ⟨a, rfl, rfl⟩

theorem step_receive (hs : n.step (.receive h env buf) = .ok n') :
    ∃ a b, (n h).receiveStep (n h.other) env buf = .ok (a, b) ∧ n' = put h a b := by
  cases hab : (n h).receiveStep (n h.other) env buf with
  | error => rw [step, hab] at hs; cases hs
  | ok ab => rw [step, hab] at hs; cases hs; exact ⟨ab.1, ab.2, rfl, rfl⟩

theorem put_self (h : Host) (a b : Party) : put h a b h = a := if_pos rfl

theorem put_other (h : Host) (a b : Party) : put h a b h.other = b := if_neg h.other_ne

end

end ChatNet

end SocketSpeak
