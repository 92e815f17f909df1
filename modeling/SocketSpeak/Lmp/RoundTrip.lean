import SocketSpeak.Lmp.Recv

/-!
# The framing round trip

Frames that were sent back to back are received one for one, by either of the two receivers,
however the operating system cuts the stream.
-/

namespace SocketSpeak
open CLib

/-- A call of one of the two senders. -/
inductive SendCall where
  | lmp (type : UInt8) (payload : Bytes)
  | group (type : UInt8) (payload : Bytes) (sender : Int)
  deriving DecidableEq

namespace SendCall

def frame : SendCall → Frame
  | lmp type payload => lmpFrame type payload
  | group type payload sender => groupLmpFrame type payload sender

/-- The sender that the frame names: `lmp_send` always writes 0. -/
def sender : SendCall → Int
  | lmp _ _ => 0
  | group _ _ sender => sender

def send (hdrEv payEv : SendEvent) : SendCall → Bytes → Int × Bytes
  | lmp type payload => lmpSend hdrEv payEv type payload
  | group type payload sender => groupLmpSend hdrEv payEv type payload sender

/-- The call with both of its `send`s taking all that they are given. -/
def sendWhole (c : SendCall) (wire : Bytes) : Int × Bytes :=
  c.send (.all c.frame.header) (.all c.frame.payload) wire

theorem send_eq (hdrEv payEv : SendEvent) (c : SendCall) (wire : Bytes) :
    c.send hdrEv payEv wire = frameSend hdrEv payEv c.frame wire := by cases c <;> rfl

end SendCall

/-- The stream after the calls, with what was on the wire before them. -/
def sendAll : List SendCall → Bytes → Bytes
  | [], wire => wire
  | c :: cs, wire => sendAll cs (c.sendWhole wire).2

/-- A call whose `send`s take all that they are given returns 0 and puts its frame on the wire. -/
theorem frameSend_whole {hdrEv payEv : SendEvent} {f : Frame} (hh : hdrEv.Whole f.header)
    (hp : payEv.Whole f.payload) (wire : Bytes) :
    frameSend hdrEv payEv f wire = (0, wire ++ f.wire) := by
  have hcount : ∀ n : Nat, ¬ (n : Int) < 0 := by omega
  unfold frameSend
  rw [send_of_whole hh]
  by_cases h : 0 < f.payload.length
  · simp [send_of_whole hp, h, hcount, Frame.wire]
  · have hnil : f.payload = [] := List.length_eq_zero_iff.mp (by omega)
    simp [hnil, hcount, Frame.wire]

theorem SendCall.sendWhole_eq (c : SendCall) (wire : Bytes) :
    c.sendWhole wire = (0, wire ++ c.frame.wire) := by
  rw [sendWhole, send_eq]
  exact frameSend_whole (SendEvent.whole_all _) (SendEvent.whole_all _) wire

theorem sendAll_eq (cs : List SendCall) (wire : Bytes) :
    sendAll cs wire = wire ++ cs.flatMap (·.frame.wire) := by
  induction cs generalizing wire with
  | nil => simp [sendAll]
  | cons c cs ih => simp [sendAll, ih, c.sendWhole_eq]

/-! ## Repeated receives -/

/-- The receiver reports the frame: its type, its length, the payload at the start of the buffer
and a NUL behind it. -/
def Received.Reports (r : Received) (f : Frame) : Prop :=
  r.type = f.type ∧ r.len = f.payload.length ∧ r.buf.take r.len = f.payload ∧
    r.buf[r.len]? = some 0

theorem Frame.received_reports (f : Frame) (buf : Bytes) : (f.received buf).received.Reports f := by
  refine ⟨rfl, rfl, ?_, ?_⟩ <;> simp [FrameIn.received, Frame.received]

/-- Receiving again and again, into one buffer, brings the frames of the calls in their order, each
receive taking the bytes of one frame off the stream, and then the status of the end of the
stream. `Good` says what a receive reports. -/
def Receives {ρ : Type} (recv : Sock → Bytes → Except Int ρ × Sock) (bufOf : ρ → Bytes)
    (Good : SendCall → ρ → Prop) : List SendCall → Sock → Bytes → Prop
  | [], s, buf => (recv s buf).1 = .error (-2)
  | c :: cs, s, buf => ∃ r s', recv s buf = (.ok r, s') ∧ Good c r ∧
      s.inp = c.frame.wire ++ s'.inp ∧ Receives recv bufOf Good cs s' (bufOf r)

/-- Repeated `lmp_recv`. -/
def LmpReceives : List SendCall → Sock → Bytes → Prop :=
  Receives lmpRecv (·.buf) fun c r => r.Reports c.frame

/-- Repeated `group_lmp_recv`, which reports the sender as well. -/
def GroupLmpReceives : List SendCall → Sock → Bytes → Prop :=
  Receives groupLmpRecv (·.buf) fun c r => r.toReceived.Reports c.frame ∧ r.sender = c.sender % 256

/-- A receiver that makes of the header and the buffer what `Good` asks for brings all frames. -/
theorem receives_of_recvFrame {ρ : Type} {recv : Sock → Bytes → Except Int ρ × Sock}
    {bufOf : ρ → Bytes} {Good : SendCall → ρ → Prop} (view : FrameIn → ρ)
    (hrecv : ∀ s buf, recv s buf = ((recvFrame s buf).1.map view, (recvFrame s buf).2))
    (hview : ∀ r, bufOf (view r) = r.buf)
    (hgood : ∀ (c : SendCall) buf, Good c (view (c.frame.received buf)))
    {cs : List SendCall} {s : Sock} {buf : Bytes} (hs : s.ErrorFree)
    (hinp : s.inp = cs.flatMap (·.frame.wire)) (hbuf : buf.length < 2 ^ 32)
    (hfit : ∀ c ∈ cs, c.frame.payload.length < buf.length) : Receives recv bufOf Good cs s buf := by
  induction cs generalizing s buf with
  | nil => simp [Receives, hrecv, recvFrame_end hs hinp, Except.map]
  | cons c cs ih =>
    have hc := hfit c List.mem_cons_self
    rw [List.flatMap_cons] at hinp
    obtain ⟨q, hq, hr⟩ := recvFrame_wire hs hinp hbuf hc
    have hlen : (c.frame.received buf).buf.length = buf.length := Frame.length_buf_received hc
    refine ⟨view (c.frame.received buf), ⟨cs.flatMap (·.frame.wire), q⟩, ?_, hgood c buf, hinp, ?_⟩
    · rw [hrecv, hr]; rfl
    · rw [hview]
      exact ih hq rfl (hlen ▸ hbuf) fun c' hc' => hlen ▸ hfit c' (List.mem_cons_of_mem _ hc')

/-- The sender byte, read back as an `int`. -/
theorem reserved_toNat (c : SendCall) : (c.frame.reserved.toNat : Int) = c.sender % 256 := by
  cases c with
  | lmp => rfl
  | group t p n => exact toNat_toUint8 n

/-- **Framing round trip.** Whatever is sent back to back, by either sender, both receivers bring
back frame by frame. -/
theorem recv_round_trip (cs : List SendCall) (buf : Bytes) (hbuf : buf.length < 2 ^ 32)
    (hfit : ∀ c ∈ cs, c.frame.payload.length < buf.length) (s : Sock) (hs : s.ErrorFree)
    (hinp : s.inp = sendAll cs []) : LmpReceives cs s buf ∧ GroupLmpReceives cs s buf := by
  rw [sendAll_eq, List.nil_append] at hinp
  constructor
  · exact receives_of_recvFrame FrameIn.received (fun _ _ => rfl) (fun _ => rfl)
      (fun c buf => c.frame.received_reports buf) hs hinp hbuf hfit
  · exact receives_of_recvFrame FrameIn.groupReceived (fun _ _ => rfl) (fun _ => rfl)
      (fun c buf => ⟨c.frame.received_reports buf, reserved_toNat c⟩) hs hinp hbuf hfit

/-- Two frames in six reads, one of them interrupted. -/
theorem recv_round_trip_six_reads :
    let cs := [SendCall.lmp 1 (str "hi"), .group 1 (str "you") 300]
    let s : Sock := ⟨sendAll cs [], [.data 5, .intr, .data 9, .data 1, .data 1, .data 7]⟩
    LmpReceives cs s (List.replicate 4 7) ∧ GroupLmpReceives cs s (List.replicate 4 7) :=
  recv_round_trip _ _ (by decide) (by decide) _ (by decide) rfl

end SocketSpeak
