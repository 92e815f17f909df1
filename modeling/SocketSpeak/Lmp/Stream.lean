import SocketSpeak.Lmp.Recv

/-!
# Receiving until the stream ends

The loop of `receiver`: `lmp_recv` into the same buffer until its status is not 0. `recvLoop_eq`
takes the socket out, as `recvFrame_eq` does for one receive; `parseLoop_wires` is what the loop
makes of whole frames at the head of a stream, whatever comes after them.
-/

namespace SocketSpeak
open CLib

/-- The type and the payload of a frame: what a receiver can tell of it. -/
def Frame.content (f : Frame) : UInt8 × Bytes := (f.type, f.payload)

def Received.content (r : Received) : UInt8 × Bytes := (r.type, r.buf.take r.len)

/-- The frames that `receiver` dispatches in `fuel` rounds at most. -/
def recvLoop : Nat → Sock → Bytes → List Received
  | 0, _, _ => []
  | fuel + 1, s, buf =>
    match lmpRecv s buf with
    | (.ok r, s) => r :: recvLoop fuel s r.buf
    | (.error _, _) => []

/-- All the frames that `receiver` dispatches. Each takes at least a header off the stream, so
there are rounds enough. -/
def received (s : Sock) (buf : Bytes) : List Received := recvLoop (s.inp.length + 1) s buf

/-- `recvLoop` without the socket. -/
def parseLoop : Nat → Bytes → Bytes → List FrameIn
  | 0, _, _ => []
  | fuel + 1, inp, buf =>
    match parseFrame inp buf with
    | (.ok r, rest) => r :: parseLoop fuel rest r.buf
    | (.error _, _) => []

theorem recvLoop_eq {fuel : Nat} {s : Sock} (hs : s.ErrorFree) (buf : Bytes) :
    recvLoop fuel s buf = (parseLoop fuel s.inp buf).map FrameIn.received := by
  induction fuel generalizing s buf with
  | zero => rfl
  | succ fuel ih =>
    obtain ⟨q, hq, hr⟩ := recvFrame_eq hs buf
    rw [recvLoop, parseLoop, lmpRecv, hr]
    cases hp : parseFrame s.inp buf with
    | mk res rest =>
      cases res with
      | error e => rfl
      | ok r =>
        simp only [Except.map, List.map_cons]
        exact congrArg _ (@ih ⟨rest, q⟩ hq r.buf)

@[simp] theorem parseLoop_nil (fuel : Nat) (buf : Bytes) : parseLoop fuel [] buf = [] := by
  cases fuel <;> simp [parseLoop]

theorem Frame.content_received (f : Frame) (buf : Bytes) :
    (f.received buf).received.content = f.content := by
  simp [Received.content, FrameIn.received, Frame.received, Frame.content]

/-- Whole frames at the head of the stream come in one after the other. What follows them is then
received into a buffer `buf'` of the same size. -/
theorem parseLoop_wires {fs : List Frame} (fuel : Nat) {buf : Bytes} (hbuf : buf.length < 2 ^ 32)
    (hfit : ∀ f ∈ fs, f.payload.length < buf.length) (rest : Bytes) :
    ∃ buf', buf'.length = buf.length ∧
      (parseLoop (fs.length + fuel) (fs.flatMap Frame.wire ++ rest) buf).map (·.received.content) =
        fs.map Frame.content ++ (parseLoop fuel rest buf').map (·.received.content) := by
  induction fs generalizing buf with
  | nil => exact ⟨buf, rfl, by simp⟩
  | cons f fs ih =>
    have hf := hfit f List.mem_cons_self
    have hlen : (f.received buf).buf.length = buf.length := Frame.length_buf_received hf
    obtain ⟨buf', hbuf', h⟩ := ih (hlen ▸ hbuf) fun g hg =>
      hlen ▸ hfit g (List.mem_cons_of_mem _ hg)
    refine ⟨buf', hbuf'.trans hlen, ?_⟩
    have hfuel : (f :: fs).length + fuel = fs.length + fuel + 1 := by simp; omega
    rw [hfuel, List.flatMap_cons, List.append_assoc, parseLoop, parseFrame_wire hbuf hf]
    simp [f.content_received, h]

theorem length_le_wires (fs : List Frame) : fs.length ≤ (fs.flatMap Frame.wire).length := by
  induction fs with
  | nil => exact Nat.le_refl _
  | cons f fs ih =>
    simp only [List.flatMap_cons, List.length_append, Frame.length_wire, List.length_cons,
      LMP_HEADER_SIZE]
    omega

/-- All that is received from whole frames and what comes after them. -/
theorem received_wires {fs : List Frame} {s : Sock} (hs : s.ErrorFree) {buf rest : Bytes}
    (hbuf : buf.length < 2 ^ 32) (hfit : ∀ f ∈ fs, f.payload.length < buf.length)
    (hinp : s.inp = fs.flatMap Frame.wire ++ rest) :
    ∃ fuel buf', rest.length ≤ fuel ∧ buf'.length = buf.length ∧
      (received s buf).map Received.content =
        fs.map Frame.content ++ (parseLoop (fuel + 1) rest buf').map (·.received.content) := by
  have hlen : s.inp.length = (fs.flatMap Frame.wire).length + rest.length := by
    rw [hinp, List.length_append]
  have hle := length_le_wires fs
  obtain ⟨buf', hbuf', h⟩ := parseLoop_wires (s.inp.length - fs.length + 1) hbuf hfit rest
  refine ⟨s.inp.length - fs.length, buf', by omega, hbuf', ?_⟩
  rw [received, recvLoop_eq hs, List.map_map, ← h, ← hinp,
    show fs.length + (s.inp.length - fs.length + 1) = s.inp.length + 1 by omega]
  rfl

/-- Nothing is received from a rest at which a receive fails. -/
theorem parseLoop_of_error {inp buf : Bytes} {e : Int} (h : (parseFrame inp buf).1 = .error e)
    (fuel : Nat) : parseLoop fuel inp buf = [] := by
  cases fuel with
  | zero => rfl
  | succ fuel =>
    rw [parseLoop]
    split
    · rename_i heq; simp [heq] at h
    · rfl

/-! ## The buffer after a frame -/

theorem received_buf (f : Frame) (buf : Bytes) :
    (f.received buf).received.buf = f.payload ++ 0 :: buf.drop (f.payload.length + 1) := rfl

@[simp] theorem take_len_received (f : Frame) (buf : Bytes) :
    (f.received buf).received.buf.take (f.received buf).received.len = f.payload :=
  congrArg Prod.snd (f.content_received buf)

@[simp] theorem cstr_received (f : Frame) (buf : Bytes) :
    cstr (f.received buf).received.buf = cstr f.payload := cstr_append_zero _ _

theorem copyStr_received (n : Nat) (f : Frame) (buf : Bytes) :
    CharArray.copyStr n (f.received buf).received.buf = CharArray.copyStr n f.payload := by
  rw [CharArray.copyStr, cstr_received, CharArray.copyStr]

end SocketSpeak
