import SocketSpeak.CLib.Interleave
import SocketSpeak.CLib.Sys
import SocketSpeak.Lmp.Stream

/-!
# The two threads of a peer

In a one-to-one chat the main thread of a peer sends what the user types, and its receiver thread
answers each `LMP_NICK` with an `LMP_ACK`, on the same socket. A frame is two `send`s, with no lock
around them, so a `send` of one thread can fall between the two of the other. `frames_intact_iff`:
the other peer receives an interleaving of the two frame sequences if and only if no `send` does.
-/

namespace SocketSpeak
open CLib

/-- The buffer into which both receivers and the server receive. -/
def LMP_BUF_SIZE : Nat := 4096

/-- A frame of the main thread: a message, a nickname, a sticker or the UID, each of them the text
of a C string that is shorter than the receiver's buffer. -/
structure MainFrame where
  type : UInt8
  payload : Bytes
  type_mem : type ∈ [LMP_MSG, LMP_NICK, LMP_STICKERS, LMP_UID]
  nulFree : NulFree payload
  fits : payload.length < LMP_BUF_SIZE

def MainFrame.frame (f : MainFrame) : Frame := lmpFrame f.type f.payload

/-- What `nick_recv` sends. -/
def ackFrame : Frame := lmpFrame LMP_ACK (str "nickname ack")

/-- A thread: the frames that it has not begun to send, and the payload that it has still to send
of the frame whose header is out. -/
structure Thread where
  todo : List Frame
  pending : Option Bytes
  deriving DecidableEq

namespace Thread

/-- The next `send` of a thread: what it appends to the stream, and the thread after it. -/
def send (t : Thread) : Option (Bytes × Thread) :=
  match t.pending, t.todo with
  | some payload, _ => some (payload, { t with pending := none })
  | none, f :: fs => some (f.header, ⟨fs, if f.payload = [] then none else some f.payload⟩)
  | none, [] => none

/-- The thread is not between the two `send`s of a frame. -/
def AtFrame (t : Thread) : Prop := t.pending = none

def Done (t : Thread) : Prop := t.todo = [] ∧ t.pending = none

/-- The number of bytes that the thread has still to send. -/
def left (t : Thread) : Nat := (t.pending.getD []).length + (t.todo.flatMap Frame.wire).length

instance (t : Thread) : Decidable t.AtFrame := inferInstanceAs (Decidable (_ = _))
instance (t : Thread) : Decidable t.Done := inferInstanceAs (Decidable (_ ∧ _))

theorem left_of_send {t t' : Thread} {b : Bytes} (h : t.send = some (b, t')) :
    b.length + t'.left = t.left := by
  obtain ⟨todo, pending⟩ := t
  cases pending with
  | some payload =>
    simp only [send, Option.some.injEq, Prod.mk.injEq] at h
    obtain ⟨rfl, rfl⟩ := h
    simp [left]
  | none =>
    cases todo with
    | nil => simp [send] at h
    | cons f fs =>
      simp only [send, Option.some.injEq, Prod.mk.injEq] at h
      obtain ⟨rfl, rfl⟩ := h
      by_cases hp : f.payload = [] <;> simp [left, hp]
      omega

end Thread

inductive Who where
  | main
  | receiver
  deriving DecidableEq

/-- The two threads of a peer and the stream that they write. -/
structure Peer where
  threads : Who → Thread
  wire : Bytes

namespace Peer

/-- One `send` of one of the threads; a thread that is done has none. -/
def step (p : Peer) (w : Who) : Except Unit Peer :=
  match (p.threads w).send with
  | some (b, t) => .ok ⟨Function.update p.threads w t, p.wire ++ b⟩
  | none => .error ()

def Done (p : Peer) : Prop := (p.threads .main).Done ∧ (p.threads .receiver).Done

/-- The other thread is not between the two `send`s of a frame when this one calls `send`. -/
def Unmixed (p : Peer) : Who → Prop
  | .main => (p.threads .receiver).AtFrame
  | .receiver => (p.threads .main).AtFrame

instance (p : Peer) : Decidable p.Done := inferInstanceAs (Decidable (_ ∧ _))
instance (p : Peer) : ∀ w, Decidable (p.Unmixed w)
  | .main => inferInstanceAs (Decidable (Thread.AtFrame _))
  | .receiver => inferInstanceAs (Decidable (Thread.AtFrame _))

/-- Neither thread is within a frame, and `fs` are the frames that each has still to send. -/
def atFrames (fs : Who → List Frame) (wire : Bytes) : Peer := ⟨fun w => ⟨fs w, none⟩, wire⟩

/-- The frames of a chat: `ms` of the main thread, and `n` acknowledgements. -/
def frames (ms : List MainFrame) (n : Nat) : Who → List Frame
  | .main => ms.map MainFrame.frame
  | .receiver => List.replicate n ackFrame

/-- Before the first `send`. -/
def start (ms : List MainFrame) (n : Nat) : Peer := atFrames (frames ms n) []

end Peer

/-- The other peer receives an interleaving of the frames of the two threads. -/
def FramesIntact (ms : List MainFrame) (n : Nat) (s : Sock) (buf : Bytes) : Prop :=
  Interleaves ((Peer.frames ms n .main).map Frame.content)
    ((Peer.frames ms n .receiver).map Frame.content) ((received s buf).map Received.content)

/-! ## Runs of the two threads -/

open Sys

/-- What a run appends to the stream is as long as what the threads had to send. -/
theorem wire_of_exec {p p' : Peer} {ws : List Who} (h : exec Peer.step p ws = .ok p')
    (hd : p'.Done) : ∃ tail, p'.wire = p.wire ++ tail ∧
      tail.length = (p.threads .main).left + (p.threads .receiver).left := by
  induction ws generalizing p with
  | nil =>
    cases h
    obtain ⟨⟨h1, h2⟩, h3, h4⟩ := hd
    exact ⟨[], by simp, by simp [Thread.left, h1, h2, h3, h4]⟩
  | cons w ws ih =>
    obtain ⟨q, hq, h⟩ := exec_cons_ok.mp h
    obtain ⟨tail, htail, hlen⟩ := ih h
    simp only [Peer.step] at hq
    split at hq
    · rename_i b t hsend
      cases hq
      have hleft := Thread.left_of_send hsend
      refine ⟨b ++ tail, by simp [htail], ?_⟩
      cases w <;> simp [hlen] at hleft ⊢ <;> omega
    · cases hq

namespace Peer
variable {fs : Who → List Frame} {wire : Bytes} {w v : Who} {f : Frame} {rest : List Frame}
  {q : Peer}

/-- The header of `f` is out, and its payload is what `w` has to send next. -/
def withinFrame (fs : Who → List Frame) (wire : Bytes) (w : Who) (f : Frame)
    (rest : List Frame) : Peer :=
  ⟨Function.update (fun v => ⟨fs v, none⟩) w ⟨rest, some f.payload⟩, wire ++ f.header⟩

theorem update_atFrames : Function.update (fun v => (⟨fs v, none⟩ : Thread)) w ⟨rest, none⟩ =
    fun v => ⟨Function.update fs w rest v, none⟩ := by
  funext v
  by_cases hv : v = w
  · subst hv
    simp
  · simp [hv]

theorem unmixed_atFrames : (atFrames fs wire).Unmixed w := by cases w <;> exact rfl

theorem unmixed_withinFrame : (withinFrame fs wire w f rest).Unmixed w := by cases w <;> exact rfl

theorem not_unmixed_withinFrame (hv : v ≠ w) : ¬ (withinFrame fs wire w f rest).Unmixed v := by
  cases w <;> cases v <;> simp_all [Unmixed, Thread.AtFrame, withinFrame]

theorem not_done_withinFrame : ¬ (withinFrame fs wire w f rest).Done := by
  rintro ⟨h1, h2⟩
  cases w
  · simp [Thread.Done, withinFrame] at h1
  · simp [Thread.Done, withinFrame] at h2

/-- A `send` from a point between frames: a frame without payload is one `send`. -/
theorem step_atFrames_ok (hq : step (atFrames fs wire) w = .ok q) : ∃ f rest, fs w = f :: rest ∧
    (q = atFrames (Function.update fs w rest) (wire ++ f.wire) ∨
      f.payload ≠ [] ∧ q = withinFrame fs wire w f rest) := by
  cases hfs : fs w with
  | nil => simp [step, atFrames, Thread.send, hfs] at hq
  | cons f rest =>
    refine ⟨f, rest, rfl, ?_⟩
    by_cases hp : f.payload = []
    · simp only [step, atFrames, Thread.send, hfs, hp, if_true, Except.ok.injEq] at hq
      rw [← hq, update_atFrames]
      simp [atFrames, Frame.wire, hp]
    · simp only [step, atFrames, Thread.send, hfs, hp, if_false, Except.ok.injEq] at hq
      exact .inr ⟨hp, hq.symm⟩

/-- The other part of the frame. -/
theorem step_withinFrame : step (withinFrame fs wire w f rest) w =
    .ok (atFrames (Function.update fs w rest) (wire ++ f.wire)) := by
  simp only [step, withinFrame, Thread.send, Function.update_self, Function.update_idem,
    update_atFrames]
  simp [atFrames, Frame.wire]

/-- The header of a frame of the other thread, before the payload of `f`. -/
theorem step_withinFrame_of_ne (hv : v ≠ w) (hq : step (withinFrame fs wire w f rest) v = .ok q) :
    ∃ g ∈ fs v, q.wire = wire ++ f.header ++ g.header ∧
      f.payload.length ≤ (q.threads .main).left + (q.threads .receiver).left := by
  cases hfv : fs v with
  | nil => simp [step, withinFrame, Thread.send, hv, hfv] at hq
  | cons g rest' =>
    refine ⟨g, List.mem_cons_self, ?_⟩
    simp only [step, withinFrame, Thread.send, Function.update_of_ne hv, hfv,
      Except.ok.injEq] at hq
    rw [← hq]
    refine ⟨rfl, ?_⟩
    cases w <;> cases v <;> simp [Thread.left] at hv ⊢ <;> omega

end Peer

/-- The first `send` of a run from a point between frames is the header of the next frame `f` of
its thread. Either the rest of `f` follows at once, and the run goes on from a point between frames;
or the header of a frame `g` of the other thread does, while the payload of `f` is still to come. -/
theorem first_frame {fs : Who → List Frame} {wire : Bytes} {w : Who} {ws : List Who} {p' : Peer}
    (h : exec Peer.step (.atFrames fs wire) (w :: ws) = .ok p') (hd : p'.Done) :
    ∃ f rest, fs w = f :: rest ∧
      ((∃ ws', ws'.length ≤ ws.length ∧
          exec Peer.step (.atFrames (Function.update fs w rest) (wire ++ f.wire)) ws' = .ok p' ∧
          (Meets Peer.step Peer.Unmixed (.atFrames fs wire) (w :: ws) ↔ Meets Peer.step Peer.Unmixed
            (.atFrames (Function.update fs w rest) (wire ++ f.wire)) ws')) ∨
        ¬ Meets Peer.step Peer.Unmixed (.atFrames fs wire) (w :: ws) ∧ f.payload ≠ [] ∧
          ∃ v g, v ≠ w ∧ g ∈ fs v ∧
            ∃ tail, p'.wire = wire ++ (f.header ++ (g.header ++ tail)) ∧
              f.payload.length ≤ tail.length) := by
  obtain ⟨q, hq, h⟩ := exec_cons_ok.mp h
  obtain ⟨f, rest, hfs, rfl | ⟨hp, rfl⟩⟩ := Peer.step_atFrames_ok hq
  · refine ⟨f, rest, hfs, .inl ⟨ws, Nat.le_refl _, h, ?_⟩⟩
    rw [Meets, hq]
    exact and_iff_right Peer.unmixed_atFrames
  · refine ⟨f, rest, hfs, ?_⟩
    cases ws with
    | nil =>
      cases h
      exact absurd hd Peer.not_done_withinFrame
    | cons v ws =>
      obtain ⟨q₂, hq₂, hrun⟩ := exec_cons_ok.mp h
      by_cases hv : v = w
      · subst hv
        rw [Peer.step_withinFrame] at hq₂
        cases hq₂
        refine .inl ⟨ws, by simp, hrun, ?_⟩
        simp only [Meets, hq, Peer.step_withinFrame, Peer.unmixed_atFrames,
          Peer.unmixed_withinFrame, true_and]
      · obtain ⟨g, hg, hwire, hleft⟩ := Peer.step_withinFrame_of_ne hv hq₂
        obtain ⟨tail, htail, hlen⟩ := wire_of_exec hrun hd
        refine .inr ⟨fun hm => ?_, hp, v, g, hv, hg, tail, ?_, hlen ▸ hleft⟩
        · exact Peer.not_unmixed_withinFrame hv (hm.cons hq).2.1
        · rw [htail, hwire]
          simp only [List.append_assoc]

/-- A run in which no frame is cut writes the frames of the two threads, interleaved. -/
theorem wire_of_unmixed : ∀ {ws : List Who} {fs : Who → List Frame} {wire : Bytes} {p' : Peer},
    exec Peer.step (.atFrames fs wire) ws = .ok p' → p'.Done →
    Meets Peer.step Peer.Unmixed (.atFrames fs wire) ws →
    ∃ zs, Interleaves (fs .main) (fs .receiver) zs ∧ p'.wire = wire ++ zs.flatMap Frame.wire
  | [], fs, wire, p', h, hd, _ => by
    cases h
    obtain ⟨⟨h1, -⟩, h2, -⟩ := hd
    simp only [Peer.atFrames] at h1 h2
    exact ⟨[], by rw [h1, h2]; exact .nil, by simp [Peer.atFrames]⟩
  | w :: ws, fs, wire, p', h, hd, hm => by
    obtain ⟨f, rest, hfs, ⟨ws', hlen, hrun, hiff⟩ | ⟨hmix, -⟩⟩ := first_frame h hd
    · have : ws'.length < (w :: ws).length := by simp; omega
      obtain ⟨zs, hzs, hwire⟩ := wire_of_unmixed hrun hd (hiff.mp hm)
      refine ⟨f :: zs, ?_, by simp [hwire]⟩
      cases w
      · rw [hfs]; exact .left f (by simpa using hzs)
      · rw [hfs]; exact .right f (by simpa using hzs)
    · exact absurd hm hmix
termination_by ws => ws.length

/-! ## A frame that is cut -/

section
variable {fs : Who → List Frame} (hmain : ∀ f ∈ fs .main, ∃ m : MainFrame, m.frame = f)
  (hack : ∀ f ∈ fs .receiver, f = ackFrame)

theorem MainFrame.type_ne_ack (m : MainFrame) : m.type ≠ LMP_ACK := by
  intro h
  have := m.type_mem
  rw [h] at this
  exact absurd this (by decide)

theorem payload_length_ackFrame : ackFrame.payload.length = 12 := by decide

/-- The header of a frame takes for its payload what follows it. -/
theorem header_append {f : Frame} {b : Bytes} (h : f.payload.length ≤ b.length) :
    f.header ++ b = (⟨f.type, f.reserved, b.take f.payload.length⟩ : Frame).wire ++
      b.drop f.payload.length := by
  have hlen : (b.take f.payload.length).length = f.payload.length := by
    rw [List.length_take, Nat.min_eq_left h]
  rw [Frame.wire, List.append_assoc, List.take_append_drop, Frame.header, Frame.header, hlen]

theorem header_ackFrame (tail : Bytes) : ackFrame.header ++ tail =
    LMP_MAGIC_0 :: LMP_MAGIC_1 :: LMP_ACK :: 0 :: (be32 12 ++ tail) := rfl

/-- What is left of the header of an acknowledgement after its first bytes is no header. -/
theorem parseFrame_drop_ack {k : Nat} (hpos : 0 < k) (hlt : k < 4) (tail buf : Bytes) :
    (parseFrame ((ackFrame.header ++ tail).drop k) buf).1 = .error (-3) := by
  have hk : k = 1 ∨ k = 2 ∨ k = 3 := by omega
  rw [header_ackFrame, parseFrame]
  rcases hk with rfl | rfl | rfl <;> simp [HeaderOk, LMP_MAGIC_0, LMP_MAGIC_1, LMP_ACK]

include hmain hack

theorem fits_of_mem {w : Who} {f : Frame} (h : f ∈ fs w) : f.payload.length < LMP_BUF_SIZE := by
  cases w with
  | main => obtain ⟨m, rfl⟩ := hmain f h; exact m.fits
  | receiver => rw [hack f h, payload_length_ackFrame]; decide

/-- Neither thread has a frame with the type of an acknowledgement and another text. -/
theorem not_mem_of_ack {payload : Bytes} (hp : payload ≠ str "nickname ack") :
    (LMP_ACK, payload) ∉ (fs .main).map Frame.content ∧
      (LMP_ACK, payload) ∉ (fs .receiver).map Frame.content := by
  constructor
  · intro h
    obtain ⟨f, hf, he⟩ := List.mem_map.mp h
    obtain ⟨m, rfl⟩ := hmain f hf
    exact m.type_ne_ack (congrArg Prod.fst he)
  · intro h
    obtain ⟨f, hf, he⟩ := List.mem_map.mp h
    rw [hack f hf] at he
    exact hp (congrArg Prod.snd he).symm

/-- Nor has one a frame with a NUL in its text that is not an acknowledgement. -/
theorem not_mem_of_nul {type : UInt8} {payload : Bytes} (ht : type ≠ LMP_ACK)
    (hp : ¬ NulFree payload) : (type, payload) ∉ (fs .main).map Frame.content ∧
      (type, payload) ∉ (fs .receiver).map Frame.content := by
  constructor
  · intro h
    obtain ⟨f, hf, he⟩ := List.mem_map.mp h
    obtain ⟨m, rfl⟩ := hmain f hf
    have hpay : m.payload = payload := congrArg Prod.snd he
    exact hp (hpay ▸ m.nulFree)
  · intro h
    obtain ⟨f, hf, he⟩ := List.mem_map.mp h
    rw [hack f hf] at he
    exact ht (congrArg Prod.fst he).symm

/-- An acknowledgement whose payload begins with the header of another frame. -/
theorem not_mem_cut_ack (g : Frame) (tail : Bytes) :
    (LMP_ACK, (g.header ++ tail).take 12) ∉ (fs .main).map Frame.content ∧
      (LMP_ACK, (g.header ++ tail).take 12) ∉ (fs .receiver).map Frame.content := by
  apply not_mem_of_ack hmain hack
  intro h
  have hfirst : LMP_MAGIC_0 = (str "nickname ack").getD 0 0 := congrArg (·.getD 0 0) h
  exact absurd hfirst (by decide)

/-- Four bytes of the header of an acknowledgement are no text: the reserved one is a NUL. -/
theorem not_mem_cut_main (m : MainFrame) (h4 : 4 ≤ m.payload.length) (tail : Bytes) :
    (m.type, (ackFrame.header ++ tail).take m.payload.length) ∉ (fs .main).map Frame.content ∧
      (m.type, (ackFrame.header ++ tail).take m.payload.length) ∉
        (fs .receiver).map Frame.content := by
  apply not_mem_of_nul hmain hack m.type_ne_ack
  obtain ⟨k, hk⟩ := Nat.exists_eq_add_of_le' h4
  rw [header_ackFrame, hk]
  simp [NulFree]

/-- When the header of `g` stands between the two parts of `f`, what is received from there on is
no interleaving of the frames that the two threads have left. -/
theorem not_interleaves_of_cut {w v : Who} {f g : Frame} (hv : v ≠ w) (hf : f ∈ fs w)
    (hg : g ∈ fs v) (hp : f.payload ≠ []) {tail : Bytes}
    (htail : f.payload.length ≤ tail.length) {buf : Bytes}
    (hbuf : buf.length = LMP_BUF_SIZE) (fuel : Nat) :
    ¬ Interleaves ((fs .main).map Frame.content) ((fs .receiver).map Frame.content)
      ((parseLoop (fuel + 1) (f.header ++ (g.header ++ tail)) buf).map (·.received.content)) := by
  intro hi
  have hb32 : buf.length < 2 ^ 32 := by rw [hbuf]; decide
  have hle : f.payload.length ≤ (g.header ++ tail).length := by
    rw [List.length_append]; omega
  obtain ⟨bad, hbad⟩ : ∃ bad : Frame,
      bad = ⟨f.type, f.reserved, (g.header ++ tail).take f.payload.length⟩ := ⟨_, rfl⟩
  have hfit : bad.payload.length < buf.length := by
    have := fits_of_mem hmain hack hf
    rw [hbad, hbuf, List.length_take]; omega
  -- the first frame received has the header of `f`, and for its payload the header of `g`
  rw [header_append hle, ← hbad, parseLoop, parseFrame_wire hb32 hfit] at hi
  rw [List.map_cons, bad.content_received] at hi
  have hmem := hi.mem_iff.mp List.mem_cons_self
  cases w with
  | receiver =>
    obtain ⟨h1, h2⟩ := not_mem_cut_ack hmain hack g tail
    rw [hbad, hack f hf, payload_length_ackFrame] at hmem
    exact hmem.elim h1 h2
  | main =>
    obtain ⟨m, rfl⟩ := hmain f hf
    have hreceiver : g ∈ fs .receiver := by
      cases v with
      | main => exact absurd rfl hv
      | receiver => exact hg
    obtain rfl := hack g hreceiver
    have hpos : 0 < m.payload.length := List.length_pos_iff.mpr hp
    have hpayload : m.frame.payload = m.payload := rfl
    rw [hpayload] at hbad hi
    by_cases h4 : 4 ≤ m.payload.length
    · obtain ⟨h1, h2⟩ := not_mem_cut_main hmain hack m h4 tail
      rw [hbad] at hmem
      exact hmem.elim h1 h2
    · -- what is left of the header is no header, so nothing more is received
      rw [parseLoop_of_error (parseFrame_drop_ack hpos (by omega) tail _)] at hi
      have hlen := hi.length_eq
      have h1 := List.length_pos_of_mem hf
      have h2 := List.length_pos_of_mem hreceiver
      simp at hlen
      omega

/-- No two frames of different threads are alike. -/
theorem content_not_mem {w v : Who} {f : Frame} (hv : v ≠ w) (hf : f ∈ fs w) :
    f.content ∉ (fs v).map Frame.content := by
  intro h
  obtain ⟨g, hg, he⟩ := List.mem_map.mp h
  have htype : g.type = f.type := congrArg Prod.fst he
  cases w <;> cases v
  · exact hv rfl
  · obtain ⟨m, rfl⟩ := hmain f hf
    rw [hack g hg] at htype
    exact m.type_ne_ack htype.symm
  · obtain ⟨m, rfl⟩ := hmain g hg
    rw [hack f hf] at htype
    exact m.type_ne_ack htype
  · exact hv rfl

/-- A frame of the thread `w` that comes in first is the next frame of `w`. -/
theorem interleaves_of_cons {w : Who} {f : Frame} {rest : List Frame} (hfs : fs w = f :: rest)
    {zs : List (UInt8 × Bytes)}
    (h : Interleaves ((fs .main).map Frame.content) ((fs .receiver).map Frame.content)
      (f.content :: zs)) :
    Interleaves ((Function.update fs w rest .main).map Frame.content)
      ((Function.update fs w rest .receiver).map Frame.content) zs := by
  have hf : f ∈ fs w := hfs ▸ List.mem_cons_self
  cases w
  · have hnot := content_not_mem hmain hack (v := .receiver) (by decide) hf
    rw [hfs] at h
    simpa using h.of_cons_left hnot
  · have hnot := content_not_mem hmain hack (v := .main) (by decide) hf
    rw [hfs] at h
    simpa using (h.swap.of_cons_left hnot).swap

end

/-- Nor is what is received an interleaving if whole frames come before the one that is cut. -/
theorem not_interleaves_of_mixed : ∀ {ws : List Who} {fs : Who → List Frame}
    {wire suffix buf : Bytes} {fuel : Nat} {p' : Peer},
    (∀ f ∈ fs .main, ∃ m : MainFrame, m.frame = f) → (∀ f ∈ fs .receiver, f = ackFrame) →
    exec Peer.step (.atFrames fs wire) ws = .ok p' → p'.Done →
    ¬ Meets Peer.step Peer.Unmixed (.atFrames fs wire) ws →
    p'.wire = wire ++ suffix → buf.length = LMP_BUF_SIZE → suffix.length < fuel →
    ¬ Interleaves ((fs .main).map Frame.content) ((fs .receiver).map Frame.content)
      ((parseLoop fuel suffix buf).map (·.received.content))
  | [], fs, _, _, _, _, _, _, _, _, _, hm, _, _, _ => absurd trivial hm
  | w :: ws, fs, wire, suffix, buf, fuel + 1, p', hmain, hack, h, hd, hm, hwire, hbuf, hfuel => by
    obtain ⟨f, rest, hfs, hcase⟩ := first_frame h hd
    have hf : f ∈ fs w := hfs ▸ List.mem_cons_self
    rcases hcase with ⟨ws', hlen, hrun, hiff⟩ | ⟨-, hp, v, g, hv, hg, tail, htail, hle⟩
    · obtain ⟨suffix', hsuffix, -⟩ := wire_of_exec hrun hd
      have heq : suffix = f.wire ++ suffix' := by
        refine List.append_cancel_left (?_ : wire ++ suffix = wire ++ _)
        rw [← hwire, hsuffix, Peer.atFrames, List.append_assoc]
      have hfit : f.payload.length < buf.length := hbuf ▸ fits_of_mem hmain hack hf
      have hb32 : buf.length < 2 ^ 32 := by rw [hbuf]; decide
      intro hi
      rw [heq, parseLoop, parseFrame_wire hb32 hfit, List.map_cons, f.content_received] at hi
      have hi' := interleaves_of_cons hmain hack hfs hi
      have : ws'.length < (w :: ws).length := by simp; omega
      refine not_interleaves_of_mixed ?_ ?_ hrun hd (fun hm' => hm (hiff.mpr hm')) hsuffix
        ((Frame.length_buf_received hfit).trans hbuf) ?_ hi'
      · intro f' hf'
        cases w <;> simp at hf'
        · exact hmain f' (hfs ▸ List.mem_cons_of_mem _ hf')
        · exact hmain f' hf'
      · intro f' hf'
        cases w <;> simp at hf'
        · exact hack f' hf'
        · exact hack f' (hfs ▸ List.mem_cons_of_mem _ hf')
      · rw [heq, List.length_append, Frame.length_wire, LMP_HEADER_SIZE] at hfuel
        omega
    · have heq : suffix = f.header ++ (g.header ++ tail) :=
        List.append_cancel_left (hwire ▸ htail)
      rw [heq]
      exact not_interleaves_of_cut hmain hack hv hf hg hp hle hbuf fuel
termination_by ws => ws.length

/-! ## Main results -/

theorem frames_spec (ms : List MainFrame) (n : Nat) :
    (∀ f ∈ Peer.frames ms n .main, ∃ m : MainFrame, m.frame = f) ∧
      ∀ f ∈ Peer.frames ms n .receiver, f = ackFrame := by
  constructor
  · intro f hf
    obtain ⟨m, -, rfl⟩ := List.mem_map.mp hf
    exact ⟨m, rfl⟩
  · intro f hf
    exact List.eq_of_mem_replicate hf

/-- **Frames of the two threads do not mix**, if and only if no thread calls `send` while the other
one is between the two `send`s of a frame. -/
theorem frames_intact_iff (ms : List MainFrame) (n : Nat) (ws : List Who) (p' : Peer)
    (h : exec Peer.step (.start ms n) ws = .ok p') (hd : p'.Done) (s : Sock) (hs : s.ErrorFree)
    (hinp : s.inp = p'.wire) (buf : Bytes) (hbuf : buf.length = LMP_BUF_SIZE) :
    FramesIntact ms n s buf ↔ Meets Peer.step Peer.Unmixed (.start ms n) ws := by
  obtain ⟨hmain, hack⟩ := frames_spec ms n
  constructor
  · intro hi
    by_contra hm
    rw [FramesIntact, received, recvLoop_eq hs, List.map_map] at hi
    exact not_interleaves_of_mixed hmain hack h hd hm (hinp ▸ (List.nil_append _).symm) hbuf
      (Nat.lt_succ_self _) hi
  · intro hm
    obtain ⟨zs, hzs, hwire⟩ := wire_of_unmixed h hd hm
    have hb32 : buf.length < 2 ^ 32 := by rw [hbuf]; decide
    have hfit : ∀ f ∈ zs, f.payload.length < buf.length := by
      intro f hf
      rw [hbuf]
      rcases hzs.mem_iff.mp hf with hf | hf <;> exact fits_of_mem hmain hack hf
    obtain ⟨fuel, buf', -, -, hr⟩ := received_wires hs hb32 hfit
      (hinp.trans (hwire.trans (List.append_nil _).symm))
    rw [FramesIntact, hr, parseLoop_nil]
    simpa using hzs.map Frame.content

/-- The acknowledgement goes out before the message, and no frame is cut. -/
theorem frames_intact_ack_first :
    let ms : List MainFrame := [⟨LMP_MSG, str "hi", by decide, by decide, by decide⟩]
    let ws : List Who := [.receiver, .receiver, .main, .main]
    ∃ p', exec Peer.step (.start ms 1) ws = .ok p' ∧
      FramesIntact ms 1 ⟨p'.wire, [.data 3]⟩ (List.replicate LMP_BUF_SIZE 0) := by
  intro ms ws
  have hun : Meets Peer.step Peer.Unmixed (.start ms 1) ws := by decide
  exact ⟨_, rfl, (frames_intact_iff ms 1 ws _ rfl (by decide) _ (by decide) rfl _
    (by rw [List.length_replicate])).mpr hun⟩

/-- The header of the acknowledgement falls between the header and the payload of the message: the
text received is the magic of the second header, and nothing can be received after it. -/
theorem frames_mixed_header_between :
    let ms : List MainFrame := [⟨LMP_MSG, str "hi", by decide, by decide, by decide⟩]
    let ws : List Who := [.main, .receiver, .main, .receiver]
    ∃ p', exec Peer.step (.start ms 1) ws = .ok p' ∧ p'.Done ∧
      (received ⟨p'.wire, []⟩ (List.replicate LMP_BUF_SIZE 0)).map Received.content =
        [(LMP_MSG, str "LM")] ∧
      ¬ FramesIntact ms 1 ⟨p'.wire, []⟩ (List.replicate LMP_BUF_SIZE 0) := by
  intro ms ws
  have hrecv : (received ⟨(ms.flatMap fun m => m.frame.header) ++ ackFrame.header ++
      (str "hi" ++ str "nickname ack"), []⟩ (List.replicate LMP_BUF_SIZE 0)).map
      Received.content = [(LMP_MSG, str "LM")] := by decide +kernel
  refine ⟨_, rfl, by decide, hrecv, fun hi => ?_⟩
  have hlen := hi.length_eq
  exact absurd (hlen.symm.trans (congrArg List.length hrecv)) (by decide)

end SocketSpeak
