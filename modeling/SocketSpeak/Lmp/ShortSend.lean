import SocketSpeak.Lmp.RoundTrip
import SocketSpeak.Lmp.Stream

/-!
# Short and failed sends

The senders look at the sign of what `send` returns and not at the count, and they put a frame on
the wire in two `send`s. A run of calls is harmless for the stream decoder on the other side as long
as every call either sends all of its frame or fails before its first byte; a call may also fail in
its second `send`, if nothing follows it (`Harmless`).
-/

namespace SocketSpeak
open CLib

/-- A call of a sender, with the answers of the operating system to its `send`s. -/
structure Attempt where
  call : SendCall
  hdrEv : SendEvent
  payEv : SendEvent
  deriving DecidableEq

namespace Attempt

def run (a : Attempt) (wire : Bytes) : Int × Bytes := a.call.send a.hdrEv a.payEv wire

/-- All of the frame goes out. -/
def Complete (a : Attempt) : Prop :=
  a.hdrEv.Whole a.call.frame.header ∧
    (a.call.frame.payload ≠ [] → a.payEv.Whole a.call.frame.payload)

/-- The first `send` fails. -/
def Silent (a : Attempt) : Prop := a.hdrEv = .error

/-- There is a second `send`, and it fails. -/
def PayloadFailed (a : Attempt) : Prop := a.call.frame.payload ≠ [] ∧ a.payEv = .error

instance (a : Attempt) : Decidable a.Complete := inferInstanceAs (Decidable (_ ∧ (_ → _)))
instance (a : Attempt) : Decidable a.Silent := inferInstanceAs (Decidable (_ = _))
instance (a : Attempt) : Decidable a.PayloadFailed := inferInstanceAs (Decidable (_ ∧ _))

theorem run_of_complete {a : Attempt} (h : a.Complete) (wire : Bytes) :
    a.run wire = (0, wire ++ a.call.frame.wire) := by
  rw [run, SendCall.send_eq]
  by_cases hp : a.call.frame.payload = []
  · have hcount : ¬ ((LMP_HEADER_SIZE : Nat) : Int) < 0 := by decide
    simp [frameSend, send_of_whole h.1, hp, Frame.wire, hcount]
  · exact frameSend_whole h.1 (h.2 hp) wire

theorem run_of_silent {a : Attempt} (h : a.Silent) (wire : Bytes) : a.run wire = (-1, wire) := by
  rw [run, SendCall.send_eq, frameSend, h]
  rfl

/-- The header, or the start of it, is on the wire although the call fails. -/
theorem run_of_payloadFailed {a : Attempt} (h : a.PayloadFailed) (wire : Bytes) :
    ∃ k, a.run wire = (-1, wire ++ a.call.frame.header.take k) := by
  obtain ⟨hp, he⟩ := h
  have hpos : 0 < a.call.frame.payload.length := List.length_pos_iff.mpr hp
  rw [run, SendCall.send_eq]
  cases hh : a.hdrEv with
  | error => exact ⟨0, by simp [frameSend]⟩
  | took k =>
    have hcount : ∀ n : Nat, ¬ (n : Int) < 0 := by omega
    exact ⟨max k 1, by simp [frameSend, send, he, hpos, hcount]⟩

end Attempt

/-- A run of calls: the frames whose call returned 0, and what is then on the wire. -/
def sendRun : List Attempt → Bytes → List Frame × Bytes
  | [], wire => ([], wire)
  | a :: as, wire =>
    let (r, wire) := a.run wire
    let (fs, wire) := sendRun as wire
    (if r = 0 then a.call.frame :: fs else fs, wire)

/-- Every call sends all of its frame, or fails before its first byte, up to a call whose payload
does not go out and after which nothing goes out any more. -/
def Harmless : List Attempt → Prop
  | [] => True
  | a :: as =>
    (a.Complete ∨ a.Silent) ∧ Harmless as ∨ a.PayloadFailed ∧ ∀ b ∈ as, b.Silent

instance Harmless.decidable : ∀ as, Decidable (Harmless as)
  | [] => .isTrue trivial
  | a :: as =>
    have := Harmless.decidable as
    inferInstanceAs (Decidable ((a.Complete ∨ a.Silent) ∧ Harmless as ∨ _))

/-- What is received from the wire is what the calls reported as sent. -/
def NoMisframing (as : List Attempt) (s : Sock) (buf : Bytes) : Prop :=
  s.inp = (sendRun as []).2 →
    (received s buf).map Received.content = (sendRun as []).1.map Frame.content

theorem sendRun_silent {as : List Attempt} (h : ∀ a ∈ as, a.Silent) (wire : Bytes) :
    sendRun as wire = ([], wire) := by
  induction as with
  | nil => rfl
  | cons a as ih =>
    have ih := ih fun b hb => h b (List.mem_cons_of_mem _ hb)
    simp [sendRun, Attempt.run_of_silent (h a List.mem_cons_self), ih]

/-- No frame can be made of a header, or the start of one, behind which the payload is missing. -/
theorem parseFrame_take_header {f : Frame} (hp : f.payload ≠ []) (hlen : f.payload.length < 2 ^ 32)
    (k : Nat) (buf : Bytes) : ∃ e, (parseFrame (f.header.take k) buf).1 = .error e := by
  unfold parseFrame
  split
  · exact ⟨_, rfl⟩
  split
  · exact ⟨_, rfl⟩
  rename_i hok
  have hok := (not_not.mp hok).1
  have htake : f.header.take k = f.header := by
    apply List.take_of_length_le
    rw [List.length_take] at hok
    rw [Frame.length_header] at hok ⊢
    omega
  have hplen : payloadLen f.header = f.payload.length := ofBe_be32 hlen
  rw [htake]
  split
  · exact ⟨_, rfl⟩
  split
  · exact ⟨_, rfl⟩
  rename_i hend
  have hpos := List.length_pos_iff.mpr hp
  exact absurd ⟨by omega, f.length_header⟩ hend

/-- After a harmless run the wire holds the frames that were reported as sent, and a rest of which
no frame can be made. -/
theorem sendRun_of_harmless {as : List Attempt} (h : Harmless as)
    (hlen : ∀ a ∈ as, a.call.frame.payload.length < 2 ^ 32) (wire : Bytes) :
    ∃ rest, (sendRun as wire).2 = wire ++ (sendRun as wire).1.flatMap Frame.wire ++ rest ∧
      ∀ buf, ∃ e, (parseFrame rest buf).1 = .error e := by
  induction as generalizing wire with
  | nil => exact ⟨[], by simp [sendRun], fun buf => ⟨-2, by simp⟩⟩
  | cons a as ih =>
    have hlen' := fun b hb => hlen b (List.mem_cons_of_mem a hb)
    rcases h with ⟨hc | hs, h⟩ | ⟨hp, hs⟩
    · obtain ⟨rest, hw, hrest⟩ := ih h hlen' (wire ++ a.call.frame.wire)
      refine ⟨rest, ?_, hrest⟩
      simp [sendRun, a.run_of_complete hc, hw]
    · obtain ⟨rest, hw, hrest⟩ := ih h hlen' wire
      refine ⟨rest, ?_, hrest⟩
      simp [sendRun, a.run_of_silent hs, hw]
    · obtain ⟨k, hk⟩ := a.run_of_payloadFailed hp wire
      refine ⟨a.call.frame.header.take k, ?_,
        parseFrame_take_header hp.1 (hlen a List.mem_cons_self) k⟩
      simp [sendRun, hk, sendRun_silent hs]

theorem mem_sendRun {as : List Attempt} {wire : Bytes} {f : Frame} (h : f ∈ (sendRun as wire).1) :
    ∃ a ∈ as, a.call.frame = f := by
  induction as generalizing wire with
  | nil => simp [sendRun] at h
  | cons a as ih =>
    simp only [sendRun] at h
    have hcase : f = a.call.frame ∨ f ∈ (sendRun as (a.run wire).2).1 := by
      split at h
      · exact List.mem_cons.mp h
      · exact .inr h
    rcases hcase with rfl | hf
    · exact ⟨a, List.mem_cons_self, rfl⟩
    · obtain ⟨b, hb, he⟩ := ih hf
      exact ⟨b, List.mem_cons_of_mem _ hb, he⟩

/-- **No misframing.** After a harmless run the other side receives exactly the frames that were
reported as sent, in order, and no other. -/
theorem no_misframing_of_harmless (as : List Attempt) (h : Harmless as) (buf : Bytes)
    (hbuf : buf.length < 2 ^ 32) (hfit : ∀ a ∈ as, a.call.frame.payload.length < buf.length)
    (s : Sock) (hs : s.ErrorFree) : NoMisframing as s buf := by
  intro hinp
  obtain ⟨rest, hw, hrest⟩ := sendRun_of_harmless h (fun a ha => Nat.lt_trans (hfit a ha) hbuf) []
  have hfit' : ∀ f ∈ (sendRun as []).1, f.payload.length < buf.length := by
    intro f hf
    obtain ⟨a, ha, rfl⟩ := mem_sendRun hf
    exact hfit a ha
  obtain ⟨fuel, buf', -, -, hr⟩ := received_wires hs hbuf hfit' (hinp.trans (by simpa using hw))
  obtain ⟨e, he⟩ := hrest buf'
  rw [hr, parseLoop_of_error he]
  simp

/-- A frame that goes out, one whose header fails, and one whose payload fails. -/
theorem no_misframing_three_calls :
    let as : List Attempt := [⟨.lmp 1 (str "hello"), .took 8, .took 5⟩,
      ⟨.lmp 1 (str "lost"), .error, .took 4⟩, ⟨.lmp 2 (str "bob"), .took 8, .error⟩]
    NoMisframing as ⟨(sendRun as []).2, [.data 3]⟩ (List.replicate 16 0) :=
  no_misframing_of_harmless _ (by decide) _ (by decide) (by decide) _ (by decide)

/-- Both calls return 0, the first after a `send` that took two of five bytes. The other side
receives one frame, made of pieces of both. -/
theorem misframing_after_short_send :
    let as : List Attempt := [⟨.lmp 1 (str "hello"), .took 8, .took 2⟩,
      ⟨.lmp 1 (str "hi"), .took 8, .took 2⟩]
    let s : Sock := ⟨(sendRun as []).2, []⟩
    (sendRun as []).1.map Frame.content = [(1, str "hello"), (1, str "hi")] ∧
      (received s (List.replicate 16 0)).map Received.content = [(1, str "heLM" ++ [1])] ∧
      ¬ NoMisframing as s (List.replicate 16 0) :=
  ⟨by decide, by decide, fun h => absurd (h rfl) (by decide)⟩

end SocketSpeak
