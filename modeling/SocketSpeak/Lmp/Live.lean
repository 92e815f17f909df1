import Mathlib.Data.List.Forall2
import Mathlib.Logic.Relation
import SocketSpeak.CLib.Blocking
import SocketSpeak.CLib.Sys
import SocketSpeak.Lmp.RoundTrip

/-!
# A live connection

Each send is two calls of `send`, a receive waits in `read` for bytes that may not have been written
yet, and the two ends take turns in any order. Seen from outside, the connection is a queue of
frames (`queue_of_run`), as long as one thread writes to it. That is so for `gserver` and its
clients; in a chat of two peers both threads of a process write, and there the frames are queued
whole by assumption.
-/

namespace SocketSpeak
open CLib Sys Blocking

/-! ## A receive between two reads -/

/-- `lmp_recv`, or `group_lmp_recv`, as a script over what `read_all` brings. -/
def recvScript (buf : Bytes) : Script (Except Int FrameIn) :=
  .need LMP_HEADER_SIZE fun hdr =>
    if hdr = [] then .done (.error (-2))
    else if hdr.getD 0 0 ≠ LMP_MAGIC_0 ∨ hdr.getD 1 0 ≠ LMP_MAGIC_1 ∨
        hdr.length < LMP_HEADER_SIZE then .done (.error (-3))
    else
      let plen := ofBe ((hdr.drop 4).take 4)
      if buf.length ≤ plen then .done (.error (-4))
      else if plen = 0 then .done (.ok ⟨hdr.getD 2 0, hdr.getD 3 0, 0, buf.set 0 0⟩)
      else
        .need plen fun payload =>
          if payload = [] then .done (.error (-5))
          else .done (.ok ⟨hdr.getD 2 0, hdr.getD 3 0, plen,
            (payload ++ buf.drop payload.length).set plen 0⟩)

theorem onStream_recvScript (inp buf : Bytes) :
    (recvScript buf).onStream inp = parseFrame inp buf := by
  have hlen : (inp.take LMP_HEADER_SIZE).length = min LMP_HEADER_SIZE inp.length :=
    List.length_take
  have hplen : ofBe (((inp.take LMP_HEADER_SIZE).drop 4).take 4) = payloadLen inp := by
    simp [payloadLen, LMP_HEADER_SIZE, List.drop_take, List.take_take]
  have hnil : inp.take LMP_HEADER_SIZE = [] ↔ inp = [] := by
    simp [LMP_HEADER_SIZE, List.take_eq_nil_iff]
  have hbad : (inp.getD 0 0 ≠ LMP_MAGIC_0 ∨ inp.getD 1 0 ≠ LMP_MAGIC_1 ∨
      (inp.take LMP_HEADER_SIZE).length < LMP_HEADER_SIZE) ↔ ¬ HeaderOk inp := by
    rw [hlen, HeaderOk, not_and_or, not_and_or]
    simp only [LMP_HEADER_SIZE]
    grind
  rw [recvScript, Script.onStream, parseFrame, if_congr hnil rfl rfl,
    getD_take_header (by decide), getD_take_header (by decide), getD_take_header (by decide),
    getD_take_header (by decide), hplen, if_congr hbad rfl rfl]
  by_cases hempty : inp = []
  · rw [if_pos hempty, if_pos hempty, Script.onStream, hempty]
    rfl
  rw [if_neg hempty, if_neg hempty]
  by_cases hok : HeaderOk inp
  · have hsize := hok.1
    rw [if_neg (not_not_intro hok), if_neg (not_not_intro hok)]
    dsimp only
    by_cases hbig : buf.length ≤ payloadLen inp
    · rw [if_pos hbig, if_pos hbig]
      rfl
    rw [if_neg hbig, if_neg hbig]
    by_cases h0 : payloadLen inp = 0
    · rw [if_pos h0, if_neg fun h => h.1 h0, h0]
      rfl
    rw [if_neg h0, Script.onStream]
    have hpay : (inp.drop LMP_HEADER_SIZE).take (payloadLen inp) = [] ↔
        inp.length = LMP_HEADER_SIZE := by
      rw [List.take_eq_nil_iff, List.drop_eq_nil_iff]
      omega
    by_cases hend : inp.length = LMP_HEADER_SIZE
    · rw [if_pos (hpay.mpr hend), if_pos ⟨h0, hend⟩, Script.onStream, List.drop_drop,
        List.drop_eq_nil_of_le (by omega)]
    · rw [if_neg fun h => hend (hpay.mp h), if_neg fun h => hend h.2, Script.onStream,
        List.drop_drop]
  · rw [if_pos hok, if_pos hok]
    rfl

/-- The script is what a receive does on a socket whose reads do not fail. -/
theorem recvFrame_eq_script {s : Sock} (hs : s.ErrorFree) (buf : Bytes) :
    ∃ q, ReadEvent.error ∉ q ∧ recvFrame s buf = (((recvScript buf).onStream s.inp).1,
      ⟨((recvScript buf).onStream s.inp).2, q⟩) := by
  rw [onStream_recvScript]
  exact recvFrame_eq hs buf

/-- A frame that stands whole at the head of the stream is received as it is. -/
theorem parse_recvScript {f : Frame} {buf : Bytes} (hbuf : buf.length < 2 ^ 32)
    (h : f.payload.length < buf.length) (rest : Bytes) :
    (recvScript buf).parse (f.wire ++ rest) = some (.ok (f.received buf), rest) := by
  have hplen := payloadLen_wire (Nat.lt_trans h hbuf) rest
  have hhdr : (f.wire ++ rest).take LMP_HEADER_SIZE = f.header := rfl
  have hpayload : ofBe ((f.header.drop 4).take 4) = f.payload.length := hplen
  -- nothing is missing at any of the two places where the script asks for bytes
  have hsome : ((recvScript buf).parse (f.wire ++ rest)).isSome := by
    rw [recvScript, Script.parse_need _ (headerOk_wire f rest).1, hhdr, hpayload, drop_header_wire]
    split
    · rfl
    split
    · rfl
    dsimp only
    split
    · rfl
    split
    · rfl
    rw [Script.parse_need _ (by simp)]
    split <;> rfl
  obtain ⟨⟨r, rest'⟩, hr⟩ := Option.isSome_iff_exists.mp hsome
  have hall := Script.onStream_of_parse hr
  rw [onStream_recvScript, parseFrame_wire hbuf h] at hall
  cases hall
  exact hr

/-! ## The connection -/

/-- One direction of a connection: the receiving thread with its buffer, the receive that it is in,
the frames that it has got and the status with which its loop has ended; and what has been written
and not read, what the second `send` of the call under way will write, and whether the sender has
called `shutdown`. `sent` are the calls of the sender, for the statements. -/
structure Live where
  buf : Bytes
  reader : Reader (Except Int FrameIn)
  frames : List FrameIn
  status : Option Int
  wire : Bytes
  unsent : Bytes
  closed : Bool
  sent : List SendCall

inductive LiveEvent where
  /-- The sender calls `lmp_send` or `group_lmp_send`, which writes the header. -/
  | send (c : SendCall)
  /-- The call goes on and writes the payload. -/
  | sendPayload
  | shutdown
  /-- The `read` of the receiver returns: with `k` bytes, but at least one and at most what it asks
  for and what there is, or at the end of the stream. -/
  | read (k : Nat)

namespace Live

def start (buf : Bytes) : Live where
  buf := buf
  reader := .start (recvScript buf)
  frames := []
  status := none
  wire := []
  unsent := []
  closed := false
  sent := []

/-- The receiving thread goes on to its next `read`. -/
def goOn (l : Live) : Reader (Except Int FrameIn) → Live
  | .done (.ok x) =>
    { l with buf := x.buf, reader := .start (recvScript x.buf), frames := l.frames ++ [x] }
  | .done (.error e) => { l with reader := .done (.error e), status := some e }
  | .waiting n k got h => { l with reader := .waiting n k got h }

def step (l : Live) : LiveEvent → Except Unit Live
  | .send c =>
    if l.closed ∨ l.unsent ≠ [] then .error ()
    else .ok { l with
      wire := l.wire ++ c.frame.header, unsent := c.frame.payload, sent := l.sent ++ [c] }
  | .sendPayload =>
    if l.unsent = [] then .error ()
    else .ok { l with wire := l.wire ++ l.unsent, unsent := [] }
  | .shutdown =>
    if l.closed ∨ l.unsent ≠ [] then .error () else .ok { l with closed := true }
  | .read k =>
    if l.status.isSome then .error ()
    else if l.wire = [] then
      if l.closed then .ok (l.goOn l.reader.feedEnd) else .error ()
    else
      let count := min (max k 1) l.reader.asked
      .ok ({ l with wire := l.wire.drop count }.goOn (l.reader.feed (l.wire.take count)))

end Live

/-- The two `send`s of a call, when they take all that they are given. -/
theorem sendWhole_eq_header_payload (c : SendCall) (wire : Bytes) :
    (c.sendWhole wire).2 = wire ++ c.frame.header ++ c.frame.payload := by
  rw [c.sendWhole_eq, Frame.wire, List.append_assoc]

/-! ## What is on the way -/

/-- The reader, when `bytes` have come, will have received the frames `q`, and nothing is left. -/
def Way (buf : Bytes) (x : Reader (Except Int FrameIn)) (bytes : Bytes) : List Frame → Prop
  | [] => x = .start (recvScript buf) ∧ bytes = []
  | f :: q => x.parse bytes = some (.ok (f.received buf), q.flatMap Frame.wire)

section
variable {buf bytes b : Bytes} {x : Reader (Except Int FrameIn)} {q : List Frame} {f : Frame}

/-- A receive begins where a frame does. -/
theorem way_start (hbuf : buf.length < 2 ^ 32) (hfit : ∀ f ∈ q, f.payload.length < buf.length) :
    Way buf (.start (recvScript buf)) (q.flatMap Frame.wire) q := by
  cases q with
  | nil => exact ⟨rfl, rfl⟩
  | cons f q =>
    rw [Way, Reader.parse_start, List.flatMap_cons]
    exact parse_recvScript hbuf (hfit f List.mem_cons_self) _

theorem Way.send (h : Way buf x bytes q) (hbuf : buf.length < 2 ^ 32)
    (hf : f.payload.length < buf.length) : Way buf x (bytes ++ f.wire) (q ++ [f]) := by
  cases q with
  | nil =>
    obtain ⟨rfl, rfl⟩ := h
    have hone := way_start (q := [f]) hbuf (by simpa using hf)
    simpa using hone
  | cons g q =>
    rw [List.cons_append, Way, List.flatMap_append, Reader.parse_append h, List.flatMap_singleton]

/-- Some bytes are read, and the receive goes on. -/
theorem Way.feed (h : Way buf x (b ++ bytes) q) (hb : b.length ≤ x.asked) (hne : b ≠ []) :
    ∃ f q', q = f :: q' ∧
      (x.feed b).parse bytes = some (.ok (f.received buf), q'.flatMap Frame.wire) := by
  cases q with
  | nil => exact absurd (List.append_eq_nil_iff.mp h.2).1 hne
  | cons f q => exact ⟨f, q, rfl, (Reader.parse_feed hb bytes).trans h⟩

/-- A receive that waits has not got a frame yet. -/
theorem Way.nothing {n : Nat} {k : Bytes → Script (Except Int FrameIn)} {got : Bytes}
    {hgot : got.length < n} (h : Way buf (.waiting n k got hgot) [] q) : q = [] := by
  cases q with
  | nil => rfl
  | cons f q =>
    rw [Way, Reader.parse_waiting] at h
    cases h

end

/-! ## A queue of frames -/

/-- What a connection is for: what has been sent and not received is received in its order. -/
structure FrameQueue where
  taken : List SendCall
  waiting : List SendCall

namespace FrameQueue

def empty : FrameQueue := ⟨[], []⟩

inductive Moves : FrameQueue → FrameQueue → Prop
  | put {taken waiting} (c : SendCall) : Moves ⟨taken, waiting⟩ ⟨taken, waiting ++ [c]⟩
  | take {taken waiting} (c : SendCall) : Moves ⟨taken, c :: waiting⟩ ⟨taken ++ [c], waiting⟩

end FrameQueue

/-- The receive reports the frame of the call, and `group_lmp_recv` its sender too. -/
def Shows (c : SendCall) (x : FrameIn) : Prop :=
  x.received.Reports c.frame ∧ x.groupReceived.sender = c.sender % 256

namespace Live
variable {l l' : Live} {a : FrameQueue} {size : Nat} {e : LiveEvent}

/-- The connection is the queue `a`; `size` is what the buffer holds. -/
structure Carries (size : Nat) (l : Live) (a : FrameQueue) : Prop where
  size_lt : size < 2 ^ 32
  length_buf : l.buf.length = size
  sent : l.sent = a.taken ++ a.waiting
  shows : List.Forall₂ Shows a.taken l.frames
  fits : ∀ c ∈ a.waiting, c.frame.payload.length < size
  unsent : l.closed = true → l.unsent = []
  goes : l.status = none → (∃ n k got h, l.reader = .waiting n k got h) ∧
    Way l.buf l.reader (l.wire ++ l.unsent) (a.waiting.map SendCall.frame)
  ended : ∀ e ∈ l.status, e = -2 ∧ l.closed = true ∧ l.wire = [] ∧ a.waiting = []

theorem carries_start (buf : Bytes) (hbuf : buf.length < 2 ^ 32) :
    (start buf).Carries buf.length .empty where
  size_lt := hbuf
  length_buf := rfl
  sent := rfl
  shows := .nil
  fits c hc := (by cases hc)
  unsent h := (by cases h)
  goes _ := ⟨⟨_, _, _, _, rfl⟩, rfl, rfl⟩
  ended e he := (by cases he)

theorem Carries.send (h : l.Carries size a) {c : SendCall} (hclosed : l.closed = false)
    (hunsent : l.unsent = []) (hc : c.frame.payload.length < size)
    (h' : l' = { l with
      wire := l.wire ++ c.frame.header, unsent := c.frame.payload, sent := l.sent ++ [c] }) :
    l'.Carries size ⟨a.taken, a.waiting ++ [c]⟩ := by
  subst h'
  refine ⟨h.size_lt, h.length_buf, ?_, h.shows, ?_, fun hc => ?_, fun hs => ?_, fun e he => ?_⟩
  · rw [h.sent, List.append_assoc]
  · exact List.forall_mem_append.mpr ⟨h.fits, List.forall_mem_singleton.mpr hc⟩
  · rw [hclosed] at hc
    cases hc
  · obtain ⟨hwaits, hway⟩ := h.goes hs
    rw [hunsent, List.append_nil] at hway
    rw [List.map_append, ← sendWhole_eq_header_payload, c.sendWhole_eq]
    refine ⟨hwaits, hway.send ?_ ?_⟩
    · rw [h.length_buf]
      exact h.size_lt
    · rw [h.length_buf]
      exact hc
  · have hended := (h.ended e he).2.1
    rw [hclosed] at hended
    cases hended

/-- The receiver is given some of the bytes that it waits for. -/
theorem Carries.read (h : l.Carries size a) (hs : l.status = none) {b rest : Bytes} (hne : b ≠ [])
    (hb : b.length ≤ l.reader.asked) (hwire : l.wire = b ++ rest)
    (h' : l' = { l with wire := rest }.goOn (l.reader.feed b)) :
    l'.Carries size a ∨ ∃ c q, a.waiting = c :: q ∧ l'.Carries size ⟨a.taken ++ [c], q⟩ := by
  subst h'
  have hway := (h.goes hs).2
  rw [hwire, List.append_assoc] at hway
  obtain ⟨f, q', hq, hparse⟩ := hway.feed hb hne
  obtain ⟨c, q, hwaiting, rfl, rfl⟩ := List.map_eq_cons_iff.mp hq
  cases hfeed : l.reader.feed b with
  | waiting n k got hgot =>
    rw [hfeed] at hparse
    refine .inl ⟨h.size_lt, h.length_buf, h.sent, h.shows, h.fits, h.unsent,
      fun _ => ⟨⟨n, k, got, hgot, rfl⟩, ?_⟩, fun e he => ?_⟩
    · rw [hwaiting]
      exact hparse
    · change e ∈ l.status at he
      rw [hs] at he
      cases he
  | done x =>
    rw [hfeed] at hparse
    obtain ⟨rfl, hbytes⟩ := Prod.mk.inj (Option.some.inj hparse)
    have hc : c.frame.payload.length < size := h.fits c (hwaiting ▸ List.mem_cons_self)
    have hlength : (c.frame.received l.buf).buf.length = size :=
      (Frame.length_buf_received (h.length_buf ▸ hc)).trans h.length_buf
    have hfits : ∀ c ∈ q, c.frame.payload.length < size :=
      fun c' hc' => h.fits c' (hwaiting ▸ List.mem_cons_of_mem c hc')
    refine .inr ⟨c, q, hwaiting, h.size_lt, hlength, ?_, ?_, hfits, h.unsent,
      fun _ => ⟨⟨_, _, _, _, rfl⟩, ?_⟩, fun e he => ?_⟩
    · change l.sent = _
      rw [List.append_assoc, h.sent, hwaiting]
      rfl
    · exact List.rel_append h.shows
        (.cons ⟨c.frame.received_reports l.buf, reserved_toNat c⟩ .nil)
    · change Way (c.frame.received l.buf).buf _ (rest ++ l.unsent) _
      rw [hbytes]
      apply way_start
      · rw [hlength]
        exact h.size_lt
      · intro f hf
        obtain ⟨c', hc', rfl⟩ := List.mem_map.mp hf
        rw [hlength]
        exact hfits c' hc'
    · change e ∈ l.status at he
      rw [hs] at he
      cases he

/-- The end of the stream comes after the last frame. -/
theorem Carries.ends (h : l.Carries size a) (hs : l.status = none) (hwire : l.wire = [])
    (hclosed : l.closed = true) :
    a.waiting = [] ∧ (l.goOn l.reader.feedEnd).Carries size a ∧
      (l.goOn l.reader.feedEnd).status = some (-2) := by
  obtain ⟨⟨n, k, got, hgot, hreader⟩, hway⟩ := h.goes hs
  rw [hwire, h.unsent hclosed, List.append_nil] at hway
  have hnil : a.waiting = [] := by
    rw [hreader] at hway
    exact List.map_eq_nil_iff.mp hway.nothing
  rw [hnil] at hway
  have hend : l.reader.feedEnd = .done (.error (-2)) := by
    rw [hway.1]
    rfl
  rw [hend]
  refine ⟨hnil, ⟨h.size_lt, h.length_buf, h.sent, h.shows, h.fits, h.unsent, ?_, ?_⟩, rfl⟩
  · intro hnone
    cases hnone
  · intro e he
    cases he
    exact ⟨rfl, hclosed, hwire, hnil⟩

/-- **A step of the connection is a step of the queue, or none.** -/
theorem Carries.step (h : l.Carries size a)
    (hfit : ∀ c, e = .send c → c.frame.payload.length < size) (hs : l.step e = .ok l') :
    ∃ a', l'.Carries size a' ∧ (a' = a ∨ FrameQueue.Moves a a') := by
  cases e with
  | send c =>
    simp only [Live.step] at hs
    split at hs
    · cases hs
    · rename_i hopen
      rw [not_or, not_not] at hopen
      cases hs
      exact ⟨_, h.send (by simpa using hopen.1) hopen.2 (hfit c rfl) rfl, .inr (.put c)⟩
  | sendPayload =>
    simp only [Live.step] at hs
    split at hs
    · cases hs
    · rename_i hne
      cases hs
      refine ⟨a, ⟨h.size_lt, h.length_buf, h.sent, h.shows, h.fits, fun _ => rfl, fun hs => ?_,
        fun e he => ?_⟩, .inl rfl⟩
      · rw [List.append_nil]
        exact h.goes hs
      · exact absurd (h.unsent (h.ended e he).2.1) hne
  | shutdown =>
    simp only [Live.step] at hs
    split at hs
    · cases hs
    · rename_i hopen
      rw [not_or, not_not] at hopen
      cases hs
      refine ⟨a, ⟨h.size_lt, h.length_buf, h.sent, h.shows, h.fits, fun _ => hopen.2, h.goes,
        fun e he => ?_⟩, .inl rfl⟩
      exact absurd (h.ended e he).2.1 hopen.1
  | read k =>
    simp only [Live.step] at hs
    split at hs
    · cases hs
    · rename_i hsome
      have hnone : l.status = none := by simpa using hsome
      split at hs
      · rename_i hwire
        split at hs
        · rename_i hclosed
          cases hs
          exact ⟨a, (h.ends hnone hwire hclosed).2.1, .inl rfl⟩
        · cases hs
      · rename_i hwire
        cases hs
        obtain ⟨⟨n, k', got, hgot, hreader⟩, -⟩ := h.goes hnone
        have hasked : 0 < l.reader.asked := by
          rw [hreader]
          exact Nat.sub_pos_of_lt hgot
        have hcount : 0 < min (max k 1) l.reader.asked := by omega
        have hne : l.wire.take (min (max k 1) l.reader.asked) ≠ [] := by
          rw [Ne, List.take_eq_nil_iff, not_or]
          exact ⟨Nat.ne_of_gt hcount, hwire⟩
        have hle : (l.wire.take (min (max k 1) l.reader.asked)).length ≤ l.reader.asked := by
          rw [List.length_take]
          omega
        rcases h.read hnone hne hle (List.take_append_drop _ _).symm rfl with
          h' | ⟨c, q, hwaiting, h'⟩
        · exact ⟨a, h', .inl rfl⟩
        · refine ⟨_, h', .inr ?_⟩
          have ha : a = ⟨a.taken, c :: q⟩ := hwaiting ▸ rfl
          rw [ha]
          exact .take c

/-- What has been written has been received when there is nothing to read. -/
theorem Carries.drained (h : l.Carries size a) (hwire : l.wire = []) (hunsent : l.unsent = []) :
    a.waiting = [] := by
  cases hs : l.status with
  | some e => exact (h.ended e hs).2.2.2
  | none =>
    obtain ⟨⟨n, k, got, hgot, hreader⟩, hway⟩ := h.goes hs
    rw [hwire, hunsent, List.append_nil, hreader] at hway
    exact List.map_eq_nil_iff.mp hway.nothing

/-- The receiver is held up only by the sender. -/
theorem Carries.blocked_iff (h : l.Carries size a) :
    (∀ k, l.step (.read k) = .error ()) ↔
      l.status = some (-2) ∨ l.wire = [] ∧ l.closed = false := by
  cases hs : l.status with
  | some e =>
    obtain ⟨rfl, -⟩ := h.ended e hs
    simp [Live.step, hs]
  | none =>
    by_cases hwire : l.wire = []
    · cases hclosed : l.closed with
      | true => simp [Live.step, hs, hwire, hclosed]
      | false => simp [Live.step, hs, hwire, hclosed]
    · simp [Live.step, hs, hwire]

/-! ## Main result -/

/-- The event is no call with a payload that the buffer cannot hold. -/
def Fits (size : Nat) : LiveEvent → Prop
  | .send c => c.frame.payload.length < size
  | _ => True

instance (size : Nat) : ∀ e, Decidable (Fits size e)
  | .send _ => inferInstanceAs (Decidable (_ < _))
  | .sendPayload | .shutdown | .read _ => .isTrue trivial

/-- **A connection is a queue of frames**, where the payloads fit the buffer, in every order of
writes and reads, whatever the reads bring: the frames are received as they were sent, the receiver
stops only at the end, and it waits only for what has not been written. -/
theorem queue_of_run (buf : Bytes) (hbuf : buf.length < 2 ^ 32) (es : List LiveEvent)
    (hfit : ∀ e ∈ es, Fits buf.length e) (h : exec Live.step (start buf) es = .ok l) :
    ∃ a, Relation.ReflTransGen FrameQueue.Moves .empty a ∧ l.sent = a.taken ++ a.waiting ∧
      List.Forall₂ Shows a.taken l.frames ∧
      (l.status = none ∨ l.status = some (-2) ∧ l.closed = true ∧ a.waiting = []) ∧
      (l.wire = [] → l.unsent = [] → a.waiting = []) ∧
      ((∀ k, l.step (.read k) = .error ()) ↔
        l.status = some (-2) ∨ l.wire = [] ∧ l.closed = false) := by
  have hrun : ∃ a, Relation.ReflTransGen FrameQueue.Moves .empty a ∧ l.Carries buf.length a := by
    refine exec_invariant (I := fun l => ∃ a, Relation.ReflTransGen FrameQueue.Moves .empty a ∧
      l.Carries buf.length a) ?_ ⟨.empty, .refl, carries_start buf hbuf⟩
      (meets_of_forall_mem (C := fun _ e => Fits buf.length e) (fun e he _ => hfit e he) _) h
    rintro l e l' ⟨a, hmoves, hcarries⟩ he hs
    obtain ⟨a', hcarries', rfl | hmove⟩ := hcarries.step (fun c hc => by rw [hc] at he; exact he) hs
    · exact ⟨a', hmoves, hcarries'⟩
    · exact ⟨a', hmoves.tail hmove, hcarries'⟩
  obtain ⟨a, hmoves, hcarries⟩ := hrun
  refine ⟨a, hmoves, hcarries.sent, hcarries.shows, ?_, hcarries.drained, hcarries.blocked_iff⟩
  cases hs : l.status with
  | none => exact .inl rfl
  | some e =>
    obtain ⟨rfl, hclosed, -, hnil⟩ := hcarries.ended e hs
    exact .inr ⟨rfl, hclosed, hnil⟩

/-- Two frames; the header of the second one is read in pieces before its payload is written. -/
def twoFrames : List LiveEvent :=
  [.send (.lmp 1 (str "hi")), .read 3, .sendPayload, .read 9, .read 2,
    .send (.group 1 (str "you") 300), .read 7, .read 9, .sendPayload, .shutdown, .read 1, .read 9,
    .read 1]

theorem queue_of_run_twoFrames : ∃ (l : Live) (a : FrameQueue),
    exec Live.step (start (List.replicate 4 7)) twoFrames = .ok l ∧
      l.frames.map FrameIn.groupReceived =
        [⟨⟨1, 2, str "hi" ++ [0, 7]⟩, 0⟩, ⟨⟨1, 3, str "you" ++ [0]⟩, 44⟩] ∧
      l.status = some (-2) ∧ l.sent = a.taken ++ a.waiting ∧
      List.Forall₂ Shows a.taken l.frames := by
  obtain ⟨l, h, hframes, hstatus⟩ := exists_ok (P := fun l => l.frames.map FrameIn.groupReceived =
      [⟨⟨1, 2, str "hi" ++ [0, 7]⟩, 0⟩, ⟨⟨1, 3, str "you" ++ [0]⟩, 44⟩] ∧ l.status = some (-2))
    (show (exec Live.step (start (List.replicate 4 7)) twoFrames).isOk by decide +kernel)
    (by decide +kernel)
  obtain ⟨a, -, hsent, hshows, -⟩ := queue_of_run (List.replicate 4 7) (by decide) twoFrames
    (by decide) h
  exact ⟨l, a, h, hframes, hstatus, hsent, hshows⟩

end Live

end SocketSpeak
