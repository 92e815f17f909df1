import SocketSpeak.CLib.Lines
import SocketSpeak.Group.Handled
import SocketSpeak.Group.User

/-!
# Loading the history

What the server sends for an `LMP_GRP_LOAD_MSG`, and what `user_grp_loading_msg_recv` makes of it.
The writer gives a message 1016 bytes with its NUL, so a line of the history has up to 1024 bytes
with its newline; the reader has 1024 bytes with the NUL. The longest message that is saved is
therefore sent in two frames (`history_round_trip`).
-/

namespace SocketSpeak
open CLib

/-- What `user_grp_loading_msg_recv` takes for the uid and for the message. -/
def historySplit (buf : Bytes) : Bytes × Bytes :=
  (cstr (buf.take UID_LENGTH), cstr (buf.drop UID_LENGTH))

/-- The lines that the receiver splits, where its buffer holds `buf` before the frames. -/
def loadedLines : Bytes → List Frame → List (Bytes × Bytes)
  | _, [] => []
  | buf, f :: fs =>
    let buf := (f.received buf).buf
    if f.type = LMP_GRP_LOADING_MSG then historySplit buf :: loadedLines buf fs
    else loadedLines buf fs

/-- The line that is shown for a frame with a line of the history. -/
theorem userGrpLoadingMsgRecv_eq {u : User} (h : u.loadingMessageState ≠ .idle) (env : UserEnv)
    (code : UInt8) (buf : Bytes) (len : Nat) : userGrpLoadingMsgRecv env code buf len u =
      (u.historyNick (historySplit buf).1).map fun nickname =>
        (.success, { u with loadingMessageState := .loading }.print
          (str "[" ++ nickname ++ str "]: " ++ (historySplit buf).2)) := by
  rw [userGrpLoadingMsgRecv, if_neg h, historySplit]
  cases u.historyNick (cstr (buf.take UID_LENGTH)) <;> rfl

/-! ## What is sent -/

namespace Server
variable {s s' : Server} {env : Env} {i : Nat} {fd : Int} {f : Frame} {buf : Bytes}
  {out : List Output}

/-- What the loop of a history request reads. -/
def historyReads (s : Server) (env : Env) : List Bytes :=
  if env.historyOpens then s.history.lines else []

/-- The frames of a history: one for each line that is read, and the end marker. -/
def historyFrames (s : Server) (env : Env) : List Frame :=
  (s.historyReads env).map (lmpFrame LMP_GRP_LOADING_MSG) ++ [lmpFrame LMP_GRP_LOAD_MSG []]

theorem lmpSend_ok (h : env.sendOk fd) (type : UInt8) (payload : Bytes) :
    env.lmpSend fd type payload = [⟨fd, lmpFrame type payload⟩] := by
  rw [Env.lmpSend, if_pos h]

/-- A history request changes nothing, and its sender is sent the history. -/
theorem load_of_frame (hf : f.type = LMP_GRP_LOAD_MSG) (hfd : s.pollFd i = .ok fd)
    (hok : env.sendOk fd) (h : s.step (.frame i f buf env) = .ok (out, s')) :
    s' = s ∧ out = (s.historyFrames env).map fun g => ⟨fd, g⟩ := by
  obtain ⟨fd', hfd', h⟩ := bind_ok h
  rw [hfd] at hfd'
  cases hfd'
  have htype : (f.received buf).received.type = LMP_GRP_LOAD_MSG := hf
  simp only [htype] at h
  rw [if_neg (by decide), if_neg (by decide), if_pos trivial] at h
  obtain ⟨m, -, h⟩ := bind_ok h
  cases h
  refine ⟨rfl, ?_⟩
  have hlines : env.lmpSend fd LMP_GRP_LOADING_MSG =
      fun line => [⟨fd, lmpFrame LMP_GRP_LOADING_MSG line⟩] := funext fun _ => lmpSend_ok hok _ _
  rw [historyFrames, historyReads, hlines, ← List.map_eq_flatMap, lmpSend_ok hok, List.map_append,
    List.map_map]
  rfl

end Server

/-! ## The file -/

namespace HistoryFile

/-- Saving messages one after the other. -/
def saveAll (f : HistoryFile) (msgs : List (Bytes × Bytes)) : HistoryFile :=
  msgs.foldl (fun f m => (f.saveMessage true m.1 m.2).2) f

/-- A uid of full length and a text, which make one line. -/
structure OneLine (m : Bytes × Bytes) : Prop where
  length_uid : m.1.length = UID_LENGTH
  nulFree_uid : NulFree m.1
  newline_uid : NEWLINE ∉ m.1
  nulFree : NulFree m.2
  newline : NEWLINE ∉ m.2

/-- A uid, and a text of one line that is accepted for it. -/
structure Savable (m : Bytes × Bytes) : Prop where
  length_uid : m.1.length = UID_LENGTH
  xdigit : ∀ c ∈ m.1, isxdigit c
  nulFree : NulFree m.2
  newline : NEWLINE ∉ m.2
  length_lt : m.2.length < HISTORY_MESSAGE_SIZE

variable {m : Bytes × Bytes} {msgs : List (Bytes × Bytes)}

theorem Savable.oneLine (h : Savable m) : OneLine m where
  length_uid := h.length_uid
  nulFree_uid h0 := absurd (h.xdigit 0 h0) (by decide)
  newline_uid hn := absurd (h.xdigit NEWLINE hn) (by decide)
  nulFree := h.nulFree
  newline := h.newline

theorem saveAll_eq (f : HistoryFile) (h : ∀ m ∈ msgs, Savable m) :
    f.saveAll msgs =
      { f with content := f.content ++ (msgs.map fun m => line m.1 m.2).flatten } := by
  induction msgs generalizing f with
  | nil => simp [saveAll]
  | cons m msgs ih =>
    have hm := h m List.mem_cons_self
    have hsave := f.saveMessage_ok hm.length_uid hm.oneLine.nulFree_uid hm.nulFree hm.length_lt
    rw [saveAll, List.foldl_cons, hsave]
    exact (ih _ fun m hm => h m (List.mem_cons_of_mem _ hm)).trans (by simp)

theorem line_eq (uid message : Bytes) : line uid message = (uid ++ message) ++ [NEWLINE] := rfl

theorem terminated_line (uid message : Bytes) : Terminated (line uid message) :=
  terminated_concat _

/-- The pieces in which a line is read. -/
def pieces (m : Bytes × Bytes) : List Bytes := (fgetsAll 1024 (line m.1 m.2)).map cstr

theorem lines_records (msgs : List (Bytes × Bytes)) (handles : Nat) :
    lines ⟨(msgs.map fun m => line m.1 m.2).flatten, handles⟩ = msgs.flatMap pieces := by
  have hterm : ∀ b ∈ msgs.map fun m => line m.1 m.2, Terminated b := by
    intro b hb
    obtain ⟨m, -, rfl⟩ := List.mem_map.mp hb
    exact terminated_line _ _
  rw [lines, fgetsAll_flatten (by decide) hterm, List.flatMap_map, List.map_flatMap]
  rfl

theorem OneLine.newline_text (h : OneLine m) : NEWLINE ∉ m.1 ++ m.2 := by
  rw [List.mem_append]
  exact fun hn => hn.elim h.newline_uid h.newline

theorem OneLine.nulFree_text (h : OneLine m) : NulFree (m.1 ++ m.2) := by
  rw [NulFree, List.mem_append]
  exact fun hn => hn.elim h.nulFree_uid h.nulFree

/-- A line that fits the buffer is read in one piece. -/
theorem OneLine.pieces_of_lt (h : OneLine m) (hlt : m.2.length + 1 < HISTORY_MESSAGE_SIZE) :
    pieces m = [line m.1 m.2] := by
  have huid := h.length_uid
  simp only [HISTORY_MESSAGE_SIZE, UID_LENGTH] at hlt huid
  have hnul : NulFree (line m.1 m.2) := by
    rw [line_eq, NulFree, List.mem_append]
    exact fun hn => hn.elim h.nulFree_text (by decide)
  rw [pieces, line_eq, fgetsAll_line (by decide) h.newline_text
    (by rw [List.length_append]; omega), ← line_eq, List.map_singleton, hnul.cstr_eq]

/-- The longest line is read without its newline, which is then read by itself. -/
theorem OneLine.pieces_of_eq (h : OneLine m) (heq : m.2.length + 1 = HISTORY_MESSAGE_SIZE) :
    pieces m = [m.1 ++ m.2, str "\n"] := by
  have huid := h.length_uid
  simp only [HISTORY_MESSAGE_SIZE, UID_LENGTH] at heq huid
  rw [pieces, line_eq, fgetsAll_long (by decide) h.newline_text
    (by rw [List.length_append]; omega), List.map_cons, h.nulFree_text.cstr_eq]
  rfl

end HistoryFile

/-! ## Main result -/

open HistoryFile

/-- One frame for each message, which the client splits into the uid and the text with a
newline. -/
def RoundTrips (msgs : List (Bytes × Bytes)) (fs : List Frame) : Prop :=
  (fs.countP fun f => f.type = LMP_GRP_LOADING_MSG) = msgs.length ∧
  ∀ buf, loadedLines buf fs = msgs.map fun m => (m.1, m.2 ++ str "\n")

variable {m : Bytes × Bytes} {msgs : List (Bytes × Bytes)}

/-- The client finds the uid and the text where the server has put them. -/
theorem historySplit_line (h : OneLine m) (buf : Bytes) :
    historySplit ((lmpFrame LMP_GRP_LOADING_MSG (line m.1 m.2)).received buf).buf =
      (m.1, m.2 ++ str "\n") := by
  have hnul : NulFree (m.2 ++ str "\n") := by
    rw [NulFree, List.mem_append]
    exact fun hn => hn.elim h.nulFree (by decide)
  have hbuf : ((lmpFrame LMP_GRP_LOADING_MSG (line m.1 m.2)).received buf).buf =
      m.1 ++ ((m.2 ++ str "\n") ++ 0 :: buf.drop ((line m.1 m.2).length + 1)) := by
    rw [← List.append_assoc, ← List.append_assoc]
    rfl
  rw [historySplit, hbuf, List.take_left' h.length_uid, List.drop_left' h.length_uid,
    h.nulFree_uid.cstr_eq, hnul.cstr_append_nul]

theorem type_lmpFrame (type : UInt8) (payload : Bytes) : (lmpFrame type payload).type = type := rfl

theorem loadedLines_map (h : ∀ m ∈ msgs, OneLine m) (fs : List Frame)
    (hfs : ∀ buf, loadedLines buf fs = []) (buf : Bytes) :
    loadedLines buf ((msgs.map fun m => lmpFrame LMP_GRP_LOADING_MSG (line m.1 m.2)) ++ fs) =
      msgs.map fun m => (m.1, m.2 ++ str "\n") := by
  induction msgs generalizing buf with
  | nil => exact hfs buf
  | cons m msgs ih =>
    rw [List.map_cons, List.cons_append, loadedLines, if_pos (type_lmpFrame _ _),
      historySplit_line (h m List.mem_cons_self),
      ih fun m hm => h m (List.mem_cons_of_mem _ hm), List.map_cons]

theorem length_le_flatMap_pieces (h : ∀ m ∈ msgs, Savable m) :
    msgs.length ≤ (msgs.flatMap pieces).length ∧
      ((msgs.flatMap pieces).length = msgs.length →
        ∀ m ∈ msgs, m.2.length + 1 < HISTORY_MESSAGE_SIZE) := by
  induction msgs with
  | nil => exact ⟨Nat.le_refl _, fun _ m hm => by cases hm⟩
  | cons m msgs ih =>
    obtain ⟨hle, hall⟩ := ih fun m hm => h m (List.mem_cons_of_mem _ hm)
    have hm := h m List.mem_cons_self
    have hlt := hm.length_lt
    rw [List.flatMap_cons, List.length_append, List.length_cons]
    by_cases hfit : m.2.length + 1 < HISTORY_MESSAGE_SIZE
    · rw [hm.oneLine.pieces_of_lt hfit, List.length_singleton]
      refine ⟨by omega, fun heq m' hm' => ?_⟩
      rcases List.mem_cons.mp hm' with rfl | hm'
      · exact hfit
      · exact hall (by omega) m' hm'
    · rw [hm.oneLine.pieces_of_eq (by omega)]
      simp only [List.length_cons, List.length_nil]
      exact ⟨by omega, fun heq => by omega⟩

/-- **Round trip of the history.** The messages that have been saved to an empty file come back as
they are, one frame each, if and only if none of them has the greatest length that is saved. -/
theorem history_round_trip (msgs : List (Bytes × Bytes)) (hmsgs : ∀ m ∈ msgs, Savable m)
    (s s' : Server) (hs : s.history = saveAll ⟨[], 0⟩ msgs) (i : Nat) (fd : Int) (f : Frame)
    (buf : Bytes) (env : Env) (out : List Output) (hf : f.type = LMP_GRP_LOAD_MSG)
    (hfd : s.pollFd i = .ok fd) (hok : env.sendOk fd) (hopens : env.historyOpens)
    (h : s.step (.frame i f buf env) = .ok (out, s')) :
    RoundTrips msgs (framesTo fd out) ↔ ∀ m ∈ msgs, m.2.length + 1 < HISTORY_MESSAGE_SIZE := by
  obtain ⟨-, rfl⟩ := Server.load_of_frame hf hfd hok h
  have hreads : s.historyReads env = msgs.flatMap pieces := by
    rw [Server.historyReads, if_pos hopens, hs, saveAll_eq _ hmsgs]
    exact lines_records msgs 0
  rw [framesTo_map, Server.historyFrames, hreads]
  constructor
  · rintro ⟨hcount, -⟩
    apply (length_le_flatMap_pieces hmsgs).2
    rw [← hcount, List.countP_append, List.countP_map]
    simp [lmpFrame, LMP_GRP_LOAD_MSG, LMP_GRP_LOADING_MSG, Function.comp_def]
  · intro hfit
    have hpieces : msgs.flatMap pieces = msgs.map fun m => line m.1 m.2 := by
      rw [List.map_eq_flatMap]
      exact List.flatMap_congr fun m hm => (hmsgs m hm).oneLine.pieces_of_lt (hfit m hm)
    rw [hpieces, List.map_map]
    refine ⟨?_, loadedLines_map (fun m hm => (hmsgs m hm).oneLine) _ fun _ => rfl⟩
    rw [List.countP_append, List.countP_map]
    simp [lmpFrame, LMP_GRP_LOAD_MSG, LMP_GRP_LOADING_MSG, Function.comp_def]

/-- The server with one connection and these messages in its history. -/
def withHistory (msgs : List (Bytes × Bytes)) : Server :=
  { Server.start 3 gserverInfo with
    pfds := [⟨3, POLLIN, 0⟩, ⟨5, POLLIN, 0⟩], history := saveAll ⟨[], 0⟩ msgs }

/-- Two messages come back. -/
theorem history_round_trip_hi :
    let msgs := [(str "a0000001", str "hi"), (str "b0000002", [])]
    ∃ out s', (withHistory msgs).step (.frame 1 (lmpFrame LMP_GRP_LOAD_MSG []) [] .allOk) =
      .ok (out, s') ∧ RoundTrips msgs (framesTo 5 out) := by
  intro msgs
  have hmsgs : ∀ m ∈ msgs, Savable m := by
    intro m hm
    rcases List.mem_cons.mp hm with rfl | hm
    · constructor <;> decide +kernel
    · rcases List.mem_singleton.mp hm with rfl
      constructor <;> decide +kernel
  refine ⟨_, _, rfl, ?_⟩
  exact (history_round_trip msgs hmsgs (withHistory msgs) (withHistory msgs) rfl 1 5
    (lmpFrame LMP_GRP_LOAD_MSG []) [] .allOk _ rfl rfl rfl rfl rfl).mpr (by decide +kernel)

/-- A message of 1015 bytes is saved, and comes back in two frames: the second one is shown for the
uid `"\n"`. -/
theorem history_long_message :
    let msgs := [(str "a0000001", List.replicate 1015 0x78)]
    (∀ m ∈ msgs, Savable m) ∧ ∃ out s',
      (withHistory msgs).step (.frame 1 (lmpFrame LMP_GRP_LOAD_MSG []) [] .allOk) = .ok (out, s') ∧
      (loadedLines [] (framesTo 5 out)).map Prod.fst = [str "a0000001", str "\n"] ∧
      ¬ RoundTrips msgs (framesTo 5 out) := by
  intro msgs
  refine ⟨fun m hm => ?_, _, _, rfl, by decide +kernel, fun h => ?_⟩
  · rcases List.mem_singleton.mp hm with rfl
    constructor <;> decide +kernel
  · exact absurd h.1 (by decide +kernel)

end SocketSpeak
