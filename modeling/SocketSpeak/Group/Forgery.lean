import SocketSpeak.Group.Clients
import SocketSpeak.Group.Loading

/-!
# Whose message a line of the history is

The history has one record on each line, and nothing in a record is escaped: a message with a
newline, or of the greatest length, is read as two lines, and the second one is shown for whatever
uid its first bytes spell. As long as no such message is saved, and the sender's slot has its uid,
every line that is shown is a message of the member with that uid (`no_forged_line`).
-/

namespace SocketSpeak
open CLib Sys HistoryFile

/-- What the server saves for an event. -/
def Server.saved (s : Server) : ServerEvent → Option (Bytes × Bytes)
  | .frame i f _ env =>
    if f.type = LMP_MSG ∧ env.historyOpens then
      match s.group.member (i - 1) with
      | .ok m =>
        if ¬ s.IsGuess m ∧ m.uid.toStr.length = UID_LENGTH ∧
            (cstr f.payload).length < HISTORY_MESSAGE_SIZE then
          some (m.uid.toStr, cstr f.payload)
        else none
      | .error _ => none
    else none
  | _ => none

/-- The message that comes in with an event: the uid that its sender has announced, and the text. -/
def World.message (w : World) : ServerEvent → Option (Bytes × Bytes)
  | .frame i f _ _ =>
    if f.type = LMP_MSG then
      match w.server.pollFd i with
      | .ok fd => (w.announced fd).map fun m => (m.uid.toStr, cstr f.payload)
      | .error _ => none
    else none
  | _ => none

/-- The record is read back as one line. -/
def Plain (r : Bytes × Bytes) : Prop :=
  NEWLINE ∉ r.1 ∧ NEWLINE ∉ r.2 ∧ r.2.length + 1 < HISTORY_MESSAGE_SIZE

instance (r : Bytes × Bytes) : Decidable (Plain r) := inferInstanceAs (Decidable (_ ∧ _ ∧ _))

/-- What is saved is read back as one line, and is saved for the uid that the sender has
announced. -/
def World.SavesPlain (w : World) (e : ServerEvent) : Prop :=
  ∀ r ∈ w.server.saved e, Plain r ∧ w.message e = some r

instance (w : World) (e : ServerEvent) : Decidable (w.SavesPlain e) :=
  inferInstanceAs (Decidable (∀ r ∈ w.server.saved e, _))

/-- The server, and the messages that it has received. -/
structure Logged where
  world : World
  log : List (Bytes × Bytes)

namespace Logged

/-- The server starts with the history of the messages `log`. -/
def start (listener : Int) (info : GroupInfo) (log : List (Bytes × Bytes)) : Logged where
  world := ⟨{ Server.start listener info with
    history := ⟨(log.map fun m => line m.1 m.2).flatten, 0⟩ }, fun _ => none⟩
  log := log

def step (l : Logged) (e : ServerEvent) : Except Fault Logged :=
  (l.world.step e).map fun w => ⟨w, l.log ++ (l.world.message e).toList⟩

end Logged

/-! ## What is saved -/

/-- A message is saved as a line, or not at all. -/
theorem HistoryFile.saveMessage_content (f : HistoryFile) (opens : Bool) {uid message : Bytes}
    (hnul : NulFree uid) (hnul' : NulFree message) :
    (f.saveMessage opens uid message).2.content =
      f.content ++ if opens ∧ uid.length = UID_LENGTH ∧ message.length < HISTORY_MESSAGE_SIZE then
        line uid message else [] := by
  cases opens with
  | false => simp [saveMessage]
  | true =>
    by_cases huid : uid.length = UID_LENGTH
    · by_cases hlen : message.length < HISTORY_MESSAGE_SIZE
      · rw [f.saveMessage_ok huid hnul hnul' hlen, if_pos ⟨rfl, huid, hlen⟩]
      · rw [f.saveMessage_too_long huid (Nat.not_lt.mp hlen), if_neg fun h => hlen h.2.2]
        simp
    · rw [if_neg fun h => huid h.2.1]
      simp [saveMessage, huid]

namespace Server
variable {s s' : Server} {out : List Output}

/-- The file grows by the record that is saved. -/
theorem content_of_step {e : ServerEvent} (h : s.step e = .ok (out, s')) :
    s'.history.content =
      s.history.content ++ ((s.saved e).toList.map fun m => line m.1 m.2).flatten := by
  cases e with
  | accept fd =>
    simp only [step, Except.ok.injEq, Prod.mk.injEq] at h
    rw [← h.2, handleNewConnection]
    split <;> simp [addToPfds, saved]
  | hangup i status env => simp [(handled_of_hangup h).2.1, saved]
  | frame i f buf env =>
    obtain ⟨fd, -, -, -, hh⟩ := handled_of_frame h
    by_cases hf : f.type = LMP_MSG
    · cases hh with
      | nick _ ht => rw [hf] at ht; exact absurd ht (by decide)
      | init _ ht => rw [hf] at ht; exact absurd ht (by decide)
      | answered m _ hm hguess _ hhist =>
        simp [saved, hf, hm, hguess hf, hhist]
      | relayed _ hmsg =>
        obtain ⟨m, hm, hguess, hhist⟩ := hmsg hf
        have huid : NulFree m.uid.toStr := cstr_nulFree _
        rw [hhist, saveMessage_content _ _ huid (cstr_nulFree _)]
        simp only [saved, hf, true_and, hm, hguess, not_false_eq_true]
        by_cases hopens : env.historyOpens = true
        · simp only [hopens, if_true, true_and]
          split <;> simp
        · simp [hopens]
    · have hhist := hh.history_eq hf
      simp [hhist, saved, hf]

theorem oneLine_of_saved {e : ServerEvent} {r : Bytes × Bytes} (h : s.saved e = some r)
    (hr : Plain r) : OneLine r := by
  cases e with
  | accept => cases h
  | hangup => cases h
  | frame i f buf env =>
    simp only [saved] at h
    split at h
    · split at h
      · split at h
        · rename_i hm
          cases h
          exact ⟨hm.2.1, cstr_nulFree _, hr.1, cstr_nulFree _, hr.2.1⟩
        · cases h
      · cases h
    · cases h

end Server

/-! ## Runs -/

namespace Logged

/-- The history consists of messages that have been received, each of them one line. -/
def Truthful (l : Logged) : Prop :=
  ∃ records : List (Bytes × Bytes),
    l.world.server.history.content = (records.map fun m => line m.1 m.2).flatten ∧
    ∀ r ∈ records, r ∈ l.log ∧ OneLine r ∧ r.2.length + 1 < HISTORY_MESSAGE_SIZE

variable {l l' : Logged}

theorem truthful_step {e : ServerEvent} (hI : l.Truthful) (hC : l.world.SavesPlain e)
    (h : l.step e = .ok l') : l'.Truthful := by
  obtain ⟨records, hcontent, hrecords⟩ := hI
  unfold step at h
  cases hw : l.world.step e with
  | error => rw [hw] at h; cases h
  | ok w =>
    rw [hw] at h
    cases h
    obtain ⟨out, hs, -⟩ := World.step_ok hw
    refine ⟨records ++ (l.world.server.saved e).toList, ?_, fun r hr => ?_⟩
    · rw [Server.content_of_step hs, hcontent, List.map_append, List.flatten_append]
    · rcases List.mem_append.mp hr with hr | hr
      · obtain ⟨hmem, hone⟩ := hrecords r hr
        exact ⟨List.mem_append_left _ hmem, hone⟩
      · rw [Option.mem_toList] at hr
        obtain ⟨hplain, hmsg⟩ := hC r hr
        refine ⟨List.mem_append_right _ ?_, Server.oneLine_of_saved hr hplain, hplain.2.2⟩
        rw [hmsg]
        exact List.mem_singleton_self r

/-- The lines that a client is shown are the records. -/
theorem Truthful.loadedLines (hI : l.Truthful) (env : Env) (rbuf : Bytes) :
    ∀ x ∈ loadedLines rbuf (l.world.server.historyFrames env),
      ∃ m ∈ l.log, x = (m.1, m.2 ++ str "\n") := by
  obtain ⟨records, hcontent, hrecords⟩ := hI
  have hlines : l.world.server.history.lines = records.map fun m => line m.1 m.2 := by
    have hpieces : records.flatMap pieces = records.map fun m => line m.1 m.2 := by
      rw [List.map_eq_flatMap]
      exact List.flatMap_congr fun m hm => (hrecords m hm).2.1.pieces_of_lt (hrecords m hm).2.2
    rw [← hpieces, ← lines_records records 0, lines, lines, hcontent]
  intro x hx
  rw [Server.historyFrames, Server.historyReads] at hx
  split at hx
  · rw [hlines, List.map_map] at hx
    have hmap := loadedLines_map (fun m hm => (hrecords m hm).2.1)
      [lmpFrame LMP_GRP_LOAD_MSG []] (fun _ => rfl) rbuf
    rw [Function.comp_def, hmap] at hx
    obtain ⟨m, hm, rfl⟩ := List.mem_map.mp hx
    exact ⟨m, (hrecords m hm).1, rfl⟩
  · cases hx

theorem truthful_start (listener : Int) (info : GroupInfo) {log : List (Bytes × Bytes)}
    (h : ∀ m ∈ log, OneLine m ∧ m.2.length + 1 < HISTORY_MESSAGE_SIZE) :
    (start listener info log).Truthful :=
  ⟨log, rfl, fun m hm => ⟨hm, h m hm⟩⟩

/-! ## Main result -/

/-- **No forged history.** Where everything that a run saves is read back as one line and is saved
for the uid of its sender, each line that a client is shown is a message that the server has
received from the member with that uid. -/
theorem no_forged_line (listener : Int) (info : GroupInfo) (log : List (Bytes × Bytes))
    (hlog : ∀ m ∈ log, OneLine m ∧ m.2.length + 1 < HISTORY_MESSAGE_SIZE) (es : List ServerEvent)
    (l : Logged) (h : exec step (start listener info log) es = .ok l)
    (hC : Meets step (fun l e => l.world.SavesPlain e) (start listener info log) es)
    (i : Nat) (fd : Int) (f : Frame) (buf : Bytes) (env : Env) (out : List Output) (s' : Server)
    (hf : f.type = LMP_GRP_LOAD_MSG) (hfd : l.world.server.pollFd i = .ok fd)
    (hok : env.sendOk fd) (hload : l.world.server.step (.frame i f buf env) = .ok (out, s'))
    (rbuf : Bytes) :
    ∀ x ∈ loadedLines rbuf (framesTo fd out), ∃ m ∈ l.log, x = (m.1, m.2 ++ str "\n") := by
  have hI : l.Truthful := exec_invariant (fun _ _ _ hI hC h => truthful_step hI hC h)
    (truthful_start listener info hlog) hC h
  obtain ⟨-, rfl⟩ := Server.load_of_frame hf hfd hok hload
  rw [framesTo_map]
  exact hI.loadedLines env rbuf

/-- Two members, and a message of the second one. -/
def bobSays (text : Bytes) : List ServerEvent :=
  [.accept 5, .frame 1 (initFrame (userMemberInfo (str "a0000001") (str "ann"))) [] .allOk,
    .accept 6, .frame 2 (initFrame (userMemberInfo (str "b0000002") (str "bob"))) [] .allOk,
    .frame 2 (lmpFrame LMP_MSG text) [] .allOk]

/-- A message of one line is shown for its sender. -/
theorem no_forged_line_hi : ∃ l out s',
    exec step (start 3 gserverInfo []) (bobSays (str "hi")) = .ok l ∧
    l.world.server.step (.frame 1 (lmpFrame LMP_GRP_LOAD_MSG []) [] .allOk) = .ok (out, s') ∧
    loadedLines [] (framesTo 5 out) ≠ [] ∧
    ∀ x ∈ loadedLines [] (framesTo 5 out), ∃ m ∈ l.log, x = (m.1, m.2 ++ str "\n") := by
  have hC : Meets step (fun l e => l.world.SavesPlain e) (start 3 gserverInfo [])
      (bobSays (str "hi")) := by decide +kernel
  refine ⟨_, _, _, rfl, rfl, by decide +kernel, ?_⟩
  exact no_forged_line 3 gserverInfo [] (fun m hm => by cases hm) (bobSays (str "hi")) _ rfl hC 1 5
    (lmpFrame LMP_GRP_LOAD_MSG []) [] .allOk _ _ rfl rfl rfl rfl []

/-- A newline in a message of one member, and a line is shown for the uid of the other one. -/
theorem forged_line : ∃ l out s',
    exec step (start 3 gserverInfo []) (bobSays (str "hi\na0000001I quit")) = .ok l ∧
    l.world.server.step (.frame 1 (lmpFrame LMP_GRP_LOAD_MSG []) [] .allOk) = .ok (out, s') ∧
    l.log = [(str "b0000002", str "hi\na0000001I quit")] ∧
    loadedLines [] (framesTo 5 out) =
      [(str "b0000002", str "hi\n"), (str "a0000001", str "I quit\n")] ∧
    ¬ ∀ x ∈ loadedLines [] (framesTo 5 out), ∃ m ∈ l.log, x = (m.1, m.2 ++ str "\n") := by
  refine ⟨_, _, _, rfl, rfl, ?_⟩
  decide +kernel

end Logged

end SocketSpeak
