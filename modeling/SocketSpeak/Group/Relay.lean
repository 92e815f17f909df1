import SocketSpeak.Group.Clients

/-!
# The relay and the history

A message is saved and then relayed by the same branch, but the two have different limits: a text
that does not fit a `HistoryFormat` is relayed and not saved (`history_eq_relayed`).
-/

namespace SocketSpeak
open CLib Sys

namespace Server

/-- The sender's uid and the text of the message that the event relays: `out` has it for every other
connection. -/
def relayedMsg (s : Server) (e : ServerEvent) (out : List Output) : Option (Bytes × Bytes) :=
  match e with
  | .frame i f _ env =>
    if f.type = LMP_MSG then
      match s.group.member (i - 1), s.pollFd i with
      | .ok m, .ok fd =>
        if ∀ p ∈ s.pfds, p.fd ≠ s.listener → p.fd ≠ fd → env.sendOk p.fd →
            ⟨p.fd, groupLmpFrame LMP_MSG f.payload (i - 1)⟩ ∈ out then
          some (m.uid.toStr, f.payload)
        else none
      | _, _ => none
    else none
  | _ => none

/-- A message comes from a member with a uid of full length, is a text and no guess, and the history
file can be opened. -/
def PlainMsg (s : Server) : ServerEvent → Prop
  | .frame i f _ env => f.type = LMP_MSG → env.historyOpens ∧ NulFree f.payload ∧
    match s.group.member (i - 1) with
    | .ok m => m.uid.toStr.length = UID_LENGTH ∧ ¬ s.IsGuess m
    | .error _ => True
  | _ => True

instance (s : Server) : ∀ e, Decidable (s.PlainMsg e)
  | .frame i _ _ _ =>
    have : Decidable (match s.group.member (i - 1) with
        | .ok m => m.uid.toStr.length = UID_LENGTH ∧ ¬ s.IsGuess m
        | .error _ => True) :=
      match s.group.member (i - 1) with
      | .ok _ => inferInstanceAs (Decidable (_ ∧ ¬ _))
      | .error _ => .isTrue trivial
    inferInstanceAs (Decidable (_ → _ ∧ _ ∧ _))
  | .accept _ => .isTrue trivial
  | .hangup .. => .isTrue trivial

end Server

/-- The server, and the messages that it has relayed. -/
structure Relayed where
  server : Server
  msgs : List (Bytes × Bytes)

namespace Relayed

def step (r : Relayed) (e : ServerEvent) : Except Fault Relayed :=
  (r.server.step e).map fun (out, s) => ⟨s, r.msgs ++ (r.server.relayedMsg e out).toList⟩

/-- The lines of the messages that are short enough to be saved. -/
def savedLines (msgs : List (Bytes × Bytes)) : Bytes :=
  (msgs.filter fun m => m.2.length < HISTORY_MESSAGE_SIZE).flatMap fun m => HistoryFile.line m.1 m.2

end Relayed

namespace Server
variable {s s' : Server} {i : Nat} {f : Frame} {buf : Bytes} {env : Env} {out : List Output}

/-- A message that is no guess is relayed, and saved if its text is short enough. -/
theorem plainMsg_frame (h : s.step (.frame i f buf env) = .ok (out, s')) (hf : f.type = LMP_MSG)
    (hp : s.PlainMsg (.frame i f buf env)) :
    ∃ m : GroupMember, s.relayedMsg (.frame i f buf env) out = some (m.uid.toStr, f.payload) ∧
      s'.history.content =
        s.history.content ++ Relayed.savedLines [(m.uid.toStr, f.payload)] := by
  obtain ⟨fd, hfd, -, -, hh⟩ := handled_of_frame h
  obtain ⟨hopens, hfree, hp⟩ := hp hf
  cases hh with
  | nick _ ht => rw [hf] at ht; exact absurd ht (by decide)
  | init _ ht => rw [hf] at ht; exact absurd ht (by decide)
  | answered m _ hm hguess =>
    simp only [hm] at hp
    exact absurd (hguess hf) hp.2
  | relayed ht hmsg _ _ hout =>
    obtain ⟨m, hm, -, hhist⟩ := hmsg hf
    simp only [hm] at hp
    refine ⟨m, ?_, ?_⟩
    · have hall : ∀ p ∈ s.pfds, p.fd ≠ s.listener → p.fd ≠ fd → env.sendOk p.fd →
          (⟨p.fd, groupLmpFrame LMP_MSG f.payload (i - 1)⟩ : Output) ∈ out := by
        intro p hmem hl hne hok
        rw [hout, hf]
        apply List.mem_flatMap.mpr
        refine ⟨p, by simp [hmem, hl, hne], mem_groupLmpSend.mpr ⟨hok, rfl⟩⟩
      simp only [relayedMsg, hf, if_true, hm, hfd]
      rw [if_pos hall]
    · have hcstr : cstr f.payload = f.payload := hfree.cstr_eq
      rw [hhist, hopens, hcstr]
      by_cases hlen : f.payload.length < HISTORY_MESSAGE_SIZE
      · rw [HistoryFile.saveMessage_ok _ hp.1 (cstr_nulFree _) hfree hlen]
        simp [Relayed.savedLines, hlen]
      · rw [HistoryFile.saveMessage_too_long _ hp.1 (Nat.not_lt.mp hlen)]
        simp [Relayed.savedLines, hlen]

/-- No other event relays a message or touches the history. -/
theorem history_of_other {e : ServerEvent} (h : s.step e = .ok (out, s'))
    (he : ∀ i f buf env, e = .frame i f buf env → f.type ≠ LMP_MSG) :
    s.relayedMsg e out = none ∧ s'.history = s.history := by
  cases e with
  | accept fd =>
    simp only [step, Except.ok.injEq, Prod.mk.injEq] at h
    refine ⟨rfl, ?_⟩
    rw [← h.2, handleNewConnection]
    split <;> rfl
  | frame i f buf env =>
    have hf := he i f buf env rfl
    refine ⟨by rw [relayedMsg, if_neg hf], ?_⟩
    obtain ⟨fd, -, -, -, hh⟩ := handled_of_frame h
    exact hh.history_eq hf
  | hangup i status env => exact ⟨rfl, (handled_of_hangup h).2.1⟩

end Server

/-! ## Main result -/

namespace Relayed

theorem step_ok {r r' : Relayed} {e : ServerEvent} (h : r.step e = .ok r') :
    ∃ out, r.server.step e = .ok (out, r'.server) ∧
      r'.msgs = r.msgs ++ (r.server.relayedMsg e out).toList := by
  unfold step at h
  cases hs : r.server.step e with
  | error => rw [hs] at h; cases h
  | ok res =>
    rw [hs] at h
    cases h
    exact ⟨res.1, rfl, rfl⟩

@[simp] theorem savedLines_append (ms ms' : List (Bytes × Bytes)) :
    savedLines (ms ++ ms') = savedLines ms ++ savedLines ms' := by
  simp [savedLines]

/-- **Relay and history.** What a run appends to the history are the lines of the messages that it
relays, in order, but for those whose text does not fit. -/
theorem history_eq_relayed (s : Server) (es : List ServerEvent) (r : Relayed)
    (h : exec step ⟨s, []⟩ es = .ok r)
    (hplain : Meets step (fun r e => r.server.PlainMsg e) ⟨s, []⟩ es) :
    r.server.history.content = s.history.content ++ savedLines r.msgs := by
  refine exec_invariant (I := fun r => r.server.history.content = s.history.content ++
    savedLines r.msgs) ?_ (by simp [savedLines]) hplain h
  intro r e r' hI hp hstep
  obtain ⟨out, hs, hmsgs⟩ := step_ok hstep
  by_cases he : ∃ i f buf env, e = .frame i f buf env ∧ f.type = LMP_MSG
  · obtain ⟨i, f, buf, env, rfl, hf⟩ := he
    obtain ⟨m, hmsg, hhist⟩ := Server.plainMsg_frame hs hf hp
    rw [hmsgs, hmsg, hhist, hI, Option.toList_some, savedLines_append, List.append_assoc]
  · obtain ⟨hmsg, hhist⟩ := Server.history_of_other hs
      fun i f buf env h hf => he ⟨i, f, buf, env, h, hf⟩
    rw [hmsgs, hmsg, hhist, hI, Option.toList_none, List.append_nil]

/-- Two members, and a message of the first one. -/
def annSays (text : Bytes) : List ServerEvent :=
  [.accept 5, .frame 1 (initFrame (userMemberInfo (str "a0000001") (str "ann"))) [] .allOk,
    .accept 6, .frame 2 (initFrame (userMemberInfo (str "b0000002") (str "bob"))) [] .allOk,
    .frame 1 (lmpFrame LMP_MSG text) [] .allOk]

/-- A short message is saved. -/
theorem history_eq_relayed_hi : ∃ r,
    exec step ⟨.start 3 gserverInfo, []⟩ (annSays (str "hi")) = .ok r ∧
    r.server.history.content = str "a0000001hi\n" := by
  have hplain : Meets step (fun r e => r.server.PlainMsg e) ⟨.start 3 gserverInfo, []⟩
      (annSays (str "hi")) := by decide +kernel
  refine ⟨_, rfl, ?_⟩
  rw [history_eq_relayed (.start 3 gserverInfo) (annSays (str "hi")) _ rfl hplain]
  decide +kernel

/-- A text of 1016 bytes is relayed and not saved. -/
theorem history_ne_relayed_long :
    let text := List.replicate 1016 120
    ∃ r, exec step ⟨.start 3 gserverInfo, []⟩ (annSays text) = .ok r ∧
      Meets step (fun r e => r.server.PlainMsg e) ⟨.start 3 gserverInfo, []⟩ (annSays text) ∧
      r.msgs = [(str "a0000001", text)] ∧ r.server.history.content = [] ∧
      r.server.history.content ≠ r.msgs.flatMap fun m => HistoryFile.line m.1 m.2 := by
  refine ⟨_, rfl, ?_⟩
  decide +kernel

end Relayed

end SocketSpeak
