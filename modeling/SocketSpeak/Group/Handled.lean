import SocketSpeak.Group.Server

/-!
# What one event does

`handled_of_frame` and `delFromPfds_ok` say all that handling a frame and closing a connection can
do to the tables, to the history and to what is sent; the invariants of the server are derived from
them and not from the code again.
-/

namespace SocketSpeak
open CLib

/-- The frames that go to `fd`. -/
def framesTo (fd : Int) (out : List Output) : List Frame :=
  (out.filter fun o => o.fd = fd).map Output.frame

theorem framesTo_map (fd : Int) (fs : List Frame) :
    framesTo fd (fs.map fun g => ⟨fd, g⟩) = fs := by
  rw [framesTo, List.filter_eq_self.mpr (by simp), List.map_map]
  exact List.map_id fs

@[simp] theorem framesTo_nil (fd : Int) : framesTo fd [] = [] := rfl

@[simp] theorem framesTo_append (fd : Int) (out out' : List Output) :
    framesTo fd (out ++ out') = framesTo fd out ++ framesTo fd out' := by
  simp [framesTo]

theorem framesTo_lmpSend (env : Env) (fd fd' : Int) (type : UInt8) (payload : Bytes) :
    framesTo fd (env.lmpSend fd' type payload) =
      if fd' = fd ∧ env.sendOk fd then [lmpFrame type payload] else [] := by
  unfold Env.lmpSend framesTo
  by_cases h : fd' = fd
  · subst h
    by_cases hok : env.sendOk fd' = true
    · simp [hok]
    · simp [hok]
  · split <;> simp [h]

namespace Server
variable {s s' : Server} {env : Env} {i : Nat} {fd : Int} {out : List Output}

/-! ## The broadcast of the group object -/

theorem sendNewGroupLoop_eq (listener : Int) (g : Group) (ps : List PollFd) :
    sendNewGroupLoop env listener g ps = (0, (ps.filter fun p => p.fd ≠ listener).flatMap fun p =>
      env.lmpSend p.fd LMP_GRP_OBJ g.toBytes) := by
  induction ps with
  | nil => rfl
  | cons p ps ih =>
    rw [sendNewGroupLoop]
    by_cases hp : p.fd = listener
    · simp [hp, ih]
    · have hr : ¬ (env.grpObjSend g LMP_GRP_OBJ p.fd).1.toInt < 0 :=
        Int.not_lt.mpr (CommandResult.toInt_nonneg _)
      simp only [hp, ne_eq, not_false_eq_true, if_true, hr, if_false, ih]
      simp [hp, Env.grpObjSend]

/-- The group object goes to all connections. -/
theorem sendNewGroupToUsers_eq (s : Server) (env : Env) : s.sendNewGroupToUsers env =
    (0, (s.pfds.filter fun p => p.fd ≠ s.listener).flatMap fun p =>
      env.lmpSend p.fd LMP_GRP_OBJ s.group.toBytes) :=
  sendNewGroupLoop_eq _ _ _

/-- The group object has been sent to every connection but the listener. -/
def GroupSent (s : Server) (out : List Output) : Prop :=
  ∀ p ∈ s.pfds, p.fd ≠ s.listener → ⟨p.fd, lmpFrame LMP_GRP_OBJ s.group.toBytes⟩ ∈ out

instance (s : Server) (out : List Output) : Decidable (s.GroupSent out) :=
  inferInstanceAs (Decidable (∀ p ∈ s.pfds, _))

theorem groupSent_iff (s : Server) (env : Env) : s.GroupSent (s.sendNewGroupToUsers env).2 ↔
    ∀ p ∈ s.pfds, p.fd ≠ s.listener → env.sendOk p.fd = true := by
  rw [sendNewGroupToUsers_eq]
  refine forall₃_congr fun p hp hne => ?_
  rw [List.mem_flatMap]
  constructor
  · rintro ⟨q, -, hq⟩
    unfold Env.lmpSend at hq
    split at hq
    · rename_i hok
      have hfd : p.fd = q.fd := congrArg Output.fd (List.mem_singleton.mp hq)
      rw [hfd]
      exact hok
    · cases hq
  · intro hok
    refine ⟨p, List.mem_filter.mpr ⟨hp, decide_eq_true hne⟩, ?_⟩
    rw [Env.lmpSend, if_pos hok]
    exact List.mem_singleton_self _

/-- **The result of a broadcast says whether it has reached everyone** exactly where it has:
`grp_obj_send` reports a failure with `COMMAND_ERROR`, which is not negative. -/
theorem reports_iff (s : Server) (env : Env) :
    ((s.sendNewGroupToUsers env).1 = 0 ↔ s.GroupSent (s.sendNewGroupToUsers env).2) ↔
      ∀ p ∈ s.pfds, p.fd ≠ s.listener → env.sendOk p.fd = true := by
  rw [groupSent_iff, sendNewGroupToUsers_eq]
  exact iff_true_left rfl

/-- The send to the only client fails, and the result is 0. -/
theorem not_reported_failure :
    let s := { start 3 gserverInfo with pfds := [⟨3, POLLIN, 0⟩, ⟨4, POLLIN, 0⟩] }
    let env := { Env.allOk with sendOk := fun _ => false }
    ¬ ((s.sendNewGroupToUsers env).1 = 0 ↔ s.GroupSent (s.sendNewGroupToUsers env).2) := by
  intro s env h
  have hsent : env.sendOk 4 = true :=
    (groupSent_iff s env).mp (h.mp (by rw [sendNewGroupToUsers_eq])) ⟨4, POLLIN, 0⟩ (by decide)
      (by decide)
  exact absurd hsent (by decide)

/-- A message from this member is taken as a guess. -/
def IsGuess (s : Server) (m : GroupMember) : Prop :=
  s.hangman.state ≠ .initial ∧ userInList s.hangmanUsersList m.uid.toStr

instance (s : Server) (m : GroupMember) : Decidable (s.IsGuess m) :=
  inferInstanceAs (Decidable (_ ∧ _))

/-- The frame types whose case answers the clients by itself. -/
def Answer (type : UInt8) : Prop := type ∈ [LMP_GRP_LOADING_MSG, LMP_GRP_LOAD_MSG, LMP_GRP_HANGMAN]

instance (type : UInt8) : Decidable (Answer type) := inferInstanceAs (Decidable (_ ∈ _))

/-- The case of `handle_client_data` that the frame `f` from the connection `fd` at `pfds[i]` comes
to, and what it gives. -/
inductive Dispatched (s : Server) (env : Env) (i : Nat) (fd : Int) (f : Frame) (buf : Bytes)
    (r : List Output × Server) : Prop
  | nick : f.type = LMP_NICK → s.clientNick env i (f.received buf).received.buf = .ok r →
    Dispatched s env i fd f buf r
  | init : f.type = LMP_GRP_INIT_MEMBER →
    s.clientInitMember env (f.received buf).received.buf = .ok r → Dispatched s env i fd f buf r
  | load : f.type = LMP_GRP_LOAD_MSG → s.clientLoadMsg env i fd = .ok r →
    Dispatched s env i fd f buf r
  | hangman : f.type = LMP_GRP_HANGMAN →
    s.clientHangman env i fd (f.received buf).received.buf = .ok r → Dispatched s env i fd f buf r
  | guess (m : GroupMember) : f.type = LMP_MSG → s.group.member (i - 1) = .ok m → s.IsGuess m →
    s.clientGuess env fd m (f.received buf).received.buf = .ok r → Dispatched s env i fd f buf r
  | message (m : GroupMember) : f.type = LMP_MSG → s.group.member (i - 1) = .ok m →
    ¬ s.IsGuess m → r = (s.relay env i fd f.type f.payload, { s with
      history := (s.history.saveMessage env.historyOpens m.uid.toStr (cstr f.payload)).2 }) →
    Dispatched s env i fd f buf r
  | other : f.type ∉ [LMP_NICK, LMP_GRP_INIT_MEMBER, LMP_GRP_LOAD_MSG, LMP_GRP_HANGMAN, LMP_MSG] →
    r = (s.relay env i fd f.type f.payload, s) → Dispatched s env i fd f buf r

theorem dispatched_of_frame {f : Frame} {buf : Bytes} {r : List Output × Server}
    (h : s.step (.frame i f buf env) = .ok r) :
    ∃ fd, s.pollFd i = .ok fd ∧ Dispatched s env i fd f buf r := by
  obtain ⟨fd, hfd, h⟩ := bind_ok h
  refine ⟨fd, hfd, ?_⟩
  have htype : (f.received buf).received.type = f.type := rfl
  simp only [htype, take_len_received] at h
  split at h
  · rename_i ht
    exact .nick ht h
  rename_i hnick
  split at h
  · rename_i ht
    exact .init ht h
  rename_i hinit
  split at h
  · rename_i ht
    exact .load ht h
  rename_i hload
  split at h
  · rename_i ht
    exact .hangman ht h
  rename_i hhangman
  split at h
  · rename_i ht
    obtain ⟨m, hm, h⟩ := bind_ok h
    split at h
    · rename_i hg
      exact .guess m ht hm hg h
    · rename_i hg
      cases h
      rw [cstr_received, take_len_received]
      exact .message m ht hm hg rfl
  · rename_i hmsg
    cases h
    exact .other (by simp [hnick, hinit, hload, hhangman, hmsg]) rfl

/-- All that handling the frame `f` from `pfds[i]` can do: `out` is sent, and `s'` is the state
after it. -/
inductive Handled (s : Server) (env : Env) (i : Nat) (fd : Int) (f : Frame) (buf : Bytes)
    (out : List Output) (s' : Server) : Prop
  | nick (m : GroupMember) : f.type = LMP_NICK → s.group.member (i - 1) = .ok m →
    s.group.setMember (i - 1) { m with nickname := .copyStr _ f.payload } = .ok s'.group →
    s'.history = s.history → out = (s'.sendNewGroupToUsers env).2 → Handled s env i fd f buf out s'
  | init (g : Group) : f.type = LMP_GRP_INIT_MEMBER →
    s.group.setMember s.group.memberCount.val (.ofBytes (f.received buf).received.buf) = .ok g →
    g.addCount 1 = .ok s'.group →
    s'.history = s.history → out = (s'.sendNewGroupToUsers env).2 → Handled s env i fd f buf out s'
  | relayed : f.type ∉ [LMP_NICK, LMP_GRP_INIT_MEMBER, LMP_GRP_LOAD_MSG, LMP_GRP_HANGMAN] →
    (f.type = LMP_MSG → ∃ m, s.group.member (i - 1) = .ok m ∧ ¬ s.IsGuess m ∧
      s'.history = (s.history.saveMessage env.historyOpens m.uid.toStr (cstr f.payload)).2) →
    (f.type ≠ LMP_MSG → s'.history = s.history) →
    s'.group = s.group → out = s.relay env i fd f.type f.payload → Handled s env i fd f buf out s'
  | answered (m : GroupMember) : f.type ∈ [LMP_GRP_LOAD_MSG, LMP_GRP_HANGMAN, LMP_MSG] →
    s.group.member (i - 1) = .ok m → (f.type = LMP_MSG → s.IsGuess m) →
    s'.group = s.group → s'.history = s.history → (∀ o ∈ out, Answer o.frame.type) →
    Handled s env i fd f buf out s'

/-- Only a message is saved. -/
theorem Handled.history_eq {f : Frame} {buf : Bytes} (h : Handled s env i fd f buf out s')
    (hf : f.type ≠ LMP_MSG) : s'.history = s.history := by
  cases h with
  | nick _ _ _ _ hhist => exact hhist
  | init _ _ _ _ hhist => exact hhist
  | relayed _ _ hhist => exact hhist hf
  | answered _ _ _ _ _ hhist => exact hhist

theorem mem_lmpSend {type : UInt8} {payload : Bytes} {o : Output} :
    o ∈ env.lmpSend fd type payload ↔ env.sendOk fd ∧ o = ⟨fd, lmpFrame type payload⟩ := by
  unfold Env.lmpSend
  split <;> simp_all

theorem mem_groupLmpSend {type : UInt8} {payload : Bytes} {sender : Int} {o : Output} :
    o ∈ env.groupLmpSend fd type payload sender ↔
      env.sendOk fd ∧ o = ⟨fd, groupLmpFrame type payload sender⟩ := by
  unfold Env.groupLmpSend
  split <;> simp_all

theorem answer_of_lmpSend {type : UInt8} {payload : Bytes} {o : Output} (ht : Answer type)
    (h : o ∈ env.lmpSend fd type payload) : Answer o.frame.type := by
  obtain ⟨-, rfl⟩ := mem_lmpSend.mp h
  exact ht

theorem answer_loading : Answer LMP_GRP_LOADING_MSG := by decide
theorem answer_load : Answer LMP_GRP_LOAD_MSG := by decide
theorem answer_hangman : Answer LMP_GRP_HANGMAN := by decide

theorem type_of_lmpSend {type : UInt8} {payload : Bytes} :
    ∀ o ∈ env.lmpSend fd type payload, o.frame.type = type := by
  intro o ho
  rw [(mem_lmpSend.mp ho).2]
  rfl

theorem type_of_relay {type : UInt8} {payload : Bytes} :
    ∀ o ∈ s.relay env i fd type payload, o.frame.type = type := by
  intro o ho
  obtain ⟨p, -, ho⟩ := List.mem_flatMap.mp ho
  rw [(mem_groupLmpSend.mp ho).2]
  rfl

theorem frame_of_sendToPlayer {response uid : Bytes}
    (h : s.sendToPlayer env response uid = .ok out) :
    ∀ o ∈ out, o.frame = lmpFrame LMP_GRP_HANGMAN response := by
  intro o ho
  obtain ⟨j, -, h⟩ := bind_ok h
  cases j with
  | none =>
    cases h
    cases ho
  | some j =>
    obtain ⟨fd, -, h⟩ := bind_ok h
    cases h
    rw [(mem_lmpSend.mp ho).2]

theorem frame_of_sendToPlayers {response : Bytes} {uids : List Bytes}
    (h : s.sendToPlayers env response uids = .ok out) :
    ∀ o ∈ out, o.frame = lmpFrame LMP_GRP_HANGMAN response := by
  induction uids generalizing out with
  | nil =>
    cases h
    intro o ho
    cases ho
  | cons uid uids ih =>
    obtain ⟨out₁, h₁, h⟩ := bind_ok h
    obtain ⟨out₂, h₂, h⟩ := bind_ok h
    cases h
    intro o ho
    rcases List.mem_append.mp ho with ho | ho
    · exact frame_of_sendToPlayer h₁ o ho
    · exact ih h₂ o ho

theorem type_of_sendToPlayers {response : Bytes} {uids : List Bytes}
    (h : s.sendToPlayers env response uids = .ok out) :
    ∀ o ∈ out, o.frame.type = LMP_GRP_HANGMAN :=
  fun o ho => congrArg Frame.type (frame_of_sendToPlayers h o ho)

/-- The game leaves the tables and the history alone. -/
theorem clientHangman_ok {buf : Bytes} (h : s.clientHangman env i fd buf = .ok (out, s')) :
    (∃ m, s.group.member (i - 1) = .ok m) ∧ s'.listener = s.listener ∧ s'.pfds = s.pfds ∧
      s'.group = s.group ∧ s'.history = s.history ∧
      ∀ o ∈ out, o.frame.type = LMP_GRP_HANGMAN := by
  obtain ⟨m, hm, h⟩ := bind_ok h
  have hsend : ∀ payload, ∀ o ∈ env.lmpSend fd LMP_GRP_HANGMAN payload,
      o.frame.type = LMP_GRP_HANGMAN := fun _ => type_of_lmpSend
  refine ⟨⟨m, hm⟩, ?_⟩
  split at h
  · split at h
    · cases h
      refine ⟨rfl, rfl, rfl, rfl, fun o ho => ?_⟩
      rcases List.mem_append.mp ho with ho | ho
      · exact hsend _ o ho
      · obtain ⟨p, -, ho⟩ := List.mem_flatMap.mp ho
        exact type_of_lmpSend o ho
    · cases h
      exact ⟨rfl, rfl, rfl, rfl, hsend _⟩
  split at h
  · cases h
    exact ⟨rfl, rfl, rfl, rfl, hsend _⟩
  split at h
  · split at h
    · cases h
      exact ⟨rfl, rfl, rfl, rfl, hsend _⟩
    · cases h
      exact ⟨rfl, rfl, rfl, rfl, by simp⟩
  · cases h
    exact ⟨rfl, rfl, rfl, rfl, by simp⟩

theorem clientGuess_ok {m : GroupMember} {buf : Bytes}
    (h : s.clientGuess env fd m buf = .ok (out, s')) :
    s'.listener = s.listener ∧ s'.pfds = s.pfds ∧ s'.group = s.group ∧ s'.history = s.history ∧
      ∀ o ∈ out, o.frame.type = LMP_GRP_HANGMAN := by
  have hsend : ∀ payload, ∀ o ∈ env.lmpSend fd LMP_GRP_HANGMAN payload,
      o.frame.type = LMP_GRP_HANGMAN := fun _ => type_of_lmpSend
  unfold clientGuess at h
  split at h
  · cases h
    exact ⟨rfl, rfl, rfl, rfl, hsend _⟩
  split at h
  · cases h
    exact ⟨rfl, rfl, rfl, rfl, hsend _⟩
  · obtain ⟨out₁, h₁, h⟩ := bind_ok h
    cases h
    exact ⟨rfl, rfl, rfl, rfl, type_of_sendToPlayers h₁⟩

/-- What handling a frame does. -/
theorem handled_of_frame {f : Frame} {buf : Bytes}
    (h : s.step (.frame i f buf env) = .ok (out, s')) :
    ∃ fd, s.pollFd i = .ok fd ∧ s'.listener = s.listener ∧ s'.pfds = s.pfds ∧
      Handled s env i fd f buf out s' := by
  obtain ⟨fd, hfd, hd⟩ := dispatched_of_frame h
  refine ⟨fd, hfd, ?_⟩
  cases hd with
  | nick ht h =>
    obtain ⟨m, hm, h⟩ := bind_ok h
    obtain ⟨g, hg, h⟩ := bind_ok h
    cases h
    rw [copyStr_received] at hg
    exact ⟨rfl, rfl, .nick m ht hm hg rfl rfl⟩
  | init ht h =>
    obtain ⟨g, hg, h⟩ := bind_ok h
    obtain ⟨g', hg', h⟩ := bind_ok h
    cases h
    exact ⟨rfl, rfl, .init g ht hg hg' rfl rfl⟩
  | load ht h =>
    obtain ⟨m, hm, h⟩ := bind_ok h
    cases h
    refine ⟨rfl, rfl, .answered m (by simp [ht]) hm ?_ rfl rfl fun o ho => ?_⟩
    · rw [ht]
      exact fun h => absurd h (by decide)
    · rcases List.mem_append.mp ho with ho | ho
      · obtain ⟨line, -, ho⟩ := List.mem_flatMap.mp ho
        exact answer_of_lmpSend answer_loading ho
      · exact answer_of_lmpSend answer_load ho
  | hangman ht h =>
    obtain ⟨⟨m, hm⟩, h1, h2, h3, h4, hout⟩ := clientHangman_ok h
    refine ⟨h1, h2, .answered m (by simp [ht]) hm ?_ h3 h4 fun o ho => hout o ho ▸ answer_hangman⟩
    rw [ht]
    exact fun h => absurd h (by decide)
  | guess m ht hm hg h =>
    obtain ⟨h1, h2, h3, h4, hout⟩ := clientGuess_ok h
    exact ⟨h1, h2, .answered m (by simp [ht]) hm (fun _ => hg) h3 h4
      fun o ho => hout o ho ▸ answer_hangman⟩
  | message m ht hm hg hr =>
    cases hr
    exact ⟨rfl, rfl, .relayed (by rw [ht]; decide) (fun _ => ⟨m, hm, hg, rfl⟩)
      (fun hne => absurd ht hne) rfl rfl⟩
  | other ht hr =>
    cases hr
    refine ⟨rfl, rfl, .relayed (fun hmem => ht ?_) (fun hmsg => ?_) (fun _ => rfl) rfl rfl⟩
    · exact List.mem_append_left [LMP_MSG] hmem
    · exact absurd (by rw [hmsg]; decide) ht

/-- What answers a frame of the game is one too. -/
theorem type_of_answered {f : Frame} {buf : Bytes} {m : GroupMember}
    (hf : f.type = LMP_GRP_HANGMAN ∨ f.type = LMP_MSG) (hm : s.group.member (i - 1) = .ok m)
    (hg : f.type = LMP_MSG → s.IsGuess m) (h : s.step (.frame i f buf env) = .ok (out, s')) :
    ∀ o ∈ out, o.frame.type = LMP_GRP_HANGMAN := by
  obtain ⟨fd, -, hd⟩ := dispatched_of_frame h
  cases hd with
  | hangman _ h => exact (clientHangman_ok h).2.2.2.2.2
  | guess _ _ _ _ h => exact (clientGuess_ok h).2.2.2.2
  | message m' ht hm' hnot =>
    rw [hm] at hm'
    cases hm'
    exact absurd (hg ht) hnot
  | nick ht | init ht | load ht =>
    rw [ht] at hf
    exact absurd hf (by decide)
  | other ht => rcases hf with hf | hf <;> exact absurd (by rw [hf]; decide) ht

/-! ## The end of a connection -/

/-- What closing the connection `pfds[i]` does. -/
theorem handled_of_hangup {status : Int} (h : s.step (.hangup i status env) = .ok (out, s')) :
    s'.listener = s.listener ∧ s'.history = s.history ∧
      s'.pfds = swapRemove s.pfds i ∧
      (∃ last g, s.group.member (s.fdCount - 2) = .ok last ∧
        s.group.setMember (i - 1) last = .ok g ∧ g.addCount (-1) = .ok s'.group) ∧
      out = (s'.sendNewGroupToUsers env).2 := by
  obtain ⟨fd, -, h⟩ := bind_ok h
  obtain ⟨s₁, h₁, h⟩ := bind_ok h
  cases h
  obtain ⟨last, hlast, h₁⟩ := bind_ok h₁
  obtain ⟨g, hg, h₁⟩ := bind_ok h₁
  obtain ⟨g', hg', h₁⟩ := bind_ok h₁
  cases h₁
  exact ⟨rfl, rfl, rfl, ⟨last, g, hlast, hg, hg'⟩, rfl⟩

theorem memberCount_of_hangup {status : Int}
    (h : s.step (.hangup i status env) = .ok (out, s')) :
    s'.group.memberCount.val = s.group.memberCount.val - 1 := by
  obtain ⟨-, -, -, ⟨last, g, -, hg, hg'⟩, -⟩ := handled_of_hangup h
  rw [(Group.memberCount_of_addCount hg').1, Group.memberCount_of_setMember hg]
  rfl

theorem memberCount_of_frame {f : Frame} {buf : Bytes}
    (h : s.step (.frame i f buf env) = .ok (out, s')) : s'.group.memberCount.val =
      s.group.memberCount.val + if f.type = LMP_GRP_INIT_MEMBER then 1 else 0 := by
  obtain ⟨fd, -, -, -, hh⟩ := handled_of_frame h
  cases hh with
  | nick m ht hm hg =>
    rw [Group.memberCount_of_setMember hg, ht]
    simp [LMP_NICK, LMP_GRP_INIT_MEMBER]
  | init g ht hg hg' =>
    rw [(Group.memberCount_of_addCount hg').1, Group.memberCount_of_setMember hg, if_pos ht]
  | relayed ht _ _ hg =>
    rw [hg, if_neg]
    · simp
    · rintro he
      simp [he] at ht
  | answered _ ht _ _ hg =>
    rw [hg, if_neg]
    · simp
    · rintro he
      rw [he] at ht
      exact absurd ht (by decide)

end Server

end SocketSpeak
