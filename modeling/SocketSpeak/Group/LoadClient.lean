import SocketSpeak.Group.Loading

/-!
# The client's side of loading the history

`/load` sets the state and then sends the request, and a receiver step may come between the two. No
other command and no frame but those of a load changes the state or sends a frame of a load.
-/

namespace SocketSpeak
open CLib

/-- The frames of a load. -/
def IsLoad (type : UInt8) : Prop := type = LMP_GRP_LOAD_MSG ∨ type = LMP_GRP_LOADING_MSG

instance (type : UInt8) : Decidable (IsLoad type) := inferInstanceAs (Decidable (_ ∨ _))

/-- A command line is dispatched to the command that its first token names. -/
theorem dispatchSend_name {ε σ φ : Type} {table : CommandTable ε σ φ} {env : ε} {s s' : σ}
    {r : CommandResult} {line : Bytes} (h : dispatchSend table env line s = .ok (r, s')) :
    s' = s ∨ ∃ e ∈ table, strlen line < COMMAND_LINE_SIZE ∧
      (strtok (str " ") (cstr line)).map Prod.fst = some e.name ∧
      ∃ send args, e.send = some send ∧ send env e.code args s = .ok (r, s') := by
  unfold dispatchSend at h
  split at h
  · cases h
    exact .inl rfl
  rename_i hlen
  split at h
  · cases h
    exact .inl rfl
  rename_i name rest htok
  split at h
  · cases h
    exact .inl rfl
  rename_i e he
  split at h
  · cases h
    exact .inl rfl
  · rename_i send hsend
    obtain rfl : e.name = name := by simpa using List.find?_some he
    exact .inr ⟨e, List.mem_of_find?_eq_some he, Nat.not_le.mp hlen, by rw [htok]; rfl, send, _,
      hsend, h⟩

namespace User
variable {u u' u'' : User} {env : UserEnv} {r : CommandResult}

/-! ## The two halves of `/load` -/

/-- The command line that the typed line is, if its command is `/load`. -/
def loadCommand (line : Bytes) : Option Bytes :=
  (asCommand (stripNewline line)).filter fun line =>
    strlen (line.drop 1) < COMMAND_LINE_SIZE ∧
      (strtok (str " ") (cstr (line.drop 1))).map Prod.fst = some (str "load")

/-- The state is set. -/
def beginLoad (u : User) : User :=
  { u.print (str "[System]: Loading History...\n") with loadingMessageState := .requestingLoad }

/-- The request is sent, and the command line `line` is done. -/
def finishLoad (u : User) (env : UserEnv) (line : Bytes) : User :=
  match u.sendCommand env LMP_GRP_LOAD_MSG [] with
  | (.success, u) => u
  | (_, u) => u.print (str "Error executing '" ++ line ++ str "'\n")

theorem finishLoad_ok (hok : env.sendOk = true) (line : Bytes) :
    u.finishLoad env line = { u with up := u.up ++ [lmpFrame LMP_GRP_LOAD_MSG []] } := by
  unfold finishLoad sendCommand lmpSend
  rw [if_pos hok]
  rfl

theorem dispatchSend_load {line : Bytes} (hlen : strlen line < COMMAND_LINE_SIZE)
    (hname : (strtok (str " ") (cstr line)).map Prod.fst = some (str "load")) :
    ∃ args, dispatchSend initCommands env line u =
      userGrpLoadMsgSend env LMP_GRP_LOAD_MSG args u := by
  obtain ⟨⟨name, rest⟩, htok, rfl⟩ := Option.map_eq_some_iff.mp hname
  refine ⟨((strtok [] rest).map Prod.fst).getD [], ?_⟩
  unfold dispatchSend
  rw [if_neg (Nat.not_le.mpr hlen), htok]
  rfl

/-- Together the two halves are the command. -/
theorem typed_load {line line' : Bytes} (h : loadCommand line = some line')
    (hidle : u.loadingMessageState = .idle) :
    u.typed env line = .ok (u.beginLoad.finishLoad env line') := by
  obtain ⟨hline, hload⟩ := Option.filter_eq_some_iff.mp h
  obtain ⟨hlen, hname⟩ := of_decide_eq_true hload
  obtain ⟨args, hdispatch⟩ := @dispatchSend_load u env _ hlen hname
  unfold typed
  rw [hline]
  dsimp only
  rw [hdispatch, userGrpLoadMsgSend, hidle]
  unfold finishLoad beginLoad sendCommand lmpSend
  cases env.sendOk <;> rfl

/-! ## The other commands and frames -/

/-- The state stays, and no frame of a load is sent. -/
structure Posts (u u' : User) : Prop where
  state : u'.loadingMessageState = u.loadingMessageState
  up : ∃ fs, u'.up = u.up ++ fs ∧ ∀ f ∈ fs, ¬ IsLoad f.type

theorem Posts.refl (u : User) : Posts u u := ⟨rfl, [], (List.append_nil _).symm, by simp⟩

theorem Posts.print (h : Posts u u') (line : Bytes) : Posts u (u'.print line) := ⟨h.state, h.up⟩

theorem Posts.send (h : Posts u u') (env : UserEnv) {type : UInt8} (ht : ¬ IsLoad type)
    (payload : Bytes) : Posts u (u'.sendCommand env type payload).2 := by
  obtain ⟨hstate, fs, hup, hfs⟩ := h
  unfold sendCommand lmpSend
  cases env.sendOk with
  | false => exact ⟨hstate, fs, hup, hfs⟩
  | true =>
    refine ⟨hstate, fs ++ [lmpFrame type payload], ?_, fun f hf => ?_⟩
    · dsimp only
      rw [if_pos rfl, ← List.append_assoc, hup]
    · rcases List.mem_append.mp hf with hf | hf
      · exact hfs f hf
      · rw [List.mem_singleton.mp hf]
        exact ht

theorem Acts.posts {types : UInt8 → Prop} (h : Acts types u u') (ht : ∀ t, types t → ¬ IsLoad t) :
    Posts u u' := by
  induction h with
  | done => exact .refl u
  | print _ ih => exact ih.print _
  | send _ htype ih => exact ih.send _ (ht _ htype) _

theorem not_loading_of_send {e : CommandEntry UserEnv User Fault} (he : e ∈ initCommands)
    {send : UserSend} (hs : e.send = some send) : e.code ≠ LMP_GRP_LOADING_MSG := by
  cases isCommand_of_mem he with
  | loadingMsg => cases hs
  | _ => decide

theorem posts_of_send {e : CommandEntry UserEnv User Fault} (he : e ∈ initCommands)
    (hload : e.code = LMP_GRP_LOAD_MSG → u.loadingMessageState ≠ .idle) {send : UserSend}
    (hs : e.send = some send) {args : Bytes} (h : send env e.code args u = .ok (r, u')) :
    Posts u u' := by
  by_cases hcode : e.code = LMP_GRP_LOAD_MSG
  · obtain rfl := eq_load_of_code he hcode
    cases hs
    obtain ⟨-, -, line, rfl⟩ | ⟨hidle, -⟩ := userGrpLoadMsgSend_ok h
    · exact (Posts.refl u).print _
    · exact absurd hidle (hload rfl)
  · apply (acts_of_send he hload hs h).posts
    rintro t rfl
    rintro (h | h)
    · exact hcode h
    · exact not_loading_of_send he hs h

/-- What is typed, but for a `/load` that is accepted. -/
theorem posts_of_typed {line : Bytes} (h : u.typed env line = .ok u')
    (hnot : loadCommand line = none ∨ u.loadingMessageState ≠ .idle) : Posts u u' := by
  unfold typed at h
  split at h
  · cases h
    exact (Posts.refl u).print _
  rename_i line' hline
  obtain ⟨⟨r, u₁⟩, h₁, h⟩ := bind_ok h
  have hposts : Posts u u₁ := by
    rcases dispatchSend_name h₁ with rfl | ⟨e, he, hlen, hname, send, args, hs, h₁⟩
    · exact .refl _
    · refine posts_of_send he (fun hcode => hnot.resolve_left fun hnone => ?_) hs h₁
      obtain rfl := eq_load_of_code he hcode
      rw [loadCommand, hline, Option.filter_some, if_pos (decide_eq_true ⟨hlen, hname⟩)] at hnone
      cases hnone
  cases r <;> cases h
  · exact hposts
  · exact hposts.print _
  · exact hposts.print _

/-- The handler of a frame that is not one of a load. -/
theorem posts_of_recv {e : CommandEntry UserEnv User Fault} (he : e ∈ initCommands)
    (hne : ¬ IsLoad e.code) {recv : UserRecv} (hr : e.recv = some recv) {code : UInt8}
    {buf : Bytes} {len : Nat} (h : recv env code buf len u = .ok (r, u')) : Posts u u' := by
  cases isCommand_of_mem he with
  | msg =>
    cases hr
    cases h
    exact (Posts.refl u).print _
  | nick =>
    cases hr
    cases h
    have hnick : Posts u { u with peerNick := .copyStr _ buf } := ⟨rfl, (Posts.refl u).up⟩
    exact (hnick.print _).send env (by decide) _
  | ack | error =>
    cases hr
    cases h
    exact (Posts.refl u).print _
  | uid =>
    cases hr
    cases h
    exact ⟨rfl, (Posts.refl u).up⟩
  | sticker =>
    cases hr
    obtain ⟨line, rfl⟩ := stickerRecv_ok h
    exact (Posts.refl u).print _
  | grpObj =>
    cases hr
    obtain ⟨i, line, rfl⟩ := grpObjRecv_ok h
    exact ⟨rfl, (Posts.refl u).up⟩
  | load => exact absurd (.inl rfl) hne
  | loadingMsg => exact absurd (.inr rfl) hne
  | hangman =>
    cases hr
    obtain ⟨out, rfl⟩ := userGrpHangmanRecv_ok h
    exact ⟨rfl, (Posts.refl u).up⟩
  | meow | grpInfo | initMember => cases hr

theorem posts_of_receive {f : Frame} {buf : Bytes} (h : u.receive env f buf = .ok u')
    (hf : ¬ IsLoad f.type) : Posts u u' := by
  obtain ⟨m, -, res, u₁, h₁, rfl⟩ := receive_ok h
  have hposts : Posts u u₁ := by
    have hpeer : Posts (u.withPeer m) u₁ := by
      rcases dispatchRecv_ok h₁ with rfl | ⟨e, he, hcode, recv, hr, h₁⟩
      · exact .refl _
      · exact posts_of_recv he (hcode ▸ hf) hr h₁
    exact ⟨hpeer.state, hpeer.up⟩
  split
  · exact hposts.print _
  · exact hposts

/-- The end of a load. -/
theorem receive_load {f : Frame} {buf : Bytes} (h : u.receive env f buf = .ok u')
    (hf : f.type = LMP_GRP_LOAD_MSG) : u'.loadingMessageState = .idle ∧ u'.up = u.up := by
  obtain ⟨m, -, res, u₁, h₁, rfl⟩ := receive_ok h
  rw [hf] at h₁
  have h₁ : userGrpLoadMsgRecv env LMP_GRP_LOAD_MSG (f.received buf).buf (f.received buf).len
      (u.withPeer m) = .ok (res, u₁) := h₁
  obtain rfl := userGrpLoadMsgRecv_ok h₁
  split <;> exact ⟨rfl, rfl⟩

/-- A line of a load is shown, if the state is not idle. -/
theorem receive_loading {f : Frame} {buf : Bytes} (h : u.receive env f buf = .ok u')
    (hf : f.type = LMP_GRP_LOADING_MSG) (hs : u.loadingMessageState ≠ .idle) :
    u'.loadingMessageState = .loading ∧ u'.up = u.up ∧ ∃ nickname,
      u'.stdout = u.stdout ++ [str "[" ++ nickname ++ str "]: " ++
        (historySplit (f.received buf).buf).2] := by
  obtain ⟨m, -, res, u₁, h₁, rfl⟩ := receive_ok h
  rw [hf] at h₁
  have h₁ : userGrpLoadingMsgRecv env LMP_GRP_LOADING_MSG (f.received buf).buf (f.received buf).len
      (u.withPeer m) = .ok (res, u₁) := h₁
  have hs' : (u.withPeer m).loadingMessageState ≠ .idle := hs
  rw [userGrpLoadingMsgRecv_eq hs'] at h₁
  obtain ⟨nickname, -, h₁⟩ := ok_of_map h₁
  cases h₁
  exact ⟨rfl, rfl, nickname, rfl⟩

end User

end SocketSpeak
