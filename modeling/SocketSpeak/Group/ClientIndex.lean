import SocketSpeak.Group.User

/-!
# The indices of the group client

`receiver` looks the sender of a frame up before it looks at the status of the receive, with an
index that comes from the frame or, where the receive has failed, from the frame before it. The
other indices into the table run up to the `member_count` of the object that was received last.
`index_iff` says in which runs they stay in the table, for every stream that the client may receive.
-/

namespace SocketSpeak
open CLib Sys

/-- An index outside the table of members. -/
def Fault.OffTable : Fault → Prop
  | .memberIndex _ => True
  | _ => False

/-- The members that are counted are in the table. -/
def Group.CountFits (g : Group) : Prop := g.memberCount.val ≤ MAX_GROUP_MEMBERS

instance (g : Group) : Decidable g.CountFits := inferInstanceAs (Decidable (_ ≤ _))

section
variable {g : Group} {uid : Bytes} {n i : Nat}

theorem member_natCast (h : i < MAX_GROUP_MEMBERS) : g.member i = .ok g.members[i] :=
  Group.member_eq_ok.mpr ⟨i, rfl, Vector.getElem?_eq_getElem h⟩

theorem member_avoids {j : Int} :
    Avoids Fault.OffTable (g.member j) ↔ 0 ≤ j ∧ j < MAX_GROUP_MEMBERS := by
  constructor
  · intro h
    cases hj : g.member j with
    | ok m =>
      obtain ⟨k, rfl, hk⟩ := Group.member_eq_ok.mp hj
      obtain ⟨hk, -⟩ := Vector.getElem?_eq_some_iff.mp hk
      omega
    | error f =>
      have hbad := h f hj
      unfold Group.member at hj
      split at hj <;> cases hj
      exact absurd trivial hbad
  · rintro ⟨h0, h⟩
    obtain ⟨k, rfl⟩ := Int.eq_ofNat_of_zero_le h0
    rw [Int.ofNat_lt] at h
    exact member_natCast h ▸ avoids_ok _

theorem exists_member {j : Int} (h0 : 0 ≤ j) (h : j < MAX_GROUP_MEMBERS) :
    ∃ m, g.member j = .ok m := by
  obtain ⟨k, rfl⟩ := Int.eq_ofNat_of_zero_le h0
  exact ⟨_, member_natCast (Int.ofNat_lt.mp h)⟩

/-! ## The loops over the members -/

theorem memberLines_avoids :
    Avoids Fault.OffTable (memberLines g n i) ↔ n = 0 ∨ i + n ≤ MAX_GROUP_MEMBERS := by
  induction n generalizing i with
  | zero => exact iff_of_true (avoids_ok _) (.inl rfl)
  | succ n ih =>
    have hrest : ∀ line, Avoids Fault.OffTable (memberLines g n (i + 1) >>= fun rest =>
        (return line ++ rest : Except Fault Bytes)) ↔ n = 0 ∨ i + 1 + n ≤ MAX_GROUP_MEMBERS := by
      intro line
      rw [avoids_map, ← ih, Int.natCast_succ]
    rw [memberLines, avoids_bind, member_avoids]
    constructor
    · rintro ⟨hi, h⟩
      have hi : i < MAX_GROUP_MEMBERS := by omega
      have hn := (hrest _).mp (h _ (member_natCast hi))
      omega
    · intro hn
      exact ⟨by omega, fun m _ => (hrest _).mpr (by omega)⟩

theorem printGroupInfo_avoids : Avoids Fault.OffTable (printGroupInfo g) ↔ g.CountFits := by
  have hcount : Avoids Fault.OffTable (memberLines g g.memberCount.val.toNat 0) ↔ g.CountFits := by
    have h := memberLines_avoids (g := g) (n := g.memberCount.val.toNat) (i := 0)
    refine Iff.trans h ?_
    rw [Group.CountFits]
    omega
  rw [printGroupInfo, avoids_map, hcount]

/-- The search for a uid stops at the first member that has it. -/
theorem nicknameOf_avoids : Avoids Fault.OffTable (nicknameOf g uid n i) ↔
    n = 0 ∨ i + n ≤ MAX_GROUP_MEMBERS ∨
      ∃ k, ∃ h : k < MAX_GROUP_MEMBERS, i ≤ k ∧ (g.members[k]).uid.toStr = uid := by
  induction n generalizing i with
  | zero => exact iff_of_true (avoids_ok _) (.inl rfl)
  | succ n ih =>
    rw [nicknameOf, avoids_bind, member_avoids]
    constructor
    · rintro ⟨hi, h⟩
      have hi : i < MAX_GROUP_MEMBERS := by omega
      have hm := h _ (member_natCast hi)
      by_cases huid : (g.members[i]).uid.toStr = uid
      · exact .inr (.inr ⟨i, hi, Nat.le_refl _, huid⟩)
      · rw [if_neg huid, ← Int.natCast_succ, ih] at hm
        rcases hm with rfl | hm | ⟨k, hk, hik, huid⟩
        · exact .inr (.inl hi)
        · exact .inr (.inl (by omega))
        · exact .inr (.inr ⟨k, hk, by omega, huid⟩)
    · intro hn
      have hi : i < MAX_GROUP_MEMBERS := by
        rcases hn with hn | hn | ⟨k, hk, hik, -⟩ <;> omega
      refine ⟨by omega, fun m hm => ?_⟩
      rw [member_natCast hi] at hm
      cases hm
      by_cases huid : (g.members[i]).uid.toStr = uid
      · rw [if_pos huid]
        exact avoids_ok _
      · rw [if_neg huid, ← Int.natCast_succ, ih]
        rcases hn with hn | hn | ⟨k, hk, hik, hfound⟩
        · cases hn
        · omega
        · have hne : i ≠ k := by
            rintro rfl
            exact huid hfound
          exact .inr (.inr ⟨k, hk, by omega, hfound⟩)

end

namespace User
variable {u u' : User} {env : UserEnv} {r : CommandResult} {code : UInt8} {args line buf : Bytes}
  {len : Nat}

/-- The search for the sender of a line of the history stays in the table. -/
def SearchFits (u : User) (uid : Bytes) : Prop :=
  u.userMemberInfo.uid.toStr = uid ∨ u.userGroup.CountFits ∨
    ∃ m ∈ u.userGroup.members, m.uid.toStr = uid

instance (u : User) (uid : Bytes) : Decidable (u.SearchFits uid) :=
  inferInstanceAs (Decidable (_ ∨ _ ∨ _))

/-- The members that the handler of a frame looks at are in the table. -/
structure RecvFits (u : User) (type : UInt8) (buf : Bytes) : Prop where
  welcome : type = LMP_GRP_OBJ → u.isInitialized = false → (Group.ofBytes buf).CountFits
  search : type = LMP_GRP_LOADING_MSG → u.loadingMessageState ≠ .idle →
    u.SearchFits (cstr (buf.take UID_LENGTH))

theorem historyNick_avoids {uid : Bytes} :
    Avoids Fault.OffTable (u.historyNick uid) ↔ u.SearchFits uid := by
  unfold historyNick SearchFits
  split
  · rename_i huid
    exact iff_of_true (avoids_ok _) (.inl huid)
  · rename_i huid
    refine nicknameOf_avoids.trans ?_
    rw [or_iff_right huid, Group.CountFits]
    constructor
    · rintro (h | h | ⟨k, hk, -, huid⟩)
      · exact .inl (by omega)
      · exact .inl (by omega)
      · exact .inr ⟨_, Vector.getElem_mem hk, huid⟩
    · rintro (h | ⟨m, hm, huid⟩)
      · exact .inr (.inl (by rw [Nat.zero_add]; omega))
      · obtain ⟨k, hk, rfl⟩ := Vector.mem_iff_getElem.mp hm
        exact .inr (.inr ⟨k, hk, Nat.zero_le _, huid⟩)

/-! ## Commands -/

theorem withStickerName_avoids {rest : Bytes} {f : Bytes → Except Fault (CommandResult × User)}
    (hf : ∀ name, Avoids Fault.OffTable (f name)) :
    Avoids Fault.OffTable (withStickerName rest u f) := by
  unfold withStickerName
  split
  · exact avoids_ok _
  · exact hf _

theorem stickerSend_avoids : Avoids Fault.OffTable (stickerSend env code args u) := by
  unfold stickerSend
  split
  · exact avoids_ok _
  split
  · apply withStickerName_avoids
    intro name
    split <;> exact avoids_ok _
  split
  · apply withStickerName_avoids
    intro name
    split
    · exact avoids_ok _
    dsimp only
    split
    · exact avoids_ok _
    split
    · exact avoids_error.mpr id
    · exact avoids_ok _
  split
  · exact avoids_ok _
  split
  · apply withStickerName_avoids
    intro name
    split
    · exact avoids_error.mpr id
    · exact avoids_ok _
  · exact avoids_ok _

/-- Only `/gi` looks at the members. -/
theorem send_avoids {e : CommandEntry UserEnv User Fault} (he : e ∈ initCommands) {send : UserSend}
    (hs : e.send = some send) : Avoids Fault.OffTable (send env e.code args u) ↔
      (e.name = str "gi" → u.userGroup.CountFits) := by
  cases isCommand_of_mem he with
  | msg | nick | meow =>
    cases hs
    exact iff_of_true (avoids_ok _) (absurd · (by decide))
  | sticker =>
    cases hs
    exact iff_of_true stickerSend_avoids (absurd · (by decide))
  | grpObj =>
    cases hs
    exact iff_of_true (avoids_ok _) (absurd · (by decide))
  | grpInfo =>
    cases hs
    rw [grpInfoSend, avoids_map, printGroupInfo_avoids]
    exact ⟨fun h _ => h, fun h => h rfl⟩
  | load =>
    cases hs
    refine iff_of_true ?_ (absurd · (by decide))
    unfold userGrpLoadMsgSend
    split <;> exact avoids_ok _
  | hangman =>
    cases hs
    refine iff_of_true ?_ (absurd · (by decide))
    unfold userGrpHangmanSend
    split <;> exact avoids_ok _
  | ack | error | uid | initMember | loadingMsg => cases hs

theorem dispatchSend_avoids : Avoids Fault.OffTable (dispatchSend initCommands env line u) ↔
    (commandName line = some (str "gi") → u.userGroup.CountFits) := by
  unfold dispatchSend commandName
  split
  · exact iff_of_true (avoids_ok _) nofun
  cases htok : strtok (str " ") (cstr line) with
  | none => exact iff_of_true (avoids_ok _) nofun
  | some x =>
    obtain ⟨name, rest⟩ := x
    dsimp only [Option.map_some]
    rw [Option.some.injEq]
    cases hfind : initCommands.find? fun e => e.name = name with
    | none =>
      refine iff_of_true (avoids_ok _) ?_
      rintro rfl
      cases hfind
    | some e =>
      have hname : e.name = name := by simpa using List.find?_some hfind
      dsimp only
      cases hs : e.send with
      | none =>
        refine iff_of_true (avoids_ok _) ?_
        rintro rfl
        cases hfind
        cases hs
      | some send =>
        rw [← hname]
        exact send_avoids (List.mem_of_find?_eq_some hfind) hs

/-! ## Frames -/

/-- Only a group object and a line of the history make a handler look at the members. -/
theorem recv_avoids {e : CommandEntry UserEnv User Fault} (he : e ∈ initCommands) {recv : UserRecv}
    (hr : e.recv = some recv) :
    Avoids Fault.OffTable (recv env e.code buf len u) ↔ u.RecvFits e.code buf := by
  have hother : e.code ≠ LMP_GRP_OBJ → e.code ≠ LMP_GRP_LOADING_MSG → u.RecvFits e.code buf :=
    fun hobj hload => ⟨fun h => absurd h hobj, fun h => absurd h hload⟩
  cases isCommand_of_mem he with
  | msg | nick | ack | error | uid =>
    cases hr
    exact iff_of_true (avoids_ok _) (hother (by decide) (by decide))
  | sticker =>
    cases hr
    refine iff_of_true ?_ (hother (by decide) (by decide))
    unfold stickerRecv
    dsimp only
    split
    · exact avoids_error.mpr id
    · exact avoids_ok _
  | grpObj =>
    cases hr
    unfold grpObjRecv
    dsimp only
    split
    · rename_i hinit
      refine iff_of_true (avoids_ok _) ⟨fun _ h => ?_, nofun⟩
      rw [hinit] at h
      cases h
    · rename_i hinit
      rw [avoids_map, printGroupInfo_avoids]
      exact ⟨fun h => ⟨fun _ _ => h, nofun⟩, fun h => h.welcome rfl (by simpa using hinit)⟩
  | load =>
    cases hr
    refine iff_of_true ?_ (hother (by decide) (by decide))
    unfold userGrpLoadMsgRecv
    split <;> exact avoids_ok _
  | loadingMsg =>
    cases hr
    unfold userGrpLoadingMsgRecv
    split
    · rename_i hidle
      exact iff_of_true (avoids_ok _) ⟨nofun, fun _ h => absurd hidle h⟩
    · rename_i hidle
      rw [avoids_map, historyNick_avoids]
      exact ⟨fun h => ⟨nofun, fun _ _ => h⟩, fun h => h.search rfl hidle⟩
  | hangman =>
    cases hr
    refine iff_of_true ?_ (hother (by decide) (by decide))
    unfold userGrpHangmanRecv
    split <;> exact avoids_ok _
  | meow | grpInfo | initMember => cases hr

theorem dispatchRecv_avoids :
    Avoids Fault.OffTable (dispatchRecv initCommands env code buf len u) ↔ u.RecvFits code buf := by
  unfold dispatchRecv
  cases hfind : initCommands.find? fun e => e.code = code with
  | none =>
    refine iff_of_true (avoids_ok _) ⟨?_, ?_⟩
    · rintro rfl
      cases hfind
    · rintro rfl
      cases hfind
  | some e =>
    have hcode : e.code = code := by simpa using List.find?_some hfind
    dsimp only
    cases hr : e.recv with
    | none =>
      refine iff_of_true (avoids_ok _) ⟨?_, ?_⟩
      · rintro rfl
        cases hfind
        cases hr
      · rintro rfl
        cases hfind
        cases hr
    | some recv =>
      rw [← hcode]
      exact recv_avoids (List.mem_of_find?_eq_some hfind) hr

/-- The line is the command `/gi`. -/
def IsGi (line : Bytes) : Prop :=
  ((asCommand (stripNewline line)).bind fun line => commandName (line.drop 1)) = some (str "gi")

instance (line : Bytes) : Decidable (IsGi line) := inferInstanceAs (Decidable (_ = _))

theorem typed_avoids : Avoids Fault.OffTable (u.typed env line) ↔
    (IsGi line → u.userGroup.CountFits) := by
  unfold typed IsGi
  cases asCommand (stripNewline line) with
  | none => exact iff_of_true (avoids_ok _) nofun
  | some line =>
    dsimp only [Option.bind_some]
    rw [avoids_bind, dispatchSend_avoids]
    refine and_iff_left ?_
    intro ⟨r, u'⟩ _
    cases r <;> exact avoids_ok _

/-- What a round of `receiver` does once the context has the sender of the frame. -/
def dispatch (u : User) (env : UserEnv) (r : GroupReceived) : Except Fault User := do
  let (res, u) ← dispatchRecv initCommands env r.type r.buf r.len u
  if res = .unrecognized then
    return u.print (str "[warning]: unrecognized message type 0x" ++ hex02 r.type ++ str "\n")
  else return u

theorem receive_eq {f : Frame} : u.receive env f buf =
    u.userGroup.member (f.received buf).groupReceived.sender >>= fun m =>
      (u.withPeer m).dispatch env (f.received buf).groupReceived := rfl

theorem dispatch_avoids {r : GroupReceived} :
    Avoids Fault.OffTable (u.dispatch env r) ↔ u.RecvFits r.type r.buf := by
  rw [dispatch, avoids_bind, dispatchRecv_avoids]
  refine and_iff_left ?_
  intro ⟨res, u'⟩ _
  dsimp only
  split <;> exact avoids_ok _

/-- The handlers do not look at the members through the fields that `receiver` sets. -/
theorem recvFits_withPeer {m : GroupMember} :
    (u.withPeer m).RecvFits code buf ↔ u.RecvFits code buf :=
  ⟨fun h => ⟨h.welcome, h.search⟩, fun h => ⟨h.welcome, h.search⟩⟩

end User

/-! ## The two threads of a client -/

/-- The process with the variables of its `receiver`: the buffer, and the sender of the last frame,
which is not set at first; and whether the thread still runs. -/
structure Client where
  user : User
  sock : Sock
  buf : Bytes
  sender : Option Int
  receiving : Bool

/-- The client runs into a fault, or takes the value of a variable that is not set. -/
inductive ClientHalt where
  | fault (f : Fault)
  | unsetSender

def ClientHalt.OffTable : ClientHalt → Prop
  | .fault f => f.OffTable
  | .unsetSender => True

/-- A round of `receiver`, or a line that the user types. -/
inductive ClientEvent where
  | receive (env : UserEnv)
  | typed (env : UserEnv) (line : Bytes)

namespace Client

/-- The client when `chat_loop_user` starts its receiver, on a socket that may bring anything. -/
def start (m : GroupMember) (sock : Sock) (buf : Bytes) : Client :=
  ⟨.start m, sock, buf, none, true⟩

/-- One round of `receiver`. After a receive that has failed the buffer is not looked at again. -/
def receiverRound (c : Client) (env : UserEnv) : Except ClientHalt Client :=
  let (r, sock) := groupLmpRecv c.sock c.buf
  let sender := match r with
    | .ok r => some r.sender
    | .error _ => c.sender
  match sender with
  | none => .error .unsetSender
  | some i => do
    let m ← (c.user.userGroup.member i).mapError .fault
    let user := c.user.withPeer m
    match r with
    | .error _ => return { c with user, sock, sender, receiving := false }
    | .ok r =>
      let user ← (user.dispatch env r).mapError .fault
      return { c with user, sock, buf := r.buf, sender }

def step (c : Client) : ClientEvent → Except ClientHalt Client
  | .receive env => if c.receiving then c.receiverRound env else .ok c
  | .typed env line => do
    let user ← (c.user.typed env line).mapError .fault
    return { c with user }

/-- No index that is used lies outside the table, and a sender is looked up only after a frame has
been received. -/
def InTable (c : Client) (e : ClientEvent) : Prop := Avoids ClientHalt.OffTable (c.step e)

/-- What arrives, and what is typed, names members that are in the table; the first receive
succeeds. -/
def IndexFits (c : Client) : ClientEvent → Prop
  | .receive _ => c.receiving = true →
    match (groupLmpRecv c.sock c.buf).1 with
    | .ok r => r.sender < MAX_GROUP_MEMBERS ∧ c.user.RecvFits r.type r.buf
    | .error _ => c.sender ≠ none
  | .typed _ line => User.IsGi line → c.user.userGroup.CountFits

/-- The sender that was looked up last is in the table. -/
def SenderOk (c : Client) : Prop := ∀ i, c.sender = some i → 0 ≤ i ∧ i < MAX_GROUP_MEMBERS

variable {c c' : Client} {e : ClientEvent} {env : UserEnv}

theorem senderOk_start {m : GroupMember} {sock : Sock} {buf : Bytes} :
    (start m sock buf).SenderOk := fun _ h => by cases h

theorem sender_nonneg {s s' : Sock} {buf : Bytes} {r : GroupReceived}
    (h : groupLmpRecv s buf = (.ok r, s')) : 0 ≤ r.sender := by
  unfold groupLmpRecv at h
  cases hf : recvFrame s buf with
  | mk x sock =>
    rw [hf] at h
    cases x <;> cases h
    exact Int.natCast_nonneg _

/-- The round for a frame that comes in whole is that of the client in the group. -/
theorem receiverRound_of_frame {f : Frame} {sock : Sock}
    (h : groupLmpRecv c.sock c.buf = (.ok (f.received c.buf).groupReceived, sock)) :
    c.receiverRound env = ((c.user.receive env f c.buf).mapError ClientHalt.fault).map fun user =>
      { c with
        user, sock, buf := (f.received c.buf).groupReceived.buf,
        sender := some (f.received c.buf).groupReceived.sender } := by
  rw [User.receive_eq, receiverRound, h]
  dsimp only
  cases c.user.userGroup.member (f.received c.buf).groupReceived.sender with
  | error fault => rfl
  | ok m =>
    change ((c.user.withPeer m).dispatch env _).mapError ClientHalt.fault >>= _ =
      (((c.user.withPeer m).dispatch env _).mapError ClientHalt.fault).map _
    cases ((c.user.withPeer m).dispatch env _).mapError ClientHalt.fault <;> rfl

theorem receiverRound_avoids (hs : c.SenderOk) :
    Avoids ClientHalt.OffTable (c.receiverRound env) ↔
      match (groupLmpRecv c.sock c.buf).1 with
      | .ok r => r.sender < MAX_GROUP_MEMBERS ∧ c.user.RecvFits r.type r.buf
      | .error _ => c.sender ≠ none := by
  unfold receiverRound
  cases hr : groupLmpRecv c.sock c.buf with
  | mk x sock =>
    cases x with
    | error status =>
      dsimp only
      cases hc : c.sender with
      | none => exact iff_of_false (fun h => avoids_error.mp h trivial) (absurd rfl)
      | some i =>
        refine iff_of_true ?_ nofun
        dsimp only
        rw [avoids_map, avoids_mapError]
        exact member_avoids.mpr (hs i hc)
    | ok r =>
      dsimp only
      rw [avoids_bind, avoids_mapError]
      have hmember : Avoids (fun f => ClientHalt.OffTable (.fault f))
          (c.user.userGroup.member r.sender) ↔ r.sender < MAX_GROUP_MEMBERS :=
        member_avoids.trans (and_iff_right (sender_nonneg hr))
      have hdispatch (m : GroupMember) : Avoids (fun f => ClientHalt.OffTable (.fault f))
          ((c.user.withPeer m).dispatch env r) ↔ c.user.RecvFits r.type r.buf :=
        User.dispatch_avoids.trans User.recvFits_withPeer
      rw [hmember]
      apply and_congr_right
      intro hlt
      obtain ⟨m, hm⟩ := exists_member (g := c.user.userGroup) (sender_nonneg hr) hlt
      rw [hm]
      constructor
      · intro h
        have h := h m rfl
        rw [avoids_map, avoids_mapError] at h
        exact (hdispatch m).mp h
      · intro h m' hm'
        rw [avoids_map, avoids_mapError]
        exact (hdispatch m').mpr h

/-- After a round the sender is the one whose member has been looked up in it. -/
theorem receiverRound_ok (h : c.receiverRound env = .ok c') :
    ∃ i m, c'.sender = some i ∧ c.user.userGroup.member i = .ok m := by
  unfold receiverRound at h
  cases hr : groupLmpRecv c.sock c.buf with
  | mk x sock =>
    rw [hr] at h
    cases x with
    | error status =>
      dsimp only at h
      cases hc : c.sender with
      | none =>
        rw [hc] at h
        cases h
      | some i =>
        rw [hc] at h
        obtain ⟨m, hm, h⟩ := bind_ok h
        cases h
        exact ⟨i, m, rfl, mapError_eq_ok.mp hm⟩
    | ok r =>
      obtain ⟨m, hm, h⟩ := bind_ok h
      obtain ⟨user, -, h⟩ := bind_ok h
      cases h
      exact ⟨r.sender, m, rfl, mapError_eq_ok.mp hm⟩

/-- A lookup that has been passed was in the table. -/
theorem senderOk_of_step (hs : c.SenderOk) (h : c.step e = .ok c') : c'.SenderOk := by
  cases e with
  | typed env line =>
    obtain ⟨user, -, h⟩ := bind_ok h
    cases h
    exact hs
  | receive env =>
    by_cases hc : c.receiving = true
    · rw [step, if_pos hc] at h
      obtain ⟨i, m, hi, hm⟩ := receiverRound_ok h
      intro j hj
      cases hi ▸ hj
      have havoids : Avoids Fault.OffTable (c.user.userGroup.member i) := hm ▸ avoids_ok m
      exact member_avoids.mp havoids
    · rw [step, if_neg hc] at h
      cases h
      exact hs

theorem inTable_iff (hs : c.SenderOk) : c.InTable e ↔ c.IndexFits e := by
  cases e with
  | typed env line =>
    have htyped : Avoids Fault.OffTable (c.user.typed env line) ↔ c.IndexFits (.typed env line) :=
      User.typed_avoids
    rw [← htyped, InTable, step, avoids_map, avoids_mapError]
    exact Iff.rfl
  | receive env =>
    rw [InTable, step, IndexFits]
    by_cases hc : c.receiving = true
    · rw [if_pos hc, receiverRound_avoids hs]
      exact (imp_iff_right hc).symm
    · rw [if_neg hc]
      exact iff_of_true (avoids_ok _) (absurd · hc)

/-- The indices stay in the table exactly in the runs in which what arrives names members that are
in it. -/
theorem index_iff (m : GroupMember) (sock : Sock) (buf : Bytes) (events : List ClientEvent) :
    Meets step InTable (start m sock buf) events ↔ Meets step IndexFits (start m sock buf) events :=
  meets_iff (G := fun _ _ => True) (I := SenderOk) (fun _ _ hs _ => inTable_iff hs)
    (fun _ _ _ hs _ _ h => senderOk_of_step hs h) senderOk_start
    (meets_of_forall (fun _ _ => trivial) _ _)

/-- A frame whose sender byte names no slot of the table makes the client look behind it. -/
theorem not_inTable_of_frame {s : Sock} {f : Frame} {rest buf : Bytes} (hs : s.ErrorFree)
    (hinp : s.inp = f.wire ++ rest) (hbuf : buf.length < 2 ^ 32)
    (hlen : f.payload.length < buf.length) (hf : MAX_GROUP_MEMBERS ≤ f.reserved.toNat)
    {m : GroupMember} : ¬ (start m s buf).InTable (.receive env) := by
  intro h
  obtain ⟨q, -, hr⟩ := recvFrame_wire hs hinp hbuf hlen
  have hfits := (inTable_iff senderOk_start).mp h rfl
  rw [start, groupLmpRecv, hr] at hfits
  have hlt : (f.reserved.toNat : Int) < MAX_GROUP_MEMBERS := hfits.1
  omega

/-- A message from an eleventh member. -/
theorem not_inTable_of_eleventh : ¬ Meets step InTable
    (start (userMemberInfo (str "u1") (str "ann")) ⟨(groupLmpFrame LMP_MSG (str "hi") 10).wire, []⟩
      (List.replicate 4096 0)) [.receive .allOk] := by
  intro h
  have hs : Sock.ErrorFree ⟨(groupLmpFrame LMP_MSG (str "hi") 10).wire, []⟩ := List.not_mem_nil
  refine not_inTable_of_frame (f := groupLmpFrame LMP_MSG (str "hi") 10) hs
    (List.append_nil _).symm ?_ ?_ (by decide) h.1
  · rw [List.length_replicate]
    decide
  · rw [List.length_replicate]
    decide

end Client

end SocketSpeak
