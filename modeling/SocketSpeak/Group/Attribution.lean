import SocketSpeak.Group.Net

/-!
# Under which name a message is shown

A relayed message carries the index of its sender, and the client looks it up in its own copy of the
group object. The copies change in step with the table, so the name is the one that the table had
when the message was relayed (`attributed`), unless the client has never been sent the object:
then its copy is still the empty one.
-/

namespace SocketSpeak
open CLib Sys Fifo

/-- In the copy `g`, the sender of the message has the nickname that it had for the server. -/
def Names (g : Group) (m : Sent) : Prop := m.frame.type = LMP_MSG →
  ∃ sender, g.member m.frame.reserved.toNat = .ok sender ∧ m.nickname = some sender.nickname.toStr

namespace Link

/-- What the copy will be once everything has been received. -/
def Expected (l : Link) (g copy : Group) : Prop := copy = if l.greeted then g else .zero

/-- The copy will be the server's object `g`, or the empty one before the first broadcast, and the
senders of the messages under way will be found in it. -/
structure Sound (l : Link) (g : Group) : Prop where
  settles : wp takes (l.Expected g) l.down l.user.userGroup
  named : Along takes Names l.down l.user.userGroup

/-- The next frame is shown as a message of the sender that the server has relayed it for. -/
def Shows (l l' : Link) : Prop := ∀ m ∈ l.down.head?, m.frame.type = LMP_MSG →
  ∃ nickname ∈ m.nickname,
    l'.user.stdout = l.user.stdout ++ [chatLine nickname (cstr m.frame.payload)]

instance (l l' : Link) : Decidable (l.Shows l') :=
  inferInstanceAs (Decidable (∀ m ∈ l.down.head?, _))

variable {l : Link} {g : Group} {ms : List Sent}

theorem sound_start (m : GroupMember) (g : Group) : (start m).Sound g := ⟨rfl, trivial⟩

theorem Sound.deliver (hl : l.Sound g) {m : Sent} (hdown : l.down = m :: ms) {env : UserEnv}
    {buf : Bytes} {u : User} (hu : l.user.receive env m.frame buf = .ok u) :
    { l with user := u, down := ms }.Sound g := by
  obtain ⟨hs, hn⟩ := hl
  rw [hdown] at hs hn
  exact ⟨wp_deliver hs (takes_of_receive hu), hn.deliver (takes_of_receive hu)⟩

theorem shows_of_receive (hl : Along takes Names l.down l.user.userGroup) {m : Sent}
    (hdown : l.down = m :: ms) {env : UserEnv} {buf : Bytes} {u : User}
    (hu : l.user.receive env m.frame buf = .ok u) : l.Shows { l with user := u, down := ms } := by
  intro m' hm' hmsg
  rw [hdown] at hl hm'
  cases hm'
  obtain ⟨sender, hsender, hnick⟩ := hl.head hmsg
  obtain ⟨sender', hsender', hout⟩ := User.stdout_of_receive hmsg hu
  rw [hsender] at hsender'
  cases hsender'
  exact ⟨_, hnick, hout⟩

/-- Frames without a group object, in which the copy names the senders right. -/
theorem Sound.post (hl : l.Sound g) (hne : ∀ m ∈ ms, m.frame.type ≠ LMP_GRP_OBJ)
    (hn : ∀ copy, l.Expected g copy → ∀ m ∈ ms, Names copy m) : (l.post ms).Sound g := by
  have hgreeted : (l.post ms).greeted = l.greeted := by
    have hany : (ms.any fun m => decide (m.frame.type = LMP_GRP_OBJ)) = false := by
      rw [List.any_eq_false]
      intro m hm
      simpa using hne m hm
    rw [Link.post, hany, Bool.or_false]
  refine ⟨?_, ?_⟩
  · unfold Expected
    rw [hgreeted]
    exact wp_append_keeps hl.settles fun m hm => keeps_of_ne (hne m hm) _
  · exact hl.named.append hl.settles (fun m hm => keeps_of_ne (hne m hm) _) hn

theorem Sound.broadcast (hl : Along takes Names l.down l.user.userGroup) {s : Server}
    {out : List Output} (hb : s.Broadcast out) {fd : Int} (hfd : fd ∈ s.conns)
    (nickname : Option Bytes) : (l.post (sentTo out nickname fd)).Sound s.group := by
  have hgreeted : (l.post (sentTo out nickname fd)).greeted = true := by
    have hany :
        ((sentTo out nickname fd).any fun m => decide (m.frame.type = LMP_GRP_OBJ)) = true :=
      List.any_eq_true.mpr ⟨_, mem_sentTo.mpr ⟨_, hb.reaches fd hfd, rfl, rfl⟩, rfl⟩
    rw [Link.post, hany, Bool.or_true]
  refine ⟨?_, ?_⟩
  · unfold Expected
    rw [hgreeted]
    exact wp_broadcast hb hfd _ _ _
  · refine hl.append (wp_of_forall fun _ => trivial) (P := fun _ => True)
      (fun m _ _ _ _ _ => trivial) fun copy _ m hm => ?_
    obtain ⟨o, ho, -, rfl⟩ := mem_sentTo.mp hm
    intro hmsg
    rw [hb.only o ho] at hmsg
    exact absurd (show LMP_GRP_OBJ = LMP_MSG from hmsg) (by decide)

end Link

/-! ## The relay of a message -/

theorem Group.member_zero {k : Nat} (hk : k < MAX_GROUP_MEMBERS) :
    Group.zero.member k = .ok .zero := by
  refine Group.member_eq_ok.mpr ⟨k, rfl, ?_⟩
  simp [Group.zero, hk]

/-- The relayed message finds its sender in the copy of a client that has been sent the object; the
empty copy of another one has no nicknames. -/
theorem names_of_relay {s : Server} {k : Nat} {l : Link} {copy : Group}
    (hcopy : l.Expected s.group copy)
    (hsender : ∃ m, s.group.member ((k + 1 : Nat) - 1) = .ok m)
    (hgreeted : l.greeted ∨ s.senderNickname (k + 1) = some []) (payload : Bytes) :
    Names copy ⟨groupLmpFrame LMP_MSG payload ((k + 1 : Nat) - 1), s.senderNickname (k + 1)⟩ := by
  intro _
  have hi : ((k + 1 : Nat) : Int) - 1 = k := by omega
  obtain ⟨m, hm⟩ := hsender
  have hnick : s.senderNickname (k + 1) = some m.nickname.toStr := by
    rw [Server.senderNickname, hm]
  rw [hi] at hm
  have hk : k < MAX_GROUP_MEMBERS := by
    obtain ⟨j, hj, hget⟩ := Group.member_eq_ok.mp hm
    have hlt := (Vector.getElem?_eq_some_iff.mp hget).1
    omega
  have hindex : ((groupLmpFrame LMP_MSG payload ((k + 1 : Nat) - 1)).reserved.toNat : Int) = k := by
    rw [MAX_GROUP_MEMBERS] at hk
    rw [groupLmpFrame, toNat_toUint8, hi]
    omega
  rw [hindex, hnick]
  by_cases hg : l.greeted = true
  · rw [Link.Expected, if_pos hg] at hcopy
    exact ⟨m, hcopy ▸ hm, rfl⟩
  · rw [Link.Expected, if_neg hg] at hcopy
    have hempty := hgreeted.resolve_left hg
    rw [hnick] at hempty
    refine ⟨.zero, hcopy ▸ Group.member_zero hk, hempty.trans ?_⟩
    rw [GroupMember.zero, CharArray.toStr_zero]

namespace GroupNet

/-- The frames that the server handles are not group objects. -/
def Talk (n : GroupNet) : GroupEvent → Prop
  | .serve k _ _ => ∀ fd ∈ n.conns[k]?, ∀ f ∈ (n.link fd).user.up.head?, f.type ≠ LMP_GRP_OBJ
  | _ => True

/-- No message is relayed to a client that has not been sent the group object yet, unless its
sender has no nickname. -/
def Introduced (n : GroupNet) : GroupEvent → Prop
  | .serve k _ _ => ∀ fd ∈ n.conns[k]?, ∀ f ∈ (n.link fd).user.up.head?, f.type = LMP_MSG →
    ∀ fd' ∈ n.conns, fd' ≠ fd →
      (n.link fd').greeted ∨ n.world.server.senderNickname (k + 1) = some []
  | _ => True

/-- A receiver that has taken a message has shown it under the right nickname. -/
def Attributes (n n' : GroupNet) : GroupEvent → Prop
  | .deliver fd _ _ => (n.link fd).Shows (n'.link fd)
  | .drain j _ _ => ∀ l ∈ n.closed[j]?, ∀ l' ∈ n'.closed[j]?, l.Shows l'
  | _ => True

def AttributedAfter (n : GroupNet) (e : GroupEvent) : Prop :=
  ∀ n' ∈ (n.step e).toOption, n.Attributes n' e

instance (n n' : GroupNet) : ∀ e, Decidable (n.Attributes n' e)
  | .deliver fd _ _ => inferInstanceAs (Decidable ((n.link fd).Shows (n'.link fd)))
  | .drain j _ _ => inferInstanceAs (Decidable (∀ l ∈ n.closed[j]?, ∀ l' ∈ n'.closed[j]?, _))
  | .accept .. | .typed .. | .serve .. | .hangup .. => .isTrue trivial

instance (n : GroupNet) (e : GroupEvent) : Decidable (n.AttributedAfter e) :=
  inferInstanceAs (Decidable (∀ n' ∈ (n.step e).toOption, _))

instance (n : GroupNet) : ∀ e, Decidable (n.Talk e)
  | .serve k _ _ => inferInstanceAs (Decidable (∀ fd ∈ n.conns[k]?, _))
  | .hangup .. | .accept .. | .typed .. | .deliver .. | .drain .. => .isTrue trivial

instance (n : GroupNet) : ∀ e, Decidable (n.Introduced e)
  | .serve k _ _ => inferInstanceAs (Decidable (∀ fd ∈ n.conns[k]?, _))
  | .hangup .. | .accept .. | .typed .. | .deliver .. | .drain .. => .isTrue trivial

/-- Every connection is sound, and on the closed ones the senders will still be found. -/
structure Attributed (n : GroupNet) : Prop where
  table : n.world.server.TableOk
  sound : ∀ fd ∈ n.conns, (n.link fd).Sound n.world.server.group
  closed : ∀ l ∈ n.closed, Along takes Names l.down l.user.userGroup

variable {n n' : GroupNet} {fd : Int} {k : Nat} {buf : Bytes} {env : Env} {status : Int}

theorem Attributed.setLink (hI : n.Attributed) {l : Link}
    (hl : fd ∈ n.conns → l.Sound n.world.server.group) : (n.setLink fd l).Attributed := by
  refine ⟨hI.table, fun fd' hfd' => ?_, hI.closed⟩
  rw [link_setLink]
  by_cases h : fd' = fd
  · subst h
    rw [if_pos rfl]
    exact hl hfd'
  · rw [if_neg h]
    exact hI.sound fd' hfd'

theorem Attributed.read (hI : n.Attributed) (fd : Int) (up : List Frame) :
    (n.read fd up).Attributed := by
  apply hI.setLink
  intro hfd
  obtain ⟨hs, hn⟩ := hI.sound fd hfd
  exact ⟨hs, hn⟩

/-! ## What one step does -/

theorem attributed_accept (hI : n.Attributed) (hfd : fd ∉ n.world.server.listener :: n.conns)
    (h : n.serverStep (.accept fd) = .ok n') (m : GroupMember) :
    (n'.setLink fd (.start m)).Attributed := by
  obtain ⟨ht, hg, -, hc, hlink, hold⟩ := accept_ok hI.table hfd h
  refine ⟨ht, fun fd' hfd' => ?_, hc ▸ hI.closed⟩
  rw [link_setLink]
  by_cases hne : fd' = fd
  · rw [if_pos hne]
    exact Link.sound_start ..
  · rw [if_neg hne, hlink]
    change Link.Sound _ n'.world.server.group
    rw [hg]
    exact hI.sound fd' (hold fd' hfd' hne)

theorem attributed_frame (hI : n.Attributed) (hk : n.conns[k]? = some fd) {f : Frame}
    (hok : ∀ fd ∈ n.conns, env.sendOk fd) (hobj : f.type ≠ LMP_GRP_OBJ)
    (hintro : f.type = LMP_MSG → ∀ fd' ∈ n.conns, fd' ≠ fd →
      (n.link fd').greeted ∨ n.world.server.senderNickname (k + 1) = some [])
    (h : n.serverStep (.frame (k + 1) f buf env) = .ok n') : n'.Attributed := by
  obtain ⟨out, hs, -, hc, hlink⟩ := serverStep_ok h
  have hconns : n'.conns = n.conns := (Server.conns_of_frame hs).2.1
  refine ⟨hI.table.frame hs, fun fd' hfd' => ?_, hc ▸ hI.closed⟩
  rw [hlink]
  have hold := hI.sound fd' (hconns ▸ hfd')
  cases Server.sends_of_frame hI.table hok hs with
  | broadcast _ hb => exact .broadcast hold.named hb hfd' _
  | relay _ hg hmsg hout =>
    rw [hg]
    refine hold.post (fun m hm => ?_) fun copy hcopy m hm => ?_
    · obtain ⟨o, ho, -, rfl⟩ := mem_sentTo.mp hm
      rw [(hout o ho).2]
      exact hobj
    · obtain ⟨o, ho, hto, rfl⟩ := mem_sentTo.mp hm
      obtain ⟨hne, hframe⟩ := hout o ho
      by_cases hf : f.type = LMP_MSG
      · have hnot : fd' ≠ fd := by
          rintro rfl
          exact hne (hto ▸ hI.table.pollFd.mpr hk)
        have hnick : n.world.server.nicknameFor (.frame (k + 1) f buf env) =
            n.world.server.senderNickname (k + 1) := if_pos hf
        have htype : (groupLmpFrame LMP_MSG f.payload ((k + 1 : Nat) - 1)).type = LMP_MSG := rfl
        rw [hframe, hf, hnick, if_pos htype]
        exact names_of_relay hcopy (hmsg hf) (hintro hf fd' (hconns ▸ hfd') hnot) _
      · intro ht
        rw [hframe] at ht
        exact absurd ht hf
  | answer _ hg hout =>
    rw [hg]
    refine hold.post (fun m hm => ?_) fun copy _ m hm => ?_
    · obtain ⟨o, ho, -, rfl⟩ := mem_sentTo.mp hm
      intro ht
      have hans := hout o ho
      rw [ht] at hans
      exact absurd hans (by decide)
    · obtain ⟨o, ho, -, rfl⟩ := mem_sentTo.mp hm
      intro ht
      have hans := hout o ho
      rw [ht] at hans
      exact absurd hans (by decide)

theorem attributed_close (hI : n.Attributed) (hk : n.conns[k]? = some fd)
    (hok : ∀ fd ∈ n.conns, env.sendOk fd) (h : n.close fd k status env = .ok n') :
    n'.Attributed := by
  obtain ⟨n₁, h₁, hw, hl, hc⟩ := close_ok h
  obtain ⟨out, hs, -, -, hlink⟩ := serverStep_ok h₁
  have hlt : k < n.conns.length := (List.getElem?_eq_some_iff.mp hk).1
  have hb := Server.broadcast_of_hangup hI.table hlt hok hs
  refine ⟨by rw [hw]; exact hI.table.hangup hlt hs, fun fd' hfd' => ?_, fun l hl => ?_⟩
  · rw [conns, hw] at hfd'
    rw [hw, hl, hlink]
    refine .broadcast (hI.sound fd' ?_).named hb hfd' _
    rw [(Server.conns_of_hangup hI.table hlt hs).2] at hfd'
    exact mem_of_mem_swapRemove hfd'
  · rw [hc] at hl
    rcases List.mem_append.mp hl with hl | hl
    · exact hI.closed l hl
    · rw [List.mem_singleton] at hl
      subst hl
      exact (hI.sound fd (List.mem_of_getElem? hk)).named

theorem attributed_step {e : GroupEvent} (hI : n.Attributed)
    (hC : (n.SendsOk e ∧ n.Talk e) ∧ n.Introduced e) (h : n.step e = .ok n') : n'.Attributed := by
  obtain ⟨⟨hok, hobj⟩, hintro⟩ := hC
  cases moved_of_step h with
  | accept hfd h₁ => exact attributed_accept hI hfd h₁ _
  | typed hfd hu =>
    apply hI.setLink
    intro _
    obtain ⟨hs, hn⟩ := hI.sound _ hfd
    rw [← User.userGroup_of_typed hu] at hs hn
    exact ⟨hs, hn⟩
  | serve hk hup h₁ =>
    refine attributed_frame (hI.read _ _) hk hok ?_ ?_ h₁
    · exact hobj _ hk _ (by rw [hup]; rfl)
    · intro hf fd' hfd' hne
      have hg := hintro _ hk _ (by rw [hup]; rfl) hf fd' hfd' hne
      rw [link_read, if_neg hne]
      exact hg
  | overlong hk hup h₁ => exact attributed_close (hI.read _ _) hk hok h₁
  | hangup hk h₁ => exact attributed_close hI hk hok h₁
  | deliver hfd hdown hu => exact hI.setLink fun _ => (hI.sound _ hfd).deliver hdown hu
  | drain hl hdown hu =>
    refine ⟨hI.table, hI.sound, fun l hm => ?_⟩
    rcases List.mem_or_eq_of_mem_set hm with hm | rfl
    · exact hI.closed l hm
    · have hn := hI.closed _ (List.mem_of_getElem? hl)
      rw [hdown] at hn
      exact hn.deliver (takes_of_receive hu)

theorem attributedAfter_of_attributed (hI : n.Attributed) (e : GroupEvent) :
    n.AttributedAfter e := by
  intro n' hn'
  have hstep : n.step e = .ok n' := by
    cases hs : n.step e with
    | error => rw [hs] at hn'; cases hn'
    | ok n₁ => rw [hs] at hn'; cases hn'; rfl
  cases moved_of_step hstep with
  | deliver hfd hdown hu =>
    simp only [Attributes, link_setLink, if_true]
    exact Link.shows_of_receive (hI.sound _ hfd).named hdown hu
  | drain hl hdown hu =>
    intro l hm l' hm'
    rw [hl] at hm
    cases hm
    have hlt := (List.getElem?_eq_some_iff.mp hl).1
    simp only [List.getElem?_set_self hlt] at hm'
    cases hm'
    exact Link.shows_of_receive (hI.closed _ (List.mem_of_getElem? hl)) hdown hu
  | _ => trivial

theorem attributed_start (listener : Int) (info : GroupInfo) : (start listener info).Attributed :=
  ⟨.start listener info, fun _ h => (by cases h), fun _ h => (by cases h)⟩

/-! ## Main result -/

/-- **Messages are attributed.** What the receivers show, they show under the nickname that the
server's table had for the sender when the message was relayed, if every message was relayed only to
clients that had been sent the group object. -/
theorem attributed (listener : Int) (info : GroupInfo) (es : List GroupEvent)
    (hd : Meets step (fun n e => (n.SendsOk e ∧ n.Talk e) ∧ n.Introduced e)
      (start listener info) es) :
    Meets step AttributedAfter (start listener info) es :=
  meets_of_invariant (I := Attributed) (fun _ _ _ hI hC h => attributed_step hI hC h)
    (fun _ e hI _ => attributedAfter_of_attributed hI e) (attributed_start listener info) hd

/-- A message of the first client, then a new nickname, and another message. -/
theorem attributed_nick :
    Meets step AttributedAfter (start 3 gserverInfo) (annAndBob ++
      [.typed 5 (str "hi\n") .allOk, .serve 0 [] .allOk, .typed 5 (str "/nick anna\n") .allOk,
        .serve 0 [] .allOk, .typed 5 (str "me again\n") .allOk, .serve 0 [] .allOk,
        .deliver 6 [] .allOk, .deliver 6 [] .allOk, .deliver 6 [] .allOk]) := by
  apply attributed
  decide +kernel

/-- The second client is accepted, but has not announced itself yet: it shows a message of the first
one under no name. -/
theorem not_attributed_new_client :
    let es : List GroupEvent := [.accept 5 (str "a0000001") (str "ann"), .serve 0 [] .allOk,
      .accept 6 (str "b0000002") (str "bob"), .typed 5 (str "hi\n") .allOk, .serve 0 [] .allOk,
      .deliver 6 [] .allOk]
    Meets step (fun n e => n.SendsOk e ∧ n.Talk e) (start 3 gserverInfo) es ∧
      (∃ n, exec step (start 3 gserverInfo) es = .ok n ∧
        n.world.server.senderNickname 1 = some (str "ann") ∧
        (n.link 6).user.stdout = [chatLine [] (str "hi")]) ∧
      ¬ Meets step AttributedAfter (start 3 gserverInfo) es := by
  intro es
  exact ⟨by decide +kernel, exists_ok (by decide +kernel) (by decide +kernel), by decide +kernel⟩

end GroupNet

end SocketSpeak
