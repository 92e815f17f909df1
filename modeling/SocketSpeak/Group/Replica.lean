import SocketSpeak.Group.Net

/-!
# The copies of the group object agree

The server sends its `current_group` after every change of it, to all connections, so a client that
has announced itself has the same object once nothing is under way. The one way to break that is
`/grpobj`: the server relays the client's own object like any other frame (`copies_agree`).
-/

namespace SocketSpeak
open CLib Sys Fifo

namespace GroupNet

/-- A group object that comes from a client is not relayed to a client that has announced itself. -/
def NoGrpObj (n : GroupNet) : GroupEvent → Prop
  | .serve k _ _ => ∀ fd ∈ n.conns[k]?, ∀ f ∈ (n.link fd).user.up.head?, f.type = LMP_GRP_OBJ →
    ∀ fd' ∈ n.conns, fd' ≠ fd → n.world.announced fd' = none
  | _ => True

instance (n : GroupNet) : ∀ e, Decidable (n.NoGrpObj e)
  | .serve k _ _ => inferInstanceAs (Decidable (∀ fd ∈ n.conns[k]?, _))
  | .hangup .. | .accept .. | .typed .. | .deliver .. | .drain .. => .isTrue trivial

/-- No frame is under way. -/
def Quiet (n : GroupNet) : Prop := ∀ fd ∈ n.conns, (n.link fd).user.up = [] ∧ (n.link fd).down = []

instance (n : GroupNet) : Decidable n.Quiet := inferInstanceAs (Decidable (∀ fd ∈ n.conns, _))

/-- The copy of each announced client will be the server's object. -/
structure Consistent (n : GroupNet) : Prop where
  table : n.world.server.TableOk
  settles : ∀ fd ∈ n.conns, (n.world.announced fd).isSome →
    wp takes (· = n.world.server.group) (n.link fd).down (n.link fd).user.userGroup

variable {n n' : GroupNet} {fd : Int} {k : Nat} {buf : Bytes} {env : Env} {status : Int}

/-- A client may do what leads its copy to the server's object. -/
theorem Consistent.setLink (hI : n.Consistent) {l : Link} (hl : (n.world.announced fd).isSome →
    fd ∈ n.conns → wp takes (· = n.world.server.group) l.down l.user.userGroup) :
    (n.setLink fd l).Consistent := by
  refine ⟨hI.table, fun fd' hfd' ha => ?_⟩
  rw [link_setLink]
  by_cases h : fd' = fd
  · subst h
    rw [if_pos rfl]
    exact hl ha hfd'
  · rw [if_neg h]
    exact hI.settles fd' hfd' ha

theorem Consistent.read (hI : n.Consistent) (fd : Int) (up : List Frame) :
    (n.read fd up).Consistent :=
  hI.setLink fun ha hfd => hI.settles fd hfd ha

/-! ## What one step does -/

theorem consistent_accept (hI : n.Consistent) (hfd : fd ∉ n.world.server.listener :: n.conns)
    (h : n.serverStep (.accept fd) = .ok n') (m : GroupMember) :
    (n'.setLink fd (.start m)).Consistent := by
  obtain ⟨ht, hg, ha, -, hlink, hold⟩ := accept_ok hI.table hfd h
  refine ⟨ht, fun fd' hfd' hann => ?_⟩
  change (n'.world.announced fd').isSome at hann
  have hne : fd' ≠ fd := by
    rintro rfl
    rw [ha, Function.update_self] at hann
    cases hann
  rw [ha, Function.update_of_ne hne] at hann
  rw [link_setLink, if_neg hne, hlink]
  change wp takes (· = n'.world.server.group) _ _
  rw [hg]
  exact hI.settles fd' (hold fd' hfd' hne) hann

theorem consistent_frame (hI : n.Consistent) (hk : n.conns[k]? = some fd) {f : Frame}
    (hok : ∀ fd ∈ n.conns, env.sendOk fd)
    (hobj : f.type = LMP_GRP_OBJ → ∀ fd' ∈ n.conns, fd' ≠ fd → n.world.announced fd' = none)
    (h : n.serverStep (.frame (k + 1) f buf env) = .ok n') : n'.Consistent := by
  obtain ⟨out, hs, ha, -, hlink⟩ := serverStep_ok h
  refine ⟨hI.table.frame hs, fun fd' hfd' hann => ?_⟩
  rw [hlink]
  change wp takes _ ((n.link fd').down ++ sentTo out _ fd') (n.link fd').user.userGroup
  have hconns : n'.conns = n.conns := (Server.conns_of_frame hs).2.1
  -- a frame without a group object leaves the copy where it was going to end
  have settled : ∀ nickname, f.type ≠ LMP_GRP_INIT_MEMBER →
      n'.world.server.group = n.world.server.group →
      (∀ o ∈ out, o.fd = fd' → (n.world.announced fd').isSome → o.frame.type ≠ LMP_GRP_OBJ) →
      wp takes (· = n'.world.server.group) ((n.link fd').down ++ sentTo out nickname fd')
        (n.link fd').user.userGroup := by
    intro nickname hinit hg hne
    rw [ha, World.isSome_announcedAfter hinit] at hann
    rw [hg]
    apply wp_append_keeps (hI.settles fd' (hconns ▸ hfd') hann)
    intro m hm
    obtain ⟨o, ho, hfd, rfl⟩ := mem_sentTo.mp hm
    exact keeps_of_ne (hne o ho hfd hann) _
  cases Server.sends_of_frame hI.table hok hs with
  | broadcast _ hb => exact wp_broadcast hb hfd' _ _ _
  | relay hinit hg _ hout =>
    apply settled _ hinit hg
    intro o ho hto hann ht
    obtain ⟨hne, hframe⟩ := hout o ho
    rw [hframe] at ht
    have hnone := hobj ht fd' (hconns ▸ hfd') fun he =>
      hne (by rw [hto, he]; exact hI.table.pollFd.mpr hk)
    rw [hnone] at hann
    cases hann
  | answer hinit hg hout =>
    apply settled _ hinit hg
    intro o ho _ _ ht
    have hans := hout o ho
    rw [ht] at hans
    exact absurd hans (by decide)

theorem consistent_close (hI : n.Consistent) (hk : n.conns[k]? = some fd)
    (hok : ∀ fd ∈ n.conns, env.sendOk fd) (h : n.close fd k status env = .ok n') :
    n'.Consistent := by
  obtain ⟨n₁, h₁, hw, hl, -⟩ := close_ok h
  obtain ⟨out, hs, -, -, hlink⟩ := serverStep_ok h₁
  have hlt : k < n.conns.length := (List.getElem?_eq_some_iff.mp hk).1
  have hb := Server.broadcast_of_hangup hI.table hlt hok hs
  refine ⟨by rw [hw]; exact hI.table.hangup hlt hs, fun fd' hfd' _ => ?_⟩
  rw [conns, hw] at hfd'
  rw [hw, hl, hlink]
  exact wp_broadcast hb hfd' _ _ _

theorem consistent_step {e : GroupEvent} (hI : n.Consistent) (hC : n.SendsOk e ∧ n.NoGrpObj e)
    (h : n.step e = .ok n') : n'.Consistent := by
  obtain ⟨hok, hobj⟩ := hC
  cases moved_of_step h with
  | accept hfd h₁ => exact consistent_accept hI hfd h₁ _
  | typed hfd hu =>
    apply hI.setLink
    intro ha _
    rw [User.userGroup_of_typed hu]
    exact hI.settles _ hfd ha
  | serve hk hup h₁ =>
    refine consistent_frame (hI.read _ _) hk hok ?_ h₁
    exact hobj _ hk _ (by rw [hup]; rfl)
  | overlong hk hup h₁ => exact consistent_close (hI.read _ _) hk hok h₁
  | hangup hk h₁ => exact consistent_close hI hk hok h₁
  | deliver hfd hdown hu =>
    apply hI.setLink
    intro ha _
    have hw := hI.settles _ hfd ha
    rw [hdown] at hw
    exact wp_deliver hw (takes_of_receive hu)
  | drain _ _ _ => exact ⟨hI.table, hI.settles⟩

theorem consistent_start (listener : Int) (info : GroupInfo) : (start listener info).Consistent :=
  ⟨.start listener info, fun _ h => by cases h⟩

/-! ## Main result -/

/-- **The copies agree.** In every state in which no frame is under way, each client that has
announced itself has the server's group object, if nobody's `/grpobj` has been relayed to one. -/
theorem copies_agree (listener : Int) (info : GroupInfo) (es : List GroupEvent) (n : GroupNet)
    (h : exec step (start listener info) es = .ok n)
    (hC : Meets step (fun n e => n.SendsOk e ∧ n.NoGrpObj e) (start listener info) es)
    (hq : n.Quiet) (fd : Int) (hfd : fd ∈ n.conns) (ha : (n.world.announced fd).isSome) :
    (n.link fd).user.userGroup = n.world.server.group := by
  have hI : n.Consistent := exec_invariant (fun _ _ _ hI hC h => consistent_step hI hC h)
    (consistent_start listener info) hC h
  have hw := hI.settles fd hfd ha
  rw [(hq fd hfd).2] at hw
  exact hw

/-- The first client changes its nickname, and the second one learns it. -/
theorem copies_agree_nick :
    let es := annAndBob ++ [.typed 5 (str "/nick anna\n") .allOk, .serve 0 [] .allOk,
      .deliver 6 [] .allOk, .deliver 5 [] .allOk]
    ∃ n, exec step (start 3 gserverInfo) es = .ok n ∧
      (n.link 6).user.userGroup = n.world.server.group := by
  intro es
  have hC : Meets step (fun n e => n.SendsOk e ∧ n.NoGrpObj e) (start 3 gserverInfo) es := by
    decide +kernel
  have hend : ∀ n ∈ (exec step (start 3 gserverInfo) es).toOption,
      n.Quiet ∧ 6 ∈ n.conns ∧ (n.world.announced 6).isSome := by decide +kernel
  obtain ⟨n, h, hq, hfd, ha⟩ := exists_ok (by decide +kernel) hend
  exact ⟨n, h, copies_agree 3 gserverInfo es n h hC hq 6 hfd ha⟩

/-- The first client types `/grpobj`: the second one has its empty group object for good. -/
theorem copies_differ_grpobj :
    let es := annAndBob ++ [.typed 5 (str "/grpobj\n") .allOk, .serve 0 [] .allOk,
      .deliver 6 [] .allOk]
    Meets step SendsOk (start 3 gserverInfo) es ∧
      ∃ n, exec step (start 3 gserverInfo) es = .ok n ∧ n.Quiet ∧ 6 ∈ n.conns ∧
        (n.world.announced 6).isSome ∧ (n.link 6).user.userGroup = .zero ∧
        (n.link 6).user.userGroup ≠ n.world.server.group := by
  intro es
  exact ⟨by decide +kernel, exists_ok (by decide +kernel) (by decide +kernel)⟩

end GroupNet

end SocketSpeak
