import SocketSpeak.Group.PollLoop

/-!
# The rounds of a run

Between a `poll` and the next one the loop goes through the table once, while the clients go on.
Seen from the server that is a call of `processConnections`, so that every descriptor that `poll`
has marked is handled before `poll` is called again, and handled once.
-/

namespace SocketSpeak
open CLib Sys

/-! ## What comes in is asked for once -/

namespace RoundInput

/-- The other input gives the same for the descriptors `fds`. -/
def Agrees (inp inp' : RoundInput) (fds : List Int) : Prop :=
  ∀ fd ∈ fds, inp'.recv fd = inp.recv fd ∧ inp'.env fd = inp.env fd ∧
    inp'.accepted = inp.accepted ∧ inp'.sigpipe fd = inp.sigpipe fd

/-- `fd` is given `x`, and no send raises a signal while it is handled. -/
def answer (inp : RoundInput) (fd : Int) (x : Except Int (Frame × Bytes)) (env : Env) :
    RoundInput :=
  { inp with
    recv := Function.update inp.recv fd x
    env := Function.update inp.env fd env
    sigpipe := Function.update inp.sigpipe fd fun _ => false }

theorem sigpipe_answer (inp : RoundInput) (fd : Int) (x : Except Int (Frame × Bytes)) (env : Env)
    (fd' : Int) : (inp.answer fd x env).sigpipe fd fd' = false := by
  simp only [answer, Function.update_self]

theorem envAt_answer (inp : RoundInput) (fd : Int) (x : Except Int (Frame × Bytes)) (env : Env) :
    (inp.answer fd x env).envAt fd = env := by
  simp only [envAt, answer, Function.update_self, Bool.or_false]

theorem agrees_answer (inp : RoundInput) {fd : Int} {fds : List Int} (hfd : fd ∉ fds)
    (x : Except Int (Frame × Bytes)) (env : Env) : inp.Agrees (inp.answer fd x env) fds := by
  intro fd' hfd'
  have hne : fd' ≠ fd := fun h => hfd (h ▸ hfd')
  exact ⟨Function.update_of_ne hne .., Function.update_of_ne hne .., rfl,
    Function.update_of_ne hne ..⟩

end RoundInput

namespace Round
variable {s : Server} {inp inp' : RoundInput} {r r' : Round} {c : PollFd} {gone : List PollFd}

theorem event_congr {fd : Int} (h : inp.Agrees inp' [fd]) : r.event inp' fd = r.event inp fd := by
  obtain ⟨hrecv, henv, hacc, hsig⟩ := h fd List.mem_cons_self
  simp only [event, RoundInput.envAt, hrecv, henv, hacc, hsig]

theorem event_frame {fd : Int} (hl : fd ≠ r.server.listener) {f : Frame} {buf : Bytes}
    {env : Env} : r.event (inp.answer fd (.ok (f, buf)) env) fd = .frame r.i f buf env := by
  rw [event, if_neg hl, RoundInput.envAt_answer]
  simp only [RoundInput.answer, Function.update_self]

theorem event_hangup {fd : Int} (hl : fd ≠ r.server.listener) {status : Int} {env : Env} :
    r.event (inp.answer fd (.error status) env) fd = .hangup r.i status env := by
  rw [event, if_neg hl, RoundInput.envAt_answer]
  simp only [RoundInput.answer, Function.update_self]

theorem step_congr (h : step inp r () = .ok r') (ha : inp.Agrees inp' r'.handled) :
    step inp' r () = .ok r' := by
  cases hc : r.server.pfds[r.i]? with
  | none => simpa only [step, hc] using h
  | some c =>
    simp only [step, hc] at h ⊢
    split
    · rename_i hr
      rw [if_pos hr] at h
      obtain ⟨out, server, hs, hquiet, rfl⟩ := handle_eq_ok.mp h
      have ha : inp.Agrees inp' [c.fd] := fun fd hfd => ha fd (List.mem_append_right _ hfd)
      have hsig := (ha c.fd List.mem_cons_self).2.2.2
      exact handle_eq_ok.mpr ⟨out, server, by rw [event_congr ha, hs], by rwa [hsig],
        by rw [event_congr ha]⟩
    · rename_i hr
      rwa [if_neg hr] at h

theorem handled_of_step (h : step inp r () = .ok r') :
    ∃ fds, r'.handled = r.handled ++ fds := by
  cases hc : r.server.pfds[r.i]? with
  | none =>
    simp only [step, hc] at h
    cases h
    exact ⟨[], (List.append_nil _).symm⟩
  | some c =>
    cases stepped_of_step hc h with
    | skip _ _ _ hh => exact ⟨[], by rw [hh, List.append_nil]⟩
    | accept _ _ _ _ hh => exact ⟨_, hh⟩
    | frame _ _ _ _ _ _ _ _ hh => exact ⟨_, hh⟩
    | hangup _ _ _ _ _ _ _ hh => exact ⟨_, hh⟩

theorem handled_of_exec {us : List Unit} (h : exec (step inp) r us = .ok r') :
    ∃ fds, r'.handled = r.handled ++ fds := by
  induction us generalizing r with
  | nil => cases h; exact ⟨[], (List.append_nil _).symm⟩
  | cons u us ih =>
    obtain ⟨m, hm, h⟩ := exec_cons_ok.mp h
    obtain ⟨fds, hfds⟩ := handled_of_step hm
    obtain ⟨fds', hfds'⟩ := ih h
    exact ⟨fds ++ fds', by rw [hfds', hfds, List.append_assoc]⟩

/-- The iterations depend on the input by what has been handled. -/
theorem exec_congr {us : List Unit} (h : exec (step inp) r us = .ok r')
    (ha : inp.Agrees inp' r'.handled) : exec (step inp') r us = .ok r' := by
  induction us generalizing r with
  | nil => exact h
  | cons u us ih =>
    obtain ⟨m, hm, h⟩ := exec_cons_ok.mp h
    obtain ⟨fds, hfds⟩ := handled_of_exec h
    refine exec_cons_ok.mpr ⟨m, step_congr hm fun fd hfd => ha fd ?_, ih h⟩
    rw [hfds]
    exact List.mem_append_left _ hfd

/-- No entry is handled twice. -/
theorem Going.not_mem_handled (ht : s.TableOk)
    (hnew : inp.accepted ≠ -1 → inp.accepted ∉ s.listener :: s.conns) (hI : Going s inp gone r)
    (hc : r.server.pfds[r.i]? = some c) : c.fd ∉ r.handled := by
  have hnd : ((s.pfds ++ r.accepted s inp).map PollFd.fd).Nodup := by
    rw [List.map_append, ht.head]
    unfold accepted
    split
    · rename_i h
      have hfresh := hnew h.2.2
      refine List.nodup_append.mpr ⟨ht.nodup, List.nodup_singleton _, ?_⟩
      rintro a ha b hb rfl
      obtain rfl : a = inp.accepted := List.mem_singleton.mp hb
      exact hfresh ha
    · rw [List.map_nil, List.append_nil]
      exact ht.nodup
  have hlt := (List.getElem?_eq_some_iff.mp hc).1
  have hsplit : r.server.pfds = r.server.pfds.take r.i ++ c :: r.server.pfds.drop (r.i + 1) := by
    conv_lhs => rw [← List.take_append_drop (r.i + 1) r.server.pfds, take_succ hc]
    rw [List.append_assoc]
    rfl
  rw [← (hI.perm.map PollFd.fd).nodup_iff, hsplit, ← List.append_assoc, List.map_append] at hnd
  intro hmem
  obtain ⟨q, hq, hfd⟩ := List.mem_map.mp (hI.handled.mem_iff.mp hmem)
  have hq : q.fd ∈ (gone ++ r.server.pfds.take r.i).map PollFd.fd :=
    List.mem_map_of_mem (List.mem_of_mem_filter hq)
  exact (List.nodup_append.mp hnd).2.2 _ hq c.fd (by simp) hfd

end Round

/-! ## The table of the loop -/

/-- The table of the server is in order, and there is room for it. -/
structure Server.Roomy (s : Server) : Prop where
  table : s.TableOk
  size : s.fdCount ≤ s.fdSize

theorem Server.Roomy.size_step {s s' : Server} (hI : s.Roomy) {e : ServerEvent}
    {out : List Output} (h : s.step e = .ok (out, s')) : s'.fdCount ≤ s'.fdSize := by
  have hsize := hI.size
  have hcount := hI.table.fdCount
  cases e with
  | accept fd =>
    cases h
    unfold handleNewConnection
    split
    · exact hsize
    · have hlen : (s.addToPfds fd).fdCount = s.fdCount + 1 := List.length_append
      rw [hlen]
      simp only [addToPfds]
      split <;> omega
  | frame i f buf env =>
    rw [(conns_of_frame h).2.2, fdSize_of_frame h]
    exact hsize
  | hangup i status env =>
    obtain ⟨-, -, hpfds, -⟩ := handled_of_hangup h
    rw [fdCount, hpfds, length_swapRemove, fdSize_of_hangup h]
    exact Nat.le_trans (Nat.sub_le _ _) hsize

theorem GroupNet.roomy_step {n n' : GroupNet} {e : GroupEvent} (hI : n.world.server.Roomy)
    (h : n.step e = .ok n') : n'.world.server.Roomy := by
  refine ⟨tableOk_step hI.table h, ?_⟩
  cases moved_of_step h with
  | typed | deliver | drain => exact hI.size
  | accept _ h₁ | serve _ _ h₁ =>
    obtain ⟨out, hs, -⟩ := serverStep_ok h₁
    exact hI.size_step hs
  | overlong _ _ h₁ | hangup _ h₁ =>
    obtain ⟨n₁, h₂, hw, -⟩ := close_ok h₁
    obtain ⟨out, hs, -⟩ := serverStep_ok h₂
    rw [hw]
    exact hI.size_step hs

theorem Server.roomy_start (listener : Int) (info : GroupInfo) : (start listener info).Roomy :=
  ⟨TableOk.start listener info, (by decide : 1 ≤ MAX_GROUP_MEMBERS + 5)⟩

/-- What holds of the events holds of the loop. -/
theorem PollNet.roomy_of_run {listener : Int} {info : GroupInfo} {es : List PollEvent}
    {p : PollNet} (h : exec step (start listener info) es = .ok p) : p.server.Roomy := by
  obtain ⟨gs, n, hgs, ht, rfl⟩ := simulated.run (matches_start listener info) h
  have hI : p.net.forget.world.server.Roomy :=
    exec_invariant (C := fun _ _ => True) (fun _ _ _ hI _ h => GroupNet.roomy_step hI h)
      (Server.roomy_start listener info) (meets_of_forall (fun _ _ => trivial) _ _) hgs
  have hsize := hI.size
  rw [show p.net.forget.world.server = p.server.forget from rfl, Server.fdCount_forget] at hsize
  exact ⟨ht, hsize⟩

/-! ## A round of the loop -/

/-- Everything but `poll` -/
def PollEvent.InRound : PollEvent → Prop
  | .poll _ => False
  | _ => True

instance : DecidablePred PollEvent.InRound
  | .poll _ => .isFalse fun h => h
  | .iterate _ | .client _ => .isTrue trivial

namespace PollNet
variable {p p' : PollNet} {s : Server}

/-- The descriptor that the loop handles in this step. -/
def handledAt (p : PollNet) : PollEvent → List Int
  | .iterate _ =>
    match p.server.pfds[p.i]? with
    | some c => if c.Ready then [c.fd] else []
    | none => []
  | _ => []

/-- The descriptors that the loop handles, in this order. -/
def handledIn : PollNet → List PollEvent → List Int
  | _, [] => []
  | p, e :: es => p.handledAt e ++
    match p.step e with
    | .ok p' => handledIn p' es
    | .error _ => []

/-- The loop has come to `p` after `n` iterations of a round that began in `s`. -/
structure Tracks (s : Server) (p : PollNet) (hd : List Int) (inp : RoundInput) (n : Nat)
    (out : List Output) : Prop where
  run : exec (Round.step inp) (.start s) (List.replicate n ()) = .ok ⟨p.server, p.i, hd, out⟩
  fresh : inp.accepted ≠ -1 → inp.accepted ∉ s.listener :: s.conns
  left : n + Round.left ⟨p.server, p.i, hd, out⟩ ≤ s.fdCount + 1
  first : p.i = 0 → p.server = s ∧ hd = []

theorem tracks_start (s : Server) (hs : p.server = s) (hi : p.i = 0) :
    ∃ inp n out, Tracks s p [] inp n out := by
  refine ⟨⟨-1, fun _ => .error (-2), fun _ => .allOk, fun _ _ => false⟩, 0, [], ?_,
    fun h => absurd rfl h, ?_, fun _ => ⟨hs, rfl⟩⟩
  · rw [hs, hi]
    rfl
  · rw [hs, hi, Nat.zero_add]
    exact Nat.le_of_eq (Round.left_start s)

variable {hd : List Int} {inp inp' : RoundInput} {n : Nat} {out : List Output} {c : PollFd}

theorem Tracks.going (hs : s.Roomy) (hT : Tracks s p hd inp n out) :
    ∃ gone, Round.Going s inp gone ⟨p.server, p.i, hd, out⟩ :=
  exec_invariant (C := fun _ _ => True)
    (fun _ _ _ hI _ h => Round.going_step hs.table hT.fresh hI h)
    ⟨[], Round.going_start hs.table hs.size⟩ (meets_of_forall (fun _ _ => trivial) _ _) hT.run

/-- One more iteration. -/
theorem Tracks.advance (hs : s.Roomy) (hT : Tracks s p hd inp n out)
    (hc : p.server.pfds[p.i]? = some c) (ha : inp.Agrees inp' hd)
    (hfresh : inp'.accepted ≠ -1 → inp'.accepted ∉ s.listener :: s.conns) {hd' : List Int}
    {out' : List Output} (hi : 0 < p'.i)
    (h : Round.step inp' ⟨p.server, p.i, hd, out⟩ () = .ok ⟨p'.server, p'.i, hd', out'⟩) :
    Tracks s p' hd' inp' (n + 1) out' := by
  have hrun := Round.exec_congr hT.run ha
  have hT' : Tracks s p hd inp' n out := ⟨hrun, hfresh, hT.left, hT.first⟩
  obtain ⟨gone, hI⟩ := hT'.going hs
  have hleft := Round.left_step hI hc h
  refine ⟨?_, hfresh, ?_, fun h0 => by omega⟩
  · rw [List.replicate_succ']
    exact exec_append hrun ((exec_singleton _ _).trans h)
  · have := hT.left
    omega

/-- The entry `c` is ready, and what comes in for it is the event `e`. -/
theorem Tracks.handle (hs : s.Roomy) (hT : Tracks s p hd inp n out)
    (hc : p.server.pfds[p.i]? = some c) (hr : c.Ready) (ha : inp.Agrees inp' hd)
    (hfresh : inp'.accepted ≠ -1 → inp'.accepted ∉ s.listener :: s.conns) {out' : List Output}
    {e : ServerEvent} (he : Round.event ⟨p.server, p.i, hd, out⟩ inp' c.fd = e)
    (hi : p'.i = Round.nextIndex p.i e) (hpos : 0 < p'.i)
    (hquiet : ∀ o ∈ out', inp'.sigpipe c.fd o.fd = false)
    (h : p.server.step e = .ok (out', p'.server)) :
    ∃ inp n out, Tracks s p' (hd ++ [c.fd]) inp n out := by
  refine ⟨inp', n + 1, out ++ out', hT.advance hs hc ha hfresh hpos ?_⟩
  simp only [Round.step, hc, if_pos hr]
  exact Round.handle_eq_ok.mpr ⟨out', p'.server, he ▸ h, hquiet, by rw [he, hi]⟩

/-- `lmp_recv` gives `x` for the entry `c`, which is no listener. -/
theorem Tracks.answer (hs : s.Roomy) (hT : Tracks s p hd inp n out)
    (hc : p.server.pfds[p.i]? = some c) (hr : c.Ready) (hl : c.fd ≠ p.server.listener)
    {x : Except Int (Frame × Bytes)} {env : Env} {e : ServerEvent} {out' : List Output}
    (he : Round.event ⟨p.server, p.i, hd, out⟩ (inp.answer c.fd x env) c.fd = e)
    (hi : p'.i = Round.nextIndex p.i e) (hle : p.i ≤ p'.i)
    (h : p.server.step e = .ok (out', p'.server)) :
    ∃ inp n out, Tracks s p' (hd ++ [c.fd]) inp n out := by
  obtain ⟨gone, hI⟩ := hT.going hs
  have hnot := hI.not_mem_handled hs.table hT.fresh hc
  have hpos : p.i ≠ 0 := mt (Round.fd_eq_listener hI.table hc).mpr hl
  exact hT.handle hs hc hr (inp.agrees_answer hnot x env) hT.fresh he hi (by omega)
    (fun o _ => inp.sigpipe_answer c.fd x env o.fd) h

theorem Tracks.hangup (hs : s.Roomy) (hT : Tracks s p hd inp n out)
    (hc : p.server.pfds[p.i]? = some c) (hr : c.Ready) (hl : c.fd ≠ p.server.listener)
    {net : GroupNet} (hnet : net.world = p.net.world) {status : Int} {env : Env}
    (h : PollNet.hangup ⟨net, p.i⟩ c.fd status env = .ok p') :
    ∃ inp n out, Tracks s p' (hd ++ [c.fd]) inp n out := by
  obtain ⟨m, hm, rfl⟩ := ok_of_map h
  obtain ⟨out', hout, -⟩ := GroupNet.serverStep_ok (ok_of_liftFault hm)
  rw [hnet] at hout
  exact hT.answer hs hc hr hl (Round.event_hangup hl) rfl (Nat.le_refl _) hout

/-- The listener is handled first. -/
theorem Tracks.listener (hs : s.Roomy) (hT : Tracks s p hd inp n out)
    (hc : p.server.pfds[p.i]? = some c) (hr : c.Ready) (hl : c.fd = p.server.listener)
    {newfd : Int} (hnew : newfd ≠ -1 → newfd ∉ p.server.listener :: p.server.conns)
    (hi : p'.i = p.i + 1) (hs' : p'.server = p.server.handleNewConnection newfd) :
    ∃ inp n out, Tracks s p' (hd ++ [c.fd]) inp n out := by
  obtain ⟨gone, hI⟩ := hT.going hs
  obtain ⟨hserver, hd0⟩ := hT.first ((Round.fd_eq_listener hI.table hc).mp hl)
  have ha : inp.Agrees { inp with accepted := newfd } hd := by
    rw [hd0]
    exact fun fd hfd => absurd hfd List.not_mem_nil
  exact hT.handle hs hc hr ha (hserver ▸ hnew) (if_pos hl) hi (by omega)
    (fun o ho => absurd ho List.not_mem_nil)
    (congrArg (fun s => Except.ok (([] : List Output), s)) hs'.symm)

theorem Tracks.step (hs : s.Roomy) (hT : Tracks s p hd inp n out) {e : PollEvent}
    (he : e.InRound) (h : p.step e = .ok p') :
    ∃ inp n out, Tracks s p' (hd ++ p.handledAt e) inp n out := by
  cases e with
  | poll => exact absurd he id
  | client e =>
    simp only [PollNet.step] at h
    split at h
    · rename_i hclient
      obtain ⟨m, hm, rfl⟩ := ok_of_map h
      have hserver : m.world.server = p.server := by rw [world_of_client hclient hm]; rfl
      obtain ⟨hrun, hfresh, hleft, hfirst⟩ := hT
      rw [← hserver] at hrun hleft hfirst
      have hat : hd ++ p.handledAt (.client e) = hd := List.append_nil hd
      rw [hat]
      exact ⟨inp, n, out, hrun, hfresh, hleft, hfirst⟩
    · cases h
  | iterate a =>
    cases hc : p.server.pfds[p.i]? with
    | none =>
      simp only [PollNet.step, hc] at h
      cases h
    | some c =>
      simp only [PollNet.step, hc] at h
      simp only [handledAt, hc]
      split at h
      · rename_i hr
        rw [if_pos hr]
        cases a with
        | new newfd uid nickname =>
          simp only [PollNet.handle] at h
          split at h
          · rename_i hl
            obtain ⟨m, hm, rfl⟩ := ok_of_map h
            obtain ⟨out', hout, -⟩ := GroupNet.serverStep_ok (ok_of_liftFault hm)
            exact hT.listener hs hc hr hl.1 (fun _ => hl.2) rfl
              (congrArg Prod.snd (Except.ok.inj hout)).symm
          · cases h
        | none =>
          simp only [PollNet.handle] at h
          split at h
          · rename_i hl
            cases h
            exact hT.listener hs hc hr hl (fun h1 => absurd rfl h1) rfl (if_pos rfl).symm
          · cases h
        | frame buf env =>
          simp only [PollNet.handle] at h
          split at h
          · cases h
          rename_i hl
          split at h
          · cases h
          rename_i f up hup
          split at h
          · obtain ⟨m, hm, rfl⟩ := ok_of_map h
            obtain ⟨out', hout, -⟩ := GroupNet.serverStep_ok (ok_of_liftFault hm)
            exact hT.answer hs hc hr hl (Round.event_frame hl) rfl (Nat.le_succ _) hout
          · have hnet : (p.net.read c.fd up).world = p.net.world := rfl
            exact hT.hangup hs hc hr hl hnet h
        | broken status env =>
          simp only [PollNet.handle] at h
          split at h
          · cases h
          · rename_i hl
            exact hT.hangup hs hc hr hl rfl h
      · rename_i hr
        cases h
        rw [if_neg hr, List.append_nil]
        refine ⟨inp, n + 1, out, hT.advance hs hc (fun fd _ => ⟨rfl, rfl, rfl, rfl⟩) hT.fresh
          (Nat.succ_pos _) ?_⟩
        simp only [Round.step, hc, if_neg hr]
        rfl

theorem Tracks.run_of_exec (hs : s.Roomy) (hT : Tracks s p hd inp n out) {es : List PollEvent}
    (hes : ∀ e ∈ es, e.InRound) (h : exec PollNet.step p es = .ok p') :
    ∃ inp n out, Tracks s p' (hd ++ p.handledIn es) inp n out := by
  induction es generalizing p hd inp n out with
  | nil =>
    cases h
    rw [handledIn, List.append_nil]
    exact ⟨inp, n, out, hT⟩
  | cons e es ih =>
    obtain ⟨m, hm, h⟩ := exec_cons_ok.mp h
    obtain ⟨inp₁, n₁, out₁, hT₁⟩ := hT.step hs (hes e List.mem_cons_self) hm
    simp only [handledIn, hm, ← List.append_assoc]
    exact ih hT₁ (fun e he => hes e (List.mem_cons_of_mem _ he)) h

/-- The iterations that are left do nothing. -/
theorem exec_ended {r : Round} (hend : r.server.fdCount ≤ r.i) (us : List Unit) :
    exec (Round.step inp) r us = .ok r := by
  have hstep : Round.step inp r () = .ok r := by
    have hc : r.server.pfds[r.i]? = none := List.getElem?_eq_none hend
    simp only [Round.step, hc]
  induction us with
  | nil => rfl
  | cons u us ih => exact exec_cons_ok.mpr ⟨r, hstep, ih⟩

/-- At the end of the table the round is the one of `processConnections`. -/
theorem Tracks.served (hs : s.Roomy) (hT : Tracks s p hd inp n out)
    (hend : p.i = p.server.fdCount) :
    ∃ inp r, processConnections s inp = .ok r ∧ r.server = p.server ∧ r.handled = hd ∧
      r.Served s inp := by
  have hrun : processConnections s inp = .ok ⟨p.server, p.i, hd, out⟩ := by
    have hn : s.fdCount + 1 = n + (s.fdCount + 1 - n) := by
      have := hT.left
      omega
    rw [processConnections, hn, List.replicate_add]
    exact exec_append hT.run (exec_ended (Nat.le_of_eq hend.symm) _)
  exact ⟨inp, _, hrun, rfl, rfl, Round.served_of_exec hs.table hs.size hT.fresh hrun⟩

/-- **Whoever is ready is served before the next `poll`**, and once: in every run of the loop among
its clients, between a `poll` and the end of the table the server does what `processConnections`
does, and handles the descriptors that `poll` has marked and no other one. -/
theorem served_of_run (listener : Int) (info : GroupInfo) (es ds : List PollEvent)
    (p p' : PollNet) (revents : List Nat) (h : exec step (start listener info) es = .ok p)
    (hds : ∀ d ∈ ds, d.InRound) (h' : exec step p (.poll revents :: ds) = .ok p')
    (hend : p'.i = p'.server.fdCount) :
    let s := (p.net.polled revents).world.server
    ∃ inp r, processConnections s inp = .ok r ∧ r.server = p'.server ∧
      r.handled = handledIn ⟨p.net.polled revents, 0⟩ ds ∧ r.Served s inp := by
  intro s
  obtain ⟨q, hq, h'⟩ := exec_cons_ok.mp h'
  have hs : q.server.Roomy := roomy_of_run (exec_append h ((exec_singleton _ _).trans hq))
  simp only [step] at hq
  split at hq
  · cases hq
    obtain ⟨inp, n, out, hT⟩ := tracks_start (p := ⟨p.net.polled revents, 0⟩) s rfl rfl
    obtain ⟨inp', n', out', hT'⟩ := hT.run_of_exec hs hds h'
    exact hT'.served hs hend
  · cases hq

/-- Ann and bob have announced themselves. -/
def annAndBobPolled : List PollEvent :=
  [.poll [POLLIN], .iterate (.new 5 (str "a0000001") (str "ann")), .iterate .none,
    .poll [0, POLLIN], .iterate .none, .iterate (.frame [] .allOk),
    .poll [POLLIN, 0], .iterate (.new 6 (str "b0000002") (str "bob")), .iterate .none,
    .iterate .none,
    .poll [0, 0, POLLIN], .iterate .none, .iterate .none, .iterate (.frame [] .allOk)]

/-- Ann has hung up, so that bob's entry comes to the place of hers while bob types on. -/
theorem served_of_run_annHangsUp :
    let ds : List PollEvent := [.client (.typed 6 (str "hi\n") .allOk), .iterate .none,
      .iterate (.broken (-2) .allOk), .client (.typed 6 (str "ann?\n") .allOk),
      .iterate (.frame [] .allOk)]
    ∃ p p', exec step (start 3 gserverInfo) annAndBobPolled = .ok p ∧
      exec step p (.poll [0, POLLHUP, POLLIN] :: ds) = .ok p' ∧
      handledIn ⟨p.net.polled [0, POLLHUP, POLLIN], 0⟩ ds = [5, 6] ∧
      ∃ inp r, processConnections (p.net.polled [0, POLLHUP, POLLIN]).world.server inp = .ok r ∧
        r.server = p'.server ∧
        r.handled = handledIn ⟨p.net.polled [0, POLLHUP, POLLIN], 0⟩ ds ∧
        r.Served (p.net.polled [0, POLLHUP, POLLIN]).world.server inp := by
  intro ds
  have hds : ∀ d ∈ ds, d.InRound := by decide +kernel
  obtain ⟨p, hp, hok, hhandled, hrun⟩ :=
    exists_ok (x := exec step (start 3 gserverInfo) annAndBobPolled)
      (P := fun p => (exec step p (.poll [0, POLLHUP, POLLIN] :: ds)).isOk ∧
        handledIn ⟨p.net.polled [0, POLLHUP, POLLIN], 0⟩ ds = [5, 6] ∧
        ∀ p' ∈ (exec step p (.poll [0, POLLHUP, POLLIN] :: ds)).toOption,
          p'.i = p'.server.fdCount)
      (by decide +kernel) (by decide +kernel)
  obtain ⟨p', hp', hend⟩ := exists_ok hok hrun
  exact ⟨p, p', hp, hp', hhandled, served_of_run 3 gserverInfo annAndBobPolled ds p p' _ hp hds hp'
    hend⟩

end PollNet

end SocketSpeak
