import SocketSpeak.Group.Players

/-!
# What players are answered

The response to a guess goes to the members in the list of players, and a message from any other one
is relayed. So both go to the right members as long as the list says who plays (`players_of_run`).
-/

namespace SocketSpeak
open CLib Sys

namespace Server

theorem findMember_spec {g : Group} {uid : Bytes} {n : Nat} {j : Int} {r : Option Int}
    (h : findMember g uid n j = .ok r) :
    match r with
    | some i => ∃ m, g.member i = .ok m ∧ m.uid.toStr = uid ∧ j ≤ i ∧ i < j + n
    | none => ∀ i m, j ≤ i → i < j + n → g.member i = .ok m → m.uid.toStr ≠ uid := by
  induction n generalizing j with
  | zero =>
    cases h
    intro i m h1 h2
    omega
  | succ n ih =>
    obtain ⟨m, hm, h⟩ := bind_ok h
    split at h
    · rename_i huid
      cases h
      exact ⟨m, hm, huid, Int.le_refl _, by omega⟩
    · rename_i huid
      have ih := ih h
      split at ih
      · obtain ⟨m', hm', huid', h1, h2⟩ := ih
        exact ⟨m', hm', huid', by omega, by omega⟩
      · intro i m' h1 h2 hm'
        by_cases hi : i = j
        · subst hi
          rw [hm] at hm'
          cases hm'
          exact huid
        · exact ih i m' (by omega) (by omega) hm'

end Server

namespace World
variable {w : World} {env : Env} {fd : Int} {uid response : Bytes} {out : List Output}

/-- The response goes to the connection with the uid. -/
theorem sendToPlayer_eq (hm : w.Members) (ht : w.server.TableOk) (hfd : fd ∈ w.server.conns)
    (huid : w.uidOf fd = some uid) (h : w.server.sendToPlayer env response uid = .ok out) :
    out = env.lmpSend fd LMP_GRP_HANGMAN response := by
  obtain ⟨k, hk, rfl⟩ := List.getElem_of_mem hfd
  obtain ⟨m, ha, rfl⟩ := Option.map_eq_some_iff.mp huid
  have hat : w.announcedAt k = some m := by
    rw [announcedAt, List.getElem?_eq_getElem hk]
    exact ha
  -- The slot of the connection is searched.
  have hslot := hm.matched k
  rw [hat] at hslot
  obtain ⟨r, hr, h⟩ := bind_ok h
  have hspec := Server.findMember_spec hr
  cases r with
  | none =>
    split at hslot
    · rename_i hlt
      exact absurd rfl (hspec k m (Int.natCast_nonneg k) (by omega)
        (Group.member_eq_ok.mpr ⟨k, rfl, hslot.symm⟩))
    · cases hslot
  | some j =>
    obtain ⟨m', hmember, huid', h1, h2⟩ := hspec
    obtain ⟨k', rfl, hget⟩ := Group.member_eq_ok.mp hmember
    have hat' := hm.matched k'
    rw [if_pos (by omega), hget] at hat'
    have hk' : k' < w.server.conns.length := by
      by_contra hk'
      rw [announcedAt_of_le (Nat.not_lt.mp hk')] at hat'
      cases hat'
    have heq := hm.distinct _ (List.getElem_mem hk') _ hfd _ (uidOf_conn hk' hat')
      (huid'.symm ▸ huid)
    have hpoll := ht.pollFd.mpr (List.getElem?_eq_getElem hk')
    obtain ⟨fd', hfd', h⟩ := bind_ok h
    rw [show ((k' : Int) + 1) = ((k' + 1 : Nat) : Int) by omega, hpoll] at hfd'
    cases hfd'
    cases h
    rw [heq]

/-- The response goes once to each connection with a uid in the list. -/
theorem framesTo_sendToPlayers (hm : w.Members) (ht : w.server.TableOk) {uids : List Bytes}
    (hnd : uids.Nodup) (hall : ∀ uid ∈ uids, ∃ fd ∈ w.server.conns, w.uidOf fd = some uid)
    (h : w.server.sendToPlayers env response uids = .ok out) (hfd : fd ∈ w.server.conns) :
    framesTo fd out = if (w.uidOf fd).any (· ∈ uids) ∧ env.sendOk fd then
      [lmpFrame LMP_GRP_HANGMAN response] else [] := by
  induction uids generalizing out with
  | nil =>
    cases h
    simp
  | cons uid uids ih =>
    obtain ⟨out₁, h₁, h⟩ := bind_ok h
    obtain ⟨out₂, h₂, h⟩ := bind_ok h
    cases h
    obtain ⟨hnot, hnd⟩ := List.nodup_cons.mp hnd
    obtain ⟨fd', hfd', huid⟩ := hall uid List.mem_cons_self
    have ih := ih hnd (fun u hu => hall u (List.mem_cons_of_mem _ hu)) h₂
    rw [framesTo_append, ih, sendToPlayer_eq hm ht hfd' huid h₁, framesTo_lmpSend]
    cases hfduid : w.uidOf fd with
    | none =>
      have hne : fd' ≠ fd := by
        rintro rfl
        rw [huid] at hfduid
        cases hfduid
      simp [hne]
    | some u =>
      have heq : fd' = fd ↔ u = uid := by
        constructor
        · rintro rfl
          rw [huid] at hfduid
          cases hfduid
          rfl
        · rintro rfl
          exact hm.distinct fd' hfd' fd hfd u huid hfduid
      by_cases hu : u = uid
      · subst hu
        simp [heq, hnot]
      · simp [heq, hu]

end World

namespace Played
variable {p p' : Played} {e : ServerEvent} {k : Nat} {f : Frame} {buf : Bytes} {env : Env}
  {out : List Output} {s' : Server}

/-- What is answered to a frame from the connection `pfds[k + 1]`: the response to a guess goes once
to each connection that plays; a message from one that does not play is relayed. -/
structure Answers (p : Played) (k : Nat) (f : Frame) (buf : Bytes) (env : Env)
    (out : List Output) : Prop where
  response : (p.world.server.guessed (.frame (k + 1) f buf env)).isSome → ∃ response,
    ∀ fd ∈ p.world.server.conns, framesTo fd out =
      if p.playing fd ∧ env.sendOk fd then [lmpFrame LMP_GRP_HANGMAN response] else []
  relayed : f.type = LMP_MSG → ∀ fd ∈ p.world.server.conns[k]?, p.playing fd = false →
    out = p.world.server.relay env (k + 1) fd f.type f.payload

theorem Listed.any_uidOf (hI : p.Listed) (hm : p.world.Members)
    (hs : p.world.server.hangman.state ≠ .initial) {fd : Int} (hfd : fd ∈ p.world.server.conns) :
    (p.world.uidOf fd).any (· ∈ p.world.server.hangmanUsersList) = p.playing fd := by
  cases huid : p.world.uidOf fd with
  | none => rw [hI.silent fd hfd huid]; rfl
  | some uid =>
    rw [Option.any_some, Bool.eq_iff_iff, decide_eq_true_iff]
    exact hI.mem_uidOf hm hs hfd huid

theorem answers_of_step (hI : p.Listed) (hm : p.world.Members)
    (hg : p.world.Gclient (.frame (k + 1) f buf env))
    (h : p.world.server.step (.frame (k + 1) f buf env) = .ok (out, s')) :
    p.Answers k f buf env out := by
  refine ⟨fun hguess => ?_, fun hf fd hfd hplay => ?_⟩
  · have hnot : p.world.server.guessed (.frame (k + 1) f buf env) ≠ none :=
      Option.isSome_iff_ne_none.mp hguess
    cases Server.gameStep_of_step h with
    | other _ hnone => exact absurd hnone hnot
    | start i f' buf' env' m he hc => exact absurd (Server.guessed_of_command (by simp [hc])) hnot
    | exit i f' buf' env' m he hc => exact absurd (Server.guessed_of_command (by simp [hc])) hnot
    | join i f' buf' env' m he hc => exact absurd (Server.guessed_of_command (by simp [hc])) hnot
    | guess i f' buf' env' m c response he hc hmember hg hfsm hout husers =>
      cases he
      refine ⟨response, fun fd hfd => ?_⟩
      have hall : ∀ uid ∈ p.world.server.hangmanUsersList,
          ∃ fd ∈ p.world.server.conns, p.world.uidOf fd = some uid := by
        intro uid huid
        obtain ⟨fd, hfd, huid, -⟩ := (hI.mem_iff hg.1 uid).mp huid
        exact ⟨fd, hfd, huid⟩
      rw [World.framesTo_sendToPlayers hm hI.table (hI.nodup hg.1) hall hout hfd,
        hI.any_uidOf hm hg.1 hfd]
  · obtain ⟨fd', hpoll, -, -, hh⟩ := Server.handled_of_frame h
    obtain rfl : fd' = fd := by
      rw [hI.table.pollFd.mpr hfd] at hpoll
      cases hpoll
      rfl
    have hinit : f.type ≠ LMP_GRP_INIT_MEMBER := by rw [hf]; decide
    cases hh with
    | nick _ ht => rw [hf] at ht; exact absurd ht (by decide)
    | init _ ht => exact absurd ht hinit
    | relayed _ _ _ _ hout => exact hout
    | answered m _ hmember hguess =>
      -- The sender is no player, so its message is no guess.
      have hat := World.announcedAt_of_member hm hg hinit hmember
      have huid : p.world.uidOf fd' = some m.uid.toStr := by
        rw [World.announcedAt, Option.mem_def.mp hfd] at hat
        rw [World.uidOf, show p.world.announced fd' = some m from hat]
        rfl
      have hmem := (hI.mem_uidOf hm (hguess hf).1 (List.mem_of_getElem? hfd) huid).mp
        (by simpa [Server.userInList] using (hguess hf).2)
      rw [hplay] at hmem
      cases hmem

/-- **The list says who plays**, in every run in which nobody joins who is in it, and nobody in it
hangs up. -/
theorem players_of_run (listener : Int) (info : GroupInfo) (es : List ServerEvent)
    (hC : Meets step (fun p e => (p.world.Gclient e ∧ p.world.Members) ∧ p.Keeps e)
      (start listener info) es)
    (h : exec step (start listener info) es = .ok p) :
    (p.world.server.hangman.state ≠ .initial → p.world.server.hangmanUsersList.Nodup ∧
      ∀ uid, uid ∈ p.world.server.hangmanUsersList ↔ p.Plays uid) ∧
    ∀ k f buf env out s', p.world.Members → p.world.Gclient (.frame (k + 1) f buf env) →
      p.world.server.step (.frame (k + 1) f buf env) = .ok (out, s') →
      p.Answers k f buf env out := by
  have hI : p.Listed := exec_invariant
    (fun p e p' hI hC hstep => listed_step hI hC.1.1 hC.1.2 hC.2 hstep)
    (listed_start listener info) hC h
  refine ⟨fun hs => ⟨hI.nodup hs, hI.mem_iff hs⟩, ?_⟩
  intro k f buf env out s' hm hg hstep
  exact answers_of_step hI hm hg hstep

/-- Two members: ann starts a game with the word `ab`, then `es`. -/
def annStarts (es : List ServerEvent) : List ServerEvent :=
  [.accept 5, .frame 1 (initFrame (userMemberInfo (str "a0000001") (str "ann"))) [] .allOk,
    .accept 6, .frame 2 (initFrame (userMemberInfo (str "b0000002") (str "bob"))) [] .allOk,
    .frame 1 (lmpFrame LMP_GRP_HANGMAN (str "start")) []
      { Env.allOk with wordFile := some (str "ab\n") }] ++ es

/-- The frame with a command of the member in slot `i`. -/
def hangmanEvent (i : Nat) (command : Bytes) : ServerEvent :=
  .frame i (lmpFrame LMP_GRP_HANGMAN command) [] .allOk

/-- bob joins, and ann leaves the game. -/
theorem players_of_run_exit :
    let es := annStarts [hangmanEvent 2 (str "join"), hangmanEvent 1 (str "exit")]
    ∃ p, exec step (start 3 gserverInfo) es = .ok p ∧ p.world.server.hangman.state ≠ .initial ∧
      str "a0000001" ∉ p.world.server.hangmanUsersList ∧ p.Plays (str "b0000002") ∧
      str "b0000002" ∈ p.world.server.hangmanUsersList := by
  intro es
  have hC : Meets step (fun p e => (p.world.Gclient e ∧ p.world.Members) ∧ p.Keeps e)
      (start 3 gserverInfo) es := by decide +kernel
  have hrun : (exec step (start 3 gserverInfo) es).isOk := by decide +kernel
  obtain ⟨p, h, hstate, hann, hbob⟩ :=
    exists_ok (P := fun p => p.world.server.hangman.state ≠ .initial ∧
      str "a0000001" ∉ p.world.server.hangmanUsersList ∧ p.Plays (str "b0000002")) hrun
      (by decide +kernel)
  have hlist := (players_of_run 3 gserverInfo es hC h).1 hstate
  exact ⟨p, h, hstate, hann, hbob, (hlist.2 _).mpr hbob⟩

/-- ann joins the game that she has started, and leaves it: she is still in the list. -/
theorem listed_after_exit :
    let es := annStarts [hangmanEvent 1 (str "join"), hangmanEvent 1 (str "exit")]
    Meets step (fun p e => p.world.Gclient e ∧ p.world.Members) (start 3 gserverInfo) es ∧
      ∃ p, exec step (start 3 gserverInfo) es = .ok p ∧ p.world.Members ∧
        p.world.server.hangman.state ≠ .initial ∧
        str "a0000001" ∈ p.world.server.hangmanUsersList ∧ ¬ p.Plays (str "a0000001") := by
  intro es
  refine ⟨by decide +kernel, exists_ok ?_ ?_⟩
  · decide +kernel
  · decide +kernel

end Played

end SocketSpeak
