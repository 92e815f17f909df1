import SocketSpeak.Group.Handled
import SocketSpeak.Group.User

/-!
# The server and its clients

A run of the server with the member that each connection has announced: the one of its
`LMP_GRP_INIT_MEMBER`, with the nickname of its latest `LMP_NICK`. The server does not keep that;
`World` does, by descriptor.
-/

namespace SocketSpeak
open CLib Sys

namespace Server

/-- The descriptors of the connections: `conns[k]` is `pfds[k + 1].fd`. -/
def conns (s : Server) : List Int := s.pfds.tail.map PollFd.fd

/-- The listener comes first in the poll table, and no descriptor is in it twice. -/
structure TableOk (s : Server) : Prop where
  head : s.pfds.map PollFd.fd = s.listener :: s.conns
  nodup : (s.listener :: s.conns).Nodup

variable {s s' : Server} {out : List Output}

theorem TableOk.start (listener : Int) (info : GroupInfo) : (start listener info).TableOk :=
  ⟨rfl, by simp [conns, Server.start]⟩

theorem TableOk.fdCount (h : s.TableOk) : s.fdCount = s.conns.length + 1 := by
  have hlen := congrArg List.length h.head
  simpa [Server.fdCount] using hlen

/-- Every slot of the poll table but the listener's belongs to a connection. -/
theorem TableOk.exists_conn (h : s.TableOk) {i : Nat} (hi : 0 < i) (hlt : i < s.fdCount) :
    ∃ k, i = k + 1 ∧ k < s.conns.length := by
  have hcount := h.fdCount
  exact ⟨i - 1, by omega, by omega⟩

theorem TableOk.pollFd (h : s.TableOk) {k : Nat} {fd : Int} :
    s.pollFd (k + 1 : Nat) = .ok fd ↔ s.conns[k]? = some fd := by
  have hget : (s.pfds[k + 1]?).map PollFd.fd = s.conns[k]? := by
    rw [← List.getElem?_map, h.head, List.getElem?_cons_succ]
  have hneg : ¬ ((k + 1 : Nat) : Int) < 0 := by omega
  rw [Server.pollFd, if_neg hneg, Int.toNat_natCast, ← hget]
  cases s.pfds[k + 1]? <;> simp

theorem TableOk.mem_conns (ht : s.TableOk) {fd : Int} :
    fd ∈ s.conns ↔ ∃ p ∈ s.pfds, p.fd ≠ s.listener ∧ p.fd = fd := by
  have hmem : fd ∈ s.pfds.map PollFd.fd ↔ fd = s.listener ∨ fd ∈ s.conns := by
    rw [ht.head, List.mem_cons]
  rw [List.mem_map] at hmem
  have hnot := (List.nodup_cons.mp ht.nodup).1
  constructor
  · intro h
    obtain ⟨p, hp, rfl⟩ := hmem.mpr (.inr h)
    refine ⟨p, hp, ?_, rfl⟩
    rintro hl
    exact hnot (hl ▸ h)
  · rintro ⟨p, hp, hl, rfl⟩
    exact (hmem.mp ⟨p, hp, rfl⟩).resolve_left hl

/-- What the events do to the table of connections. -/
theorem conns_of_frame {i : Nat} {f : Frame} {buf : Bytes} {env : Env}
    (h : s.step (.frame i f buf env) = .ok (out, s')) :
    s'.listener = s.listener ∧ s'.conns = s.conns ∧ s'.fdCount = s.fdCount := by
  obtain ⟨fd, -, hl, hp, -⟩ := handled_of_frame h
  exact ⟨hl, by rw [conns, hp, conns], by rw [Server.fdCount, hp, Server.fdCount]⟩

theorem TableOk.frame (ht : s.TableOk) {i : Nat} {f : Frame} {buf : Bytes} {env : Env}
    (h : s.step (.frame i f buf env) = .ok (out, s')) : s'.TableOk := by
  obtain ⟨fd, -, hl, hp, -⟩ := handled_of_frame h
  have hc : s'.conns = s.conns := by rw [conns, hp, conns]
  exact ⟨by rw [hp, hl, hc, ht.head], by rw [hl, hc]; exact ht.nodup⟩

@[simp] theorem group_handleNewConnection (fd : Int) :
    (s.handleNewConnection fd).group = s.group := by
  rw [handleNewConnection]
  split <;> rfl

theorem conns_of_accept (ht : s.TableOk) {fd : Int} (hfd : fd ≠ -1) :
    (s.handleNewConnection fd).conns = s.conns ++ [fd] := by
  have hne : s.pfds ≠ [] := by
    intro h
    have hhead := ht.head
    simp [h] at hhead
  rw [handleNewConnection, if_neg hfd, addToPfds, conns, conns, List.tail_append_of_ne_nil hne]
  simp

theorem mem_conns_accept (ht : s.TableOk) {fd fd' : Int} :
    fd' ∈ (s.handleNewConnection fd).conns ↔ fd' ∈ s.conns ∨ fd ≠ -1 ∧ fd' = fd := by
  by_cases h1 : fd = -1
  · rw [handleNewConnection, if_pos h1]
    exact ⟨.inl, fun h => h.resolve_right fun h => h.1 h1⟩
  · rw [conns_of_accept ht h1, List.mem_append, List.mem_singleton, and_iff_right h1]

theorem TableOk.accept (ht : s.TableOk) {fd : Int} (hfd : fd ∉ s.listener :: s.conns) :
    (s.handleNewConnection fd).TableOk := by
  by_cases h1 : fd = -1
  · rwa [handleNewConnection, if_pos h1]
  · have hc := conns_of_accept ht h1
    have hl : (s.handleNewConnection fd).listener = s.listener := by
      rw [handleNewConnection, if_neg h1, addToPfds]
    refine ⟨?_, ?_⟩
    · rw [hc, hl, ← List.cons_append, ← ht.head, handleNewConnection, if_neg h1, addToPfds]
      simp
    · rw [hc, hl, ← List.cons_append, List.nodup_append]
      refine ⟨ht.nodup, by simp, ?_⟩
      rintro a ha b hb rfl
      rw [List.mem_singleton] at hb
      exact hfd (hb ▸ ha)

theorem conns_of_hangup (ht : s.TableOk) {k : Nat} (hk : k < s.conns.length) {status : Int}
    {env : Env} (h : s.step (.hangup (k + 1) status env) = .ok (out, s')) :
    s'.listener = s.listener ∧ s'.conns = swapRemove s.conns k := by
  obtain ⟨hl, -, hp, -⟩ := handled_of_hangup h
  refine ⟨hl, ?_⟩
  have hne : s.conns ≠ [] := List.ne_nil_of_length_pos (Nat.zero_lt_of_lt hk)
  rw [conns, List.map_tail, hp, map_swapRemove, ht.head, swapRemove_cons hne, List.tail_cons]

theorem TableOk.hangup (ht : s.TableOk) {k : Nat} (hk : k < s.conns.length) {status : Int}
    {env : Env} (h : s.step (.hangup (k + 1) status env) = .ok (out, s')) : s'.TableOk := by
  obtain ⟨hl, hc⟩ := conns_of_hangup ht hk h
  obtain ⟨-, -, hp, -⟩ := handled_of_hangup h
  have hne : s.conns ≠ [] := List.ne_nil_of_length_pos (Nat.zero_lt_of_lt hk)
  obtain ⟨hnot, hnd⟩ := List.nodup_cons.mp ht.nodup
  refine ⟨?_, ?_⟩
  · rw [hp, map_swapRemove, ht.head, swapRemove_cons hne, hl, hc]
  · rw [hl, hc, List.nodup_cons]
    exact ⟨fun hm => hnot (mem_of_mem_swapRemove hm), (nodup_swapRemove hnd hk).1⟩

end Server

/-! ## What the connections announce -/

/-- What a connection has announced after the frame `f`. -/
def announce (f : Frame) (a : Option GroupMember) : Option GroupMember :=
  if f.type = LMP_GRP_INIT_MEMBER then some (.ofBytes f.payload)
  else if f.type = LMP_NICK then a.map fun m => { m with nickname := .copyStr _ f.payload }
  else a

theorem announce_of_ne {f : Frame} {a : Option GroupMember} (h : f.type ≠ LMP_GRP_INIT_MEMBER)
    (h' : f.type ≠ LMP_NICK) : announce f a = a := by
  rw [announce, if_neg h, if_neg h']

theorem announce_nick {f : Frame} {a : Option GroupMember} (h : f.type = LMP_NICK) :
    announce f a = a.map fun m => { m with nickname := .copyStr _ f.payload } := by
  rw [announce, if_neg (by rw [h]; decide), if_pos h]

theorem announce_init {f : Frame} {a : Option GroupMember} (h : f.type = LMP_GRP_INIT_MEMBER) :
    announce f a = some (.ofBytes f.payload) := by
  rw [announce, if_pos h]

theorem isSome_announce {f : Frame} {a : Option GroupMember} (hf : f.type ≠ LMP_GRP_INIT_MEMBER) :
    (announce f a).isSome = a.isSome := by
  rw [announce, if_neg hf]
  split
  · exact Option.isSome_map
  · rfl

structure World where
  server : Server
  announced : Int → Option GroupMember

namespace World

def start (listener : Int) (info : GroupInfo) : World := ⟨.start listener info, fun _ => none⟩

/-- The announcements after the event. -/
def announcedAfter (w : World) : ServerEvent → Int → Option GroupMember
  | .accept fd => Function.update w.announced fd none
  | .frame i f _ _ =>
    match w.server.pollFd i with
    | .ok fd => Function.update w.announced fd (announce f (w.announced fd))
    | .error _ => w.announced
  | .hangup .. => w.announced

def step (w : World) (e : ServerEvent) : Except Fault World :=
  (w.server.step e).map fun r => ⟨r.2, w.announcedAfter e⟩

/-- What the connection `pfds[k + 1]` has announced. -/
def announcedAt (w : World) (k : Nat) : Option GroupMember := (w.server.conns[k]?).bind w.announced

/-- The events that clients like `gclient` cause: the first frame of a connection, and no other
one, is an `LMP_GRP_INIT_MEMBER`. What `accept` returns is no open descriptor. -/
def Gclient (w : World) : ServerEvent → Prop
  | .accept fd => fd ∉ w.server.listener :: w.server.conns
  | .frame i f _ _ => 0 < i ∧ i < w.server.fdCount ∧
    f.type ∈ [LMP_GRP_INIT_MEMBER, LMP_NICK, LMP_MSG, LMP_GRP_LOAD_MSG, LMP_GRP_HANGMAN] ∧
    (f.type = LMP_GRP_INIT_MEMBER → f.payload.length = GroupMember.size) ∧
    (f.type = LMP_GRP_INIT_MEMBER ↔ w.announcedAt (i - 1) = none)
  | .hangup i _ _ => 0 < i ∧ i < w.server.fdCount

/-- There are never more than `MAX_GROUP_MEMBERS` connections. -/
def Room (w : World) : ServerEvent → Prop
  | .accept _ => w.server.conns.length < MAX_GROUP_MEMBERS
  | _ => True

instance (w : World) : ∀ e, Decidable (w.Gclient e)
  | .accept _ => inferInstanceAs (Decidable (_ ∉ _))
  | .frame .. => inferInstanceAs (Decidable (_ ∧ _ ∧ _ ∧ (_ → _) ∧ (_ ↔ _)))
  | .hangup .. => inferInstanceAs (Decidable (_ ∧ _))

instance (w : World) : ∀ e, Decidable (w.Room e)
  | .accept _ => inferInstanceAs (Decidable (_ < _))
  | .frame .. => .isTrue trivial
  | .hangup .. => .isTrue trivial

variable {w w' : World} {i j k : Nat} {f : Frame} {buf : Bytes} {env : Env} {status : Int}

theorem step_ok {e : ServerEvent} (h : w.step e = .ok w') :
    ∃ out, w.server.step e = .ok (out, w'.server) ∧ w'.announced = w.announcedAfter e := by
  unfold step at h
  cases hs : w.server.step e with
  | error => rw [hs] at h; cases h
  | ok r =>
    rw [hs] at h
    cases h
    exact ⟨r.1, rfl, rfl⟩

theorem step_of_server {e : ServerEvent} (h : ∃ r, w.server.step e = .ok r) :
    ∃ w', w.step e = .ok w' := by
  obtain ⟨r, h⟩ := h
  exact ⟨_, by rw [step, h]; rfl⟩

/-- Only an `LMP_GRP_INIT_MEMBER` announces a connection. -/
theorem isSome_announcedAfter (hf : f.type ≠ LMP_GRP_INIT_MEMBER) (fd : Int) :
    (w.announcedAfter (.frame i f buf env) fd).isSome = (w.announced fd).isSome := by
  simp only [announcedAfter]
  cases w.server.pollFd i with
  | error => rfl
  | ok fd' =>
    by_cases h : fd = fd'
    · subst h
      simp only [Function.update_self, isSome_announce hf]
    · simp only [Function.update_of_ne h]

theorem announcedAt_of_le (h : w.server.conns.length ≤ k) : w.announcedAt k = none := by
  rw [announcedAt, List.getElem?_eq_none h]
  rfl

/-- A new connection has announced nothing, and the others keep what they announced. -/
theorem announced_accept {fd : Int} (hg : w.Gclient (.accept fd))
    (h : w.step (.accept fd) = .ok w') : w'.server = w.server.handleNewConnection fd ∧
      w'.announced fd = none ∧ ∀ fd' ∈ w.server.conns, w'.announced fd' = w.announced fd' := by
  obtain ⟨out, hs, ha⟩ := step_ok h
  simp only [Server.step, Except.ok.injEq, Prod.mk.injEq] at hs
  refine ⟨hs.2.symm, by rw [ha, announcedAfter, Function.update_self], fun fd' hm => ?_⟩
  rw [ha, announcedAfter, Function.update_of_ne]
  rintro rfl
  exact hg (List.mem_cons_of_mem _ hm)

theorem announcedAt_accept (ht : w.server.TableOk) {fd : Int} (hg : w.Gclient (.accept fd))
    (h : w.step (.accept fd) = .ok w') : w'.announcedAt k = w.announcedAt k := by
  obtain ⟨hs, hnew, hold⟩ := announced_accept hg h
  have hcongr : (w.server.conns[k]?).bind w'.announced = w.announcedAt k := by
    rw [announcedAt]
    cases hc : w.server.conns[k]? with
    | none => rfl
    | some fd' => exact hold fd' (List.mem_of_getElem? hc)
  rw [announcedAt, hs]
  by_cases h1 : fd = -1
  · rw [Server.handleNewConnection, if_pos h1, hcongr]
  · rw [Server.conns_of_accept ht h1]
    by_cases hk : k < w.server.conns.length
    · rw [List.getElem?_append_left hk, hcongr]
    · rw [announcedAt_of_le (Nat.not_lt.mp hk)]
      by_cases hk' : k = w.server.conns.length
      · subst hk'
        simp [hnew]
      · rw [List.getElem?_eq_none (by simp; omega)]
        rfl

theorem announced_frame (ht : w.server.TableOk) (hk : k < w.server.conns.length)
    (h : w.step (.frame (k + 1) f buf env) = .ok w') :
    w'.announced = Function.update w.announced w.server.conns[k]
      (announce f (w.announced w.server.conns[k])) := by
  obtain ⟨out, -, ha⟩ := step_ok h
  have hfd := ht.pollFd.mpr (List.getElem?_eq_getElem hk)
  rw [ha, announcedAfter, hfd]

theorem announcedAt_frame (ht : w.server.TableOk) (hk : k < w.server.conns.length)
    (h : w.step (.frame (k + 1) f buf env) = .ok w') :
    w'.announcedAt j = if j = k then announce f (w.announcedAt k) else w.announcedAt j := by
  obtain ⟨out, hs, -⟩ := step_ok h
  obtain ⟨-, hc, -⟩ := Server.conns_of_frame hs
  have ha := announced_frame ht hk h
  simp only [announcedAt, hc]
  split
  · rename_i hj
    subst hj
    simp [hk, ha]
  · rename_i hj
    cases hcj : w.server.conns[j]? with
    | none => rfl
    | some fd' =>
      have hne : fd' ≠ w.server.conns[k] := by
        rintro rfl
        obtain ⟨hjl, he⟩ := List.getElem?_eq_some_iff.mp hcj
        exact hj ((List.getElem_inj (List.nodup_cons.mp ht.nodup).2).mp he)
      simp [ha, hne]

theorem announcedAt_hangup (ht : w.server.TableOk) (hk : k < w.server.conns.length)
    (h : w.step (.hangup (k + 1) status env) = .ok w') : w'.announcedAt j =
      if j + 1 < w.server.conns.length then
        if j = k then w.announcedAt (w.server.conns.length - 1) else w.announcedAt j
      else none := by
  obtain ⟨out, hs, ha⟩ := step_ok h
  obtain ⟨-, hc⟩ := Server.conns_of_hangup ht hk hs
  have ha' : w'.announced = w.announced := ha
  split
  · rename_i hj
    rw [announcedAt, hc, ha', getElem?_swapRemove hj]
    split
    · rw [announcedAt, List.getLast?_eq_getElem?]
    · rfl
  · rename_i hj
    apply announcedAt_of_le
    rw [hc, length_swapRemove]
    omega

end World

end SocketSpeak
