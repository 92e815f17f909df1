import SocketSpeak.Group.Alignment
import SocketSpeak.Group.Game

/-!
# Who plays

A member plays from its `start` or `join` to its `exit`, or to the end of its connection. The server
keeps a list of uids instead, to which `join` adds without a look and from which `exit` deletes one
entry and the end of a connection none: the list says who plays only as long as nobody joins twice
and no player hangs up (`listed_step`).
-/

namespace SocketSpeak
open CLib Sys

namespace World
variable {w w' : World}

/-- The uid that the connection has announced. -/
def uidOf (w : World) (fd : Int) : Option Bytes := (w.announced fd).map fun m => m.uid.toStr

/-- The slot of each connection that has announced a member has this member, and no other slot is
counted. -/
def Matched (w : World) : Prop := ∀ k, w.announcedAt k =
  if (k : Int) < w.server.group.memberCount.val then w.server.group.members[k]? else none

/-- The members have registered with uids of `UID_LENGTH`, different ones, and are in the table. -/
structure Members (w : World) : Prop where
  matched : w.Matched
  fits : ∀ fd ∈ w.server.conns, ∀ uid ∈ w.uidOf fd, uid.length ≤ UID_LENGTH
  distinct : ∀ fd ∈ w.server.conns, ∀ fd' ∈ w.server.conns, ∀ uid ∈ w.uidOf fd,
    uid ∈ w.uidOf fd' → fd = fd'

instance (w : World) : Decidable w.Matched := by
  refine decidable_of_iff (∀ k < max w.server.conns.length MAX_GROUP_MEMBERS, w.announcedAt k =
    if (k : Int) < w.server.group.memberCount.val then w.server.group.members[k]? else none)
    ⟨fun h k => ?_, fun h k _ => h k⟩
  by_cases hk : k < max w.server.conns.length MAX_GROUP_MEMBERS
  · exact h k hk
  · rw [announcedAt_of_le (by omega), Vector.getElem?_eq_none (by omega)]
    split <;> rfl

instance (w : World) : Decidable w.Members :=
  decidable_of_iff (w.Matched ∧ (∀ fd ∈ w.server.conns, ∀ uid ∈ w.uidOf fd,
      uid.length ≤ UID_LENGTH) ∧ ∀ fd ∈ w.server.conns, ∀ fd' ∈ w.server.conns,
      ∀ uid ∈ w.uidOf fd, uid ∈ w.uidOf fd' → fd = fd')
    ⟨fun h => ⟨h.1, h.2.1, h.2.2⟩, fun h => ⟨h.1, h.2, h.3⟩⟩

end World

/-- The server, and the connections whose latest command in this game was `start` or `join`. -/
structure Played where
  world : World
  playing : Int → Bool

namespace Played

def start (listener : Int) (info : GroupInfo) : Played := ⟨.start listener info, fun _ => false⟩

/-- Who plays after the event. -/
def playingAfter (p : Played) (e : ServerEvent) : Int → Bool :=
  match e with
  | .accept fd => Function.update p.playing fd false
  | .frame i _ _ _ =>
    match p.world.server.pollFd i, p.world.server.command e with
    | .ok fd, some .start => fun fd' => fd' = fd
    | .ok fd, some .exit => Function.update p.playing fd false
    | .ok fd, some .join => Function.update p.playing fd true
    | _, _ => p.playing
  | .hangup .. => p.playing

def step (p : Played) (e : ServerEvent) : Except Fault Played :=
  (p.world.step e).map fun w => ⟨w, p.playingAfter e⟩

/-- A connection with this uid plays. -/
def Plays (p : Played) (uid : Bytes) : Prop :=
  ∃ fd ∈ p.world.server.conns, uid ∈ p.world.uidOf fd ∧ p.playing fd = true

instance (p : Played) (uid : Bytes) : Decidable (p.Plays uid) :=
  inferInstanceAs (Decidable (∃ fd ∈ _, _))

/-- Nobody joins who is in the list, and nobody in the list hangs up. -/
def Keeps (p : Played) (e : ServerEvent) : Prop :=
  match e with
  | .accept _ => True
  | .frame i _ _ _ => p.world.server.command e = some .join →
    ∀ m ∈ p.world.announcedAt (i - 1), m.uid.toStr ∉ p.world.server.hangmanUsersList
  | .hangup i _ _ => p.world.server.hangman.state ≠ .initial →
    ∀ m ∈ p.world.announcedAt (i - 1), m.uid.toStr ∉ p.world.server.hangmanUsersList

instance (p : Played) : ∀ e, Decidable (p.Keeps e)
  | .accept _ => .isTrue trivial
  | .frame .. => inferInstanceAs (Decidable (_ → _))
  | .hangup .. => inferInstanceAs (Decidable (_ → _))

/-- Without a game the list is empty; in a game it has the uids of those who play, once each. -/
structure Listed (p : Played) : Prop where
  table : p.world.server.TableOk
  idle : p.world.server.hangman.state = .initial → p.world.server.hangmanUsersList = []
  silent : ∀ fd ∈ p.world.server.conns, p.world.uidOf fd = none → p.playing fd = false
  nodup : p.world.server.hangman.state ≠ .initial → p.world.server.hangmanUsersList.Nodup
  mem_iff : p.world.server.hangman.state ≠ .initial →
    ∀ uid, uid ∈ p.world.server.hangmanUsersList ↔ p.Plays uid

end Played

/-! ## The sender of a frame -/

namespace World
variable {w w' : World} {k : Nat} {f : Frame} {buf : Bytes} {env : Env}

/-- The member that the server takes for the sender is the one that the connection announced. -/
theorem announcedAt_of_member (hm : w.Members) (hg : w.Gclient (.frame (k + 1) f buf env))
    (hf : f.type ≠ LMP_GRP_INIT_MEMBER) {m : GroupMember}
    (hmem : w.server.group.member ((k + 1 : Nat) - 1) = .ok m) : w.announcedAt k = some m := by
  obtain ⟨k', hk', hget⟩ := Group.member_eq_ok.mp hmem
  obtain rfl : k = k' := by omega
  have hne : w.announcedAt k ≠ none := fun h => hf (hg.2.2.2.2.mpr h)
  have hmatched := hm.matched k
  split at hmatched
  · rw [hmatched, hget]
  · exact absurd hmatched hne

theorem uidOf_conn {m : GroupMember} (hk : k < w.server.conns.length)
    (h : w.announcedAt k = some m) : w.uidOf w.server.conns[k] = some m.uid.toStr := by
  rw [announcedAt, List.getElem?_eq_getElem hk, Option.bind_some] at h
  rw [uidOf, h]
  rfl

/-- A frame other than the first one does not change the uid of its connection, and no frame that
of another one. -/
theorem uidOf_frame (ht : w.server.TableOk) (hk : k < w.server.conns.length)
    (h : w.step (.frame (k + 1) f buf env) = .ok w') {fd : Int}
    (hne : f.type ≠ LMP_GRP_INIT_MEMBER ∨ fd ≠ w.server.conns[k]) : w'.uidOf fd = w.uidOf fd := by
  rw [uidOf, uidOf, announced_frame ht hk h]
  by_cases hfd : fd = w.server.conns[k]
  · subst hfd
    rw [Function.update_self, announce, if_neg (hne.resolve_right (not_not_intro rfl))]
    split
    · rw [Option.map_map]
      rfl
    · rfl
  · rw [Function.update_of_ne hfd]

end World

namespace Played
variable {p p' : Played} {e : ServerEvent} {k : Nat} {f : Frame} {buf : Bytes} {env : Env}

theorem step_ok (h : p.step e = .ok p') :
    p.world.step e = .ok p'.world ∧ p'.playing = p.playingAfter e := by
  unfold step at h
  cases hs : p.world.step e with
  | error => rw [hs] at h; cases h
  | ok w =>
    rw [hs] at h
    cases h
    exact ⟨rfl, rfl⟩

/-- The uid of a connection is in the list if and only if the connection plays. -/
theorem Listed.mem_uidOf (hI : p.Listed) (hm : p.world.Members)
    (hs : p.world.server.hangman.state ≠ .initial) {fd : Int} (hfd : fd ∈ p.world.server.conns)
    {uid : Bytes} (huid : p.world.uidOf fd = some uid) :
    uid ∈ p.world.server.hangmanUsersList ↔ p.playing fd = true := by
  rw [hI.mem_iff hs]
  constructor
  · rintro ⟨fd', hfd', huid', hplay⟩
    rwa [hm.distinct fd hfd fd' hfd' uid huid huid']
  · exact fun hplay => ⟨fd, hfd, huid, hplay⟩

/-! ## Steps -/

theorem listed_start (listener : Int) (info : GroupInfo) : (start listener info).Listed where
  table := .start listener info
  idle := fun _ => rfl
  silent := fun _ h => nomatch h
  nodup := fun h => absurd rfl h
  mem_iff := fun h => absurd rfl h

/-- An event that leaves the game, and who is connected with which uid, as they are. -/
theorem Listed.same (hI : p.Listed) (ht : p'.world.server.TableOk)
    (hstate : p'.world.server.hangman.state = p.world.server.hangman.state)
    (husers : p'.world.server.hangmanUsersList = p.world.server.hangmanUsersList)
    (hsilent : ∀ fd ∈ p'.world.server.conns, p'.world.uidOf fd = none → p'.playing fd = false)
    (hplays : p.world.server.hangman.state ≠ .initial → ∀ uid, p'.Plays uid ↔ p.Plays uid) :
    p'.Listed := by
  refine ⟨ht, ?_, hsilent, ?_, ?_⟩
  · rw [hstate, husers]
    exact hI.idle
  · rw [hstate, husers]
    exact hI.nodup
  · rw [hstate, husers]
    intro hs uid
    rw [hI.mem_iff hs, hplays hs]

theorem listed_accept (hI : p.Listed) {fd : Int} (hg : p.world.Gclient (.accept fd))
    (h : p.step (.accept fd) = .ok p') : p'.Listed := by
  obtain ⟨hw, hplaying⟩ := step_ok h
  obtain ⟨hserver, hnew, hold⟩ := World.announced_accept hg hw
  have hconns : ∀ fd' ∈ p'.world.server.conns, fd' ∈ p.world.server.conns ∨ fd' = fd := by
    intro fd' hfd'
    rw [hserver, Server.mem_conns_accept hI.table] at hfd'
    exact hfd'.imp_right And.right
  have hconns' : ∀ fd' ∈ p.world.server.conns, fd' ∈ p'.world.server.conns ∧ fd' ≠ fd := by
    intro fd' hfd'
    refine ⟨?_, ?_⟩
    · rw [hserver, Server.mem_conns_accept hI.table]
      exact .inl hfd'
    · rintro rfl
      exact hg (List.mem_cons_of_mem _ hfd')
  have hplay : ∀ fd' ∈ p.world.server.conns, p'.playing fd' = p.playing fd' := by
    intro fd' hfd'
    rw [hplaying]
    exact Function.update_of_ne (hconns' fd' hfd').2 _ _
  have hself : p'.playing fd = false := by
    rw [hplaying]
    exact Function.update_self _ _ _
  refine hI.same (World.tableOk_step hI.table hg hw) ?_ ?_ (fun fd' hfd' hnone => ?_)
    fun _ uid => ⟨?_, ?_⟩
  · rw [hserver, Server.handleNewConnection]
    split <;> rfl
  · rw [hserver, Server.handleNewConnection]
    split <;> rfl
  · rcases hconns fd' hfd' with hm | rfl
    · rw [World.uidOf, hold fd' hm] at hnone
      rw [hplay fd' hm]
      exact hI.silent fd' hm hnone
    · exact hself
  · rintro ⟨fd', hfd', huid, hpl⟩
    rcases hconns fd' hfd' with hm | rfl
    · rw [World.uidOf, hold fd' hm] at huid
      rw [hplay fd' hm] at hpl
      exact ⟨fd', hm, huid, hpl⟩
    · rw [hself] at hpl
      cases hpl
  · rintro ⟨fd', hm, huid, hpl⟩
    refine ⟨fd', (hconns' fd' hm).1, ?_, by rw [hplay fd' hm]; exact hpl⟩
    rw [World.uidOf, hold fd' hm]
    exact huid

theorem listed_hangup (hI : p.Listed) {status : Int} (hk : k < p.world.server.conns.length)
    (hkeep : p.Keeps (.hangup (k + 1) status env))
    (h : p.step (.hangup (k + 1) status env) = .ok p') : p'.Listed := by
  obtain ⟨hw, hplaying⟩ := step_ok h
  obtain ⟨out, hs, hann⟩ := World.step_ok hw
  obtain ⟨-, hconns⟩ := Server.conns_of_hangup hI.table hk hs
  have hnd := (List.nodup_cons.mp hI.table.nodup).2
  have hann : p'.world.announced = p.world.announced := hann
  have hplaying : p'.playing = p.playing := hplaying
  have hgame : p'.world.server.hangman = p.world.server.hangman ∧
      p'.world.server.hangmanUsersList = p.world.server.hangmanUsersList := by
    cases Server.gameStep_of_step hs with
    | other _ _ hfsm husers => exact ⟨hfsm, husers⟩
    | start _ _ _ _ _ he => cases he
    | exit _ _ _ _ _ he => cases he
    | join _ _ _ _ _ he => cases he
    | guess _ _ _ _ _ _ _ he => cases he
  refine hI.same (hI.table.hangup hk hs) (by rw [hgame.1]) hgame.2 (fun fd hfd hnone => ?_)
    fun hstate uid => ⟨?_, ?_⟩
  · rw [World.uidOf, hann] at hnone
    rw [hplaying]
    rw [hconns] at hfd
    exact hI.silent fd (mem_of_mem_swapRemove hfd) hnone
  · rintro ⟨fd, hfd, huid, hpl⟩
    rw [hconns] at hfd
    rw [World.uidOf, hann] at huid
    rw [hplaying] at hpl
    exact ⟨fd, mem_of_mem_swapRemove hfd, huid, hpl⟩
  · rintro ⟨fd, hfd, huid, hpl⟩
    refine ⟨fd, ?_, by rw [World.uidOf, hann]; exact huid, by rw [hplaying]; exact hpl⟩
    rw [hconns, mem_swapRemove hnd hk]
    refine ⟨hfd, ?_⟩
    rintro rfl
    -- The connection that hangs up is not in the list, so it does not play.
    obtain ⟨m, ha, rfl⟩ := Option.map_eq_some_iff.mp huid
    have hat : p.world.announcedAt k = some m := by
      rw [World.announcedAt, List.getElem?_eq_getElem hk]
      exact ha
    exact hkeep hstate m hat ((hI.mem_iff hstate _).mpr ⟨_, hfd, huid, hpl⟩)

theorem playingAfter_frame (ht : p.world.server.TableOk) (hk : k < p.world.server.conns.length) :
    p.playingAfter (.frame (k + 1) f buf env) =
      match p.world.server.command (.frame (k + 1) f buf env) with
      | some .start => fun fd => fd = p.world.server.conns[k]
      | some .exit => Function.update p.playing p.world.server.conns[k] false
      | some .join => Function.update p.playing p.world.server.conns[k] true
      | none => p.playing := by
  have hfd := ht.pollFd.mpr (List.getElem?_eq_getElem hk)
  simp only [playingAfter, hfd]
  cases p.world.server.command (.frame (k + 1) f buf env) with
  | none => rfl
  | some c => cases c <;> rfl

/-- A connection that has sent a frame has a uid. -/
theorem uidOf_of_frame (ht : p.world.server.TableOk) (hk : k < p.world.server.conns.length)
    (hg : p.world.Gclient (.frame (k + 1) f buf env)) {w' : World}
    (hw : p.world.step (.frame (k + 1) f buf env) = .ok w') :
    w'.uidOf p.world.server.conns[k] ≠ none := by
  rw [World.uidOf, World.announced_frame ht hk hw, Function.update_self, Ne, Option.map_eq_none_iff]
  by_cases hf : f.type = LMP_GRP_INIT_MEMBER
  · rw [announce_init hf]
    exact Option.some_ne_none _
  · have hsome : (p.world.announced p.world.server.conns[k]).isSome = true := by
      rw [Option.isSome_iff_ne_none]
      intro hnone
      refine hf (hg.2.2.2.2.mpr ?_)
      simpa [World.announcedAt, hk] using hnone
    rw [← Ne, ← Option.isSome_iff_ne_none, isSome_announce hf]
    exact hsome

/-- Without a command nobody begins or ends to play. -/
theorem plays_of_frame (hI : p.Listed) (hk : k < p.world.server.conns.length)
    (hg : p.world.Gclient (.frame (k + 1) f buf env))
    (h : p.step (.frame (k + 1) f buf env) = .ok p') (hplaying : p'.playing = p.playing)
    (uid : Bytes) : p'.Plays uid ↔ p.Plays uid := by
  obtain ⟨hw, -⟩ := step_ok h
  obtain ⟨out, hs, -⟩ := World.step_ok hw
  obtain ⟨-, hconns, -⟩ := Server.conns_of_frame hs
  unfold Plays
  rw [hconns, hplaying]
  refine exists_congr fun fd => and_congr_right fun hfd => ?_
  by_cases hne : f.type ≠ LMP_GRP_INIT_MEMBER ∨ fd ≠ p.world.server.conns[k]
  · rw [World.uidOf_frame hI.table hk hw hne]
  · -- The connection announces itself, and has not played before.
    rw [not_or, not_not, not_not] at hne
    obtain ⟨hf, rfl⟩ := hne
    have hnone : p.world.uidOf p.world.server.conns[k] = none := by
      simpa [World.uidOf, World.announcedAt, hk] using hg.2.2.2.2.mp hf
    simp [hI.silent _ hfd hnone]

/-- A command has come in on `fd` from the member `uid`: who is connected with which uid has stayed
as it was. -/
structure Commands (p p' : Played) (fd : Int) (uid : Bytes) : Prop where
  table : p'.world.server.TableOk
  conns : p'.world.server.conns = p.world.server.conns
  uids : ∀ fd, p'.world.uidOf fd = p.world.uidOf fd
  conn : fd ∈ p.world.server.conns
  sender : p.world.uidOf fd = some uid

variable {fd : Int} {uid : Bytes}

theorem Commands.silent (hI : p.Listed) (hc : Commands p p' fd uid)
    (hplaying : ∀ fd', fd' ≠ fd → p'.playing fd' = p.playing fd' ∨ p'.playing fd' = false) :
    ∀ fd' ∈ p'.world.server.conns, p'.world.uidOf fd' = none → p'.playing fd' = false := by
  intro fd' hfd' hnone
  rw [hc.uids] at hnone
  rw [hc.conns] at hfd'
  have hne : fd' ≠ fd := by
    rintro rfl
    rw [hc.sender] at hnone
    cases hnone
  rcases hplaying fd' hne with h | h
  · rw [h]
    exact hI.silent fd' hfd' hnone
  · exact h

theorem listed_of_start (hI : p.Listed) (hc : Commands p p' fd uid)
    (hfits : uid.length ≤ UID_LENGTH)
    (hs : p.world.server.hangman.state = .initial) (hs' : p'.world.server.hangman.state ≠ .initial)
    (husers : p'.world.server.hangmanUsersList =
      Server.addUser p.world.server.hangmanUsersList uid)
    (hplaying : p'.playing = fun fd' => fd' = fd) : p'.Listed := by
  have hlist : p'.world.server.hangmanUsersList = [uid] := by
    rw [husers, hI.idle hs, Server.addUser, List.take_of_length_le hfits]
  refine ⟨hc.table, fun h => absurd h hs', hc.silent hI fun fd' hne => .inr ?_, fun _ => ?_,
    fun _ uid' => ?_⟩
  · rw [hplaying]
    exact decide_eq_false hne
  · rw [hlist]
    exact List.nodup_cons.mpr ⟨List.not_mem_nil, List.nodup_nil⟩
  · rw [hlist, List.mem_singleton, Plays, hc.conns, hplaying]
    constructor
    · rintro rfl
      exact ⟨fd, hc.conn, (hc.uids fd).trans hc.sender, decide_eq_true rfl⟩
    · rintro ⟨fd', -, huid, hpl⟩
      obtain rfl := of_decide_eq_true hpl
      rw [hc.uids, hc.sender] at huid
      cases huid
      rfl

theorem listed_of_exit (hI : p.Listed) (hm : p.world.Members) (hc : Commands p p' fd uid)
    (hfsm : p'.world.server.hangman = p.world.server.hangman)
    (husers : p'.world.server.hangmanUsersList =
      Server.removeUser p.world.server.hangmanUsersList uid)
    (hplaying : p'.playing = Function.update p.playing fd false) : p'.Listed := by
  refine ⟨hc.table, fun hs => ?_, hc.silent hI fun fd' hne => .inl ?_, fun hs => ?_,
    fun hs uid' => ?_⟩
  · rw [husers, hI.idle (hfsm ▸ hs)]
    rfl
  · rw [hplaying]
    exact Function.update_of_ne hne _ _
  · rw [husers]
    exact (hI.nodup (hfsm ▸ hs)).erase _
  · have hs : p.world.server.hangman.state ≠ .initial := hfsm ▸ hs
    rw [husers, Server.removeUser, (hI.nodup hs).mem_erase_iff, hI.mem_iff hs, Plays, Plays,
      hc.conns, hplaying]
    constructor
    · rintro ⟨hne, fd', hfd', huid, hpl⟩
      have hfd : fd' ≠ fd := by
        rintro rfl
        rw [hc.sender] at huid
        cases huid
        exact hne rfl
      exact ⟨fd', hfd', (hc.uids fd').trans huid, by rw [Function.update_of_ne hfd]; exact hpl⟩
    · rintro ⟨fd', hfd', huid, hpl⟩
      have hfd : fd' ≠ fd := by
        rintro rfl
        rw [Function.update_self] at hpl
        cases hpl
      rw [hc.uids] at huid
      rw [Function.update_of_ne hfd] at hpl
      refine ⟨?_, fd', hfd', huid, hpl⟩
      rintro rfl
      exact hfd (hm.distinct fd' hfd' fd hc.conn _ huid hc.sender)

theorem listed_of_join (hI : p.Listed) (hc : Commands p p' fd uid) (hfits : uid.length ≤ UID_LENGTH)
    (hnew : uid ∉ p.world.server.hangmanUsersList) (hs : p.world.server.hangman.state ≠ .initial)
    (hfsm : p'.world.server.hangman = p.world.server.hangman)
    (husers : p'.world.server.hangmanUsersList =
      Server.addUser p.world.server.hangmanUsersList uid)
    (hplaying : p'.playing = Function.update p.playing fd true) : p'.Listed := by
  have hlist : p'.world.server.hangmanUsersList = uid :: p.world.server.hangmanUsersList := by
    rw [husers, Server.addUser, List.take_of_length_le hfits]
  refine ⟨hc.table, fun h => absurd (hfsm ▸ h) hs, hc.silent hI fun fd' hne => .inl ?_, fun _ => ?_,
    fun _ uid' => ?_⟩
  · rw [hplaying]
    exact Function.update_of_ne hne _ _
  · rw [hlist]
    exact List.nodup_cons.mpr ⟨hnew, hI.nodup hs⟩
  · rw [hlist, List.mem_cons, hI.mem_iff hs, Plays, Plays, hc.conns, hplaying]
    constructor
    · rintro (rfl | ⟨fd', hfd', huid, hpl⟩)
      · exact ⟨fd, hc.conn, (hc.uids fd).trans hc.sender, Function.update_self _ _ _⟩
      · refine ⟨fd', hfd', (hc.uids fd').trans huid, ?_⟩
        by_cases hfd : fd' = fd
        · rw [hfd, Function.update_self]
        · rw [Function.update_of_ne hfd]
          exact hpl
    · rintro ⟨fd', hfd', huid, hpl⟩
      rw [hc.uids] at huid
      by_cases hfd : fd' = fd
      · rw [hfd, hc.sender] at huid
        cases huid
        exact .inl rfl
      · rw [Function.update_of_ne hfd] at hpl
        exact .inr ⟨fd', hfd', huid, hpl⟩

theorem commands_of_frame (ht : p.world.server.TableOk) (hk : k < p.world.server.conns.length)
    (hm : p.world.Members) (hg : p.world.Gclient (.frame (k + 1) f buf env)) {c : HangmanCommand}
    (hc : p.world.server.command (.frame (k + 1) f buf env) = some c) {m : GroupMember}
    (hmember : p.world.server.group.member ((k + 1 : Nat) - 1) = .ok m)
    (h : p.step (.frame (k + 1) f buf env) = .ok p') :
    p.world.announcedAt k = some m ∧ Commands p p' p.world.server.conns[k] m.uid.toStr := by
  obtain ⟨hw, -⟩ := step_ok h
  obtain ⟨out, hs, -⟩ := World.step_ok hw
  have hf : f.type ≠ LMP_GRP_INIT_MEMBER := by
    intro hf
    rw [Server.command_of_ne (by rw [hf]; decide)] at hc
    cases hc
  have hat := World.announcedAt_of_member hm hg hf hmember
  exact ⟨hat, ht.frame hs, (Server.conns_of_frame hs).2.1,
    fun fd => World.uidOf_frame ht hk hw (.inl hf), List.getElem_mem hk, World.uidOf_conn hk hat⟩

theorem listed_frame (hI : p.Listed) (hk : k < p.world.server.conns.length)
    (hm : p.world.Members) (hg : p.world.Gclient (.frame (k + 1) f buf env))
    (hkeep : p.Keeps (.frame (k + 1) f buf env))
    (h : p.step (.frame (k + 1) f buf env) = .ok p') : p'.Listed := by
  obtain ⟨hw, hplaying⟩ := step_ok h
  obtain ⟨out, hs, -⟩ := World.step_ok hw
  obtain ⟨-, hconns, -⟩ := Server.conns_of_frame hs
  rw [playingAfter_frame hI.table hk] at hplaying
  have hsilent : p'.playing = p.playing → ∀ fd ∈ p'.world.server.conns,
      p'.world.uidOf fd = none → p'.playing fd = false := by
    intro hplaying fd hfd hnone
    have hne : fd ≠ p.world.server.conns[k] := by
      rintro rfl
      exact uidOf_of_frame hI.table hk hg hw hnone
    rw [World.uidOf_frame hI.table hk hw (.inr hne)] at hnone
    rw [hplaying]
    exact hI.silent fd (hconns ▸ hfd) hnone
  cases Server.gameStep_of_step hs with
  | other hnone _ hfsm husers =>
    rw [hnone] at hplaying
    exact hI.same (hI.table.frame hs) (by rw [hfsm]) husers (hsilent hplaying)
      fun _ => plays_of_frame hI hk hg h hplaying
  | guess i f' buf' env' m c response he hc hmember hguess hfsm hout husers =>
    cases he
    rw [Server.command_of_ne (by rw [(Server.guessed_eq_some hc).1]; decide)] at hplaying
    have hsame : p'.world.server.hangman.state ≠ .initial →
        p'.world.server.hangmanUsersList = p.world.server.hangmanUsersList :=
      fun hs => by rw [husers, if_neg hs]
    refine ⟨hI.table.frame hs, fun hs => by rw [husers, if_pos hs], hsilent hplaying,
      fun hs => ?_, fun hs uid => ?_⟩
    · rw [hsame hs]
      exact hI.nodup hguess.1
    · rw [hsame hs, hI.mem_iff hguess.1, plays_of_frame hI hk hg h hplaying]
  | start i f' buf' env' m he hc hmember hstate hfsm husers =>
    cases he
    obtain ⟨-, hcommands⟩ := commands_of_frame hI.table hk hm hg hc hmember h
    rw [hc] at hplaying
    refine listed_of_start hI hcommands (hm.fits _ hcommands.conn _ hcommands.sender) hstate ?_
      husers hplaying
    rw [hfsm]
    exact HangmanState.noConfusion
  | exit i f' buf' env' m he hc hmember hfsm husers =>
    cases he
    obtain ⟨-, hcommands⟩ := commands_of_frame hI.table hk hm hg hc hmember h
    rw [hc] at hplaying
    exact listed_of_exit hI hm hcommands hfsm husers hplaying
  | join i f' buf' env' m he hc hmember hstate hfsm husers =>
    cases he
    obtain ⟨hat, hcommands⟩ := commands_of_frame hI.table hk hm hg hc hmember h
    rw [hc] at hplaying
    exact listed_of_join hI hcommands (hm.fits _ hcommands.conn _ hcommands.sender)
      (hkeep hc m hat) hstate hfsm husers hplaying

theorem listed_step (hI : p.Listed) (hg : p.world.Gclient e) (hm : p.world.Members)
    (hkeep : p.Keeps e) (h : p.step e = .ok p') : p'.Listed := by
  cases e with
  | accept fd => exact listed_accept hI hg h
  | frame i f buf env =>
    obtain ⟨k, rfl, hk⟩ := hI.table.exists_conn hg.1 hg.2.1
    exact listed_frame hI hk hm hg hkeep h
  | hangup i status env =>
    obtain ⟨k, rfl, hk⟩ := hI.table.exists_conn hg.1 hg.2
    exact listed_hangup hI hk hkeep h

end Played

end SocketSpeak
