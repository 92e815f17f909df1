import SocketSpeak.Group.Clients

/-!
# Exactly when the indices are in range

`InRange` is what the handling of an event needs of the two tables, as a condition on the state
before it: the event is handled without a `Fault` if and only if it holds (`step_ok_iff`).
-/

namespace SocketSpeak
open CLib

namespace Group
variable {g : Group} {k : Nat} {d : Int}

theorem member_ok (h : k < MAX_GROUP_MEMBERS) : ∃ m, g.member k = .ok m :=
  ⟨_, member_eq_ok.mpr ⟨k, rfl, Vector.getElem?_eq_getElem h⟩⟩

theorem setMember_ok (h : k < MAX_GROUP_MEMBERS) (m : GroupMember) :
    ∃ g', g.setMember k m = .ok g' ∧ g'.memberCount = g.memberCount :=
  ⟨_, setMember_eq_ok.mpr ⟨k, rfl, h, rfl⟩, rfl⟩

theorem addCount_ok (hmin : INT_MIN ≤ g.memberCount.val + d)
    (hmax : g.memberCount.val + d ≤ INT_MAX) :
    ∃ g', g.addCount d = .ok g' :=
  ⟨_, addCount_eq_ok.mpr ⟨⟨_, hmin, hmax⟩, rfl, rfl⟩⟩

end Group

namespace Server

/-- The place of `uid` among the members that the server counts, as far as these are in the
table. -/
def playerIndex (s : Server) (uid : Bytes) : Option Nat :=
  (s.group.members.toList.take s.group.memberCount.val.toNat).findIdx? fun m => m.uid.toStr = uid

/-- The search for a player does not leave the table, and the place where it ends belongs to a
connection. -/
def PlayerInRange (s : Server) (uid : Bytes) : Prop :=
  match s.playerIndex uid with
  | some j => j + 1 < s.fdCount
  | none => s.group.memberCount.val ≤ MAX_GROUP_MEMBERS

instance (s : Server) (uid : Bytes) : Decidable (s.PlayerInRange uid) :=
  have : Decidable (match s.playerIndex uid with
      | some j => j + 1 < s.fdCount
      | none => s.group.memberCount.val ≤ MAX_GROUP_MEMBERS) :=
    match s.playerIndex uid with
    | some _ => inferInstanceAs (Decidable (_ < _))
    | none => inferInstanceAs (Decidable (_ ≤ _))
  this

/-- The message `f` from `pfds[i]` is a guess that the game processes. -/
def Guesses (s : Server) (i : Nat) (f : Frame) : Prop :=
  (∃ m ∈ s.group.members[i - 1]?, s.IsGuess m) ∧ s.hangman.state ≠ .update ∧
    (cstr f.payload).length = 1

instance (s : Server) (i : Nat) (f : Frame) : Decidable (s.Guesses i f) :=
  inferInstanceAs (Decidable (_ ∧ _ ∧ _))

/-- A new member finds a slot, the member of the sender of a command or a message is in the table,
and so are the players where a guess is answered; the last member is in the table when a connection
is closed. -/
def InRange (s : Server) : ServerEvent → Prop
  | .accept _ => True
  | .frame i f _ _ =>
    (f.type = LMP_GRP_INIT_MEMBER →
      0 ≤ s.group.memberCount.val ∧ s.group.memberCount.val < MAX_GROUP_MEMBERS) ∧
    (f.type ∈ [LMP_NICK, LMP_GRP_LOAD_MSG, LMP_GRP_HANGMAN, LMP_MSG] → i ≤ MAX_GROUP_MEMBERS) ∧
    (f.type = LMP_MSG → s.Guesses i f → ∀ uid ∈ s.hangmanUsersList, s.PlayerInRange uid)
  | .hangup .. => s.fdCount ≤ MAX_GROUP_MEMBERS + 1 ∧ INT_MIN < s.group.memberCount.val

instance (s : Server) : ∀ e, Decidable (s.InRange e)
  | .accept _ => .isTrue trivial
  | .frame .. => inferInstanceAs (Decidable ((_ → _) ∧ (_ → _) ∧ (_ → _ → _)))
  | .hangup .. => inferInstanceAs (Decidable (_ ∧ _))

variable {s : Server} {env : Env} {i k : Nat} {fd : Int} {f : Frame}

/-! ## The players -/

theorem findMember_eq {g : Group} (uid : Bytes) {n : Nat} (hk : k ≤ MAX_GROUP_MEMBERS) :
    findMember g uid n k =
      match ((g.members.toList.drop k).take n).findIdx? fun m => m.uid.toStr = uid with
      | some j => .ok (some ((k + j : Nat) : Int))
      | none => if k + n ≤ MAX_GROUP_MEMBERS then .ok none
        else .error (.memberIndex MAX_GROUP_MEMBERS) := by
  induction n generalizing k with
  | zero => simp [findMember, hk]
  | succ n ih =>
    rcases Nat.lt_or_eq_of_le hk with hlt | rfl
    · have hlen : k < g.members.toList.length := by rwa [Vector.length_toList]
      have hm : g.member k = .ok g.members[k] :=
        Group.member_eq_ok.mpr ⟨k, rfl, Vector.getElem?_eq_getElem hlt⟩
      rw [List.drop_eq_getElem_cons hlen, List.take_succ_cons, List.findIdx?_cons, findMember, hm,
        ok_bind, Vector.getElem_toList]
      by_cases huid : g.members[k].uid.toStr = uid
      · simp [huid]
      · have ih := ih (k := k + 1) (by omega)
        rw [if_neg huid, show (k : Int) + 1 = (k + 1 : Nat) from rfl, ih]
        simp only [huid, decide_false, Bool.false_eq_true, if_false]
        cases ((g.members.toList.drop (k + 1)).take n).findIdx? fun m => m.uid.toStr = uid with
        | none => simp only [Option.map_none, Nat.add_assoc, Nat.add_comm 1 n]
        | some j => simp only [Option.map_some, Nat.add_assoc, Nat.add_comm 1 j]
    · have hm : g.member (MAX_GROUP_MEMBERS : Nat) = .error (.memberIndex MAX_GROUP_MEMBERS) := by
        simp [Group.member]
      have hnil : g.members.toList.drop MAX_GROUP_MEMBERS = [] :=
        List.drop_of_length_le (Nat.le_of_eq Vector.length_toList)
      have hgt : ¬ MAX_GROUP_MEMBERS + (n + 1) ≤ MAX_GROUP_MEMBERS := by omega
      rw [findMember, hm, hnil, List.take_nil, List.findIdx?_nil]
      exact (if_neg hgt).symm

theorem pollFd_ok_iff : (∃ fd, s.pollFd i = .ok fd) ↔ i < s.fdCount := by
  have hneg : ¬ (i : Int) < 0 := by omega
  rw [pollFd, if_neg hneg, Int.toNat_natCast, fdCount]
  by_cases hi : i < s.pfds.length
  · simp [hi]
  · simp [hi]

theorem findMember_playerIndex (s : Server) (uid : Bytes) :
    findMember s.group uid s.group.memberCount.val.toNat 0 =
      match s.playerIndex uid with
      | some j => .ok (some (j : Int))
      | none => if s.group.memberCount.val.toNat ≤ MAX_GROUP_MEMBERS then .ok none
        else .error (.memberIndex MAX_GROUP_MEMBERS) := by
  have h := findMember_eq (g := s.group) uid (n := s.group.memberCount.val.toNat) (Nat.zero_le _)
  simp only [List.drop_zero, Nat.zero_add] at h
  exact h

theorem sendToPlayer_ok_iff {response uid : Bytes} :
    (∃ out, s.sendToPlayer env response uid = .ok out) ↔ s.PlayerInRange uid := by
  rw [sendToPlayer, bind_ok_iff, findMember_playerIndex, PlayerInRange]
  cases s.playerIndex uid with
  | none =>
    simp only
    split
    · exact iff_of_true ⟨none, rfl, [], rfl⟩ (by omega)
    · apply iff_of_false
      · rintro ⟨_, h, -⟩
        cases h
      · omega
  | some j =>
    simp only [Except.ok.injEq, exists_eq_left', bind_ok_iff, pure_eq_ok, exists_eq',
      and_true]
    exact pollFd_ok_iff (i := j + 1)

theorem sendToPlayers_ok_iff {response : Bytes} {uids : List Bytes} :
    (∃ out, s.sendToPlayers env response uids = .ok out) ↔ ∀ uid ∈ uids, s.PlayerInRange uid := by
  induction uids with
  | nil => exact iff_of_true ⟨[], rfl⟩ (by simp)
  | cons uid uids ih =>
    have hplayer : (∃ out, s.sendToPlayer env response uid = .ok out) ↔ s.PlayerInRange uid :=
      sendToPlayer_ok_iff
    rw [List.forall_mem_cons, ← ih, ← hplayer, sendToPlayers, bind_ok_iff]
    constructor
    · rintro ⟨out, h, _, h'⟩
      obtain ⟨out', h', -⟩ := bind_ok h'
      exact ⟨⟨out, h⟩, out', h'⟩
    · rintro ⟨⟨out, h⟩, out', h'⟩
      exact ⟨out, h, _, by rw [h']; rfl⟩

/-! ## The events -/

theorem member_ok_iff (hi : 0 < i) :
    (∃ m, s.group.member ((i : Int) - 1) = .ok m) ↔ i ≤ MAX_GROUP_MEMBERS := by
  obtain ⟨k, rfl⟩ := Nat.exists_eq_add_one.mpr hi
  have hk : ((k + 1 : Nat) : Int) - 1 = k := by omega
  rw [hk]
  constructor
  · rintro ⟨m, hm⟩
    obtain ⟨k', hk', hget⟩ := Group.member_eq_ok.mp hm
    obtain rfl : k = k' := by omega
    have hlt := (Vector.getElem?_eq_some_iff.mp hget).1
    exact hlt
  · exact fun h => Group.member_ok h

theorem clientNick_ok_iff (hi : 0 < i) {buf : Bytes} :
    (∃ r, s.clientNick env i buf = .ok r) ↔ i ≤ MAX_GROUP_MEMBERS := by
  rw [← member_ok_iff (s := s) hi, clientNick, bind_ok_iff]
  apply exists_congr
  intro m
  apply and_iff_left_of_imp
  intro hm
  obtain ⟨k, hk, hget⟩ := Group.member_eq_ok.mp hm
  obtain ⟨g, hg, -⟩ := Group.setMember_ok (g := s.group) (Vector.getElem?_eq_some_iff.mp hget).1
    { m with nickname := .copyStr _ buf }
  rw [hk, hg]
  exact ⟨_, rfl⟩

theorem clientInitMember_ok_iff {buf : Bytes} : (∃ r, s.clientInitMember env buf = .ok r) ↔
    0 ≤ s.group.memberCount.val ∧ s.group.memberCount.val < MAX_GROUP_MEMBERS := by
  rw [clientInitMember, bind_ok_iff]
  constructor
  · rintro ⟨g, hg, -⟩
    obtain ⟨k, hk, hlt, -⟩ := Group.setMember_eq_ok.mp hg
    omega
  · rintro ⟨h0, hlt⟩
    obtain ⟨c, hcount⟩ := Int.eq_ofNat_of_zero_le h0
    rw [hcount] at hlt ⊢
    obtain ⟨g, hg, hgc⟩ := Group.setMember_ok (g := s.group) (Int.ofNat_lt.mp hlt) (.ofBytes buf)
    rw [MAX_GROUP_MEMBERS] at hlt
    obtain ⟨g', hg'⟩ := Group.addCount_ok (g := g) (d := 1) (by rw [hgc, hcount, INT_MIN]; omega)
      (by rw [hgc, hcount, INT_MAX]; omega)
    refine ⟨g, hg, ?_⟩
    rw [hg']
    exact ⟨_, rfl⟩

theorem clientLoadMsg_ok_iff (hi : 0 < i) :
    (∃ r, s.clientLoadMsg env i fd = .ok r) ↔ i ≤ MAX_GROUP_MEMBERS := by
  rw [← member_ok_iff (s := s) hi, clientLoadMsg, bind_ok_iff]
  exact exists_congr fun m => and_iff_left ⟨_, rfl⟩

theorem clientHangman_succeeds (hk : k < MAX_GROUP_MEMBERS) (fd : Int) (buf : Bytes) :
    ∃ r, s.clientHangman env (k + 1) fd buf = .ok r := by
  obtain ⟨m, hm⟩ := Group.member_ok (g := s.group) hk
  have hi : ((k + 1 : Nat) : Int) - 1 = k := by omega
  simp only [clientHangman, hi, hm, ok_bind]
  split
  · split <;> exact ⟨_, rfl⟩
  split
  · exact ⟨_, rfl⟩
  split
  · split <;> exact ⟨_, rfl⟩
  · exact ⟨_, rfl⟩

theorem clientHangman_ok_iff (hi : 0 < i) {buf : Bytes} :
    (∃ r, s.clientHangman env i fd buf = .ok r) ↔ i ≤ MAX_GROUP_MEMBERS := by
  constructor
  · rintro ⟨⟨out, s'⟩, h⟩
    exact (member_ok_iff hi).mp (clientHangman_ok h).1
  · intro h
    obtain ⟨k, rfl⟩ := Nat.exists_eq_add_one.mpr hi
    exact clientHangman_succeeds h fd buf

theorem clientGuess_ok_iff {m : GroupMember} {buf : Bytes} :
    (∃ r, s.clientGuess env fd m buf = .ok r) ↔ (s.hangman.state ≠ .update → strlen buf = 1 →
      ∀ uid ∈ s.hangmanUsersList, s.PlayerInRange uid) := by
  unfold clientGuess
  split
  · rename_i hu
    exact iff_of_true ⟨_, rfl⟩ fun h => absurd hu h
  rename_i hu
  split
  · rename_i hlen
    exact iff_of_true ⟨_, rfl⟩ fun _ h => absurd h hlen
  · rename_i hlen
    rw [not_not] at hlen
    simp only [hu, ne_eq, not_false_eq_true, hlen, forall_const, bind_ok_iff]
    rw [← sendToPlayers_ok_iff]
    exact exists_congr fun out => and_iff_left ⟨_, rfl⟩

theorem guesses_iff {m : GroupMember} (hm : s.group.member ((i : Int) - 1) = .ok m) :
    s.Guesses i f ↔
      s.IsGuess m ∧ s.hangman.state ≠ .update ∧ (cstr f.payload).length = 1 := by
  obtain ⟨k, hk, hget⟩ := Group.member_eq_ok.mp hm
  obtain rfl : i - 1 = k := by omega
  simp [Guesses, hget]

theorem clientMsg_ok_iff (hi : 0 < i) {buf : Bytes} :
    (∃ r, s.clientMsg env i fd (f.received buf).received = .ok r) ↔ i ≤ MAX_GROUP_MEMBERS ∧
      (s.Guesses i f → ∀ uid ∈ s.hangmanUsersList, s.PlayerInRange uid) := by
  rw [← member_ok_iff (s := s) hi, ← exists_and_right, clientMsg, bind_ok_iff]
  apply exists_congr
  intro m
  apply and_congr_right
  intro hm
  rw [guesses_iff hm]
  split
  · rename_i hg
    have hlen : strlen (f.received buf).received.buf = (cstr f.payload).length := by
      rw [strlen, cstr_received]
    rw [clientGuess_ok_iff, hlen]
    constructor
    · rintro h ⟨-, hu, hl⟩
      exact h hu hl
    · intro h hu hl
      exact h ⟨hg, hu, hl⟩
  · rename_i hg
    exact iff_of_true ⟨_, rfl⟩ fun h => absurd h.1 hg

/-- A frame is handled if and only if the indices are in range. -/
theorem frame_ok_iff (hi : 0 < i) (hlt : i < s.fdCount) {buf : Bytes} :
    (∃ r, s.step (.frame i f buf env) = .ok r) ↔ s.InRange (.frame i f buf env) := by
  obtain ⟨fd, hfd⟩ := pollFd_ok_iff.mpr hlt
  have htype : (f.received buf).received.type = f.type := rfl
  simp only [step, handleClientData, hfd, ok_bind, htype, InRange]
  split
  · rename_i ht
    rw [clientNick_ok_iff hi, ht]
    simp [LMP_NICK, LMP_GRP_INIT_MEMBER, LMP_MSG]
  rename_i hnick
  split
  · rename_i ht
    rw [clientInitMember_ok_iff, ht]
    simp [LMP_NICK, LMP_GRP_INIT_MEMBER, LMP_GRP_LOAD_MSG, LMP_GRP_HANGMAN, LMP_MSG]
  rename_i hinit
  split
  · rename_i ht
    rw [clientLoadMsg_ok_iff hi, ht]
    simp [LMP_GRP_INIT_MEMBER, LMP_GRP_LOAD_MSG, LMP_MSG]
  rename_i hload
  split
  · rename_i ht
    rw [clientHangman_ok_iff hi, ht]
    simp [LMP_GRP_INIT_MEMBER, LMP_GRP_HANGMAN, LMP_MSG]
  rename_i hhangman
  split
  · rename_i ht
    rw [clientMsg_ok_iff hi, ht]
    simp [LMP_GRP_INIT_MEMBER, LMP_MSG]
  · rename_i hmsg
    apply iff_of_true ⟨_, rfl⟩
    simp [hnick, hinit, hload, hhangman, hmsg]

/-- A connection is closed if and only if the indices are in range. -/
theorem hangup_ok_iff (hi : 0 < i) (hlt : i < s.fdCount) {status : Int} :
    (∃ r, s.step (.hangup i status env) = .ok r) ↔ s.InRange (.hangup i status env) := by
  constructor
  · rintro ⟨⟨out, s'⟩, h⟩
    have hcount := memberCount_of_hangup h
    have hmin := s'.group.memberCount.min_le
    obtain ⟨-, -, -, ⟨last, g, hlast, -, -⟩, -⟩ := handled_of_hangup h
    obtain ⟨k, hk, hget⟩ := Group.member_eq_ok.mp hlast
    have hk10 := (Vector.getElem?_eq_some_iff.mp hget).1
    exact ⟨by omega, by omega⟩
  · rintro ⟨hle, hmin⟩
    obtain ⟨fd, hfd⟩ := pollFd_ok_iff.mpr hlt
    have hlast : (s.fdCount : Int) - 2 = (s.fdCount - 2 : Nat) := by omega
    have hi' : (i : Int) - 1 = (i - 1 : Nat) := by omega
    have hmax := s.group.memberCount.le_max
    obtain ⟨m, hm⟩ := Group.member_ok (g := s.group) (k := s.fdCount - 2) (by omega)
    obtain ⟨g, hg, hgc⟩ := Group.setMember_ok (g := s.group) (k := i - 1) (by omega) m
    obtain ⟨g', hg'⟩ := Group.addCount_ok (g := g) (d := -1) (by rw [hgc]; omega)
      (by rw [hgc]; omega)
    simp only [step, handleClientData, hfd, ok_bind, clientHangup, delFromPfds, hlast, hm, hi', hg,
      hg']
    exact ⟨_, rfl⟩

end Server

end SocketSpeak
