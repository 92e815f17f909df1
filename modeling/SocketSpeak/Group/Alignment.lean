import SocketSpeak.Group.Bounds

/-!
# The table of members and the table of connections

The member of the connection `pfds[k + 1]` is meant to be `members[k]`. But a connection gets its
place in the first table when it is accepted and its member the next free slot when it announces
itself, so the two belong together only if the connections announce themselves in the order of the
table, and leave in an order that keeps this so (`aligned_iff`).
-/

namespace SocketSpeak
open CLib Sys

namespace World

/-- Each connection that has announced a member has it in its slot. -/
def Aligned (w : World) : Prop := ∀ k m, w.announcedAt k = some m →
  w.server.group.members[k]? = some m ∧ (k : Int) < w.server.group.memberCount.val

/-- The event is handled without a `Fault`, and the tables belong together after it. -/
def AlignedAfter (w : World) (e : ServerEvent) : Prop := ∃ w', w.step e = .ok w' ∧ w'.Aligned

/-- The connection that announces itself is the first one that has not yet; the one that hangs up is
the last one that has, or all have, or none has (and the counter can still go down). -/
def InOrder (w : World) : ServerEvent → Prop
  | .accept _ => True
  | .frame i f _ _ => f.type = LMP_GRP_INIT_MEMBER → w.server.group.memberCount.val = i - 1
  | .hangup i _ _ => w.server.group.memberCount.val = i ∨
    w.server.group.memberCount.val = w.server.conns.length ∨
    (INT_MIN < w.server.group.memberCount.val ∧ w.server.group.memberCount.val ≤ 0)

instance (w : World) : ∀ e, Decidable (w.InOrder e)
  | .accept _ => .isTrue trivial
  | .frame .. => inferInstanceAs (Decidable (_ → _))
  | .hangup .. => inferInstanceAs (Decidable (_ ∨ _ ∨ _ ∧ _))

/-- The connections that have announced a member are the first `member_count` ones. -/
structure Ordered (w : World) : Prop where
  table : w.server.TableOk
  room : w.server.conns.length ≤ MAX_GROUP_MEMBERS
  count_le : w.server.group.memberCount.val ≤ w.server.conns.length
  isSome_iff : ∀ k, k < w.server.conns.length →
    ((w.announcedAt k).isSome ↔ (k : Int) < w.server.group.memberCount.val)
  slot : ∀ k m, w.announcedAt k = some m → w.server.group.members[k]? = some m

variable {w w' : World} {k : Nat} {f : Frame} {buf : Bytes} {env : Env} {status : Int}

theorem Ordered.countOk (hI : w.Ordered) : w.server.CountOk := by
  have hle := hI.count_le
  have hroom := hI.room
  exact ⟨by omega, hle⟩

theorem Ordered.aligned (hI : w.Ordered) : w.Aligned := by
  intro k m hm
  refine ⟨hI.slot k m hm, ?_⟩
  have hk : k < w.server.conns.length := by
    by_contra hk
    rw [announcedAt_of_le (Nat.not_lt.mp hk)] at hm
    cases hm
  exact (hI.isSome_iff k hk).mp (by rw [hm]; rfl)

theorem ordered_accept (hI : w.Ordered) {fd : Int} (hg : w.Gclient (.accept fd))
    (hroom : w.Room (.accept fd)) (h : w.step (.accept fd) = .ok w') : w'.Ordered := by
  have hat := fun k => announcedAt_accept (k := k) hI.table hg h
  have ht := tableOk_step hI.table hg h
  obtain ⟨hs, -, -⟩ := announced_accept hg h
  have hgroup : w'.server.group = w.server.group := by
    rw [hs, Server.group_handleNewConnection]
  have hlen : w'.server.conns.length = w.server.conns.length ∨
      w'.server.conns.length = w.server.conns.length + 1 := by
    rw [hs]
    by_cases h1 : fd = -1
    · simp [Server.handleNewConnection, h1]
    · simp [Server.conns_of_accept hI.table h1]
  have hlt : w.server.conns.length < MAX_GROUP_MEMBERS := hroom
  have hle := hI.count_le
  refine ⟨ht, by omega, by rw [hgroup]; omega, fun k hk => ?_, fun k m hm => ?_⟩
  · rw [hat, hgroup]
    by_cases hk' : k < w.server.conns.length
    · exact hI.isSome_iff k hk'
    · rw [announcedAt_of_le (Nat.not_lt.mp hk')]
      simp
      omega
  · rw [hat] at hm
    rw [hgroup]
    exact hI.slot k m hm

/-- A frame other than the first one changes at most the nickname of its connection. -/
theorem ordered_frame (hI : w.Ordered) (hk : k < w.server.conns.length)
    (hf : f.type ≠ LMP_GRP_INIT_MEMBER)
    (h : w.step (.frame (k + 1) f buf env) = .ok w') : w'.Ordered := by
  have hat := fun j => announcedAt_frame (j := j) hI.table hk h
  obtain ⟨out, hs, -⟩ := step_ok h
  obtain ⟨-, hc, -⟩ := Server.conns_of_frame hs
  have hcount := Server.memberCount_of_frame hs
  rw [if_neg hf, Int.add_zero] at hcount
  refine ⟨hI.table.frame hs, by rw [hc]; exact hI.room, by rw [hc, hcount]; exact hI.count_le,
    fun j hj => ?_, fun j m hm => ?_⟩
  · rw [hc] at hj
    rw [hat, hcount, ← hI.isSome_iff j hj]
    split
    · rename_i hjk
      rw [isSome_announce hf, hjk]
    · rfl
  · rw [hat] at hm
    obtain ⟨fd, -, -, -, hh⟩ := Server.handled_of_frame hs
    have hsame : f.type ≠ LMP_NICK → w'.server.group = w.server.group →
        w'.server.group.members[j]? = some m := by
      intro hnick hgroup
      rw [announce_of_ne hf hnick] at hm
      rw [hgroup]
      apply hI.slot
      split at hm
      · rename_i hjk
        rwa [hjk]
      · exact hm
    cases hh with
    | nick m₀ ht hm₀ hset =>
      have hi : ((k + 1 : Nat) : Int) - 1 = k := by omega
      rw [hi] at hm₀ hset
      obtain ⟨k', hk', hget⟩ := Group.member_eq_ok.mp hm₀
      obtain rfl : k = k' := by omega
      obtain ⟨k', hk', hlt, hgroup⟩ := Group.setMember_eq_ok.mp hset
      obtain rfl : k = k' := by omega
      rw [hgroup]
      simp only [Vector.getElem?_setIfInBounds]
      by_cases hjk : j = k
      · subst hjk
        rw [if_pos rfl, announce_nick ht, Option.map_eq_some_iff] at hm
        obtain ⟨m₁, hm₁, rfl⟩ := hm
        have hslot := hI.slot j m₁ hm₁
        rw [hget, Option.some.injEq] at hslot
        simp [hlt, hslot]
      · rw [if_neg hjk] at hm
        rw [if_neg (Ne.symm hjk)]
        exact hI.slot j m hm
    | init _ ht => exact absurd ht hf
    | relayed ht _ _ hgroup => exact hsame (fun he => by simp [he] at ht) hgroup
    | answered _ ht _ _ hgroup =>
      exact hsame (fun he => by rw [he] at ht; exact absurd ht (by decide)) hgroup

/-- The first frame of the first connection that has not sent one yet. -/
theorem ordered_init (hI : w.Ordered) (hk : k < w.server.conns.length)
    (hf : f.type = LMP_GRP_INIT_MEMBER) (hlen : f.payload.length = GroupMember.size)
    (hord : w.server.group.memberCount.val = k)
    (h : w.step (.frame (k + 1) f buf env) = .ok w') : w'.Ordered := by
  have hat := fun j => announcedAt_frame (j := j) hI.table hk h
  obtain ⟨out, hs, -⟩ := step_ok h
  obtain ⟨-, hc, -⟩ := Server.conns_of_frame hs
  obtain ⟨c, hcount, hc10, hgroup⟩ : ∃ c : Nat, w.server.group.memberCount.val = c ∧
      c < MAX_GROUP_MEMBERS ∧ w'.server.group.members =
        w.server.group.members.setIfInBounds c (.ofBytes f.payload) := by
    obtain ⟨fd, -, -, -, hh⟩ := Server.handled_of_frame hs
    cases hh with
    | init g _ hset hadd =>
      rw [received_buf, GroupMember.ofBytes_append hlen] at hset
      obtain ⟨c, hcount, hlt, rfl⟩ := Group.setMember_eq_ok.mp hset
      exact ⟨c, hcount, hlt, (Group.memberCount_of_addCount hadd).2⟩
    | nick _ ht => rw [hf] at ht; exact absurd ht (by decide)
    | relayed ht => simp [hf] at ht
    | answered _ ht => rw [hf] at ht; exact absurd ht (by decide)
  obtain rfl : c = k := by omega
  have hcount' := Server.memberCount_of_frame hs
  rw [if_pos hf, hcount] at hcount'
  refine ⟨hI.table.frame hs, by rw [hc]; exact hI.room, by rw [hc, hcount']; omega,
    fun j hj => ?_, fun j m hm => ?_⟩
  · rw [hc] at hj
    have hiff := hI.isSome_iff j hj
    rw [hcount] at hiff
    rw [hat, hcount']
    split
    · rw [announce_init hf]
      simp
      omega
    · rw [hiff]
      omega
  · rw [hat] at hm
    rw [hgroup]
    simp only [Vector.getElem?_setIfInBounds]
    by_cases hjk : j = c
    · rw [if_pos hjk, announce_init hf] at hm
      simp [hjk, hc10, hm]
    · rw [if_neg hjk] at hm
      rw [if_neg (Ne.symm hjk)]
      exact hI.slot j m hm

theorem ordered_hangup (hI : w.Ordered) (hk : k < w.server.conns.length)
    (hord : w.InOrder (.hangup (k + 1) status env))
    (h : w.step (.hangup (k + 1) status env) = .ok w') : w'.Ordered := by
  have hat := fun j => announcedAt_hangup (j := j) hI.table hk h
  obtain ⟨out, hs, -⟩ := step_ok h
  obtain ⟨-, hc⟩ := Server.conns_of_hangup hI.table hk hs
  have hlen : w'.server.conns.length = w.server.conns.length - 1 := by rw [hc, length_swapRemove]
  have hcount := Server.memberCount_of_hangup hs
  have hle := hI.count_le
  have hroom := hI.room
  obtain ⟨last, hlast, hgroup⟩ : ∃ last, w.server.group.members[w.server.conns.length - 1]? =
      some last ∧ w'.server.group.members = w.server.group.members.setIfInBounds k last := by
    obtain ⟨-, -, -, ⟨last, g, hm, hset, hadd⟩, -⟩ := Server.handled_of_hangup hs
    obtain ⟨n, hn, hget⟩ := Group.member_eq_ok.mp hm
    obtain rfl : n = w.server.conns.length - 1 := by rw [hI.table.fdCount] at hn; omega
    obtain ⟨k', hk', -, rfl⟩ := Group.setMember_eq_ok.mp hset
    obtain rfl : k = k' := by omega
    exact ⟨last, hget, (Group.memberCount_of_addCount hadd).2⟩
  have hord : w.server.group.memberCount.val = (k + 1 : Nat) ∨
    w.server.group.memberCount.val = w.server.conns.length ∨
    (INT_MIN < w.server.group.memberCount.val ∧ w.server.group.memberCount.val ≤ 0) := hord
  refine ⟨hI.table.hangup hk hs, by omega, by omega, fun j hj => ?_, fun j m hm => ?_⟩
  · have hiff := hI.isSome_iff j (by omega)
    have hiff' := hI.isSome_iff (w.server.conns.length - 1) (by omega)
    rw [hat, if_pos (by omega), hcount]
    split
    · rw [hiff']
      omega
    · rw [hiff]
      omega
  · rw [hat] at hm
    rw [hgroup]
    simp only [Vector.getElem?_setIfInBounds]
    split at hm
    · by_cases hjk : j = k
      · rw [if_pos hjk] at hm
        have hslot := hI.slot _ m hm
        rw [hlast] at hslot
        rw [if_pos hjk.symm, if_pos (by rw [MAX_GROUP_MEMBERS] at *; omega)]
        exact hslot
      · rw [if_neg hjk] at hm
        rw [if_neg (Ne.symm hjk)]
        exact hI.slot j m hm
    · cases hm

/-- What happens in order is handled without a `Fault`. -/
theorem Ordered.exists_step (hI : w.Ordered) {e : ServerEvent} (hg : w.Gclient e)
    (hord : w.InOrder e) : ∃ w', w.step e = .ok w' := by
  have hroom := hI.room
  apply step_of_server
  cases e with
  | accept fd => exact ⟨_, rfl⟩
  | frame i f buf env =>
    obtain ⟨hi, hlt, -⟩ := hg
    obtain ⟨k, rfl, hk⟩ := hI.table.exists_conn hi hlt
    refine Server.frame_ok hI.table hI.countOk hk (fun _ => by omega) (fun hf => ?_) buf env
    have hcount : w.server.group.memberCount.val = ((k + 1 : Nat) : Int) - 1 := hord hf
    exact ⟨by omega, by omega⟩
  | hangup i status env =>
    obtain ⟨hi, hlt⟩ := hg
    obtain ⟨k, rfl, hk⟩ := hI.table.exists_conn hi hlt
    have hord : w.server.group.memberCount.val = (k + 1 : Nat) ∨
      w.server.group.memberCount.val = w.server.conns.length ∨
      (INT_MIN < w.server.group.memberCount.val ∧ w.server.group.memberCount.val ≤ 0) := hord
    refine Server.hangup_ok hI.table hk hroom ?_ status env
    rw [INT_MIN] at hord ⊢
    omega

/-! ## The other orders -/

/-- A connection that announces itself before one in front of it does: its member gets the slot of
the other one. -/
theorem not_aligned_init (hI : w.Ordered) (hk : k < w.server.conns.length)
    (hf : f.type = LMP_GRP_INIT_MEMBER) (hnone : w.announcedAt k = none)
    (hord : ¬ w.InOrder (.frame (k + 1) f buf env)) :
    ¬ w.AlignedAfter (.frame (k + 1) f buf env) := by
  rintro ⟨w', hw, hal⟩
  have hnot : w.server.group.memberCount.val ≠ ((k + 1 : Nat) : Int) - 1 := fun h => hord fun _ => h
  have hiff := hI.isSome_iff k hk
  rw [hnone] at hiff
  simp only [Option.isSome_none, Bool.false_eq_true, false_iff] at hiff
  obtain ⟨out, hs, -⟩ := step_ok hw
  have hcount := Server.memberCount_of_frame hs
  rw [if_pos hf] at hcount
  have hat := announcedAt_frame (j := k) hI.table hk hw
  rw [if_pos rfl, announce_init hf] at hat
  obtain ⟨-, hlt⟩ := hal k _ hat
  omega

/-- A connection that leaves although one behind it has announced itself, and another one has not:
the last member is not counted any more. (A counter that cannot go down any more is a `Fault`.) -/
theorem not_aligned_hangup (hI : w.Ordered) (hk : k < w.server.conns.length)
    (hord : ¬ w.InOrder (.hangup (k + 1) status env)) :
    ¬ w.AlignedAfter (.hangup (k + 1) status env) := by
  rintro ⟨w', hw, hal⟩
  obtain ⟨out, hs, -⟩ := step_ok hw
  have hcount := Server.memberCount_of_hangup hs
  have hmin := w'.server.group.memberCount.min_le
  have hnot : ¬ (w.server.group.memberCount.val = (k + 1 : Nat) ∨
    w.server.group.memberCount.val = w.server.conns.length ∨
    (INT_MIN < w.server.group.memberCount.val ∧ w.server.group.memberCount.val ≤ 0)) := hord
  have hle := hI.count_le
  obtain ⟨c, hc⟩ : ∃ c : Nat, w.server.group.memberCount.val = (c + 1 : Nat) :=
    ⟨(w.server.group.memberCount.val - 1).toNat, by omega⟩
  have hat := announcedAt_hangup (j := c) hI.table hk hw
  rw [if_pos (by omega), if_neg (by omega)] at hat
  have hsome := (hI.isSome_iff c (by omega)).mpr (by omega)
  rw [← hat] at hsome
  obtain ⟨m, hm⟩ := Option.isSome_iff_exists.mp hsome
  obtain ⟨-, hlt⟩ := hal c m hm
  omega

/-! ## Main result -/

theorem ordered_start (listener : Int) (info : GroupInfo) : (start listener info).Ordered :=
  ⟨.start listener info, Nat.zero_le _, Int.le_refl 0, fun _ hk => absurd hk (Nat.not_lt_zero _),
    fun _ _ hm => by cases hm⟩

theorem ordered_step (hI : w.Ordered) {e : ServerEvent} (hg : w.Gclient e ∧ w.Room e)
    (hord : w.InOrder e) (h : w.step e = .ok w') : w'.Ordered := by
  obtain ⟨hg, hroom⟩ := hg
  cases e with
  | accept fd => exact ordered_accept hI hg hroom h
  | frame i f buf env =>
    obtain ⟨hi, hlt, -, hlen, -⟩ := hg
    obtain ⟨k, rfl, hk⟩ := hI.table.exists_conn hi hlt
    by_cases hf : f.type = LMP_GRP_INIT_MEMBER
    · refine ordered_init hI hk hf (hlen hf) ?_ h
      rw [hord hf]
      omega
    · exact ordered_frame hI hk hf h
  | hangup i status env =>
    obtain ⟨hi, hlt⟩ := hg
    obtain ⟨k, rfl, hk⟩ := hI.table.exists_conn hi hlt
    exact ordered_hangup hI hk hord h

theorem inOrder_of_alignedAfter (hI : w.Ordered) {e : ServerEvent} (hg : w.Gclient e)
    (hal : w.AlignedAfter e) : w.InOrder e := by
  by_contra hord
  cases e with
  | accept fd => exact hord trivial
  | frame i f buf env =>
    obtain ⟨hi, hlt, -, -, hinit⟩ := hg
    obtain ⟨k, rfl, hk⟩ := hI.table.exists_conn hi hlt
    by_cases hf : f.type = LMP_GRP_INIT_MEMBER
    · exact not_aligned_init hI hk hf (hinit.mp hf) hord hal
    · exact hord fun h => absurd h hf
  | hangup i status env =>
    obtain ⟨hi, hlt⟩ := hg
    obtain ⟨k, rfl, hk⟩ := hI.table.exists_conn hi hlt
    exact not_aligned_hangup hI hk hord hal

/-- **Each event is handled and the two tables belong together** after it, in a whole run, if and
only if the connections announce themselves and leave in order. -/
theorem aligned_iff (listener : Int) (info : GroupInfo) (es : List ServerEvent)
    (hg : Meets step (fun w e => w.Gclient e ∧ w.Room e) (start listener info) es) :
    Meets step AlignedAfter (start listener info) es ↔
      Meets step InOrder (start listener info) es := by
  apply meets_iff (I := Ordered) ?_ ?_ (ordered_start listener info) hg
  · intro w e hI hg
    constructor
    · exact inOrder_of_alignedAfter hI hg.1
    · intro hord
      obtain ⟨w', hw⟩ := hI.exists_step hg.1 hord
      exact ⟨w', hw, (ordered_step hI hg hord hw).aligned⟩
  · intro w e w' hI hg hord hw
    exact ordered_step hI hg hord hw

/-- Two clients announce themselves in order; one changes its nickname, the other one leaves. -/
theorem aligned_two_clients :
    let ann := userMemberInfo (str "a0000001") (str "ann")
    let bob := userMemberInfo (str "b0000002") (str "bob")
    let es : List ServerEvent := [.accept 5, .accept 6, .frame 1 (initFrame ann) [] .allOk,
      .frame 2 (initFrame bob) [] .allOk, .frame 2 (lmpFrame LMP_NICK (str "rob")) [] .allOk,
      .hangup 1 (-2) .allOk]
    Meets step AlignedAfter (start 3 gserverInfo) es := by
  intro ann bob es
  have hg : Meets step (fun w e => w.Gclient e ∧ w.Room e) (start 3 gserverInfo) es := by
    decide +kernel
  have hord : Meets step InOrder (start 3 gserverInfo) es := by decide +kernel
  exact (aligned_iff 3 gserverInfo es hg).mpr hord

/-- Two clients are accepted, and the second one announces itself first: its member is at the
place of the first one. -/
theorem not_aligned_second_first :
    let bob := userMemberInfo (str "b0000002") (str "bob")
    let es : List ServerEvent := [.accept 5, .accept 6, .frame 2 (initFrame bob) [] .allOk]
    Meets step (fun w e => w.Gclient e ∧ w.Room e) (start 3 gserverInfo) es ∧
      ∃ w, exec step (start 3 gserverInfo) es = .ok w ∧ w.announcedAt 1 = some bob ∧
        w.server.group.members[0]? = some bob ∧ w.server.group.memberCount.val = 1 ∧
        ¬ w.Aligned := by
  intro bob es
  refine ⟨by decide +kernel, _, rfl, by decide +kernel, by decide +kernel, by decide +kernel, ?_⟩
  intro hal
  obtain ⟨-, hlt⟩ := hal 1 bob (by decide +kernel)
  exact absurd hlt (by decide +kernel)

end World

end SocketSpeak
