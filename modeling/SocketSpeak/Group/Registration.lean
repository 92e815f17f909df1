import SocketSpeak.Group.InRange
import SocketSpeak.Group.Net

/-!
# What a client registers

The server takes the first `sizeof(GroupMember)` bytes of its receive buffer for the new member,
whatever the length of the payload. `registered_iff` says for which payloads the member is the one
that the client has sent, its strings end in their fields and its uid is not in use.
-/

namespace SocketSpeak
open CLib

/-- The member in the slot `c`: its strings end inside of their fields, and no other member has its
uid. -/
def Group.SoundAt (g : Group) (c : Nat) : Prop :=
  ∃ m, g.members[c]? = some m ∧ m.uid.HasNul ∧ m.nickname.HasNul ∧
    ∀ (j : Nat) m', (j : Int) < g.memberCount.val → j ≠ c → g.members[j]? = some m' →
      m'.uid.toStr ≠ m.uid.toStr

namespace Server

/-- The frame `f` on `pfds[i]` leaves one and the same group object, whatever the receive buffer
held before, and the new member is sound in it. -/
def Registers (s : Server) (i : Nat) (f : Frame) : Prop :=
  ∃ g : Group, (∀ buf env, buf.length = RECV_BUF_SIZE →
    ∃ out s', s.step (.frame i f buf env) = .ok (out, s') ∧ s'.group = g) ∧
      g.SoundAt s.group.memberCount.val.toNat

/-- There is a slot for the member that is sent. The payload, with the NUL that `lmp_recv` puts
after it, covers the object and has a NUL in either field, and its uid is not in use. -/
structure Registrable (s : Server) (payload : Bytes) : Prop where
  slot : 0 ≤ s.group.memberCount.val ∧ s.group.memberCount.val < MAX_GROUP_MEMBERS
  whole : GroupMember.size ≤ payload.length + 1
  uid : 0 ∈ payload.take (UID_LENGTH + 1)
  nickname : 0 ∈ ((payload ++ [0]).drop (UID_LENGTH + 1)).take NICKNAME_MAX_LEN
  fresh : ∀ (j : Nat) m, (j : Int) < s.group.memberCount.val → s.group.members[j]? = some m →
    m.uid.toStr ≠ cstr payload

variable {s s' : Server} {i : Nat} {f : Frame} {buf : Bytes} {env : Env} {out : List Output}

theorem group_of_init (hf : f.type = LMP_GRP_INIT_MEMBER)
    (h : s.step (.frame i f buf env) = .ok (out, s')) :
    ∃ (c : Nat) (n : CInt), s.group.memberCount.val = c ∧ c < MAX_GROUP_MEMBERS ∧ n.val = c + 1 ∧
      s'.group = ⟨s.group.info,
        s.group.members.setIfInBounds c (.ofBytes (f.received buf).received.buf), n⟩ := by
  obtain ⟨fd, -, -, -, hh⟩ := handled_of_frame h
  cases hh with
  | init g _ hset hadd =>
    obtain ⟨c, hc, hlt, rfl⟩ := Group.setMember_eq_ok.mp hset
    obtain ⟨n, hn, hg⟩ := Group.addCount_eq_ok.mp hadd
    exact ⟨c, n, hc, hlt, by rw [hn, ← hc], hg⟩
  | nick _ ht => rw [hf] at ht; exact absurd ht (by decide)
  | relayed ht => simp [hf] at ht
  | answered _ ht => rw [hf] at ht; exact absurd ht (by decide)

/-! ## The object in the buffer -/

/-- Where the payload covers the object nothing else of the buffer is read. -/
theorem ofBytes_received (h : GroupMember.size ≤ f.payload.length + 1) (buf : Bytes) :
    GroupMember.ofBytes (f.received buf).received.buf = .ofBytes (f.payload ++ [0]) := by
  have hlen : (f.payload ++ [0]).length = f.payload.length + 1 := List.length_append
  rw [received_buf, List.append_cons, GroupMember.ofBytes_append_of_le (by omega)]

/-- Otherwise the last byte of the nickname is one that the buffer held before. -/
theorem get_nickname_received (h : f.payload.length + 1 < GroupMember.size) (a : UInt8) :
    (GroupMember.ofBytes
      (f.received (List.replicate RECV_BUF_SIZE a)).received.buf).nickname.get 31 = a := by
  have hsize : GroupMember.size = 41 := rfl
  have hbuf : (f.received (List.replicate RECV_BUF_SIZE a)).received.buf =
      (f.payload ++ [0]) ++ List.replicate (RECV_BUF_SIZE - (f.payload.length + 1)) a := by
    rw [received_buf, List.append_cons, List.drop_replicate]
  have hlen : ((f.payload ++ [0]) ++
      List.replicate (RECV_BUF_SIZE - (f.payload.length + 1)) a).length = RECV_BUF_SIZE := by
    rw [List.length_append, List.length_append, List.length_replicate, List.length_singleton,
      RECV_BUF_SIZE]
    omega
  have hget : ((f.payload ++ [0]) ++
      List.replicate (RECV_BUF_SIZE - (f.payload.length + 1)) a)[40]? = some a := by
    rw [List.getElem?_append_right (by simp; omega), List.getElem?_replicate_of_lt]
    rw [List.length_append, List.length_singleton, RECV_BUF_SIZE]
    omega
  rw [hbuf, GroupMember.ofBytes]
  dsimp only
  rw [CharArray.get_ofBytes (by decide), List.getD_eq_getElem?_getD, List.getElem?_drop]
  · exact congrArg (Option.getD · 0) hget
  · rw [List.length_drop, hlen]
    decide

theorem whole_of_ofBytes
    (h : GroupMember.ofBytes (f.received (List.replicate RECV_BUF_SIZE 0)).received.buf =
      .ofBytes (f.received (List.replicate RECV_BUF_SIZE 1)).received.buf) :
    GroupMember.size ≤ f.payload.length + 1 := by
  by_contra hlt
  have h0 := get_nickname_received (Nat.not_le.mp hlt) 0
  rw [h, get_nickname_received (Nat.not_le.mp hlt) 1] at h0
  cases h0

/-- The strings of the object, and where they end. -/
theorem hasNul_ofBytes {b : Bytes} (h : GroupMember.size ≤ b.length) :
    ((GroupMember.ofBytes b).uid.HasNul ↔ 0 ∈ b.take (UID_LENGTH + 1)) ∧
      ((GroupMember.ofBytes b).nickname.HasNul ↔
        0 ∈ (b.drop (UID_LENGTH + 1)).take NICKNAME_MAX_LEN) := by
  have hsize : GroupMember.size = UID_LENGTH + 1 + NICKNAME_MAX_LEN := rfl
  simp only [CharArray.HasNul, GroupMember.ofBytes]
  rw [CharArray.data_ofBytes (by omega), CharArray.data_ofBytes (by rw [List.length_drop]; omega)]
  exact ⟨Iff.rfl, Iff.rfl⟩

theorem toStr_uid_ofBytes {payload rest : Bytes} (h : 0 ∈ payload.take (UID_LENGTH + 1))
    (hlen : UID_LENGTH + 1 ≤ payload.length) :
    (GroupMember.ofBytes (payload ++ rest)).uid.toStr = cstr payload := by
  rw [GroupMember.ofBytes]
  dsimp only
  rw [CharArray.ofBytes_append hlen, CharArray.toStr_ofBytes_of_mem h hlen]

/-- The members other than the new one, in the slot `c`, are those in front of it. -/
theorem getElem?_registered {g : Group} {m m' : GroupMember} {c j : Nat} {n : CInt}
    (hn : n.val = c + 1) :
    ((j : Int) < n.val ∧ j ≠ c ∧ (g.members.setIfInBounds c m)[j]? = some m') ↔
      j < c ∧ g.members[j]? = some m' := by
  rw [hn, Vector.getElem?_setIfInBounds]
  by_cases hj : c = j
  · simp [hj]
  · rw [if_neg hj]
    constructor
    · rintro ⟨h, -, hm⟩
      exact ⟨by omega, hm⟩
    · rintro ⟨h, hm⟩
      exact ⟨by omega, Ne.symm hj, hm⟩

theorem soundAt_iff {g : Group} {payload : Bytes} {c : Nat} {n : CInt} (hc : c < MAX_GROUP_MEMBERS)
    (hn : n.val = c + 1) (hwhole : GroupMember.size ≤ payload.length + 1) :
    Group.SoundAt ⟨g.info, g.members.setIfInBounds c (.ofBytes (payload ++ [0])), n⟩ c ↔
      0 ∈ payload.take (UID_LENGTH + 1) ∧
      0 ∈ ((payload ++ [0]).drop (UID_LENGTH + 1)).take NICKNAME_MAX_LEN ∧
      ∀ (j : Nat) m, j < c → g.members[j]? = some m → m.uid.toStr ≠ cstr payload := by
  have hsize : GroupMember.size = UID_LENGTH + 1 + NICKNAME_MAX_LEN := rfl
  have hnick : NICKNAME_MAX_LEN = 32 := rfl
  have hlen : (payload ++ [0]).length = payload.length + 1 := List.length_append
  obtain ⟨huid, hnickname⟩ := hasNul_ofBytes (b := payload ++ [0]) (by omega)
  rw [List.take_append_of_le_length (by omega)] at huid
  have hself : (g.members.setIfInBounds c (.ofBytes (payload ++ [0])))[c]? =
      some (.ofBytes (payload ++ [0])) := by
    rw [Vector.getElem?_setIfInBounds, if_pos rfl, if_pos hc]
  unfold Group.SoundAt
  rw [hself]
  simp only [Option.some.injEq, exists_eq_left']
  rw [huid, hnickname]
  apply and_congr_right
  intro hu
  rw [toStr_uid_ofBytes hu (by omega)]
  apply and_congr_right
  intro _
  apply forall_congr'
  intro j
  apply forall_congr'
  intro m'
  constructor
  · intro h hj hm
    obtain ⟨hj, hne, hm⟩ := (getElem?_registered hn).mpr ⟨hj, hm⟩
    exact h hj hne hm
  · intro h hj hne hm
    obtain ⟨hj, hm⟩ := (getElem?_registered hn).mp ⟨hj, hne, hm⟩
    exact h hj hm

/-! ## Main result -/

/-- **A registered member depends only on what the client sent and is sound** if and only if there
is a slot for it and the payload holds it all, with a NUL in either field and a new uid. -/
theorem registered_iff (s : Server) (i : Nat) (f : Frame) (hi : 0 < i) (hlt : i < s.fdCount)
    (hf : f.type = LMP_GRP_INIT_MEMBER) : s.Registers i f ↔ s.Registrable f.payload := by
  constructor
  · rintro ⟨g, hg, hsound⟩
    obtain ⟨out₀, s₀, h₀, rfl⟩ := hg (List.replicate RECV_BUF_SIZE 0) .allOk List.length_replicate
    obtain ⟨out₁, s₁, h₁, hsame⟩ :=
      hg (List.replicate RECV_BUF_SIZE 1) .allOk List.length_replicate
    obtain ⟨c, n, hc, hlt10, hn, hgroup⟩ := group_of_init hf h₀
    obtain ⟨c', n', hc', -, -, hgroup'⟩ := group_of_init hf h₁
    obtain rfl : c = c' := by omega
    have hwhole : GroupMember.size ≤ f.payload.length + 1 := by
      rw [hgroup, hgroup'] at hsame
      have hmem := congrArg (fun g => g.members[c]?) hsame
      simp only [Vector.getElem?_setIfInBounds, if_true, hlt10, Option.some.injEq] at hmem
      exact whole_of_ofBytes hmem.symm
    rw [hgroup, hc, ofBytes_received hwhole] at hsound
    obtain ⟨huid, hnick, hfresh⟩ := (soundAt_iff hlt10 hn hwhole).mp hsound
    exact ⟨⟨by omega, by omega⟩, hwhole, huid, hnick, fun j m hj => hfresh j m (by omega)⟩
  · rintro ⟨hslot, hwhole, huid, hnick, hfresh⟩
    have hok : ∀ buf env, ∃ r, s.step (.frame i f buf env) = .ok r := by
      intro buf env
      apply (frame_ok_iff hi hlt).mpr
      exact ⟨fun _ => hslot, by rw [hf]; exact fun h => absurd h (by decide),
        by rw [hf]; exact fun h => absurd h (by decide)⟩
    obtain ⟨⟨out₀, s₀⟩, h₀⟩ := hok [] .allOk
    obtain ⟨c, n, hc, hlt10, hn, -⟩ := group_of_init hf h₀
    refine ⟨⟨s.group.info, s.group.members.setIfInBounds c (.ofBytes (f.payload ++ [0])), n⟩,
      fun buf env _ => ?_, ?_⟩
    · obtain ⟨⟨out, s'⟩, h⟩ := hok buf env
      obtain ⟨c', n', hc', -, hn', hgroup⟩ := group_of_init hf h
      obtain rfl : c = c' := by omega
      obtain rfl : n = n' := CInt.ext (hn.trans hn'.symm)
      rw [ofBytes_received hwhole] at hgroup
      exact ⟨out, s', h, hgroup⟩
    · rw [hc]
      exact (soundAt_iff hlt10 hn hwhole).mpr
        ⟨huid, hnick, fun j m hj => hfresh j m (by omega)⟩

/-- The first frame of a client like `gclient`, after that of another one. -/
theorem registered_ann :
    let ann := userMemberInfo (str "a0000001") (str "ann")
    let bob := userMemberInfo (str "b0000002") (str "bob")
    let s := ((Server.start 3 gserverInfo).handleNewConnection 5).handleNewConnection 6
    ∃ r, s.step (.frame 1 (initFrame bob) [] .allOk) = .ok r ∧
      r.2.group.members[0]? = some bob ∧ r.2.Registers 2 (initFrame ann) := by
  intro ann bob s
  obtain ⟨r, hr, hlt, hcount, hbob⟩ := exists_ok (P := fun r : List Output × Server =>
      2 < r.2.fdCount ∧ r.2.group.memberCount.val = 1 ∧ r.2.group.members[0]? = some bob)
    (show (s.step (.frame 1 (initFrame bob) [] .allOk)).isOk by decide +kernel) (by decide +kernel)
  refine ⟨r, hr, hbob, (registered_iff r.2 2 (initFrame ann) (by decide) hlt rfl).mpr ?_⟩
  refine ⟨by rw [hcount]; decide, by decide +kernel, by decide +kernel, by decide +kernel, ?_⟩
  intro j m hj hm
  obtain rfl : j = 0 := by omega
  obtain rfl : bob = m := Option.some.inj (hbob.symm.trans hm)
  decide +kernel

/-- An empty payload is accepted, and the member is what the buffer held before. -/
theorem not_registered_empty :
    let s := (Server.start 3 gserverInfo).handleNewConnection 5
    let f := lmpFrame LMP_GRP_INIT_MEMBER []
    ¬ s.Registers 1 f := by
  rintro s f ⟨g, hg, -⟩
  obtain ⟨out₀, s₀, h₀, hg₀⟩ := hg (List.replicate RECV_BUF_SIZE 0) .allOk List.length_replicate
  obtain ⟨out₁, s₁, h₁, hg₁⟩ := hg (List.replicate RECV_BUF_SIZE 1) .allOk List.length_replicate
  obtain ⟨c, n, hc, hlt, -, hgroup⟩ := group_of_init rfl h₀
  obtain ⟨c', n', hc', -, -, hgroup'⟩ := group_of_init rfl h₁
  obtain rfl : c = c' := by omega
  have hmem := congrArg (fun g => g.members[c]?) (hg₀.trans hg₁.symm)
  rw [hgroup, hgroup'] at hmem
  simp only [Vector.getElem?_setIfInBounds, if_true, hlt, Option.some.injEq] at hmem
  exact absurd (whole_of_ofBytes hmem) (by decide)

end Server

end SocketSpeak
