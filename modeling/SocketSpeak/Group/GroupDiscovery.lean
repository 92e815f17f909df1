import SocketSpeak.Group.Table

/-!
# Group discovery

A client broadcasts a magic word, and a group server answers with a `GroupDiscoveryReplyMsg`. The
client looks at nothing but the size of what it receives, and a datagram that is too long is cut to
that size. `genuine_iff` says which datagrams are taken for a reply only if they are one.
-/

namespace SocketSpeak
open CLib

def MAGIC_WORD : Bytes := str "DISCOVER_SERVER_V1"
def GROUP_DISCOVERY_MAGIC : Nat := 0x4744

structure GroupDiscoveryReplyMsg where
  magic : CharArray 2
  status : UInt8
  info : GroupInfo
  deriving DecidableEq

namespace GroupDiscoveryReplyMsg

/-- `sizeof(GroupDiscoveryReplyMsg)` -/
def size : Nat := 44

def toBytes (m : GroupDiscoveryReplyMsg) : Bytes := m.magic.data ++ m.status :: m.info.toBytes

/-- The object of which `b` are the first bytes, and the others zero. -/
def ofBytes (b : Bytes) : GroupDiscoveryReplyMsg where
  magic := .ofBytes _ b
  status := b.getD 2 0
  info := .ofBytes (b.drop 3)

/-- The message of a group that can be joined. -/
structure Ready (m : GroupDiscoveryReplyMsg) : Prop where
  magic : ofBe m.magic.data = GROUP_DISCOVERY_MAGIC
  status : m.status = 0
  groupUID : m.info.groupUID.HasNul
  groupName : m.info.groupName.HasNul

instance (m : GroupDiscoveryReplyMsg) : Decidable m.Ready :=
  decidable_of_iff (ofBe m.magic.data = GROUP_DISCOVERY_MAGIC ∧ m.status = 0 ∧
      m.info.groupUID.HasNul ∧ m.info.groupName.HasNul)
    ⟨fun ⟨h1, h2, h3, h4⟩ => ⟨h1, h2, h3, h4⟩, fun ⟨h1, h2, h3, h4⟩ => ⟨h1, h2, h3, h4⟩⟩

@[simp] theorem length_toBytes (m : GroupDiscoveryReplyMsg) : m.toBytes.length = size := by
  rw [toBytes, List.length_append, List.length_cons, m.magic.size_eq, m.info.length_toBytes]
  rfl

@[simp] theorem ofBytes_toBytes (m : GroupDiscoveryReplyMsg) : ofBytes m.toBytes = m := by
  obtain ⟨⟨magic, hmagic⟩, status, info⟩ := m
  obtain ⟨a, b, rfl⟩ : ∃ a b, magic = [a, b] := by
    match magic, hmagic with
    | [a, b], _ => exact ⟨a, b, rfl⟩
  have hinfo : GroupInfo.ofBytes info.toBytes = info := by
    simpa using GroupInfo.ofBytes_toBytes_append info []
  simp [ofBytes, toBytes, hinfo, CharArray.ofBytes]

theorem toBytes_ofBytes {b : Bytes} (h : b.length = size) : (ofBytes b).toBytes = b := by
  obtain ⟨x, y, z, rest, rfl⟩ : ∃ x y z rest, b = x :: y :: z :: rest := by
    match b, h with
    | x :: y :: z :: rest, _ => exact ⟨x, y, z, rest, rfl⟩
  have hrest : rest.length = GroupInfo.size := Nat.add_right_cancel (m := 3) h
  simp [ofBytes, toBytes, GroupInfo.toBytes_ofBytes hrest, CharArray.ofBytes]

/-- The magic number, byte by byte. -/
theorem Ready.magic_eq {m : GroupDiscoveryReplyMsg} (h : m.Ready) :
    m.magic = .ofBytes _
      [(GROUP_DISCOVERY_MAGIC / 2 ^ 8).toUInt8, GROUP_DISCOVERY_MAGIC.toUInt8] := by
  obtain ⟨⟨magic, hmagic⟩, status, info⟩ := m
  obtain ⟨a, b, rfl⟩ : ∃ a b, magic = [a, b] := by
    match magic, hmagic with
    | [a, b], _ => exact ⟨a, b, rfl⟩
  have hbe : a.toNat * 256 + b.toNat = 0x4744 := by
    simpa [ofBe, GROUP_DISCOVERY_MAGIC] using h.magic
  have hb := b.toNat_lt
  have ha : a = 0x47 := UInt8.toNat_inj.mp (show a.toNat = 0x47 by omega)
  have hb : b = 0x44 := UInt8.toNat_inj.mp (show b.toNat = 0x44 by omega)
  subst ha hb
  rfl

end GroupDiscoveryReplyMsg

/-! ## The server -/

/-- One round of `group_server_UDP_reply`: what is sent to the sender of the datagram `request`, of
which the buffer takes 1023 bytes. -/
def groupServerUDPReply (groupInfo : GroupInfo) (request : Bytes) :
    Option GroupDiscoveryReplyMsg :=
  if cstr (request.take 1023) = MAGIC_WORD then
    some {
      magic := .ofBytes _ [(GROUP_DISCOVERY_MAGIC / 2 ^ 8).toUInt8, GROUP_DISCOVERY_MAGIC.toUInt8]
      status := 0
      info := groupInfo }
  else none

/-- A datagram that a group server sends to announce a ready group. -/
def IsReply (d : Bytes) : Prop :=
  ∃ groupInfo : GroupInfo, groupInfo.groupUID.HasNul ∧ groupInfo.groupName.HasNul ∧
    ∃ request, (groupServerUDPReply groupInfo request).map GroupDiscoveryReplyMsg.toBytes = some d

/-! ## The client -/

/-- What the operating system answers to `user_UDP_to_group_server`; without a datagram the
`recvfrom` times out. -/
structure DiscoveryEnv where
  socketOk : Bool
  broadcastOk : Bool
  bindOk : Bool
  timeoutOk : Bool
  sendOk : Bool
  datagram : Option Bytes

/-- The datagram arrives at the discovery socket. -/
def DiscoveryEnv.arriving (d : Bytes) : DiscoveryEnv := ⟨true, true, true, true, true, some d⟩

/-- `user_UDP_to_group_server(server_addr, reply)`: the result, and `*reply` after it. -/
def userUDPToGroupServer (env : DiscoveryEnv) (reply : GroupDiscoveryReplyMsg) :
    Int × GroupDiscoveryReplyMsg :=
  if env.socketOk && env.broadcastOk && env.bindOk && env.timeoutOk && env.sendOk then
    match env.datagram with
    | none => (0, .ofBytes [])
    | some d =>
      -- `recvfrom` drops what the object has no room for
      let received := d.take GroupDiscoveryReplyMsg.size
      (if received.length = GroupDiscoveryReplyMsg.size then 1 else 0, .ofBytes received)
  else (0, reply)

variable {d : Bytes}

/-- What the server sends is what the client has room for, and announces a ready group. -/
theorem isReply_iff : IsReply d ↔
    d.length = GroupDiscoveryReplyMsg.size ∧ (GroupDiscoveryReplyMsg.ofBytes d).Ready := by
  constructor
  · rintro ⟨groupInfo, huid, hname, request, h⟩
    unfold groupServerUDPReply at h
    split at h
    · rw [Option.map_some, Option.some.injEq] at h
      subst h
      rw [GroupDiscoveryReplyMsg.length_toBytes, GroupDiscoveryReplyMsg.ofBytes_toBytes]
      refine ⟨rfl, ?_, rfl, huid, hname⟩
      dsimp only
      decide
    · cases h
  · rintro ⟨hlen, hready⟩
    refine ⟨(GroupDiscoveryReplyMsg.ofBytes d).info, hready.groupUID, hready.groupName,
      MAGIC_WORD, ?_⟩
    have hmagic : cstr (MAGIC_WORD.take 1023) = MAGIC_WORD := by decide +kernel
    rw [groupServerUDPReply, if_pos hmagic, Option.map_some, ← hready.magic_eq, ← hready.status,
      GroupDiscoveryReplyMsg.toBytes_ofBytes hlen]

theorem userUDPToGroupServer_arriving (d : Bytes) (reply : GroupDiscoveryReplyMsg) :
    userUDPToGroupServer (.arriving d) reply =
      (if GroupDiscoveryReplyMsg.size ≤ d.length then 1 else 0,
        .ofBytes (d.take GroupDiscoveryReplyMsg.size)) := by
  have hlen : (d.take GroupDiscoveryReplyMsg.size).length = GroupDiscoveryReplyMsg.size ↔
      GroupDiscoveryReplyMsg.size ≤ d.length := by
    rw [List.length_take]
    omega
  rw [userUDPToGroupServer]
  simp only [DiscoveryEnv.arriving, Bool.and_self, if_true, hlen]

/-- The two agree on every field. -/
theorem userUDPToGroupServer_reply {groupInfo : GroupInfo} {request : Bytes}
    {m : GroupDiscoveryReplyMsg} (h : groupServerUDPReply groupInfo request = some m)
    (reply : GroupDiscoveryReplyMsg) :
    userUDPToGroupServer (.arriving m.toBytes) reply = (1, m) ∧ m.info = groupInfo := by
  rw [userUDPToGroupServer_arriving, m.length_toBytes, if_pos (Nat.le_refl _),
    List.take_of_length_le (Nat.le_of_eq m.length_toBytes), m.ofBytes_toBytes]
  unfold groupServerUDPReply at h
  split at h
  · cases h
    exact ⟨rfl, rfl⟩
  · cases h

/-- **A datagram is taken for a reply if and only if it is one** exactly where it is too short, or
has the size of a reply and announces a ready group. -/
theorem genuine_iff (d : Bytes) (reply : GroupDiscoveryReplyMsg) :
    ((userUDPToGroupServer (.arriving d) reply).1 = 1 ↔ IsReply d) ↔
      d.length < GroupDiscoveryReplyMsg.size ∨
        d.length = GroupDiscoveryReplyMsg.size ∧ (GroupDiscoveryReplyMsg.ofBytes d).Ready := by
  have hresult : (userUDPToGroupServer (.arriving d) reply).1 = 1 ↔
      GroupDiscoveryReplyMsg.size ≤ d.length := by
    rw [userUDPToGroupServer_arriving]
    simp
  rw [hresult, isReply_iff]
  constructor
  · intro h
    rcases Nat.lt_or_ge d.length GroupDiscoveryReplyMsg.size with hlt | hge
    · exact .inl hlt
    · exact .inr (h.mp hge)
  · rintro (hlt | hready)
    · exact iff_of_false (Nat.not_le.mpr hlt) fun h => absurd h.1 (Nat.ne_of_lt hlt)
    · exact iff_of_true (Nat.le_of_eq hready.1.symm) hready

/-- Any 44 bytes are taken for a reply, such as zeros. -/
theorem accepts_zeros :
    let d := List.replicate 44 0
    (userUDPToGroupServer (.arriving d) (.ofBytes [])).1 = 1 ∧ ¬ IsReply d := by
  intro d
  refine ⟨by decide +kernel, fun h => ?_⟩
  exact absurd (isReply_iff.mp h).2 (by decide +kernel)

end SocketSpeak
