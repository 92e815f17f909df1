import SocketSpeak.CLib.Bytes

/-!
# The group object

`Group`, with its table of members. The table has `MAX_GROUP_MEMBERS` slots, and the C code indexes
it with an `int` that nothing checks: here an index outside the table is a `Fault`.
-/

namespace SocketSpeak
open CLib

def UID_LENGTH : Nat := 8
def MAX_GROUP_MEMBERS : Nat := 10
def GROUP_NAME_MAX_LEN : Nat := 32
def NICKNAME_MAX_LEN : Nat := 32

structure GroupMember where
  uid : CharArray (UID_LENGTH + 1)
  nickname : CharArray NICKNAME_MAX_LEN
  deriving DecidableEq

structure GroupInfo where
  groupUID : CharArray (UID_LENGTH + 1)
  groupName : CharArray GROUP_NAME_MAX_LEN
  deriving DecidableEq

structure Group where
  info : GroupInfo
  members : Vector GroupMember MAX_GROUP_MEMBERS
  memberCount : CInt
  deriving DecidableEq

/-- What the C standard leaves undefined. -/
inductive Fault where
  | memberIndex (i : Int)
  | pollIndex (i : Int)
  | intOverflow
  | bufferOverflow
  | nullPointer
  deriving DecidableEq

/-! ## In memory -/

namespace GroupMember

/-- `sizeof(GroupMember)` -/
def size : Nat := 41

def toBytes (m : GroupMember) : Bytes := m.uid.data ++ m.nickname.data

/-- `*(GroupMember *)buf` -/
def ofBytes (b : Bytes) : GroupMember :=
  ⟨.ofBytes _ b, .ofBytes _ (b.drop (UID_LENGTH + 1))⟩

def zero : GroupMember := ⟨.zero _, .zero _⟩

@[simp] theorem length_toBytes (m : GroupMember) : m.toBytes.length = size := by
  rw [toBytes, List.length_append, m.uid.size_eq, m.nickname.size_eq]
  rfl

@[simp] theorem ofBytes_toBytes_append (m : GroupMember) (rest : Bytes) :
    ofBytes (m.toBytes ++ rest) = m := by
  have huid : m.uid.data.length = UID_LENGTH + 1 := m.uid.size_eq
  simp [ofBytes, toBytes, ← huid]

/-- What follows the object in the buffer does not matter. -/
theorem ofBytes_append_of_le {b : Bytes} (h : size ≤ b.length) (rest : Bytes) :
    ofBytes (b ++ rest) = ofBytes b := by
  have hsize : size = UID_LENGTH + 1 + NICKNAME_MAX_LEN := rfl
  have hdrop : NICKNAME_MAX_LEN ≤ (b.drop (UID_LENGTH + 1)).length := by
    rw [List.length_drop]; omega
  rw [ofBytes, List.drop_append_of_le_length (by omega), CharArray.ofBytes_append (by omega),
    CharArray.ofBytes_append hdrop, ofBytes]

theorem ofBytes_append {b : Bytes} (h : b.length = size) (rest : Bytes) :
    ofBytes (b ++ rest) = ofBytes b :=
  ofBytes_append_of_le (Nat.le_of_eq h.symm) rest

end GroupMember

namespace GroupInfo

/-- `sizeof(GroupInfo)` -/
def size : Nat := 41

def toBytes (g : GroupInfo) : Bytes := g.groupUID.data ++ g.groupName.data

def ofBytes (b : Bytes) : GroupInfo :=
  ⟨.ofBytes _ b, .ofBytes _ (b.drop (UID_LENGTH + 1))⟩

def zero : GroupInfo := ⟨.zero _, .zero _⟩

@[simp] theorem length_toBytes (g : GroupInfo) : g.toBytes.length = size := by
  rw [toBytes, List.length_append, g.groupUID.size_eq, g.groupName.size_eq]
  rfl

@[simp] theorem ofBytes_toBytes_append (g : GroupInfo) (rest : Bytes) :
    ofBytes (g.toBytes ++ rest) = g := by
  have huid : g.groupUID.data.length = UID_LENGTH + 1 := g.groupUID.size_eq
  simp [ofBytes, toBytes, ← huid]

theorem toBytes_ofBytes {b : Bytes} (h : b.length = size) : (ofBytes b).toBytes = b := by
  have hdrop : (b.drop (UID_LENGTH + 1)).length = GROUP_NAME_MAX_LEN := by
    rw [List.length_drop, h]
    rfl
  have hlen : UID_LENGTH + 1 ≤ b.length := by rw [h]; decide
  rw [ofBytes, toBytes, CharArray.data_ofBytes hlen,
    CharArray.data_ofBytes (Nat.le_of_eq hdrop.symm),
    List.take_of_length_le (Nat.le_of_eq hdrop), List.take_append_drop]

end GroupInfo

namespace Group

/-- The bytes of the `Group` object; `member_count` is aligned, which takes one byte of padding. -/
def toBytes (g : Group) : Bytes :=
  g.info.toBytes ++ g.members.toList.flatMap GroupMember.toBytes ++ 0 :: g.memberCount.le32

/-- `*(Group *)buf` -/
def ofBytes (b : Bytes) : Group where
  info := .ofBytes b
  members := Vector.ofFn fun i => .ofBytes ((b.drop GroupInfo.size).drop (GroupMember.size * i))
  memberCount := .ofLe32 ((b.drop 452).take 4)

/-- A global `Group` at the start of the program. -/
def zero : Group := ⟨.zero, Vector.replicate _ .zero, 0⟩

theorem drop_flatMap_toBytes {ms : List GroupMember} {i : Nat} (h : i < ms.length) (rest : Bytes) :
    ∃ rest', (ms.flatMap GroupMember.toBytes ++ rest).drop (GroupMember.size * i) =
      (ms.get ⟨i, h⟩).toBytes ++ rest' := by
  induction ms generalizing i with
  | nil => simp at h
  | cons m ms ih =>
    cases i with
    | zero => exact ⟨ms.flatMap GroupMember.toBytes ++ rest, by simp⟩
    | succ i =>
      obtain ⟨rest', hr⟩ := ih (Nat.lt_of_succ_lt_succ h)
      refine ⟨rest', ?_⟩
      rw [List.flatMap_cons, List.append_assoc, Nat.mul_succ, Nat.add_comm, List.drop_append,
        m.length_toBytes, List.drop_of_length_le (by rw [m.length_toBytes]; omega),
        Nat.add_sub_cancel_left, List.nil_append, hr]
      rfl

theorem length_flatMap_toBytes (ms : List GroupMember) :
    (ms.flatMap GroupMember.toBytes).length = GroupMember.size * ms.length := by
  induction ms with
  | nil => rfl
  | cons m ms ih =>
    rw [List.flatMap_cons, List.length_append, m.length_toBytes, ih, List.length_cons, Nat.mul_succ,
      Nat.add_comm]

/-- The object survives the way through a payload. -/
@[simp] theorem ofBytes_toBytes_append (g : Group) (rest : Bytes) :
    ofBytes (g.toBytes ++ rest) = g := by
  have hinfo : g.toBytes ++ rest = g.info.toBytes ++
      (g.members.toList.flatMap GroupMember.toBytes ++ (0 :: g.memberCount.le32 ++ rest)) := by
    simp [toBytes]
  have hlen : (g.info.toBytes ++ g.members.toList.flatMap GroupMember.toBytes).length = 451 := by
    rw [List.length_append, g.info.length_toBytes, length_flatMap_toBytes, Vector.length_toList]
    rfl
  have hcount : ((g.toBytes ++ rest).drop 452).take 4 = g.memberCount.le32 := by
    rw [toBytes, List.append_assoc, List.drop_append, hlen, List.drop_of_length_le (by omega)]
    simp
  have hmember : ∀ i : Fin MAX_GROUP_MEMBERS, GroupMember.ofBytes
      (((g.toBytes ++ rest).drop GroupInfo.size).drop (GroupMember.size * i)) =
        g.members[i.val] := by
    intro i
    have hi : i.val < g.members.toList.length := by rw [Vector.length_toList]; exact i.isLt
    obtain ⟨rest', hr⟩ := drop_flatMap_toBytes hi (0 :: g.memberCount.le32 ++ rest)
    rw [hinfo, List.drop_left' g.info.length_toBytes, hr, GroupMember.ofBytes_toBytes_append]
    simp
  obtain ⟨info, members, count⟩ := g
  simp only [ofBytes, hcount, CInt.ofLe32_le32, hmember, Group.mk.injEq, and_true]
  refine ⟨?_, ?_⟩
  · rw [hinfo]; simp
  · ext i hi
    simp

/-! ## Access to the table -/

/-- `members[i]` -/
def member (g : Group) (i : Int) : Except Fault GroupMember :=
  match if i < 0 then none else g.members[i.toNat]? with
  | some m => .ok m
  | none => .error (.memberIndex i)

/-- `members[i] = m` -/
def setMember (g : Group) (i : Int) (m : GroupMember) : Except Fault Group :=
  if 0 ≤ i ∧ i < MAX_GROUP_MEMBERS then
    .ok { g with members := g.members.setIfInBounds i.toNat m }
  else .error (.memberIndex i)

/-- `member_count += d` -/
def addCount (g : Group) (d : Int) : Except Fault Group :=
  match CInt.ofInt? (g.memberCount.val + d) with
  | some n => .ok { g with memberCount := n }
  | none => .error .intOverflow

variable {g g' : Group} {i d : Int} {m : GroupMember}

theorem member_eq_ok : g.member i = .ok m ↔ ∃ k : Nat, i = k ∧ g.members[k]? = some m := by
  unfold member
  by_cases hi : i < 0
  · simp only [hi, if_true]
    apply iff_of_false (by simp)
    rintro ⟨k, rfl, -⟩
    omega
  · obtain ⟨k, rfl⟩ := Int.eq_ofNat_of_zero_le (Int.not_lt.mp hi)
    simp only [hi, if_false, Int.toNat_natCast, Int.natCast_inj, exists_eq_left']
    split <;> simp_all

theorem setMember_eq_ok : g.setMember i m = .ok g' ↔ ∃ k : Nat, i = k ∧ k < MAX_GROUP_MEMBERS ∧
    g' = { g with members := g.members.setIfInBounds k m } := by
  unfold setMember
  split
  · rename_i h
    obtain ⟨k, rfl⟩ := Int.eq_ofNat_of_zero_le h.1
    constructor
    · intro he
      cases he
      exact ⟨k, rfl, by omega, rfl⟩
    · rintro ⟨k', hk', -, rfl⟩
      obtain rfl : k = k' := by omega
      rfl
  · apply iff_of_false (by simp)
    rintro ⟨k, rfl, hk, -⟩
    omega

theorem addCount_eq_ok : g.addCount d = .ok g' ↔
    ∃ n : CInt, n.val = g.memberCount.val + d ∧ g' = { g with memberCount := n } := by
  unfold addCount
  split
  · rename_i n hn
    rw [CInt.ofInt?_eq_some] at hn
    constructor
    · rintro h
      exact ⟨n, hn, by simpa using h.symm⟩
    · rintro ⟨n', hn', rfl⟩
      rw [CInt.ext (hn'.trans hn.symm)]
  · rename_i hn
    apply iff_of_false (by simp)
    rintro ⟨n, h, -⟩
    simp [CInt.ofInt?_eq_some.mpr h] at hn

theorem memberCount_of_setMember (h : g.setMember i m = .ok g') :
    g'.memberCount = g.memberCount := by
  obtain ⟨k, -, -, rfl⟩ := setMember_eq_ok.mp h
  rfl

theorem memberCount_of_addCount (h : g.addCount d = .ok g') :
    g'.memberCount.val = g.memberCount.val + d ∧ g'.members = g.members := by
  obtain ⟨n, hn, rfl⟩ := addCount_eq_ok.mp h
  exact ⟨hn, rfl⟩

theorem length_toBytes (g : Group) : g.toBytes.length = 456 := by
  rw [toBytes, List.length_append, List.length_append, g.info.length_toBytes,
    length_flatMap_toBytes, Vector.length_toList, List.length_cons, CInt.length_le32]
  rfl

end Group

end SocketSpeak
