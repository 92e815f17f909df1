import SocketSpeak.Group.InRange

/-!
# When the indices are in range

The server handles an event without a `Fault` if the connection is one of the first
`MAX_GROUP_MEMBERS` and `member_count` is a size that the table of members can have.
-/

namespace SocketSpeak
open CLib

namespace Server
variable {s : Server} {k : Nat}

/-- `member_count` is no more than there are slots and connections. -/
structure CountOk (s : Server) : Prop where
  le_max : s.group.memberCount.val ≤ MAX_GROUP_MEMBERS
  le_conns : s.group.memberCount.val ≤ s.conns.length

/-- A player that is found among the members is at a connection. -/
theorem CountOk.playerInRange (hc : s.CountOk) (ht : s.TableOk) (uid : Bytes) :
    s.PlayerInRange uid := by
  have hmax := hc.le_max
  have hconns := hc.le_conns
  have hlen := ht.fdCount
  unfold PlayerInRange
  cases hj : s.playerIndex uid with
  | none => exact hmax
  | some j =>
    have hj := (List.findIdx?_eq_some_iff_findIdx_eq.mp hj).1
    rw [List.length_take] at hj
    simp only
    omega

/-- A frame is handled. -/
theorem frame_ok (ht : s.TableOk) (hc : s.CountOk) (hk : k < s.conns.length) {f : Frame}
    (hslot : f.type ≠ LMP_GRP_INIT_MEMBER → k < MAX_GROUP_MEMBERS)
    (hinit : f.type = LMP_GRP_INIT_MEMBER →
      0 ≤ s.group.memberCount.val ∧ s.group.memberCount.val < MAX_GROUP_MEMBERS) (buf : Bytes)
    (env : Env) :
    ∃ r, s.step (.frame (k + 1) f buf env) = .ok r := by
  have hlen := ht.fdCount
  apply (frame_ok_iff (Nat.succ_pos k) (by omega)).mpr
  refine ⟨hinit, fun hf => hslot ?_, fun _ _ uid _ => hc.playerInRange ht uid⟩
  rintro he
  rw [he] at hf
  exact absurd hf (by decide)

/-- A connection can be closed. -/
theorem hangup_ok (ht : s.TableOk) (hk : k < s.conns.length)
    (hn : s.conns.length ≤ MAX_GROUP_MEMBERS) (hmin : INT_MIN < s.group.memberCount.val)
    (status : Int) (env : Env) : ∃ r, s.step (.hangup (k + 1) status env) = .ok r := by
  have hlen := ht.fdCount
  exact (hangup_ok_iff (Nat.succ_pos k) (by omega)).mpr ⟨by omega, hmin⟩

end Server

end SocketSpeak
