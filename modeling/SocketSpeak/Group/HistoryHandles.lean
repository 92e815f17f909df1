import SocketSpeak.CLib.Sys
import SocketSpeak.Group.History

/-!
# Messages that are not saved

`save_message_to_history` opens the file before it looks at its arguments, and returns from both of
its checks without closing it. `tidy_iff` says in which runs no call leaves a handle open.
-/

namespace SocketSpeak
open CLib Sys

/-- A call of `save_message_to_history`: two strings, and whether the file can be opened. -/
structure SaveCall where
  opens : Bool
  uid : Bytes
  message : Bytes
  nulFree_uid : NulFree uid
  nulFree_message : NulFree message

namespace SaveCall

/-- A call with which `save_message_to_history` has nothing to reject, or no file to leave open. -/
def Storable (c : SaveCall) : Prop :=
  c.opens = true → c.uid.length = UID_LENGTH ∧ c.message.length < HISTORY_MESSAGE_SIZE

instance (c : SaveCall) : Decidable c.Storable := inferInstanceAs (Decidable (_ → _))

end SaveCall

namespace HistoryFile

/-- What the call returns, and the file and its handles after it. -/
def save (f : HistoryFile) (c : SaveCall) : Int × HistoryFile :=
  f.saveMessage c.opens c.uid c.message

def saveStep (f : HistoryFile) (c : SaveCall) : Except Empty HistoryFile := .ok (f.save c).2

/-- A call that returns 0 has appended its line, any other has changed nothing, and no handle that
the call has opened is still open. -/
structure Tidy (f : HistoryFile) (c : SaveCall) : Prop where
  result : (f.save c).1 = 0 ∨ (f.save c).1 = -1
  saved : (f.save c).1 = 0 → (f.save c).2.content = f.content ++ line c.uid c.message
  rejected : (f.save c).1 = -1 → (f.save c).2.content = f.content
  closed : (f.save c).2.handles = f.handles

variable {f : HistoryFile} {c : SaveCall}

theorem save_of_storable (hopens : c.opens = true) (h : c.Storable) :
    f.save c = (0, { f with content := f.content ++ line c.uid c.message }) := by
  obtain ⟨huid, hlen⟩ := h hopens
  rw [save, hopens]
  exact f.saveMessage_ok huid c.nulFree_uid c.nulFree_message hlen

/-- The checks come too late: the handle is lost. -/
theorem save_of_not_storable (h : ¬ c.Storable) :
    f.save c = (-1, { f with handles := f.handles + 1 }) := by
  obtain ⟨hopens, hnot⟩ := Classical.not_imp.mp h
  rw [save, hopens]
  by_cases huid : c.uid.length = UID_LENGTH
  · exact f.saveMessage_too_long huid (Nat.not_lt.mp fun hlen => hnot ⟨huid, hlen⟩)
  · simp [saveMessage, huid]

theorem save_of_not_opens (h : c.opens = false) : f.save c = (-1, f) := by
  rw [save, h]
  rfl

theorem tidy_call_iff : f.Tidy c ↔ c.Storable := by
  constructor
  · intro h
    by_contra hnot
    have hclosed := h.closed
    rw [save_of_not_storable hnot] at hclosed
    exact absurd hclosed (Nat.succ_ne_self _)
  · intro h
    cases hopens : c.opens with
    | false =>
      have heq : f.save c = (-1, f) := save_of_not_opens hopens
      have hne : (f.save c).1 ≠ 0 := by
        rw [heq]
        exact show (-1 : Int) ≠ 0 by decide
      exact ⟨.inr (by rw [heq]), fun h0 => absurd h0 hne, fun _ => by rw [heq], by rw [heq]⟩
    | true =>
      have heq := save_of_storable (f := f) hopens h
      have hne : (f.save c).1 ≠ -1 := by
        rw [heq]
        exact show (0 : Int) ≠ -1 by decide
      exact ⟨.inl (by rw [heq]), fun _ => by rw [heq], fun h1 => absurd h1 hne, by rw [heq]⟩

/-- **No call leaves a handle open** exactly in the runs in which every call whose file opens has a
uid of the right length and a message that is short enough. -/
theorem tidy_iff (f : HistoryFile) (calls : List SaveCall) :
    Meets saveStep Tidy f calls ↔ ∀ c ∈ calls, c.Storable := by
  induction calls generalizing f with
  | nil => exact iff_of_true trivial nofun
  | cons c calls ih =>
    rw [Meets, List.forall_mem_cons, tidy_call_iff]
    exact and_congr_right fun _ => ih _

/-- A message of 1016 bytes, for which an entry has no room. -/
def longCall : SaveCall :=
  ⟨true, str "a0000001", List.replicate 1016 0x61, by decide,
    fun h => absurd (List.eq_of_mem_replicate h) (by decide)⟩

/-- It is rejected, and the handle stays. -/
theorem handle_left_open :
    (save ⟨[], 0⟩ longCall).1 = -1 ∧ ¬ Meets saveStep Tidy ⟨[], 0⟩ [longCall] := by
  have hnot : ¬ longCall.Storable := fun h => by
    have hlen := (h rfl).2
    rw [longCall, List.length_replicate] at hlen
    exact absurd hlen (by decide)
  refine ⟨?_, fun h => hnot (tidy_call_iff.mp h.1)⟩
  rw [save_of_not_storable hnot]

end HistoryFile

end SocketSpeak
