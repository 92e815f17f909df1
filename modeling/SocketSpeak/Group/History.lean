import SocketSpeak.CLib.Stdio
import SocketSpeak.Group.Table

/-!
# The history of the group

`save_message_to_history` and the lines that a history request reads back.
-/

namespace SocketSpeak
open CLib

/-- `sizeof(((HistoryFormat *)0)->message)` -/
def HISTORY_MESSAGE_SIZE : Nat := 1024 - UID_LENGTH

/-- `HistoryFormat` -/
structure HistoryFormat where
  uid : CharArray UID_LENGTH
  message : CharArray HISTORY_MESSAGE_SIZE
  deriving DecidableEq

/-- The object as a string. -/
def HistoryFormat.toStr (h : HistoryFormat) : Bytes := cstr (h.uid.data ++ h.message.data)

/-- The history file, and how many handles of it have not been closed. -/
structure HistoryFile where
  content : Bytes
  handles : Nat
  deriving DecidableEq

namespace HistoryFile

/-- `save_message_to_history(uid, message)`; `opens` tells whether `fopen` succeeds. The checks come
after it, and the two that fail leave the file open. -/
def saveMessage (f : HistoryFile) (opens : Bool) (uid message : Bytes) : Int × HistoryFile :=
  if !opens then (-1, f)
  else
    let f := { f with handles := f.handles + 1 }
    if uid.length ≠ UID_LENGTH then (-1, f)
    else if HISTORY_MESSAGE_SIZE ≤ message.length then (-1, f)
    else
      let messageFormat : HistoryFormat :=
        ⟨.ofBytes _ (uid.take UID_LENGTH), .ofBytes _ (message.take (HISTORY_MESSAGE_SIZE - 1))⟩
      (0, ⟨f.content ++ messageFormat.toStr ++ str "\n", f.handles - 1⟩)

/-- What the loop of a history request sends, line by line. -/
def lines (f : HistoryFile) : List Bytes := (fgetsAll 1024 f.content).map cstr

/-- The line of a message that is saved. -/
def line (uid message : Bytes) : Bytes := uid ++ message ++ str "\n"

theorem saveMessage_ok (f : HistoryFile) {uid message : Bytes} (huid : uid.length = UID_LENGTH)
    (hnul : NulFree uid) (hnul' : NulFree message) (h : message.length < HISTORY_MESSAGE_SIZE) :
    f.saveMessage true uid message = (0, { f with content := f.content ++ line uid message }) := by
  have huid' : uid.take UID_LENGTH = uid := List.take_of_length_le (Nat.le_of_eq huid)
  have htake : message.take (HISTORY_MESSAGE_SIZE - 1) = message :=
    List.take_of_length_le (by omega)
  have hstr : HistoryFormat.toStr ⟨.ofBytes _ (uid.take UID_LENGTH),
      .ofBytes _ (message.take (HISTORY_MESSAGE_SIZE - 1))⟩ = uid ++ message := by
    obtain ⟨k, hk⟩ : ∃ k, HISTORY_MESSAGE_SIZE - message.length = k + 1 :=
      ⟨HISTORY_MESSAGE_SIZE - message.length - 1, by omega⟩
    rw [HistoryFormat.toStr, htake, huid', CharArray.ofBytes_of_le (Nat.le_of_eq huid),
      CharArray.ofBytes_of_le (Nat.le_of_lt h), hk, huid, Nat.sub_self, List.replicate_zero,
      List.append_nil, List.replicate_succ, hnul.cstr_append,
      hnul'.cstr_append_nul]
  have hnot : ¬ HISTORY_MESSAGE_SIZE ≤ message.length := by omega
  simp [saveMessage, huid, hnot, hstr, line]

/-- A message that is too long is not saved. -/
theorem saveMessage_too_long (f : HistoryFile) {uid message : Bytes}
    (huid : uid.length = UID_LENGTH) (h : HISTORY_MESSAGE_SIZE ≤ message.length) :
    f.saveMessage true uid message = (-1, { f with handles := f.handles + 1 }) := by
  simp [saveMessage, huid, h]

end HistoryFile

end SocketSpeak
