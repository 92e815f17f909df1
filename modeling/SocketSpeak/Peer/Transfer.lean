import SocketSpeak.Peer.Capacity

/-!
# The way of a sticker

A sticker takes 2047 bytes at most, in the catalogue as in the buffers that the two handlers put
their line for the history together in. These lines begin with something else: `transfer_iff` says
which stickers still fit, and which of all payloads.
-/

namespace SocketSpeak
open CLib

namespace Chatter
variable {p q : Chatter} {env env' : ChatEnv} {args rest rest' name buf : Bytes}
  {sticker : StrBuf MAX_STICKER_LEN}

/-- `sticker_newline` has room for the sticker that is sent. -/
theorem noOverflow_send {c : Catalogue} {k : Disk} (hsend : env.sendOk = true)
    (hload : ensureLoaded p.stickers p.toDisk env.toFileEnv = .ok (c, k))
    (hcommand : strtok (str " ") args = some (str "send", rest))
    (hname : strtok (str " ") rest = some (name, rest'))
    (hfound : c.getSticker name = some sticker) :
    NoOverflow (stickerSend env LMP_STICKERS args p) ↔
      (str "\n" ++ sticker.toStr).length < MAX_STICKER_LEN := by
  have hsent : ((({ p with stickers := c, toDisk := k } : Chatter).print
      (sticker.toStr ++ str "\n")).lmpSend env LMP_STICKERS sticker.toStr).1 = 0 := by
    rw [lmpSend, if_pos hsend]
  unfold stickerSend
  rw [hload, ok_bind]
  simp only [hcommand, withStickerName, hname, hfound, hsent]
  rw [if_neg (by decide), if_pos trivial, if_neg (by decide), List.length_append, noOverflow_ite]
  exact and_iff_left (noOverflow_ok _)

/-- `buf_newline` has room for the payload. -/
theorem noOverflow_sticker {f : Frame} (hf : f.type = LMP_STICKERS) :
    NoOverflow (q.receive env f buf) ↔
      (str "Sent a sticker\n" ++ cstr f.payload).length < MAX_STICKER_LEN := by
  obtain ⟨type, reserved, payload⟩ := f
  obtain rfl : type = LMP_STICKERS := hf
  have hstr : strlen (Frame.received ⟨LMP_STICKERS, reserved, payload⟩ buf).received.buf =
      (cstr payload).length := congrArg List.length (cstr_received ⟨LMP_STICKERS, _, payload⟩ buf)
  change NoOverflow (stickerRecv env LMP_STICKERS
    (Frame.received ⟨LMP_STICKERS, reserved, payload⟩ buf).received.buf payload.length q >>= _) ↔ _
  unfold stickerRecv
  dsimp only
  rw [hstr, List.length_append, noOverflow_seq, noOverflow_ite, and_assoc]
  refine and_iff_left ⟨noOverflow_ok _, fun a _ => ?_⟩
  split <;> exact noOverflow_ok _

/-- What the sender of a sticker puts together fits if there is room for one byte more, and what the
receiver puts together if there is room for fifteen; this goes for every payload. -/
theorem transfer_iff {c : Catalogue} {k : Disk} (hsend : env.sendOk = true)
    (hload : ensureLoaded p.stickers p.toDisk env.toFileEnv = .ok (c, k))
    (hcommand : strtok (str " ") args = some (str "send", rest))
    (hname : strtok (str " ") rest = some (name, rest'))
    (hfound : c.getSticker name = some sticker) :
    (NoOverflow (stickerSend env LMP_STICKERS args p) ↔
      sticker.toStr.length + 1 < MAX_STICKER_LEN) ∧
    (∀ (q : Chatter) env' buf,
      NoOverflow (q.receive env' (lmpFrame LMP_STICKERS sticker.toStr) buf) ↔
        sticker.toStr.length + 15 < MAX_STICKER_LEN) ∧
    ∀ (q : Chatter) env' f buf, f.type = LMP_STICKERS →
      (NoOverflow (q.receive env' f buf) ↔ strlen f.payload + 15 < MAX_STICKER_LEN) := by
  have hpayload : ∀ (q : Chatter) env' f buf, f.type = LMP_STICKERS →
      (NoOverflow (q.receive env' f buf) ↔ strlen f.payload + 15 < MAX_STICKER_LEN) := by
    intro q env' f buf hf
    rw [noOverflow_sticker hf, List.length_append, Nat.add_comm]
    rfl
  refine ⟨?_, fun q env' buf => ?_, hpayload⟩
  · rw [noOverflow_send hsend hload hcommand hname hfound, List.length_append, Nat.add_comm]
    rfl
  · rw [hpayload q env' _ buf rfl, lmpFrame, strlen, sticker.nulFree.cstr_eq]

theorem transfer_iff_cat : ∃ p p' : Chatter, ∃ sticker : StrBuf MAX_STICKER_LEN,
    main (str "/home/ann") none (fun _ => none) = .ok p ∧
    p.typed { ChatEnv.allOk with keys := str "=^.^=" ++ [ESCAPE] }
      (str "/sticker create cat\n") = .ok p' ∧ sticker.toStr = str "=^.^=" ∧
    NoOverflow (stickerSend .allOk LMP_STICKERS (str "send cat") p') := by
  obtain ⟨p, hp, hok, hrun⟩ := exists_ok (x := main (str "/home/ann") none fun _ => none)
    (P := fun p => (p.typed { ChatEnv.allOk with keys := str "=^.^=" ++ [ESCAPE] }
        (str "/sticker create cat\n")).isOk ∧
      ∀ p' ∈ (p.typed { ChatEnv.allOk with keys := str "=^.^=" ++ [ESCAPE] }
        (str "/sticker create cat\n")).toOption, p'.stickers.historyLoaded = true ∧
          p'.stickers.getSticker (str "cat") = some ⟨str "=^.^=", by decide, by decide⟩)
    rfl (by decide +kernel)
  obtain ⟨p', hp', hl, hfound⟩ := exists_ok hok hrun
  refine ⟨p, p', ⟨str "=^.^=", by decide, by decide⟩, hp, hp', rfl, ?_⟩
  have hcommand : strtok (str " ") (str "send cat") = some (str "send", str "cat") := by
    decide +kernel
  have hname : strtok (str " ") (str "cat") = some (str "cat", []) := by decide +kernel
  exact (transfer_iff rfl (if_pos hl) hcommand hname hfound).1.mpr (by decide +kernel)

/-- A sticker for which the sender has room. -/
theorem overflow_sticker_received : ∃ p, main (str "/home/ann") none (fun _ => none) = .ok p ∧
    ¬ NoOverflow (p.receive .allOk ⟨LMP_STICKERS, 0, List.replicate 2033 0x61⟩ []) := by
  obtain ⟨p, hp, -⟩ := exists_ok (x := main (str "/home/ann") none fun _ => none)
    (P := fun _ => True) rfl fun _ _ => trivial
  refine ⟨p, hp, ?_⟩
  have hfree : NulFree (List.replicate 2033 (0x61 : UInt8)) :=
    fun h => absurd (List.eq_of_mem_replicate h) (by decide)
  rw [noOverflow_sticker rfl, hfree.cstr_eq, List.length_append, List.length_replicate]
  decide

end Chatter

end SocketSpeak
