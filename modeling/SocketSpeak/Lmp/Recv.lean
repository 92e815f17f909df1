import SocketSpeak.Lmp.Wire

/-!
# What a receive does, however the stream is cut

`parseFrame` is `recvFrame` with the socket taken out: a function of the bytes that are still to
come and of the caller's buffer. `recvFrame_eq` shows that on a socket whose reads do not fail a
receive is `parseFrame`, for every way in which the operating system cuts the stream into `read`
results and for every interruption. Everything that is proved about received frames rests on it.
-/

namespace SocketSpeak
open CLib

/-! ## `read_all` -/

/-- From `acc` on, the loop reads what is missing of the `n` bytes, or all there is. -/
theorem readAllLoop_eq {n : Nat} : ∀ {fuel : Nat} {s : Sock} {acc : Bytes}, s.ErrorFree →
    acc.length ≤ n → s.sched.length + (n - acc.length) < fuel →
    ∃ q, ReadEvent.error ∉ q ∧ readAllLoop n fuel s acc =
      (Int.ofNat (acc ++ s.inp.take (n - acc.length)).length,
        acc ++ s.inp.take (n - acc.length), ⟨s.inp.drop (n - acc.length), q⟩) := by
  intro fuel
  induction fuel with
  | zero => intro s acc _ _ hf; omega
  | succ fuel ih =>
    intro s acc hs hacc hf
    rw [readAllLoop]
    by_cases hlt : acc.length < n
    · rw [if_pos hlt]
      obtain ⟨q, hlen, hq, hr⟩ | ⟨r, q, hr0, hrn, hlen, hq, hr⟩ :=
        hs.read (show 0 < n - acc.length by omega)
      · rw [hr]
        exact @ih ⟨s.inp, q⟩ acc hq hacc (by dsimp only; omega)
      · rw [hr]
        cases hinp : s.inp with
        | nil => exact ⟨q, hq, by simp⟩
        | cons b bs =>
          obtain ⟨r, rfl⟩ : ∃ k, r = k + 1 := ⟨r - 1, by omega⟩
          have hacc' : (acc ++ (b :: bs).take (r + 1)).length ≤ n := by simp; omega
          have hf' : q.length + (n - (acc ++ (b :: bs).take (r + 1)).length) < fuel := by
            simp; omega
          obtain ⟨q', hq', h⟩ := @ih ⟨(b :: bs).drop (r + 1), q⟩ _ hq hacc' hf'
          refine ⟨q', hq', h.trans ?_⟩
          rcases Nat.le_total (r + 1) (b :: bs).length with hle | hle
          · have hn : n - acc.length =
                r + 1 + (n - (acc ++ (b :: bs).take (r + 1)).length) := by
              rw [List.length_append, List.length_take, Nat.min_eq_left hle]; omega
            simp only [List.append_assoc, ← List.take_add, ← hn, List.drop_drop]
          · have hd : (b :: bs).drop (r + 1) = [] := List.drop_of_length_le hle
            have ht : (b :: bs).take (n - acc.length) = b :: bs :=
              List.take_of_length_le (by omega)
            have hd' : (b :: bs).drop (n - acc.length) = [] := List.drop_of_length_le (by omega)
            simp only [hd, ht, hd', List.take_of_length_le hle, List.take_nil, List.drop_nil,
              List.append_nil]
    · have h0 : n - acc.length = 0 := by omega
      exact ⟨s.sched, hs, by simp [hlt, h0]⟩

/-- Without read errors `read_all` brings the next `n` bytes, or all up to the end of the
stream. -/
theorem readAll_eq {s : Sock} (hs : s.ErrorFree) (n : Nat) :
    ∃ q, ReadEvent.error ∉ q ∧
      readAll s n = (Int.ofNat (s.inp.take n).length, s.inp.take n, ⟨s.inp.drop n, q⟩) := by
  simpa [readAll] using @readAllLoop_eq n _ s [] hs (Nat.zero_le _) (Nat.lt_succ_self _)

/-! ## One receive -/

/-- The stream begins with a header of which nothing is missing and whose magic is right. -/
def HeaderOk (inp : Bytes) : Prop :=
  LMP_HEADER_SIZE ≤ inp.length ∧ inp.getD 0 0 = LMP_MAGIC_0 ∧ inp.getD 1 0 = LMP_MAGIC_1

instance (inp : Bytes) : Decidable (HeaderOk inp) := inferInstanceAs (Decidable (_ ∧ _ ∧ _))

/-- The payload length that the header announces. -/
def payloadLen (inp : Bytes) : Nat := ofBe ((inp.drop 4).take 4)

/-- A receive as a function of the bytes to come and of the caller's buffer: its result, and the
bytes that it leaves. -/
def parseFrame (inp buf : Bytes) : Except Int FrameIn × Bytes :=
  if inp = [] then (.error (-2), [])
  else if ¬ HeaderOk inp then (.error (-3), inp.drop LMP_HEADER_SIZE)
  else if buf.length ≤ payloadLen inp then (.error (-4), inp.drop LMP_HEADER_SIZE)
  else if payloadLen inp ≠ 0 ∧ inp.length = LMP_HEADER_SIZE then (.error (-5), [])
  else
    let payload := (inp.drop LMP_HEADER_SIZE).take (payloadLen inp)
    (.ok ⟨inp.getD 2 0, inp.getD 3 0, payloadLen inp,
      (payload ++ buf.drop payload.length).set (payloadLen inp) 0⟩,
     inp.drop (LMP_HEADER_SIZE + payloadLen inp))

/-- The bytes of the header are the first ones of the stream. -/
theorem getD_take_header {inp : Bytes} {i : Nat} (h : i < LMP_HEADER_SIZE) :
    (inp.take LMP_HEADER_SIZE).getD i 0 = inp.getD i 0 := by
  simp [List.getD_eq_getElem?_getD, h]

theorem recvFrame_eq {s : Sock} (hs : s.ErrorFree) (buf : Bytes) :
    ∃ q, ReadEvent.error ∉ q ∧
      recvFrame s buf = ((parseFrame s.inp buf).1, ⟨(parseFrame s.inp buf).2, q⟩) := by
  obtain ⟨q, hq, h8⟩ := readAll_eq hs LMP_HEADER_SIZE
  have hlen : (s.inp.take LMP_HEADER_SIZE).length = min LMP_HEADER_SIZE s.inp.length :=
    List.length_take
  have hplen : ofBe (((s.inp.take LMP_HEADER_SIZE).drop 4).take 4) = payloadLen s.inp := by
    simp [payloadLen, LMP_HEADER_SIZE, List.drop_take, List.take_take]
  unfold recvFrame parseFrame
  rw [h8]
  dsimp only
  rw [getD_take_header (by decide), getD_take_header (by decide), getD_take_header (by decide),
    getD_take_header (by decide), hplen, if_neg (by simp)]
  by_cases hnil : s.inp = []
  · rw [if_pos (by simp [hnil]), if_pos hnil]
    exact ⟨q, hq, by simp [hnil]⟩
  have hpos : 0 < s.inp.length := List.length_pos_iff.mpr hnil
  have hbad : (s.inp.getD 0 0 ≠ LMP_MAGIC_0 ∨ s.inp.getD 1 0 ≠ LMP_MAGIC_1 ∨
      Int.ofNat (s.inp.take LMP_HEADER_SIZE).length < LMP_HEADER_SIZE) ↔ ¬ HeaderOk s.inp := by
    rw [hlen, HeaderOk, not_and_or, not_and_or]
    simp only [LMP_HEADER_SIZE, Int.ofNat_eq_natCast]
    grind
  rw [if_neg (by rw [hlen]; simp [LMP_HEADER_SIZE]; omega), if_neg hnil, if_congr hbad rfl rfl]
  by_cases hok : HeaderOk s.inp
  · simp only [hok, not_true_eq_false, if_false]
    by_cases hbig : buf.length ≤ payloadLen s.inp
    · simp only [hbig, if_true]
      exact ⟨q, hq, rfl⟩
    simp only [hbig, if_false]
    by_cases h0 : payloadLen s.inp = 0
    · exact ⟨q, hq, by simp [h0]⟩
    obtain ⟨q', hq', hpay⟩ :=
      @readAll_eq ⟨s.inp.drop LMP_HEADER_SIZE, q⟩ hq (payloadLen s.inp)
    simp only [hpay, h0, if_false, ne_eq, not_false_eq_true, true_and]
    by_cases hend : s.inp.length = LMP_HEADER_SIZE
    · exact ⟨q', hq', by simp [hend]⟩
    · have hsize := hok.1
      have hrest :
          ¬ Int.ofNat ((s.inp.drop LMP_HEADER_SIZE).take (payloadLen s.inp)).length ≤ 0 := by
        simp; omega
      exact ⟨q', hq', by simp only [hend, hrest, if_false, List.drop_drop]⟩
  · exact ⟨q, hq, by simp [hok]⟩

/-! ## Whole frames -/

/-- What the caller has after the frame `f` came in: `buf` is what the buffer held before. -/
def Frame.received (f : Frame) (buf : Bytes) : FrameIn :=
  ⟨f.type, f.reserved, f.payload.length, f.payload ++ 0 :: buf.drop (f.payload.length + 1)⟩

theorem headerOk_wire (f : Frame) (rest : Bytes) : HeaderOk (f.wire ++ rest) :=
  ⟨by simp only [List.length_append, Frame.length_wire]; omega, rfl, rfl⟩

theorem payloadLen_wire {f : Frame} (h : f.payload.length < 2 ^ 32) (rest : Bytes) :
    payloadLen (f.wire ++ rest) = f.payload.length :=
  ofBe_be32 h

theorem drop_header_wire (f : Frame) (rest : Bytes) :
    (f.wire ++ rest).drop LMP_HEADER_SIZE = f.payload ++ rest := rfl

/-- A frame that stands whole at the head of the stream, and for whose payload the buffer has room,
is received as it is, and nothing of what follows is touched. -/
theorem parseFrame_wire {f : Frame} {buf : Bytes} (hbuf : buf.length < 2 ^ 32)
    (h : f.payload.length < buf.length) (rest : Bytes) :
    parseFrame (f.wire ++ rest) buf = (.ok (f.received buf), rest) := by
  have hlen := payloadLen_wire (Nat.lt_trans h hbuf) rest
  have hne : f.wire ++ rest ≠ [] := by simp [Frame.wire, Frame.header]
  have hend : ¬ (f.payload.length ≠ 0 ∧ (f.wire ++ rest).length = LMP_HEADER_SIZE) := by
    rintro ⟨h0, hsize⟩
    rw [List.length_append, Frame.length_wire] at hsize
    omega
  have hset : (f.payload ++ buf.drop f.payload.length).set f.payload.length 0 =
      f.payload ++ 0 :: buf.drop (f.payload.length + 1) := by
    rw [List.set_append_right _ _ (Nat.le_refl _), Nat.sub_self, List.drop_eq_getElem_cons h,
      List.set_cons_zero]
  rw [parseFrame, if_neg hne, if_neg (not_not_intro (headerOk_wire f rest)), hlen,
    if_neg (by omega), if_neg hend, drop_header_wire, List.take_left', ← List.drop_drop,
    drop_header_wire, List.drop_left]
  · dsimp only
    rw [hset]; rfl
  · rfl

@[simp] theorem parseFrame_nil (buf : Bytes) : parseFrame [] buf = (.error (-2), []) := rfl

@[simp] theorem Frame.length_buf_received {f : Frame} {buf : Bytes}
    (h : f.payload.length < buf.length) : (f.received buf).buf.length = buf.length := by
  simp [Frame.received]; omega

/-- The same on a socket: the frame at the head of the stream is received as it is. -/
theorem recvFrame_wire {f : Frame} {buf rest : Bytes} {s : Sock} (hs : s.ErrorFree)
    (hinp : s.inp = f.wire ++ rest) (hbuf : buf.length < 2 ^ 32)
    (h : f.payload.length < buf.length) :
    ∃ q, ReadEvent.error ∉ q ∧ recvFrame s buf = (.ok (f.received buf), ⟨rest, q⟩) := by
  obtain ⟨q, hq, hr⟩ := recvFrame_eq hs buf
  exact ⟨q, hq, by rw [hr, hinp, parseFrame_wire hbuf h]⟩

/-- At the end of the stream the status is `-2`. -/
theorem recvFrame_end {s : Sock} (hs : s.ErrorFree) (hinp : s.inp = []) (buf : Bytes) :
    (recvFrame s buf).1 = .error (-2) := by
  obtain ⟨q, -, hr⟩ := recvFrame_eq hs buf
  rw [hr, hinp, parseFrame_nil]

end SocketSpeak
