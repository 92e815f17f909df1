import SocketSpeak.Lmp.Recv

/-!
# Which streams a receive accepts

`read_all` reports the end of the stream by a short count. For the header the count is compared
with the size that was asked for; for the payload it is compared with zero only. So a receive
accepts the streams that start with a whole frame, and besides them those that end inside a
payload, after at least one of its bytes (`CutInPayload`).
-/

namespace SocketSpeak
open CLib

theorem HeaderOk.ne_nil {inp : Bytes} (h : HeaderOk inp) : inp ≠ [] := by
  rintro rfl
  exact absurd h.1 (by decide)

/-- What a receive accepts, and what it makes of it. -/
theorem parseFrame_ok_iff {inp buf rest : Bytes} {r : FrameIn} :
    parseFrame inp buf = (.ok r, rest) ↔
      HeaderOk inp ∧ payloadLen inp < buf.length ∧
        (payloadLen inp ≠ 0 → inp.length ≠ LMP_HEADER_SIZE) ∧
        r = ⟨inp.getD 2 0, inp.getD 3 0, payloadLen inp,
          ((inp.drop LMP_HEADER_SIZE).take (payloadLen inp) ++
            buf.drop ((inp.drop LMP_HEADER_SIZE).take (payloadLen inp)).length).set
              (payloadLen inp) 0⟩ ∧
        rest = inp.drop (LMP_HEADER_SIZE + payloadLen inp) := by
  unfold parseFrame
  constructor
  · intro h
    split at h
    · simp at h
    split at h
    · simp at h
    rename_i hok
    split at h
    · simp at h
    rename_i hbig
    split at h
    · simp at h
    rename_i hend
    simp only [Prod.mk.injEq, Except.ok.injEq] at h
    exact ⟨not_not.mp hok, by omega, fun h0 hlen => hend ⟨h0, hlen⟩, h.1.symm, h.2.symm⟩
  · rintro ⟨hok, hbig, hend, rfl, rfl⟩
    rw [if_neg hok.ne_nil, if_neg (not_not_intro hok), if_neg (by omega),
      if_neg fun h => hend h.1 h.2]

/-- The stream starts with a whole frame that fits a buffer of the given size. -/
def StartsWithFrame (bufsize : Nat) (inp : Bytes) : Prop :=
  HeaderOk inp ∧ payloadLen inp < bufsize ∧ payloadLen inp ≤ (inp.drop LMP_HEADER_SIZE).length

/-- The stream ends inside the payload of its first frame, after at least one byte of it. -/
def CutInPayload (bufsize : Nat) (inp : Bytes) : Prop :=
  HeaderOk inp ∧ payloadLen inp < bufsize ∧ 0 < (inp.drop LMP_HEADER_SIZE).length ∧
    (inp.drop LMP_HEADER_SIZE).length < payloadLen inp

instance (bufsize : Nat) (inp : Bytes) : Decidable (CutInPayload bufsize inp) :=
  inferInstanceAs (Decidable (_ ∧ _ ∧ _ ∧ _))

/-- A payload of which at least one byte came, and which is not cut, is there as a whole. -/
theorem payload_whole {bufsize : Nat} {inp : Bytes} (hok : HeaderOk inp)
    (hbig : payloadLen inp < bufsize) (hend : payloadLen inp ≠ 0 → inp.length ≠ LMP_HEADER_SIZE)
    (hcut : ¬ CutInPayload bufsize inp) :
    payloadLen inp ≤ (inp.drop LMP_HEADER_SIZE).length := by
  by_contra hlt
  have hsize := hok.1
  refine hcut ⟨hok, hbig, ?_, by omega⟩
  rw [List.length_drop] at hlt ⊢
  have := hend (by omega)
  omega

/-- One call of a receiver accepts exactly whole frames: the status is 0 if and only if the stream
starts with one, and then the bytes taken off the stream are its header and the `len` bytes that
are now at the start of the buffer. -/
def AcceptsExactly {ρ : Type} (recv : Sock → Bytes → Except Int ρ × Sock)
    (view : ρ → Received) (s : Sock) (buf : Bytes) : Prop :=
  ((∃ r s', recv s buf = (.ok r, s')) ↔ StartsWithFrame buf.length s.inp) ∧
    ∀ r s', recv s buf = (.ok r, s') → (view r).len = payloadLen s.inp ∧
      s.inp = s.inp.take LMP_HEADER_SIZE ++ (view r).buf.take (view r).len ++ s'.inp

/-- A call of `lmp_recv` accepts exactly whole frames. -/
def LmpAcceptsExactly : Sock → Bytes → Prop := AcceptsExactly lmpRecv id

/-- A call of `group_lmp_recv` accepts exactly whole frames. -/
def GroupLmpAcceptsExactly : Sock → Bytes → Prop :=
  AcceptsExactly groupLmpRecv GroupReceived.toReceived

section
variable {ρ : Type} {recv : Sock → Bytes → Except Int ρ × Sock} {view : ρ → Received}
  {mk : FrameIn → ρ}

/-- A receive that succeeds is a `parseFrame` that does. -/
theorem parseFrame_of_recv_ok
    (hrecv : ∀ s buf, recv s buf = ((recvFrame s buf).1.map mk, (recvFrame s buf).2))
    {s : Sock} (hs : s.ErrorFree) {buf : Bytes} {r : ρ} {s' : Sock}
    (h : recv s buf = (.ok r, s')) : ∃ f, mk f = r ∧ parseFrame s.inp buf = (.ok f, s'.inp) := by
  obtain ⟨q, -, hr⟩ := recvFrame_eq hs buf
  rw [hrecv, hr] at h
  cases hp : (parseFrame s.inp buf).1 with
  | error e => simp [hp, Except.map] at h
  | ok f =>
    simp only [hp, Except.map, Prod.mk.injEq, Except.ok.injEq] at h
    exact ⟨f, h.1, by rw [← h.2, ← hp]⟩

theorem acceptsExactly_iff (mk : FrameIn → ρ)
    (hrecv : ∀ s buf, recv s buf = ((recvFrame s buf).1.map mk, (recvFrame s buf).2))
    (hview : ∀ f, view (mk f) = f.received) {s : Sock} (hs : s.ErrorFree) (buf : Bytes) :
    AcceptsExactly recv view s buf ↔ ¬ CutInPayload buf.length s.inp := by
  -- the call succeeds on every stream that `parseFrame` accepts
  have hsucc : (∃ r s', recv s buf = (.ok r, s')) ↔ HeaderOk s.inp ∧
      payloadLen s.inp < buf.length ∧ (payloadLen s.inp ≠ 0 → s.inp.length ≠ LMP_HEADER_SIZE) := by
    constructor
    · rintro ⟨r, s', h⟩
      obtain ⟨f, -, hp⟩ := parseFrame_of_recv_ok hrecv hs h
      obtain ⟨h1, h2, h3, -⟩ := parseFrame_ok_iff.mp hp
      exact ⟨h1, h2, h3⟩
    · rintro ⟨h1, h2, h3⟩
      obtain ⟨q, -, hr⟩ := recvFrame_eq hs buf
      have hp := parseFrame_ok_iff.mpr ⟨h1, h2, h3, rfl, rfl⟩
      rw [hp] at hr
      exact ⟨_, _, by rw [hrecv, hr]; rfl⟩
  unfold AcceptsExactly
  rw [hsucc]
  constructor
  · rintro ⟨hiff, -⟩ ⟨hok, hbig, hpos, hshort⟩
    have := (hiff.mp ⟨hok, hbig, fun _ h => by simp [h] at hpos⟩).2.2
    omega
  · intro hcut
    refine ⟨⟨?_, ?_⟩, ?_⟩
    · rintro ⟨hok, hbig, hend⟩
      exact ⟨hok, hbig, payload_whole hok hbig hend hcut⟩
    · rintro ⟨hok, hbig, hlen⟩
      refine ⟨hok, hbig, fun h0 hend => ?_⟩
      rw [List.length_drop] at hlen
      omega
    · intro r s' h
      obtain ⟨f, rfl, hp⟩ := parseFrame_of_recv_ok hrecv hs h
      obtain ⟨hok, hbig, hend, rfl, hrest⟩ := parseFrame_ok_iff.mp hp
      have hlen : ((s.inp.drop LMP_HEADER_SIZE).take (payloadLen s.inp)).length =
          payloadLen s.inp := by
        rw [List.length_take, Nat.min_eq_left (payload_whole hok hbig hend hcut)]
      rw [hview, hrest]
      refine ⟨rfl, ?_⟩
      simp only [FrameIn.received]
      rw [List.take_set_of_le (Nat.le_refl _), List.take_left' hlen, ← List.drop_drop,
        List.append_assoc, List.take_append_drop, List.take_append_drop]

end

/-- **What a receive accepts.** Either receiver accepts exactly whole frames if and only if the
stream does not end inside the payload of its first frame. -/
theorem lmp_recv_accepts_iff (s : Sock) (hs : s.ErrorFree) (buf : Bytes) :
    (LmpAcceptsExactly s buf ↔ ¬ CutInPayload buf.length s.inp) ∧
      (GroupLmpAcceptsExactly s buf ↔ ¬ CutInPayload buf.length s.inp) :=
  ⟨acceptsExactly_iff FrameIn.received (fun _ _ => rfl) (fun _ => rfl) hs buf,
    acceptsExactly_iff FrameIn.groupReceived (fun _ _ => rfl) (fun _ => rfl) hs buf⟩

/-- A whole frame in three reads. -/
theorem lmp_recv_accepts_hello :
    let s : Sock := ⟨(lmpFrame 1 (str "hello")).wire, [.data 6, .intr, .data 4]⟩
    LmpAcceptsExactly s (List.replicate 16 0) ∧ GroupLmpAcceptsExactly s (List.replicate 16 0) :=
  let h := lmp_recv_accepts_iff _ (by decide) _
  ⟨h.1.mpr (by decide), h.2.mpr (by decide)⟩

/-- The stream of a frame with five bytes of payload that ends after two of them: `lmp_recv`
reports all five, the last three being what the buffer held before. -/
theorem lmp_recv_accepts_cut_payload :
    let s : Sock := ⟨((lmpFrame 1 (str "hello")).wire).take 10, []⟩
    let buf := List.replicate 8 120
    lmpRecv s buf = (.ok ⟨1, 5, str "hexxx" ++ [0, 120, 120]⟩, ⟨[], []⟩) ∧
      ¬ LmpAcceptsExactly s buf := by
  refine ⟨by decide, fun h => ?_⟩
  obtain ⟨-, -, hlen⟩ := h.1.mp ⟨_, _, rfl⟩
  exact absurd hlen (by decide)

end SocketSpeak
