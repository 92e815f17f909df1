import SocketSpeak.CLib.Bytes

/-!
# Stream sockets

What a program sees of a connected stream socket, one system call at a time. How the operating
system cuts a stream into `read` results, and how much of a buffer a `send` takes, is not up to the
program: it is a list of events that a theorem quantifies over.
-/

namespace CLib

/-- How the operating system answers one `read`. -/
inductive ReadEvent where
  /-- `-1` with `errno == EINTR` -/
  | intr
  /-- `-1` with any other `errno` -/
  | error
  /-- some bytes: `k`, but at least one and at most what is asked for and what there is -/
  | data (k : Nat)
  deriving DecidableEq

/-- The receiving side: the bytes up to the end of the stream, and the answers to the next `read`
calls. Calls after those get all that they ask for, so a finite list of answers stands for every
course that a finite number of calls can take. -/
structure Sock where
  inp : Bytes
  sched : List ReadEvent
  deriving DecidableEq

inductive ReadResult where
  | intr
  | error
  /-- the empty list is the `0` of the end of the stream -/
  | got (b : Bytes)
  deriving DecidableEq

/-- `read(fd, p, n)` with `n > 0`. -/
def Sock.read (s : Sock) (n : Nat) : ReadResult × Sock :=
  match s.sched with
  | .intr :: q => (.intr, ⟨s.inp, q⟩)
  | .error :: q => (.error, ⟨s.inp, q⟩)
  | .data k :: q =>
    (.got (s.inp.take (min (max k 1) n)), ⟨s.inp.drop (min (max k 1) n), q⟩)
  | [] => (.got (s.inp.take n), ⟨s.inp.drop n, []⟩)

/-- No `read` fails; interruptions are not failures. -/
def Sock.ErrorFree (s : Sock) : Prop := ReadEvent.error ∉ s.sched

instance (s : Sock) : Decidable s.ErrorFree := inferInstanceAs (Decidable (_ ∉ _))

/-- A `read` that does not fail is interrupted, or hands over some of the bytes that are left: at
least one, unless the stream has ended. -/
theorem Sock.ErrorFree.read {s : Sock} (h : s.ErrorFree) {n : Nat} (hn : 0 < n) :
    (∃ q, q.length < s.sched.length ∧ ReadEvent.error ∉ q ∧ s.read n = (.intr, ⟨s.inp, q⟩)) ∨
    ∃ r q, 0 < r ∧ r ≤ n ∧ q.length ≤ s.sched.length ∧ ReadEvent.error ∉ q ∧
      s.read n = (.got (s.inp.take r), ⟨s.inp.drop r, q⟩) := by
  obtain ⟨inp, sched⟩ := s
  cases sched with
  | nil => exact .inr ⟨n, [], hn, Nat.le_refl _, Nat.le_refl _, List.not_mem_nil, rfl⟩
  | cons ev q =>
    have hq : ReadEvent.error ∉ q := fun hm => h (List.mem_cons_of_mem _ hm)
    cases ev with
    | intr => exact .inl ⟨q, by simp, hq, rfl⟩
    | error => exact absurd List.mem_cons_self h
    | data k => exact .inr ⟨min (max k 1) n, q, by omega, by omega, by simp, hq, rfl⟩

/-- How the operating system answers one `send`: an error, or the count `k` of bytes it takes, at
least one and at most all of them. -/
inductive SendEvent where
  | error
  | took (k : Nat)
  deriving DecidableEq

/-- The answer with which a buffer goes out whole. -/
def SendEvent.all (b : Bytes) : SendEvent := .took b.length

/-- `send(fd, b, b.length, 0)` with `b.length > 0`, appending to what is already on the wire. -/
def send (ev : SendEvent) (b wire : Bytes) : Int × Bytes :=
  match ev with
  | .error => (-1, wire)
  | .took k => (Int.ofNat (min (max k 1) b.length), wire ++ b.take (max k 1))

/-- Did the whole of `b` go out? -/
def SendEvent.Whole (ev : SendEvent) (b : Bytes) : Prop :=
  match ev with
  | .error => False
  | .took k => b.length ≤ max k 1

instance (ev : SendEvent) (b : Bytes) : Decidable (ev.Whole b) := by
  cases ev <;> unfold SendEvent.Whole <;> infer_instance

@[simp] theorem send_error (b wire : Bytes) : send .error b wire = (-1, wire) := rfl

theorem send_of_whole {ev : SendEvent} {b : Bytes} (h : ev.Whole b) (wire : Bytes) :
    send ev b wire = (Int.ofNat b.length, wire ++ b) := by
  cases ev with
  | error => exact h.elim
  | took k =>
    have hk : b.length ≤ max k 1 := h
    simp only [send, List.take_of_length_le hk, Nat.min_eq_right hk]

theorem SendEvent.whole_all (b : Bytes) : (SendEvent.all b).Whole b := Nat.le_max_left _ _

end CLib
