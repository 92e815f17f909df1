import SocketSpeak.Peer.Ending

/-!
# The handshake ends

A main thread sends its uid and then waits until its receiver has the one of the other process; only
then it reads lines. Whatever the threads of both processes do, the wait ends: if nothing is typed
from some point on, both main threads get to their loops, and everything is received
(`settles_of_run`).
-/

namespace SocketSpeak
open CLib Sys

namespace ChatNet
open Chatter Party
variable {dirs : Host → Bytes} {n n' : ChatNet} {h : Host} {e : ChatEvent} {env : ChatEnv}
  {stdin buf : Bytes}

/-- The main thread of `a` can go on without a line. -/
def Ready (a : Party) : Prop :=
  a.phase = .starting ∨ a.phase = .waiting ∧ a.peerUidReady = true

instance (a : Party) : Decidable (Ready a) := inferInstanceAs (Decidable (_ ∨ _))

/-- A step in which nothing is read from the input, and which is more than a turn of the loop that
waits. -/
def settle (n : ChatNet) (e : ChatEvent) : Except ChatStop ChatNet :=
  match e with
  | .main h _ _ => if Ready (n h) then n.step e else .error .disabled
  | .receive .. => n.step e

theorem step_of_settle (hs : n.settle e = .ok n') : n.step e = .ok n' := by
  unfold settle at hs
  split at hs
  · split at hs
    · exact hs
    · cases hs
  · exact hs

/-! ## Each step is one less -/

/-- How many steps there are to the loop, and the uid to receive. -/
def toLoop : ChatPhase → Nat
  | .starting => 3
  | .waiting => 1
  | .looping | .closed => 0

/-- What there is still to do as long as nothing is typed. -/
def unsettled (n : ChatNet) : Nat :=
  n.remaining + (toLoop (n .fst).phase + toLoop (n .snd).phase)

theorem unsettled_eq (n : ChatNet) (h : Host) : n.unsettled =
    load (n h) + load (n h.other) + (toLoop (n h).phase + toLoop (n h.other).phase) := by
  rw [unsettled, n.remaining_eq h]
  cases h with
  | fst => rfl
  | snd => exact congrArg _ (Nat.add_comm _ _)

theorem load_hello (a : Party) : load a.hello = load a + 1 := by
  have hup : weight a.hello.up = weight a.up + 1 := weight_append _ _
  rw [load, hup, load]
  exact Nat.add_right_comm _ _ _

/-- A receiver does not move a main thread. -/
theorem Received.phases {a b : Party} (hab : Received n h env buf a b) :
    a.phase = (n h).phase ∧ b.phase = (n h.other).phase := by
  cases hab with
  | hangUp => exact ⟨rfl, rfl⟩
  | frame => exact ⟨rfl, rfl⟩
  | greeting => exact ⟨rfl, rfl⟩

theorem Handshaken.unsettled_lt (hn : n.Handshaken dirs) (hsend : e.env.sendOk = true)
    (hs : n.settle e = .ok n') : n'.unsettled < n.unsettled := by
  cases e with
  | receive h env buf =>
    have hlt := hn.remaining_lt hs
    obtain ⟨a, b, hab, rfl⟩ := step_receive hs
    obtain ⟨ha, hb⟩ := (hn.received hab).phases
    rw [remaining_eq _ h, remaining_eq _ h, put_self, put_other] at hlt
    rw [unsettled_eq _ h, unsettled_eq _ h, put_self, put_other, ha, hb]
    exact Nat.add_lt_add_right hlt _
  | main h env stdin =>
    simp only [settle] at hs
    split at hs
    · rename_i hready
      obtain ⟨a, ha, rfl⟩ := step_main hs
      rw [unsettled_eq _ h, unsettled_eq _ h, put_self, put_other]
      rcases hready with hphase | ⟨hphase, hset⟩
      · have hhello : a = (n h).hello := by
          rcases mainStep_ok (hn h).1 hsend ha with rfl | ⟨-, rfl⟩ | hact
          · rw [mainStep, hphase] at ha
            have hwaiting := congrArg Party.phase (Except.ok.inj ha)
            rw [hphase] at hwaiting
            cases hwaiting
          · rfl
          · exact absurd hphase hact.phase
        rw [hhello, load_hello, hphase]
        simp only [Party.hello, toLoop]
        omega
      · rw [mainStep, hphase] at ha
        dsimp only at ha
        rw [if_pos hset] at ha
        cases ha
        simp only [load, hphase, toLoop]
        omega
    · cases hs

/-! ## When nothing is left to do -/

/-- The main thread has come to its loop, and the process knows the other one. -/
structure Settled (dirs : Host → Bytes) (n : ChatNet) (h : Host) : Prop where
  phase : (n h).phase = .looping ∨ (n h).phase = .closed
  greeted : Greeted (dirs h) (n h.other) (n h)

theorem settled_iff (hn : n.Handshaken dirs) (he : ∀ h, n.Ending h) :
    (∀ e, e.env.sendOk = true → n.settle e = .error .disabled) ↔
      n.AtRest ∧ ∀ h, n.Settled dirs h := by
  constructor
  · intro hstop
    have hrest : n.AtRest := (atRest_iff hn he).mpr fun e hreceives => by
      cases e with
      | main => exact hreceives.elim
      | receive k env buf => exact hstop (.receive k env buf) hreceives
    have hnot : ∀ h, ¬ Ready (n h) := by
      intro h hready
      have hmain := hstop (.main h .allOk []) rfl
      rw [settle, if_pos hready] at hmain
      rcases hready with hphase | ⟨hphase, -⟩
      · rw [ChatNet.step, mainStep, hphase] at hmain
        cases hmain
      · rw [ChatNet.step, mainStep, hphase] at hmain
        cases hmain
    refine ⟨hrest, fun h => ?_⟩
    have hready : (n h).peerUidReady = true := by
      by_contra hno
      have hother : (n h.other).phase ≠ .starting := fun hphase => hnot h.other (.inl hphase)
      obtain ⟨fs, hup, -⟩ := (hn h).2.pending hother (by simpa using hno)
      rw [(hrest h.other).1] at hup
      cases hup
    refine ⟨?_, ((hn h).2.passed hready).1⟩
    cases hphase : (n h).phase with
    | starting => exact absurd (.inl hphase) (hnot h)
    | waiting => exact absurd (.inr ⟨hphase, hready⟩) (hnot h)
    | looping => exact .inl rfl
    | closed => exact .inr rfl
  · rintro ⟨hrest, hsettled⟩ e hsend
    cases e with
    | main h env stdin =>
      apply if_neg
      rintro (hphase | ⟨hphase, -⟩)
      · rcases (hsettled h).phase with h' | h' <;> rw [hphase] at h' <;> cases h'
      · rcases (hsettled h).phase with h' | h' <;> rw [hphase] at h' <;> cases h'
    | receive k env buf => exact (atRest_iff hn he).mp hrest (.receive k env buf) hsend

end ChatNet

namespace Conversation
open ChatNet
variable {c : Conversation} {n : ChatNet} {home username : Host → Option Bytes}
  {es : List ChatEvent}

/-- **The handshake ends**, where frames are written whole and sends succeed. If nothing is typed
from now on there are finitely many steps left, and none is left only when both main threads are in
their loops or past them, each process knows the uid of the other one, and everything has been
received. -/
theorem settles_of_run (hstart : ∀ h, Opened (home h) (username h) (n h))
    (hes : Meets step (fun _ e => e.env.sendOk = true) (start n) es)
    (h : exec step (start n) es = .ok c) :
    (∀ run : Nat → ChatNet, run 0 = c.net →
      ∃ i, ∀ e : ChatEvent, e.env.sendOk = true → (run i).settle e ≠ .ok (run (i + 1))) ∧
    ((∀ e : ChatEvent, e.env.sendOk = true → c.net.settle e = .error .disabled) ↔
      c.net.AtRest ∧ ∀ k, c.net.Settled (fun h => userDir (home h) (username h)) k) := by
  obtain ⟨hn, hending⟩ := ending_of_run hstart hes h
  refine ⟨fun run h0 => ?_, settled_iff hn hending⟩
  refine exists_stop (I := Handshaken fun h => userDir (home h) (username h)) (μ := unsettled)
    wellFounded_lt ?_ run (h0 ▸ hn)
  intro n e n' hn hsend hs
  exact ⟨hn.step hsend (step_of_settle hs), hn.unsettled_lt hsend hs⟩

theorem settles_of_run_hello :
    let es : List ChatEvent := [.main .fst .allOk [], .main .fst .allOk []]
    ∃ n c, (∀ h : Host, Opened (some (str "/home/ann")) none (n h)) ∧
      exec step (start n) es = .ok c ∧
        (c.net .fst).phase = .waiting ∧ (c.net .snd).phase = .starting ∧
        (∀ run : Nat → ChatNet, run 0 = c.net →
          ∃ i, ∀ e : ChatEvent, e.env.sendOk = true → (run i).settle e ≠ .ok (run (i + 1))) ∧
        ((∀ e : ChatEvent, e.env.sendOk = true → c.net.settle e = .error .disabled) ↔
          c.net.AtRest ∧
            ∀ k, c.net.Settled (fun _ => userDir (some (str "/home/ann")) none) k) := by
  intro es
  obtain ⟨a, ha, hes, hok, hrun⟩ :=
    exists_ok (x := Party.chat (str "/home/ann") none (fun _ => none) .allOk 7)
      (P := fun a => Meets step (fun _ e => e.env.sendOk = true) (start (put .fst a a)) es ∧
        (exec step (start (put .fst a a)) es).isOk ∧
          ∀ c ∈ (exec step (start (put .fst a a)) es).toOption,
            (c.net .fst).phase = .waiting ∧ (c.net .snd).phase = .starting)
      rfl (by decide +kernel)
  obtain ⟨c, hc, hfst, hsnd⟩ := exists_ok hok hrun
  have hopened : ∀ h : Host, Opened (some (str "/home/ann")) none (put .fst a a h) := by
    intro h
    cases h with
    | fst | snd => exact ⟨_, _, _, ha⟩
  exact ⟨put .fst a a, c, hopened, hc, hfst, hsnd, settles_of_run hopened hes hc⟩

end Conversation

end SocketSpeak
