import Mathlib.Algebra.Order.Group.Nat
import SocketSpeak.Peer.Renaming

/-!
# The end of a chat

A receiver returns when the other process has sent its last frame and every one has been received
(`shown_of_ended`); no frame makes it return before, and every frame has a handler. What is received
is answered by at most one acknowledgement, which is not answered, so a chat in which nothing is
typed comes to rest (`rests_of_run`).
-/

namespace SocketSpeak
open CLib Sys

namespace ChatNet
open Chatter Party
variable {dirs : Host → Bytes} {n n' : ChatNet} {h k : Host} {a b : Party} {e : ChatEvent}
  {env : ChatEnv} {buf : Bytes} {fs out : List Frame}

/-- What holds between `h` and the receiver of what it sends. -/
structure Ending (n : ChatNet) (h : Host) : Prop where
  ended : (n h.other).receiving = false → (n h).phase = .closed ∧ (n h).up = []
  types : ∀ f ∈ (n h).up, f.type ∈ frameTypes

/-- A round of `h` itself. -/
theorem Ending.writes (hn : n.Ending h) (ht : Turn n h fs out a b) : (put h a b).Ending h := by
  obtain ⟨up, hup, rfl⟩ := ht.reads
  refine ⟨fun hno => ?_, ?_⟩
  · rw [put_other] at hno
    obtain ⟨hclosed, hnil⟩ := hn.ended hno
    obtain ⟨hphase, rfl⟩ := ht.closed hclosed
    rw [put_self, ht.writes, hnil]
    exact ⟨hphase, rfl⟩
  · rw [put_self, ht.writes]
    exact List.forall_mem_append.mpr ⟨hn.types, ht.types⟩

/-- A round of the other process. -/
theorem Ending.reads (hn : n.Ending h.other) (ht : Turn n h fs out a b) :
    (put h a b).Ending h.other := by
  obtain ⟨up, hup, rfl⟩ := ht.reads
  have hended := hn.ended
  have htypes := hn.types
  rw [h.other_other] at hended
  rw [hup] at htypes
  refine ⟨fun hno => ?_, ?_⟩
  · rw [h.other_other, put_self] at hno
    rw [put_other]
    have hend : (n h.other).up = [] ∧ (n h.other).phase = .closed := by
      rcases ht.hangsUp with hsame | hend
      · exact (hended (hsame ▸ hno)).symm
      · exact hend
    rw [hup, List.append_eq_nil_iff] at hend
    exact ⟨hend.2, hend.1.2⟩
  · rw [put_other]
    exact fun f hf => htypes f (List.mem_append_right fs hf)

theorem Ending.step (hn : n.Handshaken dirs) (he : ∀ h, n.Ending h) (hsend : e.env.sendOk = true)
    (h : n.step e = .ok n') (k : Host) : n'.Ending k := by
  obtain ⟨a, b, rfl, ht⟩ := hn.turn hsend h
  rcases e.host.eq_or_eq_other k with rfl | rfl
  · exact (he e.host).writes ht
  · exact (he e.host.other).reads ht

/-! ## Each frame is one less -/

/-- How much is still to be received; the answer to a nickname is priced in. -/
def weight (fs : List Frame) : Nat := fs.length + countOf LMP_NICK fs

theorem weight_append (fs fs' : List Frame) : weight (fs ++ fs') = weight fs + weight fs' := by
  rw [weight, weight, weight, List.length_append, countOf_append]
  omega

theorem weight_of_receive {f : Frame} {p q : Chatter} (huid : f.type ≠ LMP_UID)
    (h : p.receive env f buf = .ok q) : weight q.up < weight p.up + weight [f] := by
  by_cases hnick : f.type = LMP_NICK
  · have hf : weight [f] = 2 := by rw [weight, countOf_singleton hnick]; rfl
    rw [(nick_of_receive hnick h).2.2.1, weight_append, hf]
    refine Nat.add_lt_add_left ?_ _
    split
    · decide
    · decide
  · rw [up_of_receive huid hnick h]
    exact Nat.lt_add_of_pos_right (Nat.add_pos_left Nat.one_pos _)

/-- What the process has still to do, if it only receives. -/
def load (a : Party) : Nat := weight a.up + a.receiving.toNat

def remaining (n : ChatNet) : Nat := load (n .fst) + load (n .snd)

theorem remaining_eq (n : ChatNet) (h : Host) : n.remaining = load (n h) + load (n h.other) := by
  cases h with
  | fst => rfl
  | snd => exact Nat.add_comm _ _

theorem Handshaken.remaining_lt (hn : n.Handshaken dirs)
    (h : n.step (.receive k env buf) = .ok n') : n'.remaining < n.remaining := by
  obtain ⟨a, b, hab, rfl⟩ := step_receive h
  rw [remaining_eq _ k, remaining_eq _ k, put_self, put_other]
  cases hn.received hab with
  | hangUp hnil hact =>
    have hreceiving : (n k).receiving = true := by
      by_contra hno
      rw [receiveStep, if_pos (by simpa using hno)] at hab
      cases hab
    refine Nat.add_lt_add_right (Nat.add_lt_add_left ?_ _) _
    rw [hreceiving]
    exact Nat.zero_lt_one
  | @frame f up p hup huid hp hact =>
    have hlt := weight_of_receive huid hp
    have hother : weight (n k.other).up = weight [f] + weight up := by
      rw [hup, ← weight_append]
      rfl
    simp only [load, Party.unread]
    omega
  | @greeting up p hup _ hready hp =>
    obtain ⟨-, -, -, -, hupp, -⟩ := hn.greeted hready hp
    have hother : weight (n k.other).up = weight [(n k.other).uidFrame] + weight up := by
      rw [hup, ← weight_append]
      rfl
    have hpos : 0 < weight [(n k.other).uidFrame] := Nat.add_pos_left Nat.one_pos _
    simp only [load, Party.unread, hupp]
    omega

/-! ## When nothing can be received -/

/-- A receiver goes on. -/
def Receives : ChatEvent → Prop
  | .receive _ env _ => env.sendOk = true
  | .main .. => False

/-- Everything has been received, and where a process has ended its input the other receiver has
returned. -/
def AtRest (n : ChatNet) : Prop :=
  ∀ h, (n h).up = [] ∧ ((n h).phase = .closed → (n h.other).receiving = false)

theorem atRest_iff (hn : n.Handshaken dirs) (he : ∀ h, n.Ending h) :
    n.AtRest ↔ ∀ e, Receives e → n.step e = .error .disabled := by
  constructor
  · intro hrest e hreceives
    cases e with
    | main => exact hreceives.elim
    | receive k env buf =>
      have hend := hrest k.other
      rw [k.other_other] at hend
      have hstop : (n k).receiveStep (n k.other) env buf = .error .disabled := by
        unfold receiveStep
        split
        · rfl
        · rename_i hno
          rw [hend.1]
          exact if_neg fun hclosed => hno (hend.2 hclosed)
      rw [ChatNet.step, hstop]
      rfl
  · intro hstop h
    have hother := hstop (.receive h.other .allOk []) rfl
    rw [ChatNet.step, h.other_other] at hother
    by_cases hno : (n h.other).receiving = false
    · exact ⟨((he h).ended hno).2, fun _ => hno⟩
    rw [receiveStep, if_neg hno] at hother
    cases hup : (n h).up with
    | nil =>
      refine ⟨rfl, fun hclosed => ?_⟩
      rw [hup] at hother
      dsimp only at hother
      rw [if_pos hclosed] at hother
      cases hother
    | cons f up =>
      exfalso
      have hfits : f.payload.length < RECV_BUF_SIZE :=
        ((hn.channel h).fits f (hup ▸ List.mem_cons_self)).1
      rw [hup] at hother
      dsimp only at hother
      rw [if_pos hfits] at hother
      revert hother
      cases (n h.other).receive _ f [] with
      | error => intro hother; cases hother
      | ok => intro hother; cases hother

end ChatNet

theorem receiving_of_opened {home username : Option Bytes} {a : Party}
    (h : Opened home username a) : a.receiving = true := by
  obtain ⟨files, env, rand, h⟩ := h
  obtain ⟨p, -, h⟩ := bind_ok h
  obtain ⟨q, -, h⟩ := bind_ok h
  cases h
  rfl

theorem handler_of_mem {type : UInt8} (h : type ∈ ChatNet.frameTypes) :
    ∃ e, Chatter.initCommands.find? (fun e => e.code = type) = some e ∧ e.recv.isSome := by
  have hall : (ChatNet.frameTypes.all fun type =>
      (Chatter.initCommands.find? fun e => e.code = type).any (·.recv.isSome)) = true := by
    decide
  have hany := List.all_eq_true.mp hall _ h
  rw [Option.any_eq_true] at hany
  exact hany

namespace Conversation
open ChatNet
variable {c : Conversation} {n : ChatNet} {home username : Host → Option Bytes}
  {es : List ChatEvent}

theorem ending_of_run (hstart : ∀ h, Opened (home h) (username h) (n h))
    (hes : Meets step (fun _ e => e.env.sendOk = true) (start n) es)
    (h : exec step (start n) es = .ok c) :
    c.net.Handshaken (fun h => userDir (home h) (username h)) ∧ ∀ h, c.net.Ending h := by
  have hn := (Exchange.delivers_start hstart).handshaken
  refine exec_invariant (I := fun c : Conversation =>
      c.net.Handshaken (fun h => userDir (home h) (username h)) ∧ ∀ h, c.net.Ending h)
    (fun c e c' hI hsend h => ?_) ⟨hn, fun k => ⟨fun hno => ?_, fun f hf => ?_⟩⟩ hes h
  · have hstep := (step_ok h).1
    exact ⟨hI.1.step hsend hstep, Ending.step hI.1 hI.2 hsend hstep⟩
  · change (n k.other).receiving = false at hno
    rw [receiving_of_opened (hstart k.other)] at hno
    cases hno
  · change f ∈ (n k).up at hf
    rw [(sound_of_opened (hstart k)).2.1] at hf
    cases hf

/-- Where frames are written whole and sends succeed: when the receiver of a process has returned,
the other process has ended its input, and all messages that it has sent have been shown. -/
theorem shown_of_ended (hstart : ∀ h, Opened (home h) (username h) (n h))
    (hes : Meets step (fun _ e => e.env.sendOk = true) (start n) es)
    (h : exec step (start n) es = .ok c) {k : Host} (hended : (c.net k.other).receiving = false) :
    (c.net k).phase = .closed ∧ (c.net k).up = [] ∧
      List.Forall₂ Said.ShownAs (c.said k) (c.shown k.other) := by
  obtain ⟨hclosed, hnil⟩ := ((ending_of_run hstart hes h).2 k).ended hended
  obtain ⟨told, pending, hsaid, hshown, hcarries⟩ := (attests_of_run hstart hes h k).said
  rw [hnil] at hcarries
  obtain rfl := hcarries
  rw [hsaid, List.append_nil]
  exact ⟨hclosed, hnil, hshown⟩

theorem shown_of_ended_hi :
    let es : List ChatEvent := [.main .fst .allOk [], .main .snd .allOk [],
      .receive .fst .allOk [], .receive .snd .allOk [], .main .fst .allOk [],
      .main .fst .allOk (str "hi\n"), .main .fst .allOk [],
      .receive .snd .allOk [], .receive .snd .allOk []]
    ∃ n c, (∀ h : Host, Opened (some (str "/home/ann")) none (n h)) ∧
      exec step (start n) es = .ok c ∧ (c.net .snd).receiving = false ∧
        c.said .fst = [⟨none, str "hi"⟩] ∧ (c.net .fst).phase = .closed ∧ (c.net .fst).up = [] ∧
          List.Forall₂ Said.ShownAs (c.said .fst) (c.shown .snd) := by
  intro es
  obtain ⟨a, ha, hes, hok, hrun⟩ :=
    exists_ok (x := Party.chat (str "/home/ann") none (fun _ => none) .allOk 7)
      (P := fun a => Meets step (fun _ e => e.env.sendOk = true) (start (put .fst a a)) es ∧
        (exec step (start (put .fst a a)) es).isOk ∧
          ∀ c ∈ (exec step (start (put .fst a a)) es).toOption, 
            (c.net .snd).receiving = false ∧ c.said .fst = [⟨none, str "hi"⟩])
      rfl (by decide +kernel)
  obtain ⟨c, hc, hended, hsaid⟩ := exists_ok hok hrun
  have hopened : ∀ h : Host, Opened (some (str "/home/ann")) none (put .fst a a h) := by
    intro h
    cases h with
    | fst | snd => exact ⟨_, _, _, ha⟩
  exact ⟨put .fst a a, c, hopened, hc, hended, hsaid, shown_of_ended hopened hes hc hended⟩

/-- Where frames are written whole and sends succeed, every frame that is under way fits the buffer
and has a handler. If the processes only receive from now on, this comes to an end, and then
everything has been received. -/
theorem rests_of_run (hstart : ∀ h, Opened (home h) (username h) (n h))
    (hes : Meets step (fun _ e => e.env.sendOk = true) (start n) es)
    (h : exec step (start n) es = .ok c) :
    (∀ k, ∀ f ∈ (c.net k).up, f.payload.length < RECV_BUF_SIZE ∧
      ∃ e, Chatter.initCommands.find? (fun e => e.code = f.type) = some e ∧ e.recv.isSome) ∧
    (∀ run : Nat → ChatNet, run 0 = c.net →
      ∃ i, ∀ e, ChatNet.Receives e → (run i).step e ≠ .ok (run (i + 1))) ∧
    (c.net.AtRest ↔ ∀ e, ChatNet.Receives e → c.net.step e = .error .disabled) := by
  obtain ⟨hn, hending⟩ := ending_of_run hstart hes h
  refine ⟨fun k f hf => ⟨((hn.channel k).fits f hf).1, ?_⟩, fun run h0 => ?_,
    atRest_iff hn hending⟩
  · exact handler_of_mem ((hending k).types f hf)
  · refine exists_stop (I := Handshaken fun h => userDir (home h) (username h)) (μ := remaining)
      wellFounded_lt ?_ run (h0 ▸ hn)
    intro n e n' hn he hs
    cases e with
    | main => exact he.elim
    | receive k env buf => exact ⟨hn.step (e := .receive k env buf) he hs, hn.remaining_lt hs⟩

theorem rests_of_run_ann :
    let es : List ChatEvent := [.main .fst .allOk [], .main .snd .allOk [],
      .receive .fst .allOk [], .receive .snd .allOk [], .main .fst .allOk [],
      .main .fst .allOk (str "/nick ann\n")]
    ∃ n c, (∀ h : Host, Opened (some (str "/home/ann")) none (n h)) ∧
      exec step (start n) es = .ok c ∧ (c.net .fst).up.length = 1 ∧
        (∀ k, ∀ f ∈ (c.net k).up, f.payload.length < RECV_BUF_SIZE ∧
          ∃ e, Chatter.initCommands.find? (fun e => e.code = f.type) = some e ∧
            e.recv.isSome) ∧
        (∀ run : Nat → ChatNet, run 0 = c.net →
          ∃ i, ∀ e, ChatNet.Receives e → (run i).step e ≠ .ok (run (i + 1))) ∧
        (c.net.AtRest ↔ ∀ e, ChatNet.Receives e → c.net.step e = .error .disabled) := by
  intro es
  obtain ⟨a, ha, hes, hok, hrun⟩ :=
    exists_ok (x := Party.chat (str "/home/ann") none (fun _ => none) .allOk 7)
      (P := fun a => Meets step (fun _ e => e.env.sendOk = true) (start (put .fst a a)) es ∧
        (exec step (start (put .fst a a)) es).isOk ∧
          ∀ c ∈ (exec step (start (put .fst a a)) es).toOption, (c.net .fst).up.length = 1)
      rfl (by decide +kernel)
  obtain ⟨c, hc, hup⟩ := exists_ok hok hrun
  have hopened : ∀ h : Host, Opened (some (str "/home/ann")) none (put .fst a a h) := by
    intro h
    cases h with
    | fst | snd => exact ⟨_, _, _, ha⟩
  exact ⟨put .fst a a, c, hopened, hc, hup, rests_of_run hopened hes hc⟩

end Conversation

end SocketSpeak
