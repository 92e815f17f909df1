import Mathlib.Algebra.GroupWithZero.Nat
import Mathlib.Algebra.Order.BigOperators.Group.List
import Mathlib.Algebra.Order.Group.Nat
import Mathlib.Data.Prod.Lex
import SocketSpeak.CLib.Lists
import SocketSpeak.Group.Understood

/-!
# The group falls silent

What a client receives it does not answer, so the frames that are under way come to an end if
nothing is typed: each frame that the server handles is one less that it has to handle, and each one
that a client receives is one less under way (`silent_of_run`).
-/

namespace SocketSpeak
open CLib Sys

namespace GroupNet

/-- The server or a client takes a frame that is under way. -/
def Receives : GroupEvent → Prop
  | .serve .. | .deliver .. | .drain .. => True
  | .accept .. | .typed .. | .hangup .. => False

/-- How much the server has to handle. -/
def unserved (n : GroupNet) : Nat := (n.conns.map fun fd => (n.link fd).user.up.length).sum

/-- How much is under way to clients. -/
def undelivered (n : GroupNet) : Nat :=
  (n.conns.map fun fd => (n.link fd).down.length).sum + (n.closed.map fun l => l.down.length).sum

/-- Nothing is under way, on closed connections either. -/
structure Still (n : GroupNet) : Prop where
  here : ∀ fd ∈ n.conns, (n.link fd).user.up = [] ∧ (n.link fd).down = []
  gone : ∀ l ∈ n.closed, l.down = []

variable {n n' : GroupNet} {fd : Int} {k j : Nat} {buf : Bytes} {env : Env}

/-! ## Each frame is one less -/

/-- The server handles the frame; it does not close the connection. -/
theorem Legible.serve_ok (hI : n.Legible) (h : n.step (.serve k buf env) = .ok n') :
    ∃ fd f up, n.conns[k]? = some fd ∧ (n.link fd).user.up = f :: up ∧
      (n.read fd up).serverStep (.frame (k + 1) f buf env) = .ok n' := by
  simp only [GroupNet.step] at h
  split at h
  · cases h
  rename_i fd hk
  split at h
  · cases h
  rename_i f up hup
  have hfits := (hI.up fd f (hup ▸ List.mem_cons_self)).fits
  rw [if_pos hfits] at h
  exact ⟨fd, f, up, hk, hup, ok_of_liftFault h⟩

theorem Legible.unserved_lt (hI : n.Legible) (h : n.step (.serve k buf env) = .ok n') :
    n'.unserved < n.unserved := by
  obtain ⟨fd, f, up, hk, hup, hs⟩ := hI.serve_ok h
  obtain ⟨out, hs, -, -, hlink⟩ := serverStep_ok hs
  have hconns : n'.conns = n.conns := (Server.conns_of_frame hs).2.1
  have hlen : ∀ fd', (n'.link fd').user.up.length =
      if fd' = fd then up.length else (n.link fd').user.up.length := by
    intro fd'
    rw [hlink, Link.post, link_read]
    split <;> rfl
  rw [unserved, hconns]
  refine List.sum_lt_sum _ _ (fun fd' _ => ?_) ⟨fd, List.mem_of_getElem? hk, ?_⟩
  · rw [hlen]
    split
    · rename_i heq
      rw [heq, hup]
      exact Nat.le_succ _
    · exact Nat.le_refl _
  · rw [hlen, if_pos rfl, hup]
    exact Nat.lt_succ_self _

/-- A client receives a frame, and answers nothing. -/
theorem Legible.undelivered_lt_of_deliver (hI : n.Legible) {envU : UserEnv}
    (h : n.step (.deliver fd buf envU) = .ok n') :
    n'.unserved = n.unserved ∧ n'.undelivered < n.undelivered := by
  cases moved_of_step h with
  | @deliver _ _ _ m ms u hfd hdown hu =>
    have hm : Told m.frame := hI.down fd m (hdown ▸ List.mem_cons_self)
    have hup := User.up_of_receive hm.ne_nick hu
    have hlen : ∀ fd', ((n.setLink fd { n.link fd with user := u, down := ms }).link
        fd').down.length = if fd' = fd then ms.length else (n.link fd').down.length := by
      intro fd'
      rw [link_setLink]
      split <;> rfl
    constructor
    · refine congrArg List.sum (List.map_congr_left fun fd' _ => ?_)
      rw [link_setLink]
      split
      · rename_i heq
        rw [heq]
        exact congrArg List.length hup
      · rfl
    · refine Nat.add_lt_add_right (List.sum_lt_sum _ _ (fun fd' _ => ?_) ⟨fd, hfd, ?_⟩) _
      · dsimp only
        rw [hlen]
        split
        · rename_i heq
          rw [heq, hdown]
          exact Nat.le_succ _
        · exact Nat.le_refl _
      · dsimp only
        rw [hlen, if_pos rfl, hdown]
        exact Nat.lt_succ_self _

theorem undelivered_lt_of_drain {envU : UserEnv} (h : n.step (.drain j buf envU) = .ok n') :
    n'.unserved = n.unserved ∧ n'.undelivered < n.undelivered := by
  cases moved_of_step h with
  | @drain _ _ _ l m ms u hl hdown hu =>
    have hlt : ({ l with user := u, down := ms } : Link).down.length < l.down.length := by
      rw [hdown]
      exact Nat.lt_succ_self _
    exact ⟨rfl, Nat.add_lt_add_left (sum_map_set_lt (f := fun l => l.down.length) hl hlt) _⟩

/-- What is left, the frames to the server first: handling one of them sends others. -/
def remaining (n : GroupNet) : ℕ ×ₗ ℕ := toLex (n.unserved, n.undelivered)

theorem Legible.remaining_lt (hI : n.Legible) {e : GroupEvent} (he : Receives e)
    (h : n.step e = .ok n') : n'.remaining < n.remaining := by
  rw [remaining, remaining, Prod.Lex.toLex_lt_toLex]
  cases e with
  | serve => exact .inl (hI.unserved_lt h)
  | deliver => exact .inr (hI.undelivered_lt_of_deliver h)
  | drain => exact .inr (undelivered_lt_of_drain h)
  | accept | typed | hangup => exact he.elim

/-! ## Nothing else stops -/

theorem liftFault_ne_disabled {α : Type} (x : Except Fault α) :
    liftFault x ≠ .error .disabled := by
  cases x with
  | error f => exact fun h => by cases h
  | ok a => exact fun h => by cases h

theorem map_liftFault_ne_disabled {α β : Type} (x : Except Fault α) (f : α → β) :
    (liftFault x).map f ≠ .error .disabled := by
  cases x with
  | error f => exact fun h => by cases h
  | ok a => exact fun h => by cases h

/-- No frame can be taken if and only if none is under way. -/
theorem Legible.still_iff (hI : n.Legible) :
    n.Still ↔ ∀ e, Receives e → n.step e = .error .disabled := by
  constructor
  · rintro ⟨hhere, hgone⟩ e he
    cases e with
    | serve k buf env =>
      simp only [GroupNet.step]
      split
      · rfl
      · rename_i fd hk
        rw [(hhere fd (List.mem_of_getElem? hk)).1]
    | deliver fd buf env =>
      simp only [GroupNet.step]
      split
      · rename_i hfd
        rw [Link.deliver, (hhere fd hfd).2]
      · rfl
    | drain j buf env =>
      simp only [GroupNet.step]
      cases hj : n.closed[j]? with
      | none => rfl
      | some l =>
        rw [Option.bind_some, Link.deliver, hgone l (List.mem_of_getElem? hj)]
    | accept | typed | hangup => exact he.elim
  · intro h
    refine ⟨fun fd hfd => ⟨?_, ?_⟩, fun l hl => ?_⟩
    · obtain ⟨k, hk⟩ := List.getElem?_of_mem hfd
      have hserve := h (.serve k [] .allOk) trivial
      simp only [GroupNet.step, hk] at hserve
      cases hup : (n.link fd).user.up with
      | nil => rfl
      | cons f up =>
        rw [hup] at hserve
        dsimp only at hserve
        split at hserve
        · exact absurd hserve (liftFault_ne_disabled _)
        · exact absurd hserve (liftFault_ne_disabled _)
    · have hdeliver := h (.deliver fd [] .allOk) trivial
      simp only [GroupNet.step, if_pos hfd] at hdeliver
      cases hdown : (n.link fd).down with
      | nil => rfl
      | cons m ms =>
        rw [Link.deliver, hdown] at hdeliver
        dsimp only at hdeliver
        rw [if_pos (hI.down fd m (hdown ▸ List.mem_cons_self)).fits] at hdeliver
        exact absurd hdeliver (map_liftFault_ne_disabled _ _)
    · obtain ⟨j, hj⟩ := List.getElem?_of_mem hl
      have hdrain := h (.drain j [] .allOk) trivial
      simp only [GroupNet.step, hj, Option.bind_some] at hdrain
      cases hdown : l.down with
      | nil => rfl
      | cons m ms =>
        rw [Link.deliver, hdown] at hdrain
        dsimp only at hdrain
        rw [if_pos (hI.closed l hl m (hdown ▸ List.mem_cons_self)).fits] at hdrain
        exact absurd hdrain (map_liftFault_ne_disabled _ _)

/-- **The group falls silent.** Whatever has been typed, where stickers fit their entries, and
whatever sends have failed before their first byte: if nobody does anything but take frames, they
come to an end, and no frame is left when none can be taken. -/
theorem silent_of_run {listener : Int} {info : GroupInfo} {es : List GroupEvent}
    (hC : Meets step (fun _ e => Stocked e) (start listener info) es)
    (h : exec step (start listener info) es = .ok n) :
    (∀ run : Nat → GroupNet, run 0 = n →
      ∃ i, ∀ e, Receives e → (run i).step e ≠ .ok (run (i + 1))) ∧
    (n.Still ↔ ∀ e, Receives e → n.step e = .error .disabled) := by
  have hI : n.Legible := exec_invariant (I := Legible) (fun _ _ _ hI he hstep => hI.step he hstep)
    (legible_start listener info) hC h
  refine ⟨fun run h0 => ?_, hI.still_iff⟩
  refine exists_stop (I := Legible) (μ := remaining) wellFounded_lt ?_ run (h0 ▸ hI)
  intro n e n' hI he hs
  have hstocked : Stocked e := by
    cases e with
    | typed => exact he.elim
    | _ => trivial
  exact ⟨hI.step hstocked hs, hI.remaining_lt he hs⟩

theorem silent_of_run_annStartsGame :
    ∃ n, exec step (start 3 gserverInfo) annStartsGame = .ok n ∧ (n.link 6).down ≠ [] ∧
      (∀ run : Nat → GroupNet, run 0 = n →
        ∃ i, ∀ e, Receives e → (run i).step e ≠ .ok (run (i + 1))) ∧
      (n.Still ↔ ∀ e, Receives e → n.step e = .error .disabled) := by
  have hrun : (exec step (start 3 gserverInfo) annStartsGame).isOk := by decide +kernel
  have hC : Meets step (fun _ e => Stocked e) (start 3 gserverInfo) annStartsGame := by
    decide +kernel
  obtain ⟨n, h, hdown⟩ := exists_ok (P := fun n => (n.link 6).down ≠ []) hrun (by decide +kernel)
  exact ⟨n, h, hdown, silent_of_run hC h⟩

end GroupNet

end SocketSpeak
