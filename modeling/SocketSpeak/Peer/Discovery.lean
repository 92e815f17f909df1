import SocketSpeak.CLib.Sys

/-!
# Discovery

Two hosts run `main`. Each sends one broadcast and then waits in `listen_for_connection` for the
other to connect; when nobody does, it binds its UDP socket and blocks in `listen_for_broadcast`
until a broadcast comes in, to whose sender it then connects. A broadcast that arrives at a host
whose UDP socket is not bound is lost.

The two can wait for each other for ever. `deadlock_iff_missed` is about when: only after both
broadcasts arrived too early, and then nothing but the two timeouts is needed.
-/

namespace SocketSpeak
open CLib.Sys

/-- `LISTEN_TIMEOUT_SEC * 1000` -/
def LISTEN_TIMEOUT_MS : Nat := 5000

inductive Host where
  | fst
  | snd
  deriving DecidableEq

def Host.other : Host → Host
  | .fst => .snd
  | .snd => .fst

/-- The second argument of `chat`. -/
inductive Role where
  | client
  | server
  deriving DecidableEq

/-- Where a host is in `main`. -/
inductive Phase where
  /-- not started -/
  | idle
  /-- `broadcast` has returned, the TCP socket is not listening yet -/
  | sent
  /-- in the `poll` of `listen_for_connection` -/
  | accepting (deadline : Nat)
  /-- `listen_for_connection` has returned -1, the UDP socket is not bound yet -/
  | timedOut
  /-- in the `recvfrom` of `listen_for_broadcast` -/
  | blocked
  /-- in the `sleep(1)` before `connect_to` -/
  | dialing (wake : Nat)
  | chatting (role : Role)
  /-- `connect_to` has failed -/
  | exited
  deriving DecidableEq

/-- What has become of the broadcast of a host. -/
inductive Cast where
  | unsent
  | inFlight
  | received
  | missed
  deriving DecidableEq

structure Net where
  now : Nat
  phase : Host → Phase
  cast : Host → Cast

inductive NetEvent where
  | tick (ms : Nat)
  | broadcast (p : Host)
  | listen (p : Host)
  /-- `poll` fails with `EINTR` and is called again -/
  | interrupt (p : Host)
  | timeout (p : Host)
  | bind (p : Host)
  /-- the broadcast of `p` arrives at the other host -/
  | arrive (p : Host)
  | connect (p : Host)
  deriving DecidableEq

namespace Net

def start : Net := ⟨0, fun _ => .idle, fun _ => .unsent⟩

def setPhase (s : Net) (p : Host) (ph : Phase) : Net :=
  { s with phase := Function.update s.phase p ph }

def setCast (s : Net) (p : Host) (c : Cast) : Net := { s with cast := Function.update s.cast p c }

/-- One step of `main` on one of the hosts, or of the network. -/
def step (s : Net) : NetEvent → Except Unit Net
  | .tick ms => .ok { s with now := s.now + ms }
  | .broadcast p =>
    if s.phase p = .idle then .ok ((s.setPhase p .sent).setCast p .inFlight) else .error ()
  | .listen p =>
    if s.phase p = .sent then .ok (s.setPhase p (.accepting (s.now + LISTEN_TIMEOUT_MS)))
    else .error ()
  | .interrupt p =>
    match s.phase p with
    | .accepting _ => .ok (s.setPhase p (.accepting (s.now + LISTEN_TIMEOUT_MS)))
    | _ => .error ()
  | .timeout p =>
    match s.phase p with
    | .accepting deadline => if deadline ≤ s.now then .ok (s.setPhase p .timedOut) else .error ()
    | _ => .error ()
  | .bind p => if s.phase p = .timedOut then .ok (s.setPhase p .blocked) else .error ()
  | .arrive p =>
    if s.cast p = .inFlight then
      if s.phase p.other = .blocked then
        .ok ((s.setPhase p.other (.dialing (s.now + 1000))).setCast p .received)
      else .ok (s.setCast p .missed)
    else .error ()
  | .connect p =>
    match s.phase p with
    | .dialing wake =>
      if wake ≤ s.now then
        match s.phase p.other with
        | .accepting _ =>
          .ok ((s.setPhase p (.chatting .server)).setPhase p.other (.chatting .client))
        | _ => .ok (s.setPhase p .exited)
      else .error ()
    | _ => .error ()

/-- Both hosts are in `recvfrom`, and nothing is on its way to either. -/
def Deadlock (s : Net) : Prop := ∀ p, s.phase p = .blocked ∧ s.cast p ≠ .inFlight

/-- The event is not the arrival of the broadcast of `p` at a host whose UDP socket is unbound. -/
def ArrivesBound (p : Host) (s : Net) (e : NetEvent) : Prop :=
  e = .arrive p → s.phase p.other = .blocked

/-- The event is what a host does that hears nothing, or the passing of time. -/
def Waits : NetEvent → Prop
  | .tick _ | .listen _ | .timeout _ | .bind _ => True
  | .broadcast _ | .interrupt _ | .arrive _ | .connect _ => False

/-- If the event is the start of `p`, the other host is in `listen_for_broadcast` already. -/
def StartsLate (p : Host) (s : Net) (e : NetEvent) : Prop :=
  e = .broadcast p → s.phase p.other = .blocked

instance (p : Host) (s : Net) (e : NetEvent) : Decidable (ArrivesBound p s e) :=
  inferInstanceAs (Decidable (_ → _))
instance (p : Host) (s : Net) (e : NetEvent) : Decidable (StartsLate p s e) :=
  inferInstanceAs (Decidable (_ → _))

end Net

/-! ## What a run keeps -/

namespace Phase

/-- Between `broadcast` and the end of `listen_for_broadcast`. -/
def Searching : Phase → Prop
  | .sent | .accepting _ | .timedOut | .blocked => True
  | _ => False

/-- A broadcast came in. -/
def Dialed : Phase → Prop
  | .dialing _ | .exited | .chatting .server => True
  | _ => False

theorem Searching.not_dialed {ph : Phase} (h : ph.Searching) : ¬ ph.Dialed := by
  cases ph <;> simp_all [Searching, Dialed]

theorem Searching.ne_idle {ph : Phase} (h : ph.Searching) : ph ≠ .idle := by
  rintro rfl
  exact h

theorem Searching.ne_chatting {ph : Phase} {r : Role} (h : ph.Searching) : ph ≠ .chatting r := by
  rintro rfl
  exact h

end Phase

@[simp] theorem Host.other_other (p : Host) : p.other.other = p := by cases p <;> rfl

@[simp] theorem Host.other_ne (p : Host) : p.other ≠ p := by cases p <;> decide

theorem Host.eq_or_eq_other (p q : Host) : q = p ∨ q = p.other := by
  cases p <;> cases q <;> decide

namespace Net
variable {s s' : Net} {p q : Host} {ph : Phase} {c : Cast}

@[simp] theorem setPhase_phase : (s.setPhase p ph).phase = Function.update s.phase p ph := rfl
@[simp] theorem setPhase_cast : (s.setPhase p ph).cast = s.cast := rfl
@[simp] theorem setCast_phase : (s.setCast p c).phase = s.phase := rfl
@[simp] theorem setCast_cast : (s.setCast p c).cast = Function.update s.cast p c := rfl

/-- How the phases and the broadcasts belong together. -/
structure Inv (s : Net) : Prop where
  unsent : ∀ p, s.cast p = .unsent ↔ s.phase p = .idle
  received : ∀ p, s.cast p = .received ↔ (s.phase p.other).Dialed
  client : ∀ p, s.phase p = .chatting .client → s.phase p.other = .chatting .server

theorem inv_start : start.Inv := ⟨by simp [start], by simp [start, Phase.Dialed], by simp [start]⟩

/-- A host may move on in its search. -/
theorem Inv.setPhase (hI : s.Inv) (h : (s.phase p).Searching) (hph : ph.Searching) :
    (s.setPhase p ph).Inv := by
  refine ⟨fun q => ?_, fun q => ?_, fun q => ?_⟩
  · rw [setPhase_cast, setPhase_phase, hI.unsent q]
    by_cases hq : q = p
    · subst hq; simp [h.ne_idle, hph.ne_idle]
    · rw [Function.update_of_ne hq]
  · rw [setPhase_cast, setPhase_phase, hI.received q]
    by_cases hq : q.other = p
    · subst hq; simp [h.not_dialed, hph.not_dialed]
    · rw [Function.update_of_ne hq]
  · rw [setPhase_phase]
    by_cases hq : q = p
    · subst hq; simp [hph.ne_chatting]
    rw [Function.update_of_ne hq]
    intro hclient
    have hserver := hI.client q hclient
    by_cases hq' : q.other = p
    · subst hq'; exact absurd hserver h.ne_chatting
    · rwa [Function.update_of_ne hq']

/-- Only a host that serves is another's client. -/
theorem Inv.ne_client (hI : s.Inv) (h : s.phase p ≠ .chatting .server) :
    s.phase p.other ≠ .chatting .client := by
  intro hclient
  have hserver := hI.client p.other hclient
  rw [p.other_other] at hserver
  exact h hserver

theorem Inv.broadcast (hI : s.Inv) (h : s.phase p = .idle) :
    ((s.setPhase p .sent).setCast p .inFlight).Inv := by
  have hun := (hI.unsent p).mpr h
  have hnot : ¬ (s.phase p.other).Dialed := fun hd => by simp [(hI.received p).mpr hd] at hun
  refine ⟨fun q => ?_, fun q => ?_, fun q => ?_⟩
  · rcases p.eq_or_eq_other q with rfl | rfl
    · simp
    · simpa using hI.unsent p.other
  · rcases p.eq_or_eq_other q with rfl | rfl
    · simpa using hnot
    · have hrec := hI.received p.other
      rw [p.other_other, h] at hrec
      simpa [Phase.Dialed] using hrec
  · rcases p.eq_or_eq_other q with rfl | rfl
    · simp
    · simp [hI.ne_client (p := p) (by simp [h])]

theorem Inv.arrive (hI : s.Inv) (h : s.cast p = .inFlight) (hb : s.phase p.other = .blocked)
    (wake : Nat) : ((s.setPhase p.other (.dialing wake)).setCast p .received).Inv := by
  refine ⟨fun q => ?_, fun q => ?_, fun q => ?_⟩
  · rcases p.eq_or_eq_other q with rfl | rfl
    · have hun := hI.unsent q
      rw [h] at hun
      simpa [q.other_ne.symm] using hun
    · have hun := hI.unsent p.other
      rw [hb] at hun
      simpa using hun
  · rcases p.eq_or_eq_other q with rfl | rfl
    · simp [Phase.Dialed]
    · simpa [p.other_ne.symm] using hI.received p.other
  · rcases p.eq_or_eq_other q with rfl | rfl
    · intro hclient
      have hserver := hI.client q (by simpa [q.other_ne.symm] using hclient)
      simp [hb] at hserver
    · simp

theorem Inv.missed (hI : s.Inv) (h : s.cast p = .inFlight) : (s.setCast p .missed).Inv := by
  refine ⟨fun q => ?_, fun q => ?_, hI.client⟩
  · rcases p.eq_or_eq_other q with rfl | rfl
    · have hun := hI.unsent q
      rw [h] at hun
      simpa using hun
    · simpa using hI.unsent p.other
  · rcases p.eq_or_eq_other q with rfl | rfl
    · have hrec := hI.received q
      rw [h] at hrec
      simpa using hrec
    · simpa using hI.received p.other

/-- The end of `connect_to`: the host leaves, and the other one is taken along if it can accept. -/
theorem Inv.connect (hI : s.Inv) {wake : Nat} (h : s.phase p = .dialing wake) :
    (∀ deadline, s.phase p.other = .accepting deadline →
      ((s.setPhase p (.chatting .server)).setPhase p.other (.chatting .client)).Inv) ∧
    (s.setPhase p .exited).Inv := by
  have hun := hI.unsent p
  have hrec := hI.received p.other
  rw [h] at hun
  rw [p.other_other, h] at hrec
  constructor
  · intro deadline hacc
    have hun' := hI.unsent p.other
    have hrec' := hI.received p
    rw [hacc] at hun' hrec'
    refine ⟨fun q => ?_, fun q => ?_, fun q => ?_⟩
    · rcases p.eq_or_eq_other q with rfl | rfl
      · simpa [q.other_ne.symm] using hun
      · simpa using hun'
    · rcases p.eq_or_eq_other q with rfl | rfl
      · simpa [Phase.Dialed] using hrec'
      · simpa [Phase.Dialed, p.other_ne.symm] using hrec
    · rcases p.eq_or_eq_other q with rfl | rfl
      · simp [q.other_ne.symm]
      · simp [p.other_ne.symm]
  · refine ⟨fun q => ?_, fun q => ?_, fun q => ?_⟩
    · rcases p.eq_or_eq_other q with rfl | rfl
      · simpa using hun
      · simpa using hI.unsent p.other
    · rcases p.eq_or_eq_other q with rfl | rfl
      · simpa using hI.received q
      · simpa [Phase.Dialed] using hrec
    · rcases p.eq_or_eq_other q with rfl | rfl
      · simp
      · simp [hI.ne_client (p := p) (by simp [h])]

theorem inv_step {e : NetEvent} (hI : s.Inv) (h : s.step e = .ok s') : s'.Inv := by
  cases e with
  | tick ms => cases h; exact ⟨hI.unsent, hI.received, hI.client⟩
  | broadcast p =>
    simp only [step] at h
    split at h <;> cases h
    rename_i hp
    exact hI.broadcast hp
  | listen p =>
    simp only [step] at h
    split at h <;> cases h
    rename_i hp
    exact hI.setPhase (hp ▸ trivial) trivial
  | interrupt p =>
    simp only [step] at h
    split at h <;> cases h
    rename_i hp
    exact hI.setPhase (hp ▸ trivial) trivial
  | timeout p =>
    simp only [step] at h
    split at h
    · rename_i hp
      split at h <;> cases h
      exact hI.setPhase (hp ▸ trivial) trivial
    · cases h
  | bind p =>
    simp only [step] at h
    split at h <;> cases h
    rename_i hp
    exact hI.setPhase (hp ▸ trivial) trivial
  | arrive p =>
    simp only [step] at h
    split at h
    · rename_i hc
      split at h <;> cases h
      · rename_i hb
        exact hI.arrive hc hb _
      · exact hI.missed hc
    · cases h
  | connect p =>
    simp only [step] at h
    split at h
    · rename_i wake hp
      split at h
      · obtain ⟨hacc, hexit⟩ := hI.connect hp
        split at h <;> cases h
        · rename_i hd
          exact hacc _ hd
        · exact hexit
      · cases h
    · cases h

/-- What a step can do to the broadcasts. -/
theorem cast_of_step {e : NetEvent} (h : s.step e = .ok s') :
    (∃ q, e = .broadcast q ∧ s.phase q = .idle ∧ s'.cast = Function.update s.cast q .inFlight) ∨
    (∃ q, e = .arrive q ∧ s.cast q = .inFlight ∧ s'.cast = Function.update s.cast q
      (if s.phase q.other = .blocked then .received else .missed)) ∨
    (∀ q, e ≠ .broadcast q ∧ e ≠ .arrive q) ∧ s'.cast = s.cast := by
  cases e with
  | tick => cases h; simp
  | broadcast p =>
    simp only [step] at h
    split at h <;> cases h
    rename_i hp
    exact .inl ⟨p, rfl, hp, rfl⟩
  | listen | bind =>
    simp only [step] at h
    split at h <;> cases h
    simp
  | interrupt =>
    simp only [step] at h
    split at h <;> cases h
    simp
  | timeout =>
    simp only [step] at h
    split at h
    · split at h <;> cases h
      simp
    · cases h
  | arrive p =>
    simp only [step] at h
    split at h
    · rename_i hc
      refine .inr (.inl ⟨p, rfl, hc, ?_⟩)
      split at h <;> cases h
      · rename_i hb; simp [hb]
      · rename_i hb; simp [hb]
    · cases h
  | connect =>
    simp only [step] at h
    split at h
    · split at h
      · split at h <;> cases h <;> simp
      · cases h
    · cases h

/-- Only a broadcast moves a host out of `listen_for_broadcast`. -/
theorem blocked_of_step {e : NetEvent} (h : s.step e = .ok s') (hb : s.phase p = .blocked)
    (hnot : e ≠ .arrive p.other) : s'.phase p = .blocked := by
  have hne : ∀ {q}, s.phase q ≠ .blocked → p ≠ q := by
    rintro q hq rfl
    exact hq hb
  cases e with
  | tick => cases h; exact hb
  | broadcast q | listen q | bind q | interrupt q =>
    simp only [step] at h
    split at h <;> cases h
    rename_i hq
    have hpq : p ≠ q := hne (by simp [hq])
    simpa [Function.update_of_ne hpq] using hb
  | timeout q =>
    simp only [step] at h
    split at h
    · rename_i hq
      have hpq : p ≠ q := hne (by simp [hq])
      split at h <;> cases h
      simpa [Function.update_of_ne hpq] using hb
    · cases h
  | arrive q =>
    simp only [step] at h
    split at h
    · have hpq : p ≠ q.other := by rintro rfl; simp at hnot
      split at h <;> cases h
      · simpa [Function.update_of_ne hpq] using hb
      · exact hb
    · cases h
  | connect q =>
    simp only [step] at h
    split at h
    · rename_i hq
      have hpq : p ≠ q := hne (by simp [hq])
      split at h
      · split at h <;> cases h
        · rename_i hacc
          have hpq' : p ≠ q.other := hne (by simp [hacc])
          simpa [Function.update_of_ne hpq, Function.update_of_ne hpq'] using hb
        · simpa [Function.update_of_ne hpq] using hb
      · cases h
    · cases h

/-- The broadcast of `p` is missed when it arrives at a host whose UDP socket is not bound. -/
theorem missed_step {e : NetEvent} (hI : s.Inv) (h : s.step e = .ok s') :
    s'.cast p = .missed ↔ s.cast p = .missed ∨ ¬ ArrivesBound p s e := by
  rcases cast_of_step h with ⟨q, rfl, hq, hcast⟩ | ⟨q, rfl, hq, hcast⟩ | ⟨hne, hcast⟩
  · have hun := (hI.unsent q).mpr hq
    by_cases hpq : p = q
    · subst hpq; simp [hcast, ArrivesBound, hun]
    · simp [hcast, ArrivesBound, hpq]
  · by_cases hpq : p = q
    · subst hpq
      by_cases hb : s.phase p.other = .blocked <;> simp [hcast, ArrivesBound, hq, hb]
    · simp [hcast, ArrivesBound, hpq, Ne.symm hpq]
  · simp [hcast, ArrivesBound, (hne p).2]

/-- So it is missed in a run if and only if it arrives in it at such a host. -/
theorem missed_iff {es : List NetEvent} (hI : s.Inv) (h : exec step s es = .ok s') :
    s'.cast p = .missed ↔ s.cast p = .missed ∨ ¬ Meets step (ArrivesBound p) s es := by
  induction es generalizing s with
  | nil => cases h; simp [Meets]
  | cons e es ih =>
    obtain ⟨m, hm, h⟩ := exec_cons_ok.mp h
    rw [ih (inv_step hI hm) h, missed_step hI hm, Meets, hm, not_and_or, or_assoc]

/-- While a broadcast that started late is on its way, the other host waits for it. -/
structure Late (p : Host) (s : Net) : Prop where
  inv : s.Inv
  waits : s.cast p = .inFlight → s.phase p.other = .blocked
  not_missed : s.cast p ≠ .missed

theorem late_step {e : NetEvent} (hL : s.Late p) (hlate : StartsLate p s e)
    (h : s.step e = .ok s') : s'.Late p := by
  have harrive : e = .arrive p → s.cast p = .inFlight ∧ s'.cast p ≠ .inFlight := by
    rintro rfl
    rcases cast_of_step h with ⟨q, he, -⟩ | ⟨q, he, hq, hcast⟩ | ⟨hne, -⟩
    · cases he
    · cases he
      by_cases hb : s.phase p.other = .blocked <;> simp [hq, hcast, hb]
    · exact absurd rfl (hne p).2
  have hsent : s'.cast p = .inFlight → s.cast p = .inFlight ∨ e = .broadcast p := by
    intro hc
    rcases cast_of_step h with ⟨q, rfl, -, hcast⟩ | ⟨q, rfl, hq, hcast⟩ | ⟨-, hcast⟩
    · by_cases hpq : p = q
      · exact .inr (hpq ▸ rfl)
      · exact .inl (by simpa [hcast, hpq] using hc)
    · by_cases hpq : p = q
      · exact .inl (hpq ▸ hq)
      · simpa [hcast, hpq] using hc
    · exact .inl (hcast ▸ hc)
  refine ⟨inv_step hL.inv h, fun hc => ?_, fun hc => ?_⟩
  · rcases hsent hc with hc' | he
    · have hne : e ≠ .arrive p.other.other := by
        rw [p.other_other]
        exact fun he => (harrive he).2 hc
      exact blocked_of_step h (hL.waits hc') hne
    · exact blocked_of_step h (hlate he) (by simp [he])
  · rcases (missed_step hL.inv h).mp hc with hc' | hnot
    · exact hL.not_missed hc'
    · exact hnot fun he => hL.waits (harrive he).1

/-! ## The way into the deadlock -/

/-- A host whose search nobody ends gets to `listen_for_broadcast` by itself. -/
theorem search_ends (h : (s.phase p).Searching) : ∃ es s', (∀ e ∈ es, Waits e) ∧
    exec step s es = .ok s' ∧ s'.phase = Function.update s.phase p .blocked ∧
      s'.cast = s.cast := by
  have bind : ∀ {s : Net}, s.phase p = .timedOut →
      exec step s [.bind p] = .ok (s.setPhase p .blocked) := by
    intro s hs
    simp [exec, step, hs]
  have wait : ∀ {s : Net} (deadline : Nat), s.phase p = .accepting deadline →
      exec step s [.tick deadline, .timeout p] =
        .ok (({ s with now := s.now + deadline } : Net).setPhase p .timedOut) := by
    intro s deadline hs
    simp [exec, step, hs]
  cases hp : s.phase p with
  | blocked =>
    refine ⟨[], s, fun e he => ?_, rfl, ?_, rfl⟩
    · cases he
    · rw [← hp, Function.update_eq_self]
  | timedOut =>
    refine ⟨_, _, ?_, bind hp, rfl, rfl⟩
    simp [Waits]
  | accepting deadline =>
    refine ⟨_, _, ?_, exec_append (wait _ hp) (bind (by simp)), ?_, rfl⟩
    · simp [Waits]
    · simp
  | sent =>
    have listen : exec step s [.listen p] =
        .ok (s.setPhase p (.accepting (s.now + LISTEN_TIMEOUT_MS))) := by simp [exec, step, hp]
    refine ⟨_, _, ?_, exec_append listen (exec_append (wait (s.now + LISTEN_TIMEOUT_MS) (by simp))
      (bind (by simp))), ?_, rfl⟩
    · simp [Waits]
    · simp
  | _ => simp [hp, Phase.Searching] at h

/-- Both broadcasts are gone, and nobody has one. -/
theorem searching_of_missed (hI : s.Inv) (h : ∀ p, s.cast p = .missed) (p : Host) :
    (s.phase p).Searching := by
  have hidle : s.phase p ≠ .idle := by
    intro hi
    have hun := (hI.unsent p).mpr hi
    simp [h] at hun
  have hdialed : ∀ q, ¬ (s.phase q).Dialed := by
    intro q hq
    have hrec := (hI.received q.other).mpr (by rwa [q.other_other])
    simp [h] at hrec
  have hclient : s.phase p ≠ .chatting .client := by
    intro hc
    exact hdialed p.other (by rw [hI.client p hc]; trivial)
  have hdialed := hdialed p
  cases hp : s.phase p with
  | chatting r => cases r <;> simp_all [Phase.Dialed]
  | _ => simp_all [Phase.Searching, Phase.Dialed]

theorem deadlock_ahead (hI : s.Inv) (h : ∀ p, s.cast p = .missed) :
    ∃ es s', (∀ e ∈ es, Waits e) ∧ exec step s es = .ok s' ∧ s'.Deadlock := by
  have hs := searching_of_missed hI h
  obtain ⟨es, m, hwaits, hes, hphase, hcast⟩ := search_ends (hs .fst)
  have hm : (m.phase .snd).Searching := by
    rw [hphase, Function.update_of_ne (by decide)]
    exact hs .snd
  obtain ⟨es', s', hwaits', hes', hphase', hcast'⟩ := search_ends hm
  refine ⟨_, _, List.forall_mem_append.mpr ⟨hwaits, hwaits'⟩, exec_append hes hes',
    fun p => ⟨?_, ?_⟩⟩
  · cases p <;> simp [hphase, hphase']
  · simp [hcast, hcast', h]

/-! ## Main result -/

theorem inv_of_run {es : List NetEvent} (h : exec step start es = .ok s) : s.Inv :=
  exec_invariant (fun _ _ _ hI _ h => inv_step hI h) inv_start
    (meets_of_forall (C := fun _ _ => True) (fun _ _ => trivial) _ _) h

/-- A deadlock is for ever. -/
theorem Deadlock.step {e : NetEvent} (hd : s.Deadlock) (h : s.step e = .ok s') :
    (∃ ms, e = .tick ms) ∧ s'.Deadlock := by
  cases e with
  | tick ms => cases h; exact ⟨⟨ms, rfl⟩, hd⟩
  | arrive p => simp [Net.step, (hd p).2] at h
  | broadcast p | listen p | interrupt p | timeout p | bind p | connect p =>
    simp [Net.step, (hd p).1] at h

theorem Deadlock.missed (hI : s.Inv) (hd : s.Deadlock) (p : Host) : s.cast p = .missed := by
  have hun := hI.unsent p
  have hrec := hI.received p
  rw [(hd p).1] at hun
  rw [(hd p.other).1] at hrec
  cases hc : s.cast p with
  | unsent => simp [hc] at hun
  | inFlight => exact absurd hc (hd p).2
  | received => simp [hc, Phase.Dialed] at hrec
  | missed => rfl

/-- **Discovery and deadlock.** The two hosts are in deadlock only after each broadcast arrived at
a host whose UDP socket was not bound, and after two such arrivals the hosts get into it by the two
timeouts alone. A host that starts when the other one is in `listen_for_broadcast` rules it out. -/
theorem deadlock_iff_missed (es : List NetEvent) (s : Net) (h : exec step start es = .ok s) :
    (s.Deadlock → ∀ p, ¬ Meets step (ArrivesBound p) start es) ∧
    ((∀ p, ¬ Meets step (ArrivesBound p) start es) →
      ∃ es' s', (∀ e ∈ es', Waits e) ∧ exec step s es' = .ok s' ∧ s'.Deadlock) ∧
    ∀ p, Meets step (StartsLate p) start es → ¬ s.Deadlock := by
  have hI := inv_of_run h
  have hmissed : ∀ p, s.cast p = .missed ↔ ¬ Meets step (ArrivesBound p) start es := by
    intro p
    simpa [start] using missed_iff (p := p) inv_start h
  refine ⟨fun hd p => (hmissed p).mp (hd.missed hI p), fun hm => ?_, fun p hl hd => ?_⟩
  · exact deadlock_ahead hI fun p => (hmissed p).mpr (hm p)
  · have hstart : start.Late p := ⟨inv_start, by simp [start], by simp [start]⟩
    have hL : s.Late p := exec_invariant (fun _ _ _ => late_step) hstart hl h
    exact hL.not_missed (hd.missed hI p)

/-- The second host starts when the first one has timed out, and they find each other. -/
theorem no_deadlock_in_sequence :
    let es : List NetEvent := [.broadcast .fst, .arrive .fst, .listen .fst, .tick 5000,
      .timeout .fst, .bind .fst, .broadcast .snd, .listen .snd, .arrive .snd, .tick 1000,
      .connect .fst]
    ∃ s, exec step start es = .ok s ∧ s.phase .fst = .chatting .server ∧
      s.phase .snd = .chatting .client ∧ ¬ s.Deadlock := by
  intro es
  have hlate : Meets step (StartsLate .snd) start es := by decide
  exact ⟨_, rfl, rfl, rfl, (deadlock_iff_missed es _ rfl).2.2 .snd hlate⟩

/-- Both hosts start within the same five seconds. -/
theorem deadlock_of_simultaneous_start :
    let es : List NetEvent := [.broadcast .fst, .broadcast .snd, .arrive .fst, .arrive .snd,
      .listen .fst, .listen .snd, .tick 5000, .timeout .fst, .timeout .snd, .bind .fst, .bind .snd]
    ∃ s, exec step start es = .ok s ∧ s.Deadlock := by
  intro es
  refine ⟨_, rfl, fun p => ?_⟩
  cases p
  · exact ⟨rfl, by decide⟩
  · exact ⟨rfl, by decide⟩

end Net

end SocketSpeak
