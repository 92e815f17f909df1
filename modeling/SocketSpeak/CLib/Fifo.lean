import Mathlib.Tactic.Common

/-!
# A receiver and the messages in flight

A message `m` that a channel delivers may turn the value `r` of the receiver into any `r'` with
`takes r m r'`. `wp takes P ms r` says that a receiver that holds `r` now ends in `P` once `ms` have
been delivered, and `Along takes Q ms r` that each of them finds a value that `Q` allows. Both are
about the whole channel, so what the sender appends to it is judged before it is delivered.
-/

namespace CLib.Fifo

variable {σ μ : Type*} (takes : σ → μ → σ → Prop)

/-- The value after all of the messages is in `P`. -/
def wp (P : σ → Prop) : List μ → σ → Prop
  | [], r => P r
  | m :: ms, r => ∀ r', takes r m r' → wp P ms r'

/-- Each message finds a value that `Q` allows. -/
def Along (Q : σ → μ → Prop) : List μ → σ → Prop
  | [], _ => True
  | m :: ms, r => Q r m ∧ ∀ r', takes r m r' → Along Q ms r'

/-- The message does not lead out of `P`. -/
def Keeps (P : σ → Prop) (m : μ) : Prop := ∀ r r', P r → takes r m r' → P r'

/-- The message leads into `P` from everywhere. -/
def Sets (P : σ → Prop) (m : μ) : Prop := ∀ r r', takes r m r' → P r'

/-- The messages turn one value into the other. -/
def Takes : List μ → σ → σ → Prop
  | [], r, r' => r' = r
  | m :: ms, r, r' => ∃ s, takes r m s ∧ Takes ms s r'

variable {takes} {P P' : σ → Prop} {Q : σ → μ → Prop} {m : μ} {ms ms' : List μ} {r r' : σ}

theorem Sets.keeps (h : Sets takes P m) : Keeps takes P m := fun r r' _ => h r r'

/-! ## The next message -/

theorem wp_deliver (h : wp takes P (m :: ms) r) (hr : takes r m r') : wp takes P ms r' := h r' hr

theorem wp_takes (h : wp takes P (ms ++ ms') r) (hr : Takes takes ms r r') :
    wp takes P ms' r' := by
  induction ms generalizing r with
  | nil =>
    obtain rfl := hr
    exact h
  | cons m ms ih =>
    obtain ⟨s, hs, hr⟩ := hr
    exact ih (h s hs) hr

/-- Messages that need not change the value. -/
theorem of_wp (h : wp takes P ms r) (hm : ∀ m ∈ ms, takes r m r) : P r := by
  induction ms with
  | nil => exact h
  | cons m ms ih =>
    exact ih (h r (hm m List.mem_cons_self)) fun m' hm' => hm m' (List.mem_cons_of_mem m hm')

theorem Along.head (h : Along takes Q (m :: ms) r) : Q r m := h.1

theorem Along.deliver (h : Along takes Q (m :: ms) r) (hr : takes r m r') : Along takes Q ms r' :=
  h.2 r' hr

/-! ## More messages -/

theorem wp_append : wp takes P (ms ++ ms') r ↔ wp takes (wp takes P ms') ms r := by
  induction ms generalizing r with
  | nil => exact Iff.rfl
  | cons m ms ih => exact forall₂_congr fun r' _ => ih

theorem wp_mono (hP : ∀ r, P r → P' r) (h : wp takes P ms r) : wp takes P' ms r := by
  induction ms generalizing r with
  | nil => exact hP r h
  | cons m ms ih => exact fun r' hr => ih (h r' hr)

theorem wp_of_forall (hP : ∀ r, P r) : wp takes P ms r := by
  induction ms generalizing r with
  | nil => exact hP r
  | cons m ms ih => exact fun r' _ => ih

theorem wp_of_keeps (hk : ∀ m ∈ ms, Keeps takes P m) (h : P r) : wp takes P ms r := by
  induction ms generalizing r with
  | nil => exact h
  | cons m ms ih =>
    intro r' hr
    exact ih (fun m' hm => hk m' (List.mem_cons_of_mem m hm)) (hk m List.mem_cons_self r r' h hr)

theorem wp_append_keeps (h : wp takes P ms r) (hk : ∀ m ∈ ms', Keeps takes P m) :
    wp takes P (ms ++ ms') r :=
  wp_append.mpr (wp_mono (fun _ => wp_of_keeps hk) h)

/-- One message that leads into `P` is enough if no other one leads out of it. -/
theorem wp_append_sets (hm : m ∈ ms') (hs : Sets takes P m) (hk : ∀ m ∈ ms', Keeps takes P m) :
    wp takes P (ms ++ ms') r := by
  obtain ⟨before, after, rfl⟩ := List.append_of_mem hm
  refine wp_append.mpr (wp_of_forall fun r => wp_append.mpr (wp_of_forall fun r r' hr => ?_))
  exact wp_of_keeps (fun m' hm' => hk m' (by simp [hm'])) (hs r r' hr)

theorem along_append :
    Along takes Q (ms ++ ms') r ↔ Along takes Q ms r ∧ wp takes (Along takes Q ms') ms r := by
  induction ms generalizing r with
  | nil => exact ⟨fun h => ⟨trivial, h⟩, fun h => h.2⟩
  | cons m ms ih =>
    constructor
    · rintro ⟨hq, h⟩
      exact ⟨⟨hq, fun r' hr => (ih.mp (h r' hr)).1⟩, fun r' hr => (ih.mp (h r' hr)).2⟩
    · rintro ⟨⟨hq, h⟩, h'⟩
      exact ⟨hq, fun r' hr => ih.mpr ⟨h r' hr, h' r' hr⟩⟩

theorem along_of_keeps (hk : ∀ m ∈ ms, Keeps takes P m) (hq : ∀ r, P r → ∀ m ∈ ms, Q r m)
    (h : P r) : Along takes Q ms r := by
  induction ms generalizing r with
  | nil => trivial
  | cons m ms ih =>
    refine ⟨hq r h m List.mem_cons_self, fun r' hr => ?_⟩
    exact ih (fun m' hm => hk m' (List.mem_cons_of_mem m hm))
      (fun r hr m' hm => hq r hr m' (List.mem_cons_of_mem m hm)) (hk m List.mem_cons_self r r' h hr)

/-- New messages that keep what the old ones lead to, and are allowed there. -/
theorem Along.append (h : Along takes Q ms r) (hP : wp takes P ms r)
    (hk : ∀ m ∈ ms', Keeps takes P m) (hq : ∀ r, P r → ∀ m ∈ ms', Q r m) :
    Along takes Q (ms ++ ms') r :=
  along_append.mpr ⟨h, wp_mono (fun _ => along_of_keeps hk hq) hP⟩

end CLib.Fifo
