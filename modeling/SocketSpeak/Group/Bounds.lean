import SocketSpeak.Group.Progress

/-!
# The bounds of the table of members

`member_count` is incremented by an `LMP_GRP_INIT_MEMBER` and decremented by every hangup, whether
the connection had announced a member or not, and the table of connections has no bound. The indices
into the table of members are in range for as long as no event is one of those that `FitsTable`
excludes (`bounds_iff`).
-/

namespace SocketSpeak
open CLib Sys

/-- Every frame of a client but the first one makes the server look up its member. -/
theorem Server.member_of_frame {s s' : Server} {i : Nat} {f : Frame} {buf : Bytes} {env : Env}
    {out : List Output} (h : s.step (.frame i f buf env) = .ok (out, s'))
    (hf : f.type ≠ LMP_GRP_INIT_MEMBER)
    (ht : f.type ∈ [LMP_GRP_INIT_MEMBER, LMP_NICK, LMP_MSG, LMP_GRP_LOAD_MSG, LMP_GRP_HANGMAN]) :
    ∃ m, s.group.member (i - 1) = .ok m := by
  obtain ⟨fd, -, -, -, hh⟩ := handled_of_frame h
  cases hh with
  | nick m _ hm => exact ⟨m, hm⟩
  | init _ he => exact absurd he hf
  | relayed hnot hmsg =>
    have hm : f.type = LMP_MSG := by simp at ht hnot; tauto
    obtain ⟨m, hm, -⟩ := hmsg hm
    exact ⟨m, hm⟩
  | answered m _ hm => exact ⟨m, hm⟩

namespace World

/-- The number of the connections that have announced a member. -/
def registered (w : World) : Nat := w.server.conns.countP fun fd => (w.announced fd).isSome

/-- The event is handled without an index out of range, and `member_count` is the size of a table
after it. -/
def InBounds (w : World) (e : ServerEvent) : Prop :=
  match w.step e with
  | .ok w' => 0 ≤ w'.server.group.memberCount.val ∧
    w'.server.group.memberCount.val ≤ MAX_GROUP_MEMBERS
  | .error _ => False

/-- A new member finds a slot, and any other frame comes from one of the first connections; a
hangup finds a member to remove, and no more connections than slots. -/
def FitsTable (w : World) : ServerEvent → Prop
  | .accept _ => True
  | .frame i f _ _ =>
    (f.type = LMP_GRP_INIT_MEMBER → w.server.group.memberCount.val < MAX_GROUP_MEMBERS) ∧
    (f.type ≠ LMP_GRP_INIT_MEMBER → i ≤ MAX_GROUP_MEMBERS)
  | .hangup .. => 0 < w.server.group.memberCount.val ∧ w.server.conns.length ≤ MAX_GROUP_MEMBERS

instance (w : World) (e : ServerEvent) : Decidable (w.InBounds e) :=
  have : Decidable (match w.step e with
      | .ok w' => 0 ≤ w'.server.group.memberCount.val ∧
        w'.server.group.memberCount.val ≤ MAX_GROUP_MEMBERS
      | .error _ => False) :=
    match w.step e with
    | .ok _ => inferInstanceAs (Decidable (_ ∧ _))
    | .error _ => .isFalse id
  this

instance (w : World) : ∀ e, Decidable (w.FitsTable e)
  | .accept _ => .isTrue trivial
  | .frame .. => inferInstanceAs (Decidable ((_ → _) ∧ (_ → _)))
  | .hangup .. => inferInstanceAs (Decidable (_ ∧ _))

theorem inBounds_iff {w : World} {e : ServerEvent} : w.InBounds e ↔ ∃ w', w.step e = .ok w' ∧
    0 ≤ w'.server.group.memberCount.val ∧ w'.server.group.memberCount.val ≤ MAX_GROUP_MEMBERS := by
  unfold InBounds
  split <;> simp_all

variable {w w' : World} {k : Nat} {f : Frame} {buf : Bytes} {env : Env} {status : Int}

theorem registered_le (w : World) : w.registered ≤ w.server.conns.length := List.countP_le_length

theorem registered_frame (ht : w.server.TableOk) (hk : k < w.server.conns.length)
    (h : w.step (.frame (k + 1) f buf env) = .ok w') :
    w'.registered + (if (w.announcedAt k).isSome then 1 else 0) =
      w.registered + (if (announce f (w.announcedAt k)).isSome then 1 else 0) := by
  obtain ⟨out, hs, -⟩ := step_ok h
  obtain ⟨-, hc, -⟩ := Server.conns_of_frame hs
  have ha := announced_frame ht hk h
  have hat : w.announcedAt k = w.announced w.server.conns[k] := by simp [announcedAt, hk]
  have hperm := List.getElem_cons_eraseIdx_perm hk
  have hnot : w.server.conns[k] ∉ w.server.conns.eraseIdx k :=
    (List.nodup_cons.mp (hperm.nodup_iff.mpr (List.nodup_cons.mp ht.nodup).2)).1
  have hrest : (w.server.conns.eraseIdx k).countP (fun fd => (w'.announced fd).isSome) =
      (w.server.conns.eraseIdx k).countP fun fd => (w.announced fd).isSome := by
    apply List.countP_congr
    intro fd hm
    have hne : fd ≠ w.server.conns[k] := by
      rintro rfl
      exact hnot hm
    simp [ha, hne]
  rw [registered, hc, registered, hat, ← hperm.countP_eq, ← hperm.countP_eq, List.countP_cons,
    List.countP_cons, hrest]
  simp only [ha, Function.update_self]
  omega

theorem registered_accept (ht : w.server.TableOk) {fd : Int} (hg : w.Gclient (.accept fd))
    (h : w.step (.accept fd) = .ok w') : w'.registered = w.registered := by
  obtain ⟨hs, hnew, hold⟩ := announced_accept hg h
  have hcount : w.server.conns.countP (fun fd => (w'.announced fd).isSome) = w.registered := by
    apply List.countP_congr
    intro fd' hm
    rw [hold fd' hm]
  rw [registered, hs]
  by_cases h1 : fd = -1
  · rw [Server.handleNewConnection, if_pos h1, hcount]
  · rw [Server.conns_of_accept ht h1, List.countP_append, hcount]
    simp [hnew]

theorem registered_hangup (ht : w.server.TableOk) (hk : k < w.server.conns.length)
    (h : w.step (.hangup (k + 1) status env) = .ok w') : w.registered ≤ w'.registered + 1 := by
  obtain ⟨out, hs, ha⟩ := step_ok h
  obtain ⟨-, hc⟩ := Server.conns_of_hangup ht hk hs
  have ha' : w'.announced = w.announced := ha
  have hperm := perm_swapRemove (List.getElem?_eq_getElem hk)
  rw [registered, hperm.countP_eq, List.countP_cons, registered, hc, ha']
  split <;> omega

/-! ## Runs -/

theorem tableOk_step (ht : w.server.TableOk) {e : ServerEvent} (hg : w.Gclient e)
    (h : w.step e = .ok w') : w'.server.TableOk := by
  obtain ⟨out, hs, -⟩ := step_ok h
  cases e with
  | accept fd =>
    rw [(announced_accept hg h).1]
    exact ht.accept hg
  | frame i f buf env => exact ht.frame hs
  | hangup i status env =>
    obtain ⟨hi, hlt⟩ := hg
    obtain ⟨k, rfl, hk⟩ := ht.exists_conn hi hlt
    exact ht.hangup hk hs

/-- While the table fits, no connection has more than its member in it. -/
structure Counted (w : World) : Prop where
  table : w.server.TableOk
  nonneg : 0 ≤ w.server.group.memberCount.val
  le_max : w.server.group.memberCount.val ≤ MAX_GROUP_MEMBERS
  le_registered : w.server.group.memberCount.val ≤ w.registered

theorem Counted.countOk (hI : w.Counted) : w.server.CountOk := by
  have hle := hI.le_registered
  have hreg := w.registered_le
  exact ⟨hI.le_max, by omega⟩

theorem counted_accept (hI : w.Counted) {fd : Int} (hg : w.Gclient (.accept fd)) :
    ∃ w', w.step (.accept fd) = .ok w' ∧ w'.Counted := by
  obtain ⟨w', hw⟩ := step_of_server (w := w) (e := .accept fd) ⟨_, rfl⟩
  have hgroup : w'.server.group = w.server.group := by
    rw [(announced_accept hg hw).1, Server.group_handleNewConnection]
  refine ⟨w', hw, tableOk_step hI.table hg hw, ?_, ?_, ?_⟩
  · rw [hgroup]; exact hI.nonneg
  · rw [hgroup]; exact hI.le_max
  · rw [hgroup, registered_accept hI.table hg hw]; exact hI.le_registered

theorem counted_frame (hI : w.Counted) (hg : w.Gclient (.frame (k + 1) f buf env))
    (hfit : w.FitsTable (.frame (k + 1) f buf env)) :
    ∃ w', w.step (.frame (k + 1) f buf env) = .ok w' ∧ w'.Counted := by
  obtain ⟨-, hlt, -, -, hinit⟩ := hg
  obtain ⟨hmax, hslot⟩ := hfit
  rw [Nat.add_sub_cancel] at hinit
  have hnn := hI.nonneg
  have hk : k < w.server.conns.length := by rw [hI.table.fdCount] at hlt; omega
  obtain ⟨w', hw⟩ := step_of_server (Server.frame_ok hI.table hI.countOk hk hslot
    (fun h => ⟨hnn, hmax h⟩) buf env)
  refine ⟨w', hw, ?_⟩
  obtain ⟨out, hs, -⟩ := step_ok hw
  have hcount := Server.memberCount_of_frame hs
  have hreg := registered_frame hI.table hk hw
  have hle := hI.le_registered
  have hmax' := hI.le_max
  by_cases hf : f.type = LMP_GRP_INIT_MEMBER
  · have hlt := hmax hf
    rw [if_pos hf] at hcount
    simp only [hinit.mp hf, announce, hf, if_true, Option.isSome_none, Option.isSome_some] at hreg
    simp only [Bool.false_eq_true, if_false] at hreg
    exact ⟨hI.table.frame hs, by omega, by omega, by omega⟩
  · rw [if_neg hf] at hcount
    rw [isSome_announce hf] at hreg
    exact ⟨hI.table.frame hs, by omega, by omega, by omega⟩

theorem counted_hangup (hI : w.Counted) (hg : w.Gclient (.hangup (k + 1) status env))
    (hfit : w.FitsTable (.hangup (k + 1) status env)) :
    ∃ w', w.step (.hangup (k + 1) status env) = .ok w' ∧ w'.Counted := by
  obtain ⟨-, hlt⟩ := hg
  obtain ⟨hpos, hn⟩ := hfit
  have hk : k < w.server.conns.length := by rw [hI.table.fdCount] at hlt; omega
  obtain ⟨w', hw⟩ := step_of_server (Server.hangup_ok hI.table hk hn
    (by rw [INT_MIN]; omega) status env)
  refine ⟨w', hw, ?_⟩
  obtain ⟨out, hs, -⟩ := step_ok hw
  have hcount := Server.memberCount_of_hangup hs
  have hreg := registered_hangup hI.table hk hw
  have hle := hI.le_registered
  have hmax := hI.le_max
  exact ⟨hI.table.hangup hk hs, by omega, by omega, by omega⟩

/-- Any other event is not handled, or leaves a count that is none. -/
theorem not_inBounds (hI : w.Counted) {e : ServerEvent} (hg : w.Gclient e)
    (hfit : ¬ w.FitsTable e) : ¬ w.InBounds e := by
  intro hb
  obtain ⟨w', hw, hnn, hmax⟩ := inBounds_iff.mp hb
  obtain ⟨out, hs, -⟩ := step_ok hw
  cases e with
  | accept => exact hfit trivial
  | frame i f buf env =>
    obtain ⟨hi, hlt, htype, -, -⟩ := hg
    by_cases hf : f.type = LMP_GRP_INIT_MEMBER
    · have hcount := Server.memberCount_of_frame hs
      rw [if_pos hf] at hcount
      exact hfit ⟨fun _ => by omega, fun hne => absurd hf hne⟩
    · have hbig : ¬ i ≤ MAX_GROUP_MEMBERS := fun hle => hfit ⟨fun h => absurd h hf, fun _ => hle⟩
      obtain ⟨m, hm⟩ := Server.member_of_frame hs hf htype
      obtain ⟨k, hk, hget⟩ := Group.member_eq_ok.mp hm
      have hk10 := (Vector.getElem?_eq_some_iff.mp hget).1
      omega
  | hangup i status env =>
    obtain ⟨hi, hlt⟩ := hg
    have hcount := Server.memberCount_of_hangup hs
    have hbig : ¬ w.server.conns.length ≤ MAX_GROUP_MEMBERS := fun hle => hfit ⟨by omega, hle⟩
    obtain ⟨-, -, -, ⟨last, g, hm, -⟩, -⟩ := Server.handled_of_hangup hs
    obtain ⟨k, hk, hget⟩ := Group.member_eq_ok.mp hm
    have hk10 := (Vector.getElem?_eq_some_iff.mp hget).1
    rw [hI.table.fdCount] at hk
    omega

theorem counted_step (hI : w.Counted) {e : ServerEvent} (hg : w.Gclient e) (hfit : w.FitsTable e) :
    ∃ w', w.step e = .ok w' ∧ w'.Counted := by
  cases e with
  | accept fd => exact counted_accept hI hg
  | frame i f buf env =>
    obtain ⟨k, rfl, -⟩ := hI.table.exists_conn hg.1 hg.2.1
    exact counted_frame hI hg hfit
  | hangup i status env =>
    obtain ⟨k, rfl, -⟩ := hI.table.exists_conn hg.1 hg.2
    exact counted_hangup hI hg hfit

/-! ## Main result -/

theorem counted_start (listener : Int) (info : GroupInfo) : (start listener info).Counted :=
  ⟨.start listener info, Int.le_refl 0, (by decide : (0 : Int) ≤ 10), Int.le_refl 0⟩

/-- **The table of members keeps its bounds** in a run of clients like `gclient` if and only if
every event finds the table as `FitsTable` says. -/
theorem bounds_iff (listener : Int) (info : GroupInfo) (es : List ServerEvent)
    (hg : Meets step Gclient (start listener info) es) :
    Meets step InBounds (start listener info) es ↔
      Meets step FitsTable (start listener info) es := by
  apply meets_iff (I := Counted) ?_ ?_ (counted_start listener info) hg
  · intro w e hI hg
    constructor
    · intro hb
      by_contra hfit
      exact not_inBounds hI hg hfit hb
    · intro hfit
      obtain ⟨w', hw, hI'⟩ := counted_step hI hg hfit
      exact inBounds_iff.mpr ⟨w', hw, hI'.nonneg, hI'.le_max⟩
  · intro w e w' hI hg hfit hw
    obtain ⟨w₂, hw₂, hI'⟩ := counted_step hI hg hfit
    rw [hw] at hw₂
    cases hw₂
    exact hI'

/-- Two clients announce themselves, and the first one leaves. -/
theorem bounds_two_clients :
    let ann := userMemberInfo (str "a0000001") (str "ann")
    let bob := userMemberInfo (str "b0000002") (str "bob")
    let es : List ServerEvent := [.accept 5, .frame 1 (initFrame ann) [] .allOk, .accept 6,
      .frame 2 (initFrame bob) [] .allOk, .hangup 1 (-2) .allOk]
    Meets step InBounds (start 3 gserverInfo) es := by
  intro ann bob es
  have hg : Meets step Gclient (start 3 gserverInfo) es := by decide +kernel
  have hfit : Meets step FitsTable (start 3 gserverInfo) es := by decide +kernel
  exact (bounds_iff 3 gserverInfo es hg).mpr hfit

/-- A client hangs up before it has announced itself; the next one that does is written to
`members[-1]`. -/
theorem bounds_hangup_before_init :
    let es : List ServerEvent := [.accept 5, .hangup 1 (-2) .allOk, .accept 5,
      .frame 1 (initFrame (userMemberInfo (str "a0000001") (str "ann"))) [] .allOk]
    Meets step Gclient (start 3 gserverInfo) es ∧
      exec step (start 3 gserverInfo) es = .error (.memberIndex (-1)) ∧
      ¬ Meets step InBounds (start 3 gserverInfo) es :=
  ⟨by decide +kernel, rfl, by decide +kernel⟩

end World

end SocketSpeak
