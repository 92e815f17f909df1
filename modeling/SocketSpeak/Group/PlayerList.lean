import SocketSpeak.CLib.LinkedList
import SocketSpeak.Group.Game

/-!
# The list of players on the heap

`hangman_users_list` is a linked list of nodes from `malloc`. The server has it as a list of uids
(`hangmanUsersList`); here its functions work on the nodes, and a server that keeps both runs
without a fault: no node is used that has been freed, every loop ends, and when a game is over no
node is left.
-/

namespace SocketSpeak
open CLib Sys

/-- `hangman_users_list`, with the nodes that are allocated. -/
structure PlayerList where
  cells : Cells (CharArray (UID_LENGTH + 1))
  head : Option Nat

namespace PlayerList
variable (n : Nat) (l : PlayerList)

def empty : PlayerList := ⟨fun _ => none, none⟩

/-- `add_user`, where `malloc` gives `block` -/
def addUser (block : Option Nat) (uid : Bytes) : PlayerList :=
  match block with
  | none => l
  | some a => ⟨Function.update l.cells a (some ⟨.copyStr _ uid, l.head⟩), some a⟩

/-- `remove_user` -/
def removeUser (uid : Bytes) : Except MemFault PlayerList := do
  match ← l.cells.seek (fun u => u.toStr = uid) n none l.head with
  | none => return l
  | some (previous, current, node) =>
    match previous with
    | none => return ⟨← l.cells.free current, node.next⟩
    | some b =>
      let cells ← l.cells.store b { ← l.cells.load b with next := node.next }
      return ⟨← cells.free current, l.head⟩

def freeUsers : Except MemFault PlayerList := do
  return ⟨← l.cells.freeAll n l.head, none⟩

def userInList (uid : Bytes) : Except MemFault Bool := do
  return (← l.cells.seek (fun u => u.toStr = uid) n none l.head).isSome

/-- What `print_user_list` prints, and what the loop over the players goes through. -/
def uids : Except MemFault (List Bytes) :=
  (l.cells.values n l.head).map fun us => us.map CharArray.toStr

/-- The nodes are those of the uids `us`, and there are no others. -/
def Holds (us : List Bytes) : Prop := ∃ nodes, Linked l.cells l.head nodes ∧
  nodes.map (fun x => x.2.toStr) = us ∧ ∀ a, (l.cells a).isSome ↔ a ∈ nodes.map Prod.fst

variable {n l} {us : List Bytes}

theorem holds_empty : empty.Holds [] :=
  ⟨[], .null _, rfl, fun a => by simp [empty]⟩

theorem Holds.uids_eq (hl : l.Holds us) (hn : us.length ≤ n) : l.uids n = .ok us := by
  obtain ⟨nodes, hlinked, rfl, -⟩ := hl
  rw [List.length_map] at hn
  rw [uids, hlinked.chain.values_eq hn]
  exact congrArg Except.ok (List.map_map ..)

theorem holds_addUser (hl : l.Holds us) {a : Nat} (ha : l.cells a = none) {uid : Bytes}
    (huid : NulFree uid) : (l.addUser (some a) uid).Holds (Server.addUser us uid) := by
  obtain ⟨nodes, hlinked, rfl, hlive⟩ := hl
  refine ⟨_, hlinked.push ha _, ?_, fun b => ?_⟩
  · rw [List.map_cons, CharArray.toStr_copyStr (Nat.succ_pos _), huid.cstr_eq]
    rfl
  · simp only [addUser, Function.update_apply, List.map_cons, List.mem_cons, ← hlive]
    by_cases hb : b = a <;> simp [hb]

/-- The node that `strcmp` finds first. -/
theorem exists_first {nodes : List (Nat × CharArray (UID_LENGTH + 1))} {uid : Bytes}
    (h : uid ∈ nodes.map fun x => x.2.toStr) : ∃ l₁ a v l₂, nodes = l₁ ++ (a, v) :: l₂ ∧
      (∀ x ∈ l₁, ¬ decide (x.2.toStr = uid)) ∧ v.toStr = uid ∧
      (nodes.map fun x => x.2.toStr).erase uid = (l₁ ++ l₂).map fun x => x.2.toStr := by
  obtain ⟨u₁, u₂, hnot, heq, herase⟩ := List.exists_erase_eq h
  obtain ⟨l₁, l', rfl, rfl, h'⟩ := List.map_eq_append_iff.mp heq
  obtain ⟨⟨a, v⟩, l₂, rfl, hv, rfl⟩ := List.map_eq_cons_iff.mp h'
  refine ⟨l₁, a, v, l₂, rfl, fun x hx h => hnot ?_, hv, by rw [herase, List.map_append]⟩
  exact of_decide_eq_true h ▸ List.mem_map_of_mem hx

theorem Holds.seek_none (hl : l.Holds us) (hn : us.length ≤ n) {uid : Bytes} (huid : uid ∉ us)  :
    l.cells.seek (fun u => u.toStr = uid) n none l.head = .ok none := by
  obtain ⟨nodes, hlinked, rfl, -⟩ := hl
  rw [List.length_map] at hn
  refine hlinked.chain.seek_none (fun x hx h => huid ?_) hn none
  exact of_decide_eq_true h ▸ List.mem_map_of_mem hx

theorem Holds.userInList_eq (hl : l.Holds us) (hn : us.length ≤ n) (uid : Bytes) :
    l.userInList n uid = .ok (Server.userInList us uid) := by
  by_cases huid : uid ∈ us
  · obtain ⟨nodes, hlinked, rfl, -⟩ := hl
    obtain ⟨l₁, a, v, l₂, rfl, hfirst, hv, -⟩ := exists_first huid
    obtain ⟨m, h₁, h₂⟩ := Chain.append_iff.mp hlinked.chain
    cases h₂ with
    | cons ha h₂ =>
      rw [List.length_map, List.length_append, List.length_cons] at hn
      rw [userInList, h₁.seek_some ha hfirst (decide_eq_true hv) (by omega), Server.userInList,
        List.contains_iff_mem.mpr huid]
      rfl
  · rw [userInList, hl.seek_none hn huid, Server.userInList,
      Bool.eq_false_iff.mpr (mt List.contains_iff_mem.mp huid)]
    rfl

/-- The node at `a`, and no other one, is no longer there. -/
theorem live_of_free {cells cells' : Cells (CharArray (UID_LENGTH + 1))} {a : Nat}
    (l₁ : List (Nat × CharArray (UID_LENGTH + 1)))
    {l₂ : List (Nat × CharArray (UID_LENGTH + 1))} {v : CharArray (UID_LENGTH + 1)}
    (hlive : ∀ b, (cells b).isSome ↔ b ∈ (l₁ ++ (a, v) :: l₂).map Prod.fst)
    (hnd : ((l₁ ++ (a, v) :: l₂).map Prod.fst).Nodup) (ha : cells' a = none)
    (hother : ∀ b, b ≠ a → ((cells' b).isSome ↔ (cells b).isSome)) (b : Nat) :
    (cells' b).isSome ↔ b ∈ (l₁ ++ l₂).map Prod.fst := by
  simp only [List.map_append, List.map_cons] at hlive hnd ⊢
  have hnot := (List.nodup_cons.mp (List.nodup_middle.mp hnd)).1
  by_cases hb : b = a
  · rw [hb, ha]
    exact iff_of_false Bool.false_ne_true hnot
  · rw [hother b hb, hlive, List.mem_append, List.mem_append, List.mem_cons, or_iff_right hb]

/-- Relinking a node allocates and frees none. -/
theorem isSome_relink {cells : Cells (CharArray (UID_LENGTH + 1))} {a b c : Nat}
    {x y : Cell (CharArray (UID_LENGTH + 1))} (hb : cells b = some x) (hc : c ≠ a) :
    (Function.update (Function.update cells b (some y)) a none c).isSome ↔
      (cells c).isSome := by
  rw [Function.update_of_ne hc, Function.update_apply]
  split
  · rename_i hcb
    rw [hcb, hb]
    exact iff_of_true rfl rfl
  · rfl

section
variable {a b : Nat} {v w : CharArray (UID_LENGTH + 1)} {next : Option Nat} {uid : Bytes}
  {l₁ l₂ : List (Nat × CharArray (UID_LENGTH + 1))}

theorem removeUser_first (hlinked : Linked l.cells l.head ((a, v) :: l₂))
    (hlive : ∀ b, (l.cells b).isSome ↔ b ∈ ((a, v) :: l₂).map Prod.fst)
    (ha : l.cells a = some ⟨v, next⟩)
    (hseek : l.cells.seek (fun u => u.toStr = uid) n none l.head =
      .ok (some (none, a, ⟨v, next⟩))) :
    ∃ l', l.removeUser n uid = .ok l' ∧ l'.Holds (l₂.map fun x => x.2.toStr) := by
  obtain ⟨next', ha', -, hrest⟩ := hlinked.pop
  rw [ha] at ha'
  cases ha'
  refine ⟨⟨Function.update l.cells a none, next⟩, ?_, l₂, hrest, rfl, ?_⟩
  · simp only [removeUser, hseek, ok_bind, Cells.free, ha]
    rfl
  · exact live_of_free [] hlive hlinked.nodup (Function.update_self ..)
      fun b hb => by simp only [Function.update_of_ne hb]

theorem removeUser_behind (hlinked : Linked l.cells l.head (l₁ ++ (b, w) :: (a, v) :: l₂))
    (hlive : ∀ c, (l.cells c).isSome ↔ c ∈ (l₁ ++ (b, w) :: (a, v) :: l₂).map Prod.fst)
    (ha : l.cells a = some ⟨v, next⟩)
    (hseek : l.cells.seek (fun u => u.toStr = uid) n none l.head =
      .ok (some (some b, a, ⟨v, next⟩))) :
    ∃ l', l.removeUser n uid = .ok l' ∧
      l'.Holds ((l₁ ++ (b, w) :: l₂).map fun x => x.2.toStr) := by
  obtain ⟨next', hb, ha', hne, hrest⟩ := hlinked.unlink
  rw [ha] at ha'
  cases ha'
  refine ⟨⟨Function.update (Function.update l.cells b (some ⟨w, next⟩)) a none, l.head⟩, ?_, _,
    hrest, rfl, ?_⟩
  · have ha' : Function.update l.cells b (some ⟨w, next⟩) a = some ⟨v, next⟩ := by
      rw [Function.update_of_ne hne, ha]
    simp only [removeUser, hseek, ok_bind, Cells.load, Cells.store, Cells.free, hb, ha']
    rfl
  · have hsplit : ∀ l : List (Nat × CharArray (UID_LENGTH + 1)),
        l₁ ++ (b, w) :: l = (l₁ ++ [(b, w)]) ++ l := by simp
    rw [hsplit] at hlive ⊢
    have hnd := hlinked.nodup
    rw [hsplit] at hnd
    exact live_of_free _ hlive hnd (Function.update_self ..) fun c hc => isSome_relink hb hc

end

theorem Holds.removeUser_ok (hl : l.Holds us) (hn : us.length ≤ n) (uid : Bytes) :
    ∃ l', l.removeUser n uid = .ok l' ∧ l'.Holds (Server.removeUser us uid) := by
  by_cases huid : uid ∈ us
  · obtain ⟨nodes, hlinked, rfl, hlive⟩ := hl
    obtain ⟨l₁, a, v, l₂, rfl, hfirst, hv, herase⟩ := exists_first huid
    obtain ⟨m, h₁, h₂⟩ := Chain.append_iff.mp hlinked.chain
    rw [List.length_map, List.length_append, List.length_cons] at hn
    rw [Server.removeUser, herase]
    cases h₂ with
    | cons ha h₂ =>
      have hseek := h₁.seek_some (P := fun u => u.toStr = uid) (n := n) ha hfirst
        (decide_eq_true hv) (by omega) none
      rcases List.eq_nil_or_concat l₁ with rfl | ⟨l₁, ⟨b, w⟩, rfl⟩
      · exact removeUser_first hlinked hlive ha hseek
      · simp only [List.concat_eq_append, List.append_assoc, List.singleton_append,
          List.getLast?_concat] at hlinked hlive hseek ⊢
        exact removeUser_behind hlinked hlive ha hseek
  · refine ⟨l, ?_, ?_⟩
    · rw [removeUser, hl.seek_none hn huid]
      rfl
    · rwa [Server.removeUser, List.erase_of_not_mem huid]

theorem Holds.freeUsers_ok (hl : l.Holds us) (hn : us.length ≤ n) :
    ∃ l', l.freeUsers n = .ok l' ∧ l'.Holds [] := by
  obtain ⟨nodes, hlinked, rfl, hlive⟩ := hl
  rw [List.length_map] at hn
  refine ⟨_, by rw [freeUsers, hlinked.freeAll_eq hn]; rfl, [], .null _, rfl, fun a => ?_⟩
  simp only [List.map_nil, List.not_mem_nil, iff_false]
  split
  · exact Bool.false_ne_true
  · rename_i ha
    rwa [hlive]

end PlayerList

/-! ## The calls of the server -/

/-- A call that changes the list; `block` is what `malloc` returns. -/
inductive PlayerCall where
  | addUser (uid : Bytes) (block : Option Nat)
  | removeUser (uid : Bytes)
  | freeUsers

namespace PlayerCall

/-- The list of uids after the call. -/
def apply : PlayerCall → List Bytes → List Bytes
  | .addUser uid (some _), us => Server.addUser us uid
  | .addUser _ none, us => us
  | .removeUser uid, us => Server.removeUser us uid
  | .freeUsers, _ => []

/-- There is no block for the player. -/
def Fails : PlayerCall → Prop
  | .addUser _ none => True
  | _ => False

instance : DecidablePred Fails
  | .addUser _ none => .isTrue trivial
  | .addUser _ (some _) | .removeUser _ | .freeUsers => .isFalse fun h => h

theorem apply_of_fails {c : PlayerCall} (h : c.Fails) (us : List Bytes) : c.apply us = us := by
  match c, h with
  | .addUser _ none, _ => rfl

theorem length_apply_le (c : PlayerCall) (us : List Bytes) :
    (c.apply us).length ≤ us.length + 1 := by
  cases c with
  | addUser uid block =>
    cases block with
    | none => exact Nat.le_succ _
    | some => exact Nat.le_refl _
  | removeUser uid => exact Nat.le_trans List.length_erase_le (Nat.le_succ _)
  | freeUsers => exact Nat.zero_le _

end PlayerCall

namespace PlayerList

def perform (n : Nat) (l : PlayerList) : PlayerCall → Except MemFault PlayerList
  | .addUser uid block => .ok (l.addUser block uid)
  | .removeUser uid => l.removeUser n uid
  | .freeUsers => l.freeUsers n

theorem Holds.perform_ok {n : Nat} {l : PlayerList} {us : List Bytes} (hl : l.Holds us)
    (hn : us.length ≤ n) (c : PlayerCall)
    (hfresh : ∀ uid a, c = .addUser uid (some a) → l.cells a = none ∧ NulFree uid) :
    ∃ l', l.perform n c = .ok l' ∧ l'.Holds (c.apply us) := by
  cases c with
  | addUser uid block =>
    cases block with
    | none => exact ⟨l, rfl, hl⟩
    | some a =>
      obtain ⟨ha, huid⟩ := hfresh uid a rfl
      exact ⟨_, rfl, holds_addUser hl ha huid⟩
  | removeUser uid => exact hl.removeUser_ok hn uid
  | freeUsers => exact hl.freeUsers_ok hn

end PlayerList

namespace Server

/-- The uid in the slot of the client that is handled. -/
def playerUid (s : Server) : ServerEvent → Option Bytes
  | .frame i _ _ _ =>
    match s.group.member (i - 1) with
    | .ok m => some m.uid.toStr
    | .error _ => none
  | _ => none

/-- The call with which the event `e` leads from `s` to `s'`. -/
def playerCall (s s' : Server) (e : ServerEvent) (block : Option Nat) : Option PlayerCall :=
  match s.command e, s.playerUid e with
  | some .start, some uid | some .join, some uid => some (.addUser uid block)
  | some .exit, some uid => some (.removeUser uid)
  | _, _ =>
    if (s.guessed e).isSome ∧ s'.hangman.state = .initial then some .freeUsers else none

theorem playerUid_frame {s : Server} {i : Nat} {f : Frame} {buf : Bytes} {env : Env}
    {m : GroupMember} (hm : s.group.member (i - 1) = .ok m) :
    s.playerUid (.frame i f buf env) = some m.uid.toStr := by
  simp only [playerUid, hm]

/-- Where there is no block for the player, the list stays as it is. -/
def afterCall (s s' : Server) (c : PlayerCall) : Server :=
  if c.Fails then { s' with hangmanUsersList := s.hangmanUsersList } else s'

variable {s s' : Server} {e : ServerEvent} {out : List Output} {block : Option Nat}

theorem playerCall_none (hc : s.command e = none) : s.playerCall s' e block =
    if (s.guessed e).isSome ∧ s'.hangman.state = .initial then some .freeUsers else none := by
  simp only [playerCall, hc]

theorem nulFree_of_playerCall {uid : Bytes} {b : Option Nat}
    (h : s.playerCall s' e block = some (.addUser uid b)) : NulFree uid ∧ b = block := by
  have huid : ∀ u, s.playerUid e = some u → NulFree u := by
    intro u hu
    cases e with
    | frame i f buf env =>
      simp only [playerUid] at hu
      split at hu
      · cases hu
        exact cstr_nulFree _
      · cases hu
    | accept | hangup => cases hu
  unfold playerCall at h
  split at h
  · rename_i u hu
    cases h
    exact ⟨huid _ hu, rfl⟩
  · rename_i u hu
    cases h
    exact ⟨huid _ hu, rfl⟩
  · cases h
  · split at h <;> cases h

theorem not_fails_of_isSome {c : PlayerCall} (h : s.playerCall s' e block = some c)
    (hb : block.isSome) : ¬ c.Fails := by
  cases c with
  | addUser uid b =>
    obtain ⟨-, rfl⟩ := nulFree_of_playerCall h
    cases b with
    | none => cases hb
    | some => exact id
  | removeUser | freeUsers => exact id

/-- A call makes of the list what the server has for it. -/
theorem players_of_step (h : s.step e = .ok (out, s')) (block : Option Nat) :
    (s.playerCall s' e block = none → s'.hangmanUsersList = s.hangmanUsersList) ∧
      ∀ c, s.playerCall s' e block = some c → ¬ c.Fails →
        s'.hangmanUsersList = c.apply s.hangmanUsersList := by
  have hadd : ∀ {uid : Bytes}, s'.hangmanUsersList = addUser s.hangmanUsersList uid →
      s.playerCall s' e block = some (.addUser uid block) →
      (s.playerCall s' e block = none → s'.hangmanUsersList = s.hangmanUsersList) ∧
        ∀ c, s.playerCall s' e block = some c → ¬ c.Fails →
          s'.hangmanUsersList = c.apply s.hangmanUsersList := by
    intro uid husers hcall
    rw [hcall]
    refine ⟨fun h => (by cases h), fun c hc hok => ?_⟩
    cases hc
    cases block with
    | none => exact absurd trivial hok
    | some a => exact husers
  cases gameStep_of_step h with
  | other hc hg _ husers =>
    rw [playerCall_none hc, hg, if_neg fun h => Bool.false_ne_true h.1]
    exact ⟨fun _ => husers, fun c h => (by cases h)⟩
  | start i f buf env m he hc hm _ _ husers | join i f buf env m he hc hm _ _ husers =>
    subst he
    exact hadd husers (by simp only [playerCall, hc, playerUid_frame hm])
  | exit i f buf env m he hc hm _ husers =>
    subst he
    simp only [playerCall, hc, playerUid_frame hm]
    exact ⟨fun h => (by cases h), fun c h _ => (by cases h; exact husers)⟩
  | guess i f buf env m c response he hg hm _ _ _ husers =>
    have hc : s.command e = none := by
      by_contra hc
      rw [guessed_of_command hc] at hg
      cases hg
    rw [playerCall_none hc, hg, husers]
    by_cases hstate : s'.hangman.state = .initial
    · rw [if_pos hstate, if_pos ⟨rfl, hstate⟩]
      exact ⟨fun h => (by cases h), fun c h _ => (by cases h; rfl)⟩
    · rw [if_neg hstate, if_neg fun h => hstate h.2]
      exact ⟨fun _ => rfl, fun c h => (by cases h)⟩

end Server

/-! ## The server with the nodes -/

/-- The server, and the nodes that it has for its players. -/
structure HeapServer where
  server : Server
  players : PlayerList

/-- What the server handles, and what `malloc` returns if it is called. -/
structure HeapEvent where
  event : ServerEvent
  block : Option Nat

inductive HeapFault where
  | server (f : Fault)
  | memory (f : MemFault)

namespace HeapServer

def start (listener : Int) (info : GroupInfo) : HeapServer :=
  ⟨.start listener info, .empty⟩

/-- The server handles an event. A loop over the nodes has `n` iterations. -/
def step (n : Nat) (h : HeapServer) (e : HeapEvent) : Except HeapFault HeapServer :=
  match h.server.step e.event with
  | .error f => .error (.server f)
  | .ok (_, s) =>
    match h.server.playerCall s e.event e.block with
    | none => .ok ⟨s, h.players⟩
    | some c =>
      match h.players.perform n c with
      | .error f => .error (.memory f)
      | .ok players => .ok ⟨h.server.afterCall s c, players⟩

/-- `malloc` returns no block that is in use. -/
def Mallocs (h : HeapServer) (e : HeapEvent) : Prop := ∀ a ∈ e.block, h.players.cells a = none

instance (h : HeapServer) (e : HeapEvent) : Decidable (h.Mallocs e) :=
  decidable_of_iff (∀ a ∈ e.block, (h.players.cells a).isNone)
    (forall₂_congr fun _ _ => Option.isNone_iff_eq_none)

/-- The nodes are the list of the server: the loops over them find it, and there is one for each
entry and no other one. -/
structure Kept (n : Nat) (h : HeapServer) : Prop where
  uids : h.players.uids n = .ok h.server.hangmanUsersList
  userInList : ∀ uid, h.players.userInList n uid =
    .ok (Server.userInList h.server.hangmanUsersList uid)
  nodes : ∃ blocks : List Nat, blocks.Nodup ∧
    blocks.length = h.server.hangmanUsersList.length ∧
      ∀ a, (h.players.cells a).isSome ↔ a ∈ blocks

variable {n : Nat} {h h' : HeapServer} {e : HeapEvent}

theorem kept_of_holds (hl : h.players.Holds h.server.hangmanUsersList)
    (hn : h.server.hangmanUsersList.length ≤ n) : h.Kept n := by
  refine ⟨hl.uids_eq hn, hl.userInList_eq hn, ?_⟩
  obtain ⟨nodes, hlinked, hus, hlive⟩ := hl
  refine ⟨_, hlinked.nodup, ?_, hlive⟩
  rw [← hus, List.length_map, List.length_map]

/-- The nodes of the next state, and that there is one. -/
theorem holds_step (hl : h.players.Holds h.server.hangmanUsersList)
    (hn : h.server.hangmanUsersList.length ≤ n) (hm : h.Mallocs e) {out : List Output}
    {s : Server} (hs : h.server.step e.event = .ok (out, s)) :
    ∃ h', h.step n e = .ok h' ∧ h'.players.Holds h'.server.hangmanUsersList ∧
      h'.server.hangmanUsersList.length ≤ h.server.hangmanUsersList.length + 1 ∧
      (e.block.isSome → h'.server = s) := by
  obtain ⟨hnone, hsome⟩ := Server.players_of_step hs e.block
  cases hc : h.server.playerCall s e.event e.block with
  | none =>
    refine ⟨⟨s, h.players⟩, by simp only [step, hs, hc], ?_, ?_, fun _ => rfl⟩
    · rwa [hnone hc]
    · rw [hnone hc]
      exact Nat.le_succ _
  | some c =>
    have hfresh : ∀ uid a, c = .addUser uid (some a) →
        h.players.cells a = none ∧ NulFree uid := by
      rintro uid a rfl
      obtain ⟨huid, hb⟩ := Server.nulFree_of_playerCall hc
      exact ⟨hm a hb.symm, huid⟩
    obtain ⟨players, hp, hl'⟩ := hl.perform_ok hn c hfresh
    have husers : (h.server.afterCall s c).hangmanUsersList =
        c.apply h.server.hangmanUsersList := by
      unfold Server.afterCall
      by_cases hfail : c.Fails
      · rw [if_pos hfail, PlayerCall.apply_of_fails hfail]
      · rw [if_neg hfail, hsome c hc hfail]
    refine ⟨⟨h.server.afterCall s c, players⟩, by simp only [step, hs, hc, hp], ?_, ?_,
      fun hb => if_neg ?_⟩
    · rwa [husers]
    · rw [husers]
      exact c.length_apply_le _
    · exact Server.not_fails_of_isSome hc hb

theorem holds_start (listener : Int) (info : GroupInfo) :
    (start listener info).players.Holds (start listener info).server.hangmanUsersList :=
  PlayerList.holds_empty

/-- A run from a state in which the list is kept. -/
theorem holds_run {es : List HeapEvent} (hl : h.players.Holds h.server.hangmanUsersList)
    (hn : h.server.hangmanUsersList.length + es.length ≤ n) (hm : Meets (step n) Mallocs h es) :
    (∀ f, exec (step n) h es ≠ .error (.memory f)) ∧
      ∀ h', exec (step n) h es = .ok h' →
        h'.players.Holds h'.server.hangmanUsersList ∧ h'.server.hangmanUsersList.length ≤ n := by
  induction es generalizing h with
  | nil =>
    refine ⟨fun f hf => (by cases hf), fun h' hh' => ?_⟩
    cases hh'
    exact ⟨hl, hn⟩
  | cons e es ih =>
    rw [List.length_cons] at hn
    cases hs : h.server.step e.event with
    | error f =>
      have hstep : step n h e = .error (.server f) := by simp only [step, hs]
      simp only [exec, hstep]
      exact ⟨fun f hf => (by cases hf), fun h' hh' => (by cases hh')⟩
    | ok r =>
      obtain ⟨h₁, h₁step, hl₁, hlen, -⟩ := holds_step (n := n) hl (by omega) hm.1 hs
      simp only [exec, h₁step]
      exact ih hl₁ (by omega) (hm.cons h₁step).2

/-- If there is a block for every player, the server is the one without nodes. -/
theorem server_of_exec {es : List HeapEvent} (hl : h.players.Holds h.server.hangmanUsersList)
    (hn : h.server.hangmanUsersList.length + es.length ≤ n) (hm : Meets (step n) Mallocs h es)
    (hb : ∀ e ∈ es, e.block.isSome) (hh : exec (step n) h es = .ok h') :
    exec (fun s e => (s.step e).map Prod.snd) h.server (es.map HeapEvent.event) =
      .ok h'.server := by
  induction es generalizing h with
  | nil => cases hh; rfl
  | cons e es ih =>
    rw [List.length_cons] at hn
    obtain ⟨m, hstep, hh⟩ := exec_cons_ok.mp hh
    cases hs : h.server.step e.event with
    | error f =>
      simp only [step, hs] at hstep
      cases hstep
    | ok r =>
      obtain ⟨h₁, h₁step, hl₁, hlen, hserver⟩ := holds_step (n := n) hl (by omega) hm.1 hs
      rw [hstep] at h₁step
      cases h₁step
      rw [List.map_cons, exec_cons_ok]
      refine ⟨m.server, ?_, ih hl₁ (by omega) (hm.cons hstep).2
        (fun e he => hb e (List.mem_cons_of_mem _ he)) hh⟩
      rw [hs, hserver (hb e List.mem_cons_self)]
      rfl

/-- **The list of players is safe.** In every run of the server in which `malloc`, where it has a
block, has one that is not in use, no loop over the nodes goes on for ever and none of them meets a
node that has been freed; the nodes are the list that the server has, and no other node is left. -/
theorem kept_of_run (listener : Int) (info : GroupInfo) (n : Nat) (es : List HeapEvent)
    (hn : es.length ≤ n) (hm : Meets (step n) Mallocs (start listener info) es) :
    (∀ f, exec (step n) (start listener info) es ≠ .error (.memory f)) ∧
      ∀ h, exec (step n) (start listener info) es = .ok h → h.Kept n ∧
        ((∀ e ∈ es, e.block.isSome) →
          exec (fun s e => (s.step e).map Prod.snd) (Server.start listener info)
            (es.map HeapEvent.event) = .ok h.server) := by
  have hl := holds_start listener info
  have hn' : (start listener info).server.hangmanUsersList.length + es.length ≤ n :=
    Nat.le_trans (Nat.le_of_eq (Nat.zero_add _)) hn
  obtain ⟨hsafe, hrun⟩ := holds_run hl hn' hm
  refine ⟨hsafe, fun h hh => ⟨?_, fun hb => server_of_exec hl hn' hm hb hh⟩⟩
  obtain ⟨hl', hlen⟩ := hrun h hh
  exact kept_of_holds hl' hlen

/-- Bob joins ann's game; her node, which is behind his, is freed, then there is no block for her,
and at last there is the one that she had. -/
def annRejoins : List HeapEvent :=
  let hangman (i : Nat) (text : String) : ServerEvent :=
    .frame i (lmpFrame LMP_GRP_HANGMAN (str text)) [] .allOk
  let ann := userMemberInfo (str "a0000001") (str "ann")
  let bob := userMemberInfo (str "b0000002") (str "bob")
  [⟨.accept 5, none⟩, ⟨.frame 1 (initFrame ann) [] .allOk, none⟩,
    ⟨.accept 6, none⟩, ⟨.frame 2 (initFrame bob) [] .allOk, none⟩,
    ⟨hangman 1 "start", some 40⟩, ⟨hangman 2 "join", some 64⟩, ⟨hangman 1 "exit", none⟩,
    ⟨hangman 1 "join", none⟩, ⟨hangman 1 "join", some 40⟩]

theorem kept_of_run_annRejoins :
    ∃ h, exec (step 9) (start 3 gserverInfo) annRejoins = .ok h ∧ h.players.head = some 40 ∧
      h.server.hangmanUsersList = [str "a0000001", str "b0000002"] ∧ h.Kept 9 := by
  have hrun : (exec (step 9) (start 3 gserverInfo) annRejoins).isOk := by decide +kernel
  have hm : Meets (step 9) Mallocs (start 3 gserverInfo) annRejoins := by decide +kernel
  obtain ⟨h, hh, hhead, husers⟩ := exists_ok (P := fun h => h.players.head = some 40 ∧
    h.server.hangmanUsersList = [str "a0000001", str "b0000002"]) hrun (by decide +kernel)
  have hn : annRejoins.length ≤ 9 := by decide
  exact ⟨h, hh, hhead, husers, ((kept_of_run 3 gserverInfo 9 annRejoins hn hm).2 h hh).1⟩

end HeapServer

end SocketSpeak
