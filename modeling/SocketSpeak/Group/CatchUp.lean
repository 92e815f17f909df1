import SocketSpeak.Group.Forgery
import SocketSpeak.Group.LoadNet
import SocketSpeak.Group.TotalOrder

/-!
# Catching up

A client that comes late can load what the others have said before. The answer to its request is
sent on the connection on which messages are relayed, so the server, which saves a message before it
relays it, cuts the messages in two: those that it has saved when it handles the request are loaded,
and the others come after the end of the load. Nothing is missed between them (`caught_of_run`).
-/

namespace SocketSpeak
open CLib Sys HistoryFile Sequencer

/-- A message that the server relays: the frame that the others are sent, and the uid in the slot of
its sender. -/
structure Post where
  frame : Frame
  uid : Bytes
  deriving DecidableEq

namespace Post

/-- What is saved. -/
def record (p : Post) : Bytes × Bytes := (p.uid, cstr p.frame.payload)

def line (p : Post) : Bytes := HistoryFile.line p.record.1 p.record.2

end Post

/-- A load that has come to its end: how many messages had been relayed when the request was
handled, the lines that were shown, and the messages that have been received since. -/
structure Caught where
  cut : Nat
  loaded : List Bytes
  live : List Frame
  deriving DecidableEq

/-- The messages among the frames. -/
def spoken (fs : List Frame) : List Frame := fs.filter fun f => f.type = LMP_MSG

/-- What follows the end of the load that is under way. -/
def afterLoad : List Frame → Option (List Frame)
  | [] => none
  | f :: fs => if f.type = LMP_GRP_LOAD_MSG then some fs else afterLoad fs

namespace LoadNet

/-- The message that the server relays with the event, and the connection that it comes from. -/
def posted (n : LoadNet) : LoadEvent → Option (Int × Post)
  | .group (.serve k buf env) =>
    match n.net.chatServed (.serve k buf env), n.net.world.server.group.member k with
    | some e, .ok m => if e.2.type = LMP_MSG then some (e.1, ⟨e.2, m.uid.toStr⟩) else none
    | _, _ => none
  | _ => none

/-- The file can be opened, and what is relayed is saved as one line. -/
def Saves (n : LoadNet) : LoadEvent → Prop
  | .group (.serve k buf env) => env.historyOpens = true ∧
    ∀ e ∈ n.posted (.group (.serve k buf env)),
      e.2.uid.length = UID_LENGTH ∧ Plain e.2.record
  | _ => True

instance (n : LoadNet) : ∀ e, Decidable (n.Saves e)
  | .group (.serve k buf env) => inferInstanceAs (Decidable (_ ∧
      ∀ e ∈ n.posted (.group (.serve k buf env)), _))
  | .group (.accept ..) | .group (.typed ..) | .group (.hangup ..) | .group (.deliver ..)
  | .group (.drain ..) | .send .. => .isTrue trivial

end LoadNet

/-- The group, the messages that have been relayed, and for each client how many they were when its
latest request was handled, and its latest load. -/
structure CatchUp where
  loads : LoadNet
  log : List (Int × Post)
  mark : Int → Nat
  caught : Int → Option Caught

namespace CatchUp

/-- The server starts with a history of these records. -/
def start (listener : Int) (info : GroupInfo) (old : List (Bytes × Bytes)) : CatchUp where
  loads :=
    let n := LoadNet.start listener info
    { n with net.world.server.history := ⟨(old.map fun m => line m.1 m.2).flatten, 0⟩ }
  log := []
  mark _ := 0
  caught _ := none

def conns (c : CatchUp) : List Int := c.loads.net.conns

/-- The frames under way to the client on `fd`. -/
def down (c : CatchUp) (fd : Int) : List Frame := (c.loads.net.link fd).down.map Sent.frame

def markAfter (c : CatchUp) : LoadEvent → Int → Nat
  | .group (.serve k _ _) =>
    match c.conns[k]? with
    | none => c.mark
    | some fd =>
      if (c.loads.user fd).up.head?.map Frame.type = some LMP_GRP_LOAD_MSG then
        Function.update c.mark fd c.log.length
      else c.mark
  | _ => c.mark

/-- The latest load of the client on `fd` after the next frame. -/
def next (c : CatchUp) (fd : Int) : Option Caught :=
  match c.down fd with
  | [] => c.caught fd
  | f :: _ =>
    if f.type = LMP_GRP_LOAD_MSG then some ⟨c.mark fd, c.loads.shown fd, []⟩
    else (c.caught fd).map fun x => { x with live := x.live ++ spoken [f] }

def caughtAfter (c : CatchUp) : LoadEvent → Int → Option Caught
  | .group (.accept fd _ _) => Function.update c.caught fd none
  | .group (.deliver fd _ _) => Function.update c.caught fd (c.next fd)
  | _ => c.caught

def step (c : CatchUp) (e : LoadEvent) : Except Stop CatchUp :=
  (c.loads.step e).map fun n =>
    ⟨n, c.log ++ (c.loads.posted e).toList, c.markAfter e, c.caughtAfter e⟩

end CatchUp

/-! ## What a client has got -/

/-- The lines of the history when `k` messages of the log have been relayed, and those of `old` were
saved before. -/
def linesAt (old : List (Bytes × Bytes)) (log : List (Int × Post)) (k : Nat) : List Bytes :=
  (old ++ (log.take k).map fun e => e.2.record).map fun m => line m.1 m.2

theorem linesAt_append (old : List (Bytes × Bytes)) {log : List (Int × Post)} {k : Nat}
    (hk : k ≤ log.length) (es : List (Int × Post)) :
    linesAt old (log ++ es) k = linesAt old log k := by
  rw [linesAt, linesAt, List.take_append_of_le_length hk]

@[simp] theorem spoken_append (fs fs' : List Frame) :
    spoken (fs ++ fs') = spoken fs ++ spoken fs' := List.filter_append ..

theorem spoken_eq_nil {fs : List Frame} (h : ∀ f ∈ fs, f.type ≠ LMP_MSG) : spoken fs = [] :=
  List.filter_eq_nil_iff.mpr fun f hf => by simpa using h f hf

theorem spoken_chats (fs : List Frame) : spoken (chats fs) = spoken fs := by
  rw [spoken, chats, List.filter_filter]
  apply List.filter_congr
  intro f _
  by_cases hf : f.type = LMP_MSG
  · have hchat : IsChat LMP_MSG := by decide
    simp [hf, hchat]
  · simp [hf]

theorem afterLoad_of_not {fs : List Frame} (h : ∀ f ∈ fs, f.type ≠ LMP_GRP_LOAD_MSG) :
    afterLoad fs = none := by
  induction fs with
  | nil => rfl
  | cons f fs ih =>
    rw [afterLoad, if_neg (h f List.mem_cons_self)]
    exact ih fun g hg => h g (List.mem_cons_of_mem _ hg)

theorem afterLoad_append {fs gs : List Frame} (h : ∀ g ∈ gs, g.type ≠ LMP_GRP_LOAD_MSG) :
    afterLoad (fs ++ gs) = (afterLoad fs).map (· ++ gs) := by
  induction fs with
  | nil => exact afterLoad_of_not h
  | cons f fs ih =>
    rw [List.cons_append, afterLoad, afterLoad]
    split
    · rfl
    · exact ih

theorem afterLoad_concat {fs : List Frame} (h : ∀ f ∈ fs, f.type ≠ LMP_GRP_LOAD_MSG) {f : Frame}
    (hf : f.type = LMP_GRP_LOAD_MSG) : afterLoad (fs ++ [f]) = some [] := by
  induction fs with
  | nil => rw [List.nil_append, afterLoad, if_pos hf]
  | cons g fs ih =>
    rw [List.cons_append, afterLoad, if_neg (h g List.mem_cons_self)]
    exact ih fun g' hg' => h g' (List.mem_cons_of_mem _ hg')

/-- A load that has ended, or is about to, has the messages up to some point, and the later ones
follow it. -/
structure UpToDate (old : List (Bytes × Bytes)) (log : List (Int × Post)) (fd : Int) (mark : Nat)
    (reads : List Bytes) (caught : Option Caught) (down : List Frame) : Prop where
  answered : ∀ fs ∈ afterLoad down,
    reads = linesAt old log mark ∧ Follows Post.frame fd mark log [] (spoken fs)
  caught : ∀ x ∈ caught,
    x.loaded = linesAt old log x.cut ∧ Follows Post.frame fd x.cut log x.live (spoken down)

namespace UpToDate
variable {old : List (Bytes × Bytes)} {log : List (Int × Post)} {fd : Int} {mark : Nat}
  {reads : List Bytes} {caught : Option Caught} {down ms : List Frame}

theorem accept : UpToDate old log fd mark reads none [] :=
  ⟨fun _ h => (by cases h), fun _ h => (by cases h)⟩

/-- Something is sent that is no message, and not the end of a load. -/
theorem post (h : UpToDate old log fd mark reads caught down)
    (hload : ∀ f ∈ ms, f.type ≠ LMP_GRP_LOAD_MSG) (hms : spoken ms = []) :
    UpToDate old log fd mark reads caught (down ++ ms) := by
  refine ⟨fun fs hfs => ?_, fun x hx => ?_⟩
  · rw [afterLoad_append hload] at hfs
    obtain ⟨fs, hfs', rfl⟩ := Option.map_eq_some_iff.mp hfs
    rw [spoken_append, hms, List.append_nil]
    exact h.answered fs hfs'
  · rw [spoken_append, hms, List.append_nil]
    exact h.caught x hx

/-- A message is relayed. -/
theorem relay (h : UpToDate old log fd mark reads caught down) {e : Int × Post}
    (hload : ∀ f ∈ ms, f.type ≠ LMP_GRP_LOAD_MSG)
    (hms : spoken ms = if e.1 ≠ fd then [e.2.frame] else []) :
    UpToDate old (log ++ [e]) fd mark reads caught (down ++ ms) := by
  refine ⟨fun fs hfs => ?_, fun x hx => ?_⟩
  · rw [afterLoad_append hload] at hfs
    obtain ⟨fs, hfs', rfl⟩ := Option.map_eq_some_iff.mp hfs
    obtain ⟨hreads, hfollows⟩ := h.answered fs hfs'
    rw [linesAt_append old hfollows.le, spoken_append]
    exact ⟨hreads, hfollows.concat hms⟩
  · obtain ⟨hloaded, hfollows⟩ := h.caught x hx
    rw [linesAt_append old hfollows.le, spoken_append]
    exact ⟨hloaded, hfollows.concat hms⟩

/-- A request is answered. -/
theorem answer (h : UpToDate old log fd mark reads caught down)
    (hdown : ∀ f ∈ down, f.type ≠ LMP_GRP_LOAD_MSG) (hms : ∀ f ∈ ms, f.type = LMP_GRP_LOADING_MSG)
    {f : Frame} (hf : f.type = LMP_GRP_LOAD_MSG) :
    UpToDate old log fd log.length (linesAt old log log.length) caught (down ++ (ms ++ [f])) := by
  have hloading : LMP_GRP_LOADING_MSG ≠ LMP_GRP_LOAD_MSG := by decide
  have hspoken : spoken (ms ++ [f]) = [] := by
    apply spoken_eq_nil
    intro g hg
    rcases List.mem_append.mp hg with hg | hg
    · rw [hms g hg]
      decide
    · rw [List.mem_singleton.mp hg, hf]
      decide
  refine ⟨fun fs hfs => ?_, fun x hx => ?_⟩
  · have hnone : ∀ g ∈ down ++ ms, g.type ≠ LMP_GRP_LOAD_MSG := by
      intro g hg
      rcases List.mem_append.mp hg with hg | hg
      · exact hdown g hg
      · rw [hms g hg]
        exact hloading
    rw [← List.append_assoc, afterLoad_concat hnone hf] at hfs
    cases hfs
    exact ⟨rfl, follows_join fd log⟩
  · rw [spoken_append, hspoken, List.append_nil]
    exact h.caught x hx

/-- A frame is received that is not the end of a load. -/
theorem take {f : Frame} (h : UpToDate old log fd mark reads caught (f :: down))
    (hf : f.type ≠ LMP_GRP_LOAD_MSG) : UpToDate old log fd mark reads
      (caught.map fun x => { x with live := x.live ++ spoken [f] }) down := by
  refine ⟨fun fs hfs => h.answered fs ?_, fun x hx => ?_⟩
  · rw [afterLoad, if_neg hf]
    exact hfs
  · obtain ⟨x, hx', rfl⟩ := Option.map_eq_some_iff.mp hx
    obtain ⟨hloaded, hfollows⟩ := h.caught x hx'
    have hnext : Follows Post.frame fd x.cut log x.live (spoken [f] ++ spoken down) := by
      rw [← spoken_append]
      exact hfollows
    exact ⟨hloaded, hnext.take⟩

/-- The end of a load is received, after all its lines. -/
theorem finish {f : Frame} (h : UpToDate old log fd mark reads caught (f :: down))
    (hf : f.type = LMP_GRP_LOAD_MSG) (hdown : ∀ f ∈ down, f.type ≠ LMP_GRP_LOAD_MSG) :
    UpToDate old log fd mark reads (some ⟨mark, reads, []⟩) down := by
  obtain ⟨hreads, hfollows⟩ := h.answered down (by rw [afterLoad, if_pos hf]; rfl)
  refine ⟨fun fs hfs => ?_, fun x hx => ?_⟩
  · rw [afterLoad_of_not hdown] at hfs
    cases hfs
  · cases hx
    exact ⟨hreads, hfollows⟩

end UpToDate

/-! ## What the server relays and saves -/

theorem HistoryFile.lines_of_oneLine {f : HistoryFile} {records : List (Bytes × Bytes)}
    (hcontent : f.content = (records.map fun m => line m.1 m.2).flatten)
    (h : ∀ r ∈ records, OneLine r ∧ r.2.length + 1 < HISTORY_MESSAGE_SIZE) :
    f.lines = records.map fun m => line m.1 m.2 := by
  have hpieces : records.flatMap pieces = records.map fun m => line m.1 m.2 := by
    rw [List.map_eq_flatMap]
    exact List.flatMap_congr fun m hm => (h m hm).1.pieces_of_lt (h m hm).2
  rw [← hpieces, ← lines_records records 0, lines, lines, hcontent]

namespace LoadNet
variable {n n' : LoadNet} {fd : Int} {k : Nat} {f : Frame} {up : List Frame} {buf : Bytes}
  {env : Env} {out : List Output} {s' : Server}

theorem posted_of_ne (hk : n.net.conns[k]? = some fd) (hup : (n.user fd).up = f :: up)
    (hf : f.type ≠ LMP_MSG) : n.posted (.group (.serve k buf env)) = none := by
  have hup' : (n.net.link fd).user.up = f :: up := hup
  simp only [posted]
  split
  · rename_i e m he hm
    have htype : e.2.type = f.type := by
      simp only [GroupNet.chatServed, hk, hup', Server.chatOf] at he
      split at he
      · split at he
        · cases he
          rfl
        · cases he
      · cases he
    rw [if_neg (htype ▸ hf)]
  · rfl

theorem posted_of_msg (hk : n.net.conns[k]? = some fd) (hup : (n.user fd).up = f :: up)
    (hlen : f.payload.length < RECV_BUF_SIZE) (hf : f.type = LMP_MSG) {m : GroupMember}
    (hm : n.net.world.server.group.member k = .ok m) :
    n.posted (.group (.serve k buf env)) =
      (n.net.world.server.chatOf (k + 1) f).map fun g => (fd, ⟨g, m.uid.toStr⟩) := by
  have hup' : (n.net.link fd).user.up = f :: up := hup
  simp only [posted, GroupNet.chatServed, hk, hup', if_pos hlen, hm]
  cases hchat : n.net.world.server.chatOf (k + 1) f with
  | none => rfl
  | some g =>
    have htype : g.type = LMP_MSG := by
      unfold Server.chatOf at hchat
      split at hchat
      · cases hchat
        exact hf
      · cases hchat
    simp [htype]

theorem member_of_msg {s : Server} {i : Nat} (h : s.step (.frame i f buf env) = .ok (out, s'))
    (hf : f.type = LMP_MSG) : ∃ m, s.group.member (i - 1) = .ok m := by
  obtain ⟨fd, -, -, -, hh⟩ := Server.handled_of_frame h
  cases hh with
  | nick m _ hm => exact ⟨m, hm⟩
  | init _ ht =>
    rw [hf] at ht
    exact absurd ht (by decide)
  | relayed _ hmsg =>
    obtain ⟨m, hm, -⟩ := hmsg hf
    exact ⟨m, hm⟩
  | answered m _ hm => exact ⟨m, hm⟩

/-- What the server relays is what it saves. -/
theorem posting (ht : n.net.world.server.TableOk) (hk : n.net.conns[k]? = some fd)
    (hup : (n.user fd).up = f :: up) (hlen : f.payload.length < RECV_BUF_SIZE)
    (h : n.net.world.server.step (.frame (k + 1) f buf env) = .ok (out, s'))
    (hsaves : n.Saves (.group (.serve k buf env))) :
    n.net.world.server.saved (.frame (k + 1) f buf env) =
        (n.posted (.group (.serve k buf env))).map (fun e => e.2.record) ∧
      (∀ e ∈ n.posted (.group (.serve k buf env)), e.1 = fd ∧ OneLine e.2.record) ∧
      ∀ fd' ∈ n.net.conns, env.sendOk fd' → spoken (framesTo fd' out) =
        if fd ≠ fd' then (n.posted (.group (.serve k buf env))).toList.map fun e => e.2.frame
        else [] := by
  have hpoll := ht.pollFd.mpr hk
  have hchats : ∀ fd' ∈ n.net.conns, env.sendOk fd' → spoken (framesTo fd' out) =
      if fd ≠ fd' then spoken (n.net.world.server.chatOf (k + 1) f).toList else [] := by
    intro fd' hfd' hok
    rw [← spoken_chats, Server.chats_of_frame ht hpoll hfd' hok h]
    by_cases hne : fd' = fd
    · simp [hne, spoken]
    · simp [hne, Ne.symm hne]
  by_cases hf : f.type = LMP_MSG
  · have hindex : ((k + 1 : Nat) : Int) - 1 = k := by omega
    obtain ⟨m, hm⟩ : ∃ m, n.net.world.server.group.member k = .ok m := by
      obtain ⟨m, hm⟩ := member_of_msg h hf
      rw [hindex] at hm
      exact ⟨m, hm⟩
    have hposted : n.posted (.group (.serve k buf env)) = _ := posted_of_msg hk hup hlen hf hm
    obtain ⟨hopens, hplain⟩ := hsaves
    rw [hposted] at hplain ⊢
    by_cases hguess : n.net.world.server.IsGuess m
    · have hnone : n.net.world.server.chatOf (k + 1) f = none := by
        apply if_neg
        rw [hindex]
        exact fun h => h.2 ⟨hf, m, by rw [hm]; rfl, hguess⟩
      rw [hnone] at hchats ⊢
      refine ⟨by simp [Server.saved, hf, hopens, hm, hguess], fun _ h => (by cases h), ?_⟩
      simpa [spoken] using hchats
    · have hsome : n.net.world.server.chatOf (k + 1) f =
          some (groupLmpFrame f.type f.payload (((k + 1 : Nat) : Int) - 1)) := by
        apply if_pos
        rw [hindex]
        refine ⟨by rw [hf]; decide, fun h => ?_⟩
        obtain ⟨-, m', hm', hguess'⟩ := h
        rw [hm] at hm'
        cases hm'
        exact hguess hguess'
      rw [hsome] at hchats hplain ⊢
      obtain ⟨huid, hplain⟩ := hplain _ rfl
      refine ⟨?_, fun e he => ?_, ?_⟩
      · have hlt : (cstr f.payload).length < HISTORY_MESSAGE_SIZE := by
          have hfits : (cstr f.payload).length + 1 < HISTORY_MESSAGE_SIZE := hplain.2.2
          omega
        have huid' : m.uid.toStr.length = UID_LENGTH := huid
        simp [Server.saved, hf, hopens, hm, hguess, huid', hlt, Post.record, groupLmpFrame]
      · cases he
        exact ⟨rfl, huid, cstr_nulFree _, hplain.1, cstr_nulFree _, hplain.2.1⟩
      · simpa [spoken, groupLmpFrame, hf] using hchats
  · have hnone : n.posted (.group (.serve k buf env)) = none := posted_of_ne hk hup hf
    rw [hnone]
    refine ⟨by simp [Server.saved, hf], fun _ h => (by cases h), fun fd' hfd' hok => ?_⟩
    rw [hchats fd' hfd' hok]
    have hnot : spoken (n.net.world.server.chatOf (k + 1) f).toList = [] := by
      apply spoken_eq_nil
      intro g hg
      unfold Server.chatOf at hg
      split at hg
      · rw [List.mem_singleton.mp hg]
        exact hf
      · cases hg
    rw [hnot]
    simp

theorem ne_of_loads {fs : List Frame} (h : loads fs = []) :
    ∀ f ∈ fs, f.type ≠ LMP_GRP_LOAD_MSG := by
  intro f hf hload
  exact loads_ne_nil.mpr ⟨f, hf, .inl hload⟩ h

/-- A step of the group, or the main thread of a client does something with a load. -/
theorem step_cases {e : LoadEvent} (h : n.step e = .ok n') :
    (∃ g, e = .group g ∧ n.groupStep g = .ok n') ∨
      ∃ fd u, n'.net = n.net.setLink fd { n.net.link fd with user := u } ∧ n'.reads = n.reads ∧
        ((∃ line env, e = .group (.typed fd line env)) ∨ ∃ env, e = .send fd env) := by
  cases e with
  | send fd env =>
    simp only [step] at h
    split at h
    · split at h
      · cases h
        exact .inr ⟨fd, _, rfl, rfl, .inr ⟨env, rfl⟩⟩
      · cases h
    · cases h
  | group g =>
    cases g with
    | typed fd line env =>
      simp only [step] at h
      split at h
      · split at h
        · cases h
          exact .inr ⟨fd, _, rfl, rfl, .inl ⟨line, env, rfl⟩⟩
        · exact .inl ⟨_, rfl, h⟩
      · cases h
    | _ => exact .inl ⟨_, rfl, h⟩

end LoadNet

namespace CatchUp
variable {old : List (Bytes × Bytes)} {c c' : CatchUp} {fd : Int}

/-! ## Runs -/

structure Sound (old : List (Bytes × Bytes)) (c : CatchUp) : Prop where
  loads : c.loads.Sound
  content : c.loads.net.world.server.history.content =
    ((old ++ c.log.map fun e => e.2.record).map fun m => line m.1 m.2).flatten
  records : ∀ r ∈ old ++ c.log.map fun e => e.2.record,
    OneLine r ∧ r.2.length + 1 < HISTORY_MESSAGE_SIZE
  client : ∀ fd ∈ c.conns,
    UpToDate old c.log fd (c.mark fd) (c.loads.reads fd) (c.caught fd) (c.down fd)

/-- What the server reads for a request are the lines of all that has been relayed. -/
theorem Sound.historyReads (hI : c.Sound old) {env : Env} (hopens : env.historyOpens = true) :
    c.loads.net.world.server.historyReads env = linesAt old c.log c.log.length := by
  rw [Server.historyReads, if_pos hopens, HistoryFile.lines_of_oneLine hI.content hI.records,
    linesAt, List.take_length]

/-- Nothing is relayed or saved, and no load ends. -/
theorem Sound.quiet (hI : c.Sound old) (hloads : c'.loads.Sound)
    (hhistory : c'.loads.net.world.server.history = c.loads.net.world.server.history)
    (hlog : c'.log = c.log)
    (hclient : ∀ fd ∈ c'.conns, fd ∈ c.conns ∧ c'.mark fd = c.mark fd ∧
      c'.loads.reads fd = c.loads.reads fd ∧ c'.caught fd = c.caught fd ∧
      ∃ ms, c'.down fd = c.down fd ++ ms ∧ (∀ f ∈ ms, f.type ≠ LMP_GRP_LOAD_MSG) ∧
        spoken ms = []) : c'.Sound old := by
  refine ⟨hloads, ?_, ?_, fun fd hfd => ?_⟩
  · rw [hhistory, hlog]
    exact hI.content
  · rw [hlog]
    exact hI.records
  · obtain ⟨hold, hmark, hreads, hcaught, ms, hdown, hload, hms⟩ := hclient fd hfd
    rw [hlog, hmark, hreads, hcaught, hdown]
    exact (hI.client fd hold).post hload hms

/-- Something changes on a connection, but not what is under way on it. -/
theorem Sound.setLink (hI : c.Sound old) (hloads : c'.loads.Sound) {u : User}
    (hnet : c'.loads.net = c.loads.net.setLink fd { c.loads.net.link fd with user := u })
    (hlog : c'.log = c.log) (hmark : c'.mark = c.mark) (hreads : c'.loads.reads = c.loads.reads)
    (hcaught : c'.caught = c.caught) : c'.Sound old := by
  refine hI.quiet hloads (by rw [hnet]; rfl) hlog fun fd' hfd' => ?_
  have hold : fd' ∈ c.conns := by
    unfold conns at hfd'
    rw [hnet] at hfd'
    exact hfd'
  refine ⟨hold, by rw [hmark], by rw [hreads], by rw [hcaught], [], ?_, ?_, rfl⟩
  · rw [List.append_nil, down, down, hnet, GroupNet.link_setLink]
    split
    · rename_i he
      rw [he]
    · rfl
  · intro f hf
    cases hf

theorem sound_accept (hI : c.Sound old) (hloads : c'.loads.Sound)
    (hfd : fd ∉ c.loads.net.world.server.listener :: c.loads.net.conns) {m : GroupMember}
    {n₁ : GroupNet} (h : c.loads.net.serverStep (.accept fd) = .ok n₁)
    (hnet : c'.loads.net = n₁.setLink fd (.start m)) (hlog : c'.log = c.log)
    (hmark : c'.mark = c.mark)
    (hreads : c'.loads.reads = Function.update c.loads.reads fd [])
    (hcaught : c'.caught = Function.update c.caught fd none) : c'.Sound old := by
  obtain ⟨out, hs, -⟩ := GroupNet.serverStep_ok h
  obtain ⟨-, -, -, -, hlink, hold⟩ := GroupNet.accept_ok hI.loads.table hfd h
  have hhistory : n₁.world.server.history.content = c.loads.net.world.server.history.content :=
    (Server.content_of_step hs).trans (List.append_nil _)
  refine ⟨hloads, ?_, ?_, fun fd' hfd' => ?_⟩
  · rw [hlog, hnet]
    exact hhistory ▸ hI.content
  · rw [hlog]
    exact hI.records
  · have hdown : c'.down fd' = if fd' = fd then [] else c.down fd' := by
      rw [down, down, hnet, GroupNet.link_setLink, hlink]
      split <;> rfl
    unfold conns at hfd'
    rw [hnet] at hfd'
    rw [hlog, hmark, hreads, hcaught, hdown]
    by_cases hne : fd' = fd
    · rw [if_pos hne, hne, Function.update_self, Function.update_self]
      exact .accept
    · rw [if_neg hne, Function.update_of_ne hne, Function.update_of_ne hne]
      exact hI.client fd' (hold fd' hfd' hne)

/-- A connection is closed; `net` is the group, but for what its client has written. -/
theorem sound_close (hI : c.Sound old) (hloads : c'.loads.Sound) (net : GroupNet)
    (hw : net.world = c.loads.net.world)
    (hdown : ∀ fd, (net.link fd).down = (c.loads.net.link fd).down) {k : Nat} {status : Int}
    {env : Env} (hk : c.loads.net.conns[k]? = some fd)
    (h : net.close fd k status env = .ok c'.loads.net) (hlog : c'.log = c.log)
    (hmark : ∀ fd', fd' ≠ fd → c'.mark fd' = c.mark fd')
    (hreads : ∀ fd', fd' ≠ fd → c'.loads.reads fd' = c.loads.reads fd')
    (hcaught : c'.caught = c.caught) : c'.Sound old := by
  obtain ⟨n₁, h₁, hw', hl, -⟩ := GroupNet.close_ok h
  obtain ⟨out, hs, -, -, hlink⟩ := GroupNet.serverStep_ok h₁
  rw [hw, ← hw'] at hs
  obtain ⟨hlt, hget⟩ := List.getElem?_eq_some_iff.mp hk
  have hout : ∀ o ∈ out, o.frame.type = LMP_GRP_OBJ := by
    rw [(Server.handled_of_hangup hs).2.2.2.2]
    intro o ho
    rw [Server.sendNewGroupToUsers_eq] at ho
    obtain ⟨p, -, ho⟩ := List.mem_flatMap.mp ho
    exact Server.type_of_lmpSend o ho
  refine hI.quiet hloads (Server.handled_of_hangup hs).2.1 hlog fun fd' hfd' => ?_
  have hmem : fd' ∈ c.conns ∧ fd' ≠ fd := by
    have hnd := (List.nodup_cons.mp hI.loads.table.nodup).2
    unfold conns at hfd'
    rw [GroupNet.conns, (Server.conns_of_hangup hI.loads.table hlt hs).2,
      mem_swapRemove hnd hlt] at hfd'
    exact ⟨hfd'.1, hget ▸ hfd'.2⟩
  refine ⟨hmem.1, hmark fd' hmem.2, hreads fd' hmem.2, by rw [hcaught], framesTo fd' out, ?_, ?_,
    ?_⟩
  · rw [down, down, hl, hlink, Link.post, List.map_append, hdown, map_frame_sentTo]
  · intro f hf
    obtain ⟨o, ho, rfl⟩ := List.mem_map.mp hf
    rw [hout o (List.mem_of_mem_filter ho)]
    decide
  · apply spoken_eq_nil
    intro f hf
    obtain ⟨o, ho, rfl⟩ := List.mem_map.mp hf
    rw [hout o (List.mem_of_mem_filter ho)]
    decide

section
variable {k : Nat} {f : Frame} {up : List Frame} {buf : Bytes} {env : Env}

/-- A request is handled. -/
theorem sound_request (hI : c.Sound old) (hloads : c'.loads.Sound)
    (hk : c.loads.net.conns[k]? = some fd) (hup : (c.loads.user fd).up = f :: up)
    (hf : f.type = LMP_GRP_LOAD_MSG) (hok : env.sendOk fd) (hopens : env.historyOpens = true)
    (h : (c.loads.net.read fd up).serverStep (.frame (k + 1) f buf env) = .ok c'.loads.net)
    (hlog : c'.log = c.log) (hmark : c'.mark = Function.update c.mark fd c.log.length)
    (hreads : c'.loads.reads =
      Function.update c.loads.reads fd (c.loads.net.world.server.historyReads env))
    (hcaught : c'.caught = c.caught) : c'.Sound old := by
  obtain ⟨out, hs, -, -, hlink⟩ := GroupNet.serverStep_ok h
  have hfd : fd ∈ c.conns := List.mem_of_getElem? hk
  obtain ⟨-, -, -, -, hdown, -⟩ := (hI.loads.phase fd hfd).request hup (.inl hf)
  obtain ⟨hserver, hout⟩ := Server.load_of_frame hf (hI.loads.table.pollFd.mpr hk) hok hs
  have hserver : c'.loads.net.world.server = c.loads.net.world.server := hserver
  have hout : out = (c.loads.net.world.server.historyFrames env).map fun g => ⟨fd, g⟩ := hout
  refine ⟨hloads, ?_, ?_, fun fd' hfd' => ?_⟩
  · rw [hserver, hlog]
    exact hI.content
  · rw [hlog]
    exact hI.records
  · have hfd' : fd' ∈ c.conns := by
      unfold conns GroupNet.conns at hfd' ⊢
      rw [hserver] at hfd'
      exact hfd'
    have hway : c'.down fd' = c.down fd' ++ framesTo fd' out := by
      rw [down, down, hlink, Link.post, List.map_append, map_frame_sentTo, GroupNet.link_read]
      split
      · rename_i he
        rw [he]
      · rfl
    rw [hlog, hmark, hreads, hcaught, hway, hout]
    by_cases hne : fd' = fd
    · subst hne
      rw [Function.update_self, Function.update_self, framesTo_map, hI.historyReads hopens,
        Server.historyFrames]
      refine (hI.client fd' hfd').answer (LoadNet.ne_of_loads hdown) (fun g hg => ?_) rfl
      obtain ⟨line, -, rfl⟩ := List.mem_map.mp hg
      rfl
    · rw [Function.update_of_ne hne, Function.update_of_ne hne, ← map_frame_sentTo _ none,
        sentTo_map_of_ne (Ne.symm hne)]
      exact (hI.client fd' hfd').post (fun _ h => (by cases h)) rfl

/-- Any other frame is handled. -/
theorem sound_frame (hI : c.Sound old) (hloads : c'.loads.Sound)
    (hk : c.loads.net.conns[k]? = some fd) (hup : (c.loads.user fd).up = f :: up)
    (hlen : f.payload.length < RECV_BUF_SIZE) (hf : f.type ≠ LMP_GRP_LOAD_MSG)
    (hok : ∀ fd ∈ c.conns, env.sendOk fd)
    (hsaves : c.loads.Saves (.group (.serve k buf env)))
    (h : (c.loads.net.read fd up).serverStep (.frame (k + 1) f buf env) = .ok c'.loads.net)
    (hlog : c'.log = c.log ++ (c.loads.posted (.group (.serve k buf env))).toList)
    (hmark : c'.mark = c.mark) (hreads : c'.loads.reads = c.loads.reads)
    (hcaught : c'.caught = c.caught) : c'.Sound old := by
  obtain ⟨out, hs, -, -, hlink⟩ := GroupNet.serverStep_ok h
  have hs : c.loads.net.world.server.step (.frame (k + 1) f buf env) =
    .ok (out, c'.loads.net.world.server) := hs
  obtain ⟨hsaved, hposted, hspoken⟩ := LoadNet.posting hI.loads.table hk hup hlen hs hsaves
  have hfd : fd ∈ c.conns := List.mem_of_getElem? hk
  have hnot : ¬ IsLoad f.type := by
    intro hload
    obtain ⟨rfl, -⟩ := (hI.loads.phase fd hfd).request hup hload
    exact hf rfl
  have hout := Server.not_isLoad_of_frame hs hnot
  have hcontent := Server.content_of_step hs
  rw [hsaved] at hcontent
  obtain ⟨-, hsaves⟩ := hsaves
  generalize c.loads.posted (.group (.serve k buf env)) = o at hlog hcontent hposted hspoken hsaves
  refine ⟨hloads, ?_, fun r hr => ?_, fun fd' hfd' => ?_⟩
  · rw [hcontent, hI.content, hlog]
    cases o <;> simp [Post.record]
  · rw [hlog, List.map_append, ← List.append_assoc] at hr
    rcases List.mem_append.mp hr with hr | hr
    · exact hI.records r hr
    · obtain ⟨e, he, rfl⟩ := List.mem_map.mp hr
      have he := Option.mem_toList.mp he
      exact ⟨(hposted e he).2, (hsaves e he).2.2.2⟩
  · have hfd' : fd' ∈ c.conns := by
      unfold conns at hfd' ⊢
      rw [GroupNet.conns, (Server.conns_of_frame hs).2.1] at hfd'
      exact hfd'
    have hway : c'.down fd' = c.down fd' ++ framesTo fd' out := by
      rw [down, down, hlink, Link.post, List.map_append, map_frame_sentTo, GroupNet.link_read]
      split
      · rename_i he
        rw [he]
      · rfl
    have hload : ∀ g ∈ framesTo fd' out, g.type ≠ LMP_GRP_LOAD_MSG := by
      intro g hg hload
      obtain ⟨o, ho, rfl⟩ := List.mem_map.mp hg
      exact hout o (List.mem_of_mem_filter ho) (.inl hload)
    have hspoken := hspoken fd' hfd' (hok fd' hfd')
    rw [hlog, hmark, hreads, hcaught, hway]
    cases o with
    | none =>
      rw [Option.toList_none, List.append_nil]
      refine (hI.client fd' hfd').post hload (hspoken.trans ?_)
      split <;> rfl
    | some e =>
      rw [Option.toList_some]
      refine (hI.client fd' hfd').relay hload (hspoken.trans ?_)
      rw [(hposted e rfl).1]
      rfl

end

theorem sound_deliver (hI : c.Sound old) (hloads : c'.loads.Sound) (hfd : fd ∈ c.conns) {m : Sent}
    {ms : List Sent} {u : User} (hdown : (c.loads.net.link fd).down = m :: ms)
    (hnet : c'.loads.net =
      c.loads.net.setLink fd { c.loads.net.link fd with user := u, down := ms })
    (hlog : c'.log = c.log) (hmark : c'.mark = c.mark) (hreads : c'.loads.reads = c.loads.reads)
    (hcaught : c'.caught = Function.update c.caught fd (c.next fd)) : c'.Sound old := by
  refine ⟨hloads, ?_, ?_, fun fd' hfd' => ?_⟩
  · rw [hnet, hlog]
    exact hI.content
  · rw [hlog]
    exact hI.records
  · have hway : c'.down fd' = if fd' = fd then ms.map Sent.frame else c.down fd' := by
      rw [down, down, hnet, GroupNet.link_setLink]
      split <;> rfl
    have hfd' : fd' ∈ c.conns := by
      unfold conns at hfd'
      rw [hnet] at hfd'
      exact hfd'
    rw [hlog, hmark, hreads, hcaught, hway]
    by_cases hne : fd' = fd
    · subst hne
      have hnow : c.down fd' = m.frame :: ms.map Sent.frame := by
        rw [down, hdown, List.map_cons]
      have hclient := hI.client fd' hfd
      rw [hnow] at hclient
      rw [if_pos rfl, Function.update_self, next, hnow]
      dsimp only
      by_cases hm : m.frame.type = LMP_GRP_LOAD_MSG
      · obtain ⟨-, -, -, hcase⟩ := (hI.loads.phase fd' hfd).delivery hdown (.inl hm)
        rcases hcase with ⟨-, hrest, hall⟩ | ⟨line, rest, hframe, -⟩
        · rw [if_pos hm, hall]
          exact hclient.finish hm (LoadNet.ne_of_loads hrest)
        · have hne : LMP_GRP_LOADING_MSG ≠ LMP_GRP_LOAD_MSG := by decide
          rw [hframe] at hm
          exact absurd hm hne
      · rw [if_neg hm]
        exact hclient.take hm
    · rw [if_neg hne, Function.update_of_ne hne]
      exact hI.client fd' hfd'

theorem sound_groupStep (hI : c.Sound old) {g : GroupEvent}
    (hok : c.loads.SendsOk (.group g)) (hsaves : c.loads.Saves (.group g)) {n : LoadNet}
    (hloads : n.Sound) (h : c.loads.groupStep g = .ok n) :
    Sound old ⟨n, c.log ++ (c.loads.posted (.group g)).toList, c.markAfter (.group g),
      c.caughtAfter (.group g)⟩ := by
  obtain ⟨net, hnet, rfl⟩ := ok_of_map h
  cases g with
  | serve k buf env =>
    obtain ⟨fd, f, up, hk, hup, ⟨hlen, h⟩ | ⟨hlen, h⟩⟩ := Sequenced.serve_cases hnet
    · have hhead : (c.loads.user fd).up.head?.map Frame.type = some f.type := by
        unfold LoadNet.user
        rw [hup]
        rfl
      by_cases hf : f.type = LMP_GRP_LOAD_MSG
      · have hfd : fd ∈ c.conns := List.mem_of_getElem? hk
        have hnone : c.loads.posted (.group (.serve k buf env)) = none :=
          LoadNet.posted_of_ne hk hup (by rw [hf]; decide)
        refine sound_request hI hloads hk hup hf (hok fd hfd) hsaves.1 h ?_ ?_ ?_ rfl
        · rw [hnone]
          exact List.append_nil _
        · simp only [markAfter, conns, hk, hhead]
          exact if_pos (congrArg some hf)
        · simp only [LoadNet.readsAfter, hk, hhead]
          exact if_pos (congrArg some hf)
      · refine sound_frame hI hloads hk hup hlen hf hok hsaves h rfl ?_ ?_ rfl
        · simp only [markAfter, conns, hk, hhead]
          exact if_neg fun h => hf (Option.some.inj h)
        · simp only [LoadNet.readsAfter, hk, hhead]
          exact if_neg fun h => hf (Option.some.inj h)
    · have hup' : (c.loads.net.link fd).user.up = f :: up := hup
      refine sound_close hI hloads (c.loads.net.read fd up) rfl (fun fd' => ?_) hk h ?_
        (fun fd' hne => ?_) (fun fd' hne => ?_) rfl
      · rw [GroupNet.link_read]
        split
        · rename_i he
          rw [he]
        · rfl
      · simp only [LoadNet.posted, GroupNet.chatServed, hk, hup', if_neg hlen]
        exact List.append_nil _
      · simp only [markAfter, conns, hk]
        split
        · exact Function.update_of_ne hne _ _
        · rfl
      · simp only [LoadNet.readsAfter, hk]
        split
        · exact Function.update_of_ne hne _ _
        · rfl
  | accept fd uid nickname =>
    cases GroupNet.moved_of_step hnet with
    | accept hfd h₁ =>
      exact sound_accept hI hloads hfd h₁ rfl (List.append_nil _) rfl rfl rfl
  | typed fd line env =>
    cases GroupNet.moved_of_step hnet with
    | typed hfd hu => exact hI.setLink hloads rfl (List.append_nil _) rfl rfl rfl
  | hangup k status env =>
    cases GroupNet.moved_of_step hnet with
    | hangup hk h₁ =>
      exact sound_close hI hloads c.loads.net rfl (fun _ => rfl) hk h₁ (List.append_nil _)
        (fun _ _ => rfl) (fun _ _ => rfl) rfl
  | deliver fd buf env =>
    cases GroupNet.moved_of_step hnet with
    | deliver hfd hdown hu =>
      exact sound_deliver hI hloads hfd hdown rfl (List.append_nil _) rfl rfl rfl
  | drain j buf env =>
    cases GroupNet.moved_of_step hnet with
    | drain =>
      refine hI.quiet hloads rfl (List.append_nil _) fun fd hfd => ⟨hfd, rfl, rfl, rfl, [], ?_, ?_⟩
      · exact (List.append_nil _).symm
      · exact ⟨fun _ h => (by cases h), rfl⟩

theorem sound_step (hI : c.Sound old) {e : LoadEvent} (hok : c.loads.SendsOk e)
    (hsaves : c.loads.Saves e) (h : c.step e = .ok c') : c'.Sound old := by
  obtain ⟨n, hn, rfl⟩ := ok_of_map h
  have hloads : n.Sound := LoadNet.sound_step hI.loads hok hn
  rcases LoadNet.step_cases hn with ⟨g, rfl, hg⟩ | ⟨fd, u, hnet, hreads, he⟩
  · exact sound_groupStep hI hok hsaves hloads hg
  · obtain ⟨line, env, rfl⟩ | ⟨env, rfl⟩ := he
    · exact hI.setLink hloads hnet (List.append_nil _) rfl hreads rfl
    · exact hI.setLink hloads hnet (List.append_nil _) rfl hreads rfl

theorem sound_start (listener : Int) (info : GroupInfo)
    (hold : ∀ r ∈ old, OneLine r ∧ r.2.length + 1 < HISTORY_MESSAGE_SIZE) :
    (start listener info old).Sound old := by
  have ht := Server.TableOk.start listener info
  refine ⟨⟨⟨ht.head, ht.nodup⟩, fun _ h => (by cases h)⟩, ?_, ?_, fun _ h => (by cases h)⟩
  · exact congrArg (fun rs => (rs.map fun m => line m.1 m.2).flatten) (List.append_nil old).symm
  · exact (List.append_nil old).symm ▸ hold

/-! ## Main result -/

/-- **Nothing is missed.** Where the history can be opened, holds records of one line at first, and
what is relayed is saved as one line, a client whose load has come to its end has been shown the
lines of all messages up to some point of the server's order, and all later ones that are not its
own have been received since or are under way, in this order. -/
theorem caught_of_run (listener : Int) (info : GroupInfo) (old : List (Bytes × Bytes))
    (hold : ∀ r ∈ old, OneLine r ∧ r.2.length + 1 < HISTORY_MESSAGE_SIZE) (es : List LoadEvent)
    (hC : Meets step (fun c e => c.loads.SendsOk e ∧ c.loads.Saves e) (start listener info old) es)
    (h : exec step (start listener info old) es = .ok c) (fd : Int) (hfd : fd ∈ c.conns)
    (x : Caught) (hx : c.caught fd = some x) :
    x.cut ≤ c.log.length ∧ x.loaded = linesAt old c.log x.cut ∧
      x.live ++ spoken (c.down fd) =
        (due fd x.cut c.log.length c.log).map (fun e => e.2.frame) ∧
      ∀ k e, c.log[k]? = some e → k < x.cut ∧ e.2.line ∈ x.loaded ∨
        e.1 = fd ∨ e.2.frame ∈ x.live ++ spoken (c.down fd) := by
  have hI : c.Sound old := exec_invariant
    (fun _ _ _ hI hC h => sound_step hI hC.1 hC.2 h) (sound_start listener info hold) hC h
  obtain ⟨hloaded, hfollows⟩ := (hI.client fd hfd).caught x hx
  refine ⟨hfollows.le, hloaded, hfollows.eq, fun k e he => ?_⟩
  by_cases hk : k < x.cut
  · refine .inl ⟨hk, ?_⟩
    rw [hloaded, linesAt, List.map_append, List.map_map]
    apply List.mem_append_right
    refine List.mem_map.mpr ⟨e, ?_, rfl⟩
    apply List.mem_of_getElem? (i := k)
    rw [List.getElem?_take, if_pos hk, he]
  · by_cases hme : e.1 = fd
    · exact .inr (.inl hme)
    · exact .inr (.inr (hfollows.mem he (Nat.le_of_not_lt hk) hme))

/-- cid comes after a first message and loads the history; bob says something before the request is
handled, and ann after it. -/
def cidLoads : List LoadEvent :=
  GroupNet.annAndBob.map .group ++ [.group (.typed 5 (str "hi\n") .allOk),
    .group (.serve 0 [] .allOk), .group (.accept 7 (str "c0000003") (str "cid")),
    .group (.serve 2 [] .allOk), .group (.typed 7 (str "/load\n") .allOk), .send 7 .allOk,
    .group (.typed 6 (str "hey\n") .allOk), .group (.serve 1 [] .allOk),
    .group (.serve 2 [] .allOk), .group (.typed 5 (str "ho\n") .allOk),
    .group (.serve 0 [] .allOk)] ++ List.replicate 7 (.group (.deliver 7 [] .allOk))

theorem caught_of_run_cidLoads : ∃ c x,
    exec step (start 3 gserverInfo [(str "d0000004", str "hello")]) cidLoads = .ok c ∧
      c.caught 7 = some x ∧ x.loaded = [str "d0000004hello\n", str "a0000001hi\n",
        str "b0000002hey\n"] ∧
      x.live = [groupLmpFrame LMP_MSG (str "ho") 0] ∧
      x.live ++ spoken (c.down 7) =
        (due 7 x.cut c.log.length c.log).map (fun e => e.2.frame) := by
  have hold : ∀ r ∈ [(str "d0000004", str "hello")],
      OneLine r ∧ r.2.length + 1 < HISTORY_MESSAGE_SIZE := by
    intro r hr
    rw [List.mem_singleton.mp hr]
    exact ⟨⟨by decide +kernel, by decide +kernel, by decide +kernel, by decide +kernel,
      by decide +kernel⟩, by decide +kernel⟩
  have hC : Meets step (fun c e => c.loads.SendsOk e ∧ c.loads.Saves e)
      (start 3 gserverInfo [(str "d0000004", str "hello")]) cidLoads := by decide +kernel
  obtain ⟨c, h, hfd, hx⟩ := exists_ok (P := fun c => 7 ∈ c.conns ∧
      c.caught 7 = some ⟨2, [str "d0000004hello\n", str "a0000001hi\n", str "b0000002hey\n"],
        [groupLmpFrame LMP_MSG (str "ho") 0]⟩)
    (show (exec step (start 3 gserverInfo [(str "d0000004", str "hello")]) cidLoads).isOk
      by decide +kernel) (by decide +kernel)
  exact ⟨c, _, h, hx, rfl, rfl,
    (caught_of_run 3 gserverInfo _ hold cidLoads hC h 7 hfd _ hx).2.2.1⟩

end CatchUp

end SocketSpeak
