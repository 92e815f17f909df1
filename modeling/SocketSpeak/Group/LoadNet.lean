import SocketSpeak.Group.LoadClient
import SocketSpeak.Group.Net

/-!
# Loading over the connections

The group, where the main thread of a client may be interrupted between the two halves of `/load`.
The state of a client says where its request is: with its main thread, on the way to the server, or
answered by frames that are on the way back (`loads_of_run`).
-/

namespace SocketSpeak
open CLib Sys GroupNet

/-- `pending` is the command line of a client that has set its state and has not sent its request.
`shown` are the lines that a client has shown since it set its state, and `reads` those that the
server read for its latest request; only the statements about the run look at these two. -/
structure LoadNet where
  net : GroupNet
  pending : Int → Option Bytes
  shown : Int → List Bytes
  reads : Int → List Bytes

inductive LoadEvent where
  | group (e : GroupEvent)
  /-- The client on `fd` sends the request that is pending. -/
  | send (fd : Int) (env : UserEnv)

/-- The line that the client shows for its next frame. -/
def Link.shows (l : Link) : List Bytes :=
  match l.down with
  | [] => []
  | m :: _ =>
    if m.frame.type = LMP_GRP_LOADING_MSG ∧ l.user.loadingMessageState ≠ .idle then
      [m.frame.payload]
    else []

namespace LoadNet

def start (listener : Int) (info : GroupInfo) : LoadNet where
  net := .start listener info
  pending _ := none
  shown _ := []
  reads _ := []

def user (n : LoadNet) (fd : Int) : User := (n.net.link fd).user

def setUser (n : LoadNet) (fd : Int) (u : User) : LoadNet :=
  { n with net := n.net.setLink fd { n.net.link fd with user := u } }

/-- The command line with which the client on `fd` begins a load when `line` is typed. -/
def begins (n : LoadNet) (fd : Int) (line : Bytes) : Option Bytes :=
  if (n.user fd).loadingMessageState = .idle then User.loadCommand line else none

def pendingAfter (n : LoadNet) : GroupEvent → Int → Option Bytes
  | .accept fd _ _ => Function.update n.pending fd none
  | _ => n.pending

def shownAfter (n : LoadNet) : GroupEvent → Int → List Bytes
  | .accept fd _ _ => Function.update n.shown fd []
  | .deliver fd _ _ => Function.update n.shown fd (n.shown fd ++ (n.net.link fd).shows)
  | _ => n.shown

def readsAfter (n : LoadNet) : GroupEvent → Int → List Bytes
  | .accept fd _ _ => Function.update n.reads fd []
  | .serve k _ env =>
    match n.net.conns[k]? with
    | none => n.reads
    | some fd =>
      if (n.user fd).up.head?.map Frame.type = some LMP_GRP_LOAD_MSG then
        Function.update n.reads fd (n.net.world.server.historyReads env)
      else n.reads
  | _ => n.reads

/-- A step of the group. -/
def groupStep (n : LoadNet) (e : GroupEvent) : Except Stop LoadNet :=
  (n.net.step e).map fun net => ⟨net, n.pendingAfter e, n.shownAfter e, n.readsAfter e⟩

def step (n : LoadNet) : LoadEvent → Except Stop LoadNet
  | .group (.typed fd line env) =>
    if fd ∈ n.net.conns ∧ n.pending fd = none then
      match n.begins fd line with
      | some line => .ok { n.setUser fd (n.user fd).beginLoad with
          pending := Function.update n.pending fd (some line)
          shown := Function.update n.shown fd [] }
      | none => n.groupStep (.typed fd line env)
    else .error .disabled
  | .group e => n.groupStep e
  | .send fd env =>
    if fd ∈ n.net.conns then
      match n.pending fd with
      | some line => .ok { n.setUser fd ((n.user fd).finishLoad env line) with
          pending := Function.update n.pending fd none }
      | none => .error .disabled
    else .error .disabled

/-- Every send of the server, and every request, succeeds. -/
def SendsOk (n : LoadNet) : LoadEvent → Prop
  | .group e => n.net.SendsOk e
  | .send _ env => env.sendOk = true

instance (n : LoadNet) : ∀ e, Decidable (n.SendsOk e)
  | .group e => inferInstanceAs (Decidable (n.net.SendsOk e))
  | .send _ env => inferInstanceAs (Decidable (env.sendOk = true))

end LoadNet

/-! ## Where a request is -/

/-- The frames of a load among `fs`. -/
def loads (fs : List Frame) : List Frame := fs.filter fun f => IsLoad f.type

@[simp] theorem loads_append (fs fs' : List Frame) : loads (fs ++ fs') = loads fs ++ loads fs' :=
  List.filter_append ..

theorem loads_eq_nil {fs : List Frame} (h : ∀ f ∈ fs, ¬ IsLoad f.type) : loads fs = [] :=
  List.filter_eq_nil_iff.mpr fun f hf => by simpa using h f hf

theorem loads_eq_self {fs : List Frame} (h : ∀ f ∈ fs, IsLoad f.type) : loads fs = fs :=
  List.filter_eq_self.mpr fun f hf => by simpa using h f hf

theorem loads_cons_of_not {f : Frame} {fs : List Frame} (h : ¬ IsLoad f.type) :
    loads (f :: fs) = loads fs := List.filter_cons_of_neg (by simpa using h)

theorem loads_cons {f : Frame} {fs : List Frame} (h : IsLoad f.type) :
    loads (f :: fs) = f :: loads fs := List.filter_cons_of_pos (by simpa using h)

/-- The state of a client, whether its request is pending, the frames of a load on the way to and
from the server, the lines that have been shown, and those that have been read for it. -/
inductive LoadPhase : LoadState → Bool → List Frame → List Frame → List Bytes → List Bytes → Prop
  | idle {shown reads} : LoadPhase .idle false [] [] shown reads
  | pending {reads} : LoadPhase .requestingLoad true [] [] [] reads
  | requested {reads} : LoadPhase .requestingLoad false [lmpFrame LMP_GRP_LOAD_MSG []] [] [] reads
  | answered {st shown reads rest} : st ≠ .idle → reads = shown ++ rest → LoadPhase st false []
      (rest.map (lmpFrame LMP_GRP_LOADING_MSG) ++ [lmpFrame LMP_GRP_LOAD_MSG []]) shown reads

namespace LoadNet
variable {n n' : LoadNet} {fd : Int}

/-- The phase of the client on `fd`. -/
def InPhase (n : LoadNet) (fd : Int) : Prop :=
  LoadPhase (n.user fd).loadingMessageState (n.pending fd).isSome (loads (n.user fd).up)
    (loads ((n.net.link fd).down.map Sent.frame)) (n.shown fd) (n.reads fd)

structure Sound (n : LoadNet) : Prop where
  table : n.net.world.server.TableOk
  phase : ∀ fd ∈ n.net.conns, n.InPhase fd

theorem InPhase.congr (h : n.InPhase fd)
    (hstate : (n'.user fd).loadingMessageState = (n.user fd).loadingMessageState)
    (hpending : n'.pending fd = n.pending fd) (hup : loads (n'.user fd).up = loads (n.user fd).up)
    (hdown : loads ((n'.net.link fd).down.map Sent.frame) =
      loads ((n.net.link fd).down.map Sent.frame))
    (hshown : n'.shown fd = n.shown fd) (hreads : n'.reads fd = n.reads fd) : n'.InPhase fd := by
  unfold InPhase
  rw [hstate, hpending, hup, hdown, hshown, hreads]
  exact h

end LoadNet

/-! ## What the server sends -/

namespace Server
variable {s s' : Server} {i : Nat} {f : Frame} {buf : Bytes} {env : Env} {out : List Output}

theorem not_isLoad_of_broadcast (s : Server) (env : Env) :
    ∀ o ∈ (s.sendNewGroupToUsers env).2, ¬ IsLoad o.frame.type := by
  intro o ho
  rw [sendNewGroupToUsers_eq] at ho
  obtain ⟨p, -, ho⟩ := List.mem_flatMap.mp ho
  rw [type_of_lmpSend o ho]
  decide

/-- Only a request is answered with the frames of a load. -/
theorem not_isLoad_of_frame (h : s.step (.frame i f buf env) = .ok (out, s'))
    (hf : ¬ IsLoad f.type) : ∀ o ∈ out, ¬ IsLoad o.frame.type := by
  obtain ⟨fd, -, -, -, hh⟩ := handled_of_frame h
  cases hh with
  | nick _ _ _ _ _ hout => exact hout ▸ not_isLoad_of_broadcast s' env
  | init _ _ _ _ _ hout => exact hout ▸ not_isLoad_of_broadcast s' env
  | relayed _ _ _ _ hout =>
    rintro o ho
    rw [hout] at ho
    obtain ⟨p, -, ho⟩ := List.mem_flatMap.mp ho
    rw [(mem_groupLmpSend.mp ho).2]
    exact hf
  | answered m ht hm hguess =>
    intro o ho
    have htype : f.type = LMP_GRP_HANGMAN ∨ f.type = LMP_MSG := by
      simp only [List.mem_cons, List.not_mem_nil, or_false] at ht
      exact ht.resolve_left fun hload => hf (.inl hload)
    rw [type_of_answered htype hm hguess h o ho]
    decide

end Server

theorem loads_sentTo {out : List Output} (h : ∀ o ∈ out, ¬ IsLoad o.frame.type)
    (nickname : Option Bytes) (fd : Int) :
    loads ((sentTo out nickname fd).map Sent.frame) = [] := by
  apply loads_eq_nil
  intro f hf
  obtain ⟨m, hm, rfl⟩ := List.mem_map.mp hf
  obtain ⟨o, ho, -, rfl⟩ := mem_sentTo.mp hm
  exact h o ho

theorem sentTo_map_of_ne {fd fd' : Int} (h : fd ≠ fd') (fs : List Frame)
    (nickname : Option Bytes) : sentTo (fs.map fun g => ⟨fd, g⟩) nickname fd' = [] := by
  rw [sentTo, List.filter_eq_nil_iff.mpr]
  · rfl
  · intro o ho
    obtain ⟨g, -, rfl⟩ := List.mem_map.mp ho
    simpa using h

theorem isLoad_historyFrames {s : Server} {env : Env} :
    ∀ f ∈ s.historyFrames env, IsLoad f.type := by
  intro f hf
  rcases List.mem_append.mp hf with hf | hf
  · obtain ⟨line, -, rfl⟩ := List.mem_map.mp hf
    exact .inr rfl
  · rw [List.mem_singleton.mp hf]
    exact .inl rfl

/-! ## Steps -/

namespace LoadNet
variable {n n' : LoadNet} {fd : Int} {net : GroupNet}

/-- The connection `fd` changes, and its client is in a phase again. -/
theorem Sound.setLink (hI : n.Sound) {l : Link} (hnet : n'.net = n.net.setLink fd l)
    (hphase : LoadPhase l.user.loadingMessageState (n'.pending fd).isSome (loads l.user.up)
      (loads (l.down.map Sent.frame)) (n'.shown fd) (n'.reads fd))
    (hother : ∀ fd', fd' ≠ fd → n'.pending fd' = n.pending fd' ∧ n'.shown fd' = n.shown fd' ∧
      n'.reads fd' = n.reads fd') : n'.Sound := by
  refine ⟨hnet ▸ hI.table, fun fd' hfd' => ?_⟩
  have hfd' : fd' ∈ n.net.conns := by
    rw [hnet] at hfd'
    exact hfd'
  have hlink : n'.net.link fd' = if fd' = fd then l else n.net.link fd' := by
    rw [hnet, GroupNet.link_setLink]
  by_cases h : fd' = fd
  · subst h
    rw [if_pos rfl] at hlink
    unfold InPhase user
    rw [hlink]
    exact hphase
  · obtain ⟨hp, hs, hr⟩ := hother fd' h
    rw [if_neg h] at hlink
    have huser : n'.user fd' = n.user fd' := congrArg Link.user hlink
    exact (hI.phase fd' hfd').congr (by rw [huser]) hp (by rw [huser]) (by rw [hlink]) hs hr

theorem sound_begin (hI : n.Sound) (hfd : fd ∈ n.net.conns) (hpending : n.pending fd = none)
    (hidle : (n.user fd).loadingMessageState = .idle) (line : Bytes) :
    { n.setUser fd (n.user fd).beginLoad with
      pending := Function.update n.pending fd (some line)
      shown := Function.update n.shown fd [] : LoadNet }.Sound := by
  have hphase := hI.phase fd hfd
  unfold InPhase at hphase
  rw [hidle, hpending] at hphase
  refine hI.setLink rfl ?_ fun fd' hne => ?_
  · dsimp only
    rw [Function.update_self, Function.update_self]
    have hup : loads (n.user fd).beginLoad.up = loads (n.user fd).up := rfl
    rw [hup]
    generalize loads (n.user fd).up = up at hphase ⊢
    generalize loads ((n.net.link fd).down.map Sent.frame) = down at hphase ⊢
    cases hphase with
    | idle => exact .pending
    | answered hne => exact absurd rfl hne
  · exact ⟨Function.update_of_ne hne _ _, Function.update_of_ne hne _ _, rfl⟩

theorem sound_send (hI : n.Sound) (hfd : fd ∈ n.net.conns) {line : Bytes}
    (hpending : n.pending fd = some line) {env : UserEnv} (hok : env.sendOk = true) :
    { n.setUser fd ((n.user fd).finishLoad env line) with
      pending := Function.update n.pending fd none : LoadNet }.Sound := by
  have hphase := hI.phase fd hfd
  unfold InPhase at hphase
  rw [hpending] at hphase
  refine hI.setLink rfl ?_ fun fd' hne => ⟨Function.update_of_ne hne _ _, rfl, rfl⟩
  dsimp only
  rw [Function.update_self, User.finishLoad_ok hok]
  dsimp only
  rw [loads_append]
  generalize loads (n.user fd).up = up at hphase ⊢
  generalize loads ((n.net.link fd).down.map Sent.frame) = down at hphase ⊢
  generalize (n.user fd).loadingMessageState = st at hphase ⊢
  change LoadPhase _ true _ _ (n.shown fd) (n.reads fd) at hphase
  change LoadPhase _ _ _ _ (n.shown fd) (n.reads fd)
  generalize n.shown fd = shown at hphase ⊢
  cases hphase
  exact .requested

/-- A client does something that has nothing to do with a load. -/
theorem sound_posts (hI : n.Sound) (hfd : fd ∈ n.net.conns) {l : Link}
    (hposts : User.Posts (n.user fd) l.user)
    (hdown : loads (l.down.map Sent.frame) = loads ((n.net.link fd).down.map Sent.frame))
    (hnet : n'.net = n.net.setLink fd l) (hpending : n'.pending = n.pending)
    (hshown : n'.shown = n.shown) (hreads : n'.reads = n.reads) : n'.Sound := by
  obtain ⟨hstate, fs, hup, hfs⟩ := hposts
  refine hI.setLink hnet ?_ fun _ _ => by rw [hpending, hshown, hreads]; exact ⟨rfl, rfl, rfl⟩
  rw [hstate, hup, hdown, hpending, hshown, hreads, loads_append, loads_eq_nil hfs, List.append_nil]
  exact hI.phase fd hfd

theorem sound_accept (hI : n.Sound) (hfd : fd ∉ n.net.world.server.listener :: n.net.conns)
    {m : GroupMember} {n₁ : GroupNet} (h : n.net.serverStep (.accept fd) = .ok n₁)
    (hnet : n'.net = n₁.setLink fd (.start m))
    (hpending : n'.pending = Function.update n.pending fd none)
    (hshown : n'.shown = Function.update n.shown fd [])
    (hreads : n'.reads = Function.update n.reads fd []) : n'.Sound := by
  obtain ⟨ht, -, -, -, hlink, hold⟩ := GroupNet.accept_ok hI.table hfd h
  have hlink' : ∀ fd', n'.net.link fd' = if fd' = fd then .start m else n.net.link fd' := by
    intro fd'
    rw [hnet, GroupNet.link_setLink, hlink]
  refine ⟨hnet ▸ ht, fun fd' hfd' => ?_⟩
  by_cases hne : fd' = fd
  · subst hne
    have hup : loads (User.start m).up = [] := rfl
    unfold InPhase user
    rw [hlink', if_pos rfl, hpending, hshown, hreads, Function.update_self, Function.update_self,
      Function.update_self]
    dsimp only [Link.start]
    rw [hup]
    exact .idle
  · have hfd' : fd' ∈ n₁.conns := by
      rw [hnet] at hfd'
      exact hfd'
    have hl : n'.net.link fd' = n.net.link fd' := by rw [hlink', if_neg hne]
    have hu : n'.user fd' = n.user fd' := congrArg Link.user hl
    refine (hI.phase fd' (hold fd' hfd' hne)).congr (by rw [hu]) ?_ (by rw [hu]) (by rw [hl]) ?_ ?_
    · rw [hpending, Function.update_of_ne hne]
    · rw [hshown, Function.update_of_ne hne]
    · rw [hreads, Function.update_of_ne hne]

/-- A connection is closed; the other ones get the group object. -/
theorem sound_close {net : GroupNet} (ht : net.world.server.TableOk) {k : Nat} {status : Int}
    {env : Env} (hk : net.conns[k]? = some fd) (h : net.close fd k status env = .ok n'.net)
    (hphase : ∀ fd' ∈ net.conns, fd' ≠ fd → LoadPhase (net.link fd').user.loadingMessageState
      (n'.pending fd').isSome (loads (net.link fd').user.up)
      (loads ((net.link fd').down.map Sent.frame)) (n'.shown fd') (n'.reads fd')) : n'.Sound := by
  obtain ⟨n₁, h₁, hw, hl, -⟩ := GroupNet.close_ok h
  obtain ⟨out, hs, -, -, hlink⟩ := GroupNet.serverStep_ok h₁
  obtain ⟨hlt, hget⟩ := List.getElem?_eq_some_iff.mp hk
  have hnd := (List.nodup_cons.mp ht.nodup).2
  have hconns := (Server.conns_of_hangup ht hlt hs).2
  refine ⟨by rw [hw]; exact ht.hangup hlt hs, fun fd' hfd' => ?_⟩
  have hmem : fd' ∈ net.conns ∧ fd' ≠ fd := by
    rw [GroupNet.conns, hw, hconns, mem_swapRemove hnd hlt] at hfd'
    exact ⟨hfd'.1, hget ▸ hfd'.2⟩
  have hout : ∀ o ∈ out, ¬ IsLoad o.frame.type := by
    rw [(Server.handled_of_hangup hs).2.2.2.2]
    exact Server.not_isLoad_of_broadcast _ _
  unfold InPhase user
  rw [hl, hlink]
  dsimp only [Link.post]
  rw [List.map_append, loads_append, loads_sentTo hout, List.append_nil]
  exact hphase fd' hmem.1 hmem.2

/-- A frame that is not one of a load is handled. -/
theorem sound_handle (hI : n.Sound) {k : Nat} {f : Frame} {up : List Frame} {buf : Bytes}
    {env : Env} (hf : ¬ IsLoad f.type) (hup : (n.user fd).up = f :: up)
    (h : (n.net.read fd up).serverStep (.frame (k + 1) f buf env) = .ok n'.net)
    (hpending : n'.pending = n.pending) (hshown : n'.shown = n.shown)
    (hreads : n'.reads = n.reads) : n'.Sound := by
  obtain ⟨out, hs, -, -, hlink⟩ := GroupNet.serverStep_ok h
  have hs' : n.net.world.server.step (.frame (k + 1) f buf env) = .ok (out, n'.net.world.server) :=
    hs
  have hout := Server.not_isLoad_of_frame hs' hf
  refine ⟨hI.table.frame hs', fun fd' hfd' => ?_⟩
  have hfd' : fd' ∈ n.net.conns := by
    rw [GroupNet.conns, (Server.conns_of_frame hs').2.1] at hfd'
    exact hfd'
  have hread := n.net.link_read fd fd' up
  have hdown : loads ((n'.net.link fd').down.map Sent.frame) =
      loads ((n.net.link fd').down.map Sent.frame) := by
    rw [hlink, hread]
    dsimp only [Link.post]
    rw [List.map_append, loads_append, loads_sentTo hout, List.append_nil]
    split
    · rename_i he
      rw [he]
    · rfl
  have huser : n'.user fd' = if fd' = fd then { n.user fd with up } else n.user fd' := by
    unfold user
    rw [hlink, hread]
    dsimp only [Link.post]
    split <;> rfl
  refine (hI.phase fd' hfd').congr ?_ (by rw [hpending]) ?_ hdown (by rw [hshown]) (by rw [hreads])
  · rw [huser]
    split
    · rename_i he
      rw [he]
    · rfl
  · rw [huser]
    split
    · rename_i he
      rw [he, hup, loads_cons_of_not hf]
    · rfl

/-- The next frame from a client is one of a load only if it is its request. -/
theorem InPhase.request (h : n.InPhase fd) {f : Frame} {up : List Frame}
    (hup : (n.user fd).up = f :: up) (hf : IsLoad f.type) :
    f = lmpFrame LMP_GRP_LOAD_MSG [] ∧ loads up = [] ∧
      (n.user fd).loadingMessageState = .requestingLoad ∧ n.pending fd = none ∧
      loads ((n.net.link fd).down.map Sent.frame) = [] ∧ n.shown fd = [] := by
  unfold InPhase at h
  rw [hup, loads_cons hf] at h
  generalize (n.user fd).loadingMessageState = st at h ⊢
  generalize loads ((n.net.link fd).down.map Sent.frame) = down at h ⊢
  generalize hfs : f :: loads up = fs at h
  generalize n.shown fd = shown at h ⊢
  generalize hpending : (n.pending fd).isSome = pending at h
  cases h with
  | idle => cases hfs
  | pending => cases hfs
  | answered => cases hfs
  | requested =>
    obtain ⟨rfl, hnil⟩ := List.cons.inj hfs
    exact ⟨rfl, hnil, rfl, by simpa using hpending, rfl, rfl⟩

/-- A request is handled: the lines of the history are on their way. -/
theorem sound_request (hI : n.Sound) {k : Nat} {f : Frame} {up : List Frame} {buf : Bytes}
    {env : Env} (hk : n.net.conns[k]? = some fd) (hf : IsLoad f.type)
    (hup : (n.user fd).up = f :: up) (hok : env.sendOk fd)
    (h : (n.net.read fd up).serverStep (.frame (k + 1) f buf env) = .ok n'.net)
    (hpending : n'.pending = n.pending) (hshown : n'.shown = n.shown)
    (hreads : n'.reads =
      Function.update n.reads fd (n.net.world.server.historyReads env)) : n'.Sound := by
  obtain ⟨out, hs, -, -, hlink⟩ := GroupNet.serverStep_ok h
  have hs' : n.net.world.server.step (.frame (k + 1) f buf env) = .ok (out, n'.net.world.server) :=
    hs
  have hfd : fd ∈ n.net.conns := List.mem_of_getElem? hk
  obtain ⟨rfl, hup', hst, hnone, hdown, hno⟩ := (hI.phase fd hfd).request hup hf
  obtain ⟨hserver, hout⟩ := Server.load_of_frame rfl (hI.table.pollFd.mpr hk) hok hs'
  refine ⟨hserver ▸ hI.table, fun fd' hfd' => ?_⟩
  have hread : (n.net.read fd up).link fd' =
      if fd' = fd then { n.net.link fd with user := { n.user fd with up } } else n.net.link fd' :=
    n.net.link_read fd fd' up
  by_cases hne : fd' = fd
  · subst hne
    rw [if_pos rfl] at hread
    unfold InPhase user
    rw [hlink, hread, hpending, hnone, hshown, hno, hreads, Function.update_self]
    dsimp only [Link.post]
    rw [hst, hup', List.map_append, loads_append, hdown, List.nil_append]
    have hframes : ∀ nickname, loads ((sentTo out nickname fd').map Sent.frame) =
        n.net.world.server.historyFrames env := by
      intro nickname
      rw [map_frame_sentTo, hout, framesTo_map]
      exact loads_eq_self isLoad_historyFrames
    rw [hframes]
    exact .answered LoadState.noConfusion rfl
  · rw [if_neg hne] at hread
    have hlink' : n'.net.link fd' = n.net.link fd' := by
      rw [hlink, hread, hout, sentTo_map_of_ne (Ne.symm hne)]
      exact Link.post_nil _
    have huser : n'.user fd' = n.user fd' := congrArg Link.user hlink'
    have hfd' : fd' ∈ n.net.conns := by
      rw [GroupNet.conns, hserver] at hfd'
      exact hfd'
    refine (hI.phase fd' hfd').congr (by rw [huser]) (by rw [hpending]) (by rw [huser])
      (by rw [hlink']) (by rw [hshown]) ?_
    rw [hreads, Function.update_of_ne hne]

/-- The next frame to a client is one of a load only if its load is on: it is the next line, or the
end after all of them. -/
theorem InPhase.delivery (h : n.InPhase fd) {m : Sent} {ms : List Sent}
    (hdown : (n.net.link fd).down = m :: ms) (hm : IsLoad m.frame.type) :
    (n.user fd).loadingMessageState ≠ .idle ∧ n.pending fd = none ∧ loads (n.user fd).up = [] ∧
      (m.frame = lmpFrame LMP_GRP_LOAD_MSG [] ∧ loads (ms.map Sent.frame) = [] ∧
          n.shown fd = n.reads fd ∨
        ∃ line rest, m.frame = lmpFrame LMP_GRP_LOADING_MSG line ∧
          loads (ms.map Sent.frame) = rest.map (lmpFrame LMP_GRP_LOADING_MSG) ++
            [lmpFrame LMP_GRP_LOAD_MSG []] ∧ n.reads fd = n.shown fd ++ line :: rest) := by
  unfold InPhase at h
  rw [hdown, List.map_cons, loads_cons hm] at h
  generalize (n.user fd).loadingMessageState = st at h ⊢
  generalize loads (n.user fd).up = up at h ⊢
  generalize hfs : m.frame :: loads (ms.map Sent.frame) = fs at h
  generalize hpending : (n.pending fd).isSome = pending at h
  generalize n.shown fd = shown at h ⊢
  generalize n.reads fd = reads at h ⊢
  cases h with
  | idle => cases hfs
  | pending => cases hfs
  | requested => cases hfs
  | @answered _ _ _ rest hst hreads =>
    refine ⟨hst, by simpa using hpending, rfl, ?_⟩
    cases rest with
    | nil =>
      obtain ⟨hframe, hnil⟩ := List.cons.inj hfs
      exact .inl ⟨hframe, hnil, by rw [hreads, List.append_nil]⟩
    | cons line rest =>
      obtain ⟨hframe, hrest⟩ := List.cons.inj hfs
      exact .inr ⟨line, rest, hframe, hrest, hreads⟩

theorem sound_deliver (hI : n.Sound) (hfd : fd ∈ n.net.conns) {m : Sent} {ms : List Sent}
    (hdown : (n.net.link fd).down = m :: ms) {env : UserEnv} {buf : Bytes} {u : User}
    (hu : (n.user fd).receive env m.frame buf = .ok u)
    (hnet : n'.net = n.net.setLink fd { n.net.link fd with user := u, down := ms })
    (hpending : n'.pending = n.pending)
    (hshown : n'.shown = Function.update n.shown fd (n.shown fd ++ (n.net.link fd).shows))
    (hreads : n'.reads = n.reads) : n'.Sound := by
  by_cases hm : IsLoad m.frame.type
  · obtain ⟨hst, hnone, hup, hcase⟩ := (hI.phase fd hfd).delivery hdown hm
    have hst' : (n.net.link fd).user.loadingMessageState ≠ .idle := hst
    refine hI.setLink hnet ?_ fun fd' hne => ?_
    · rw [hpending, hshown, hreads, hnone, Function.update_self]
      dsimp only
      rw [Link.shows, hdown]
      dsimp only
      rcases hcase with ⟨hframe, hms, hall⟩ | ⟨line, rest, hframe, hms, hread⟩
      · obtain ⟨hidle, hup'⟩ := User.receive_load hu (by rw [hframe]; rfl)
        rw [hidle, hup', hup, hms]
        exact .idle
      · obtain ⟨hloading, hup', -⟩ := User.receive_loading hu (by rw [hframe]; rfl) hst
        rw [hloading, hup', hup, hms, if_pos ⟨by rw [hframe]; rfl, hst'⟩, hframe]
        exact .answered LoadState.noConfusion (by rw [hread, List.append_assoc]; rfl)
    · exact ⟨by rw [hpending], by rw [hshown, Function.update_of_ne hne], by rw [hreads]⟩
  · refine sound_posts hI hfd (User.posts_of_receive hu hm) ?_ hnet hpending ?_ hreads
    · rw [hdown, List.map_cons, loads_cons_of_not hm]
    · have hshows : (n.net.link fd).shows = [] := by
        rw [Link.shows, hdown]
        exact if_neg fun h => hm (.inr h.1)
      rw [hshown, hshows, List.append_nil, Function.update_eq_self]

theorem sound_groupStep (hI : n.Sound) {e : GroupEvent} (hok : n.net.SendsOk e)
    (htyped : ∀ fd line env, e = .typed fd line env → n.begins fd line = none)
    (h : n.groupStep e = .ok n') : n'.Sound := by
  obtain ⟨net, hnet, rfl⟩ := ok_of_map h
  cases GroupNet.moved_of_step hnet with
  | @accept fd uid nickname n₁ hfd h₁ => exact sound_accept hI hfd h₁ rfl rfl rfl rfl
  | @typed fd line env u hfd hu =>
    have hbegins := htyped fd line env rfl
    unfold begins at hbegins
    have hposts : User.Posts (n.user fd) ({ n.net.link fd with user := u } : Link).user := by
      apply User.posts_of_typed hu
      split at hbegins
      · exact .inl hbegins
      · rename_i hne
        exact .inr hne
    exact sound_posts hI hfd hposts rfl rfl rfl rfl rfl
  | @serve k buf env fd f up _ hk hup h₁ =>
    have hfd : fd ∈ n.net.conns := List.mem_of_getElem? hk
    have hhead : (n.user fd).up.head?.map Frame.type = some f.type := by
      unfold user
      rw [hup]
      rfl
    by_cases hf : IsLoad f.type
    · obtain ⟨rfl, -⟩ := (hI.phase fd hfd).request hup hf
      refine sound_request hI hk hf hup (hok fd hfd) h₁ rfl rfl ?_
      simp only [readsAfter, hk, hhead]
      exact if_pos rfl
    · refine sound_handle hI hf hup h₁ rfl rfl ?_
      simp only [readsAfter, hk, hhead]
      exact if_neg fun h => hf (.inl (Option.some.inj h))
  | @overlong k buf env fd f up _ hk hup h₁ =>
    have ht : (n.net.read fd up).world.server.TableOk := hI.table
    apply sound_close ht hk h₁
    intro fd' hfd' hne
    have hread : (n.net.read fd up).link fd' = n.net.link fd' := by
      rw [GroupNet.link_read, if_neg hne]
    have hreads : n.readsAfter (.serve k buf env) fd' = n.reads fd' := by
      simp only [readsAfter, hk]
      split
      · exact Function.update_of_ne hne _ _
      · rfl
    rw [hread]
    dsimp only
    rw [hreads]
    exact hI.phase fd' hfd'
  | hangup hk h₁ => exact sound_close hI.table hk h₁ fun fd' hfd' _ => hI.phase fd' hfd'
  | deliver hfd hdown hu => exact sound_deliver hI hfd hdown hu rfl rfl rfl rfl
  | drain => exact ⟨hI.table, hI.phase⟩

theorem sound_step (hI : n.Sound) {e : LoadEvent} (hok : n.SendsOk e) (h : n.step e = .ok n') :
    n'.Sound := by
  cases e with
  | group e =>
    by_cases htyped : ∃ fd line env, e = .typed fd line env
    · obtain ⟨fd, line, env, rfl⟩ := htyped
      simp only [step] at h
      split at h
      · rename_i hfd
        split at h
        · rename_i line' hbegins
          cases h
          unfold begins at hbegins
          split at hbegins
          · rename_i hidle
            exact sound_begin hI hfd.1 hfd.2 hidle _
          · cases hbegins
        · rename_i hbegins
          refine sound_groupStep hI (show n.net.SendsOk (.typed fd line env) from hok)
            (fun fd' line' env' he => ?_) h
          cases he
          exact hbegins
      · cases h
    · refine sound_groupStep hI (show n.net.SendsOk e from hok)
        (fun fd line env he => absurd ⟨fd, line, env, he⟩ htyped) ?_
      cases e with
      | typed fd line env => exact absurd ⟨fd, line, env, rfl⟩ htyped
      | _ => exact h
  | send fd env =>
    simp only [step] at h
    split at h
    · rename_i hfd
      split at h
      · rename_i line hpending
        cases h
        exact sound_send hI hfd hpending hok
      · cases h
    · cases h

theorem sound_start (listener : Int) (info : GroupInfo) : (start listener info).Sound :=
  ⟨.start listener info, fun _ h => nomatch h⟩

/-! ## Main result -/

theorem exists_mem_loads {fs : List Frame} : (∃ f ∈ loads fs, f.type = LMP_GRP_LOAD_MSG) ↔
    ∃ f ∈ fs, f.type = LMP_GRP_LOAD_MSG := by
  apply exists_congr
  intro f
  rw [loads, List.mem_filter, decide_eq_true_iff]
  exact ⟨fun h => ⟨h.1.1, h.2⟩, fun h => ⟨⟨h.1, .inl h.2⟩, h.2⟩⟩

theorem countP_loads (fs : List Frame) : (loads fs).countP (·.type = LMP_GRP_LOAD_MSG) =
    fs.countP (·.type = LMP_GRP_LOAD_MSG) := by
  rw [loads, List.countP_filter]
  apply List.countP_congr
  intro f _
  rw [Bool.and_eq_true, decide_eq_true_iff, decide_eq_true_iff]
  exact ⟨fun h => h.1, fun h => ⟨h, .inl h⟩⟩

theorem loads_ne_nil {fs : List Frame} : loads fs ≠ [] ↔ ∃ f ∈ fs, IsLoad f.type := by
  rw [loads, Ne, List.filter_eq_nil_iff]
  simp

theorem phase_facts {st : LoadState} {pending : Bool} {up down : List Frame}
    {shown reads : List Bytes} (h : LoadPhase st pending up down shown reads) :
    (st ≠ .idle ↔ pending = true ∨ (∃ f ∈ up, f.type = LMP_GRP_LOAD_MSG) ∨ down ≠ []) ∧
      pending.toNat + up.countP (·.type = LMP_GRP_LOAD_MSG) +
        down.countP (·.type = LMP_GRP_LOAD_MSG) ≤ 1 := by
  cases h with
  | idle => simp
  | pending => simp
  | requested => simp [lmpFrame]
  | answered hst =>
    refine ⟨by simp [hst], ?_⟩
    rw [List.countP_append, List.countP_map]
    simp [lmpFrame, Function.comp_def, LMP_GRP_LOAD_MSG, LMP_GRP_LOADING_MSG]

/-- The state of the client on `fd` is idle unless a request of it is with its main thread, on its
way, or being answered, and there is at most one request. -/
structure Tracked (n : LoadNet) (fd : Int) : Prop where
  busy_iff : (n.user fd).loadingMessageState ≠ .idle ↔ (n.pending fd).isSome = true ∨
    (∃ f ∈ (n.user fd).up, f.type = LMP_GRP_LOAD_MSG) ∨
    ∃ f ∈ (n.net.link fd).down.map Sent.frame, IsLoad f.type
  outstanding : (n.pending fd).isSome.toNat +
    (n.user fd).up.countP (·.type = LMP_GRP_LOAD_MSG) +
    ((n.net.link fd).down.map Sent.frame).countP (·.type = LMP_GRP_LOAD_MSG) ≤ 1

/-- The client on `fd` has received `m` into `buf`: a line is shown, and at the end of a load all
the lines have been shown that were read for it. -/
structure Receives (n n' : LoadNet) (fd : Int) (m : Sent) (buf : Bytes) : Prop where
  line : m.frame.type = LMP_GRP_LOADING_MSG → (n.user fd).loadingMessageState ≠ .idle ∧
    n'.shown fd = n.shown fd ++ [m.frame.payload] ∧
    ∃ nickname, (n'.user fd).stdout = (n.user fd).stdout ++ [str "[" ++ nickname ++ str "]: " ++
      (historySplit (m.frame.received buf).buf).2]
  last : m.frame.type = LMP_GRP_LOAD_MSG → n.shown fd = n.reads fd ∧
    (n'.user fd).loadingMessageState = .idle

theorem InPhase.tracked (h : n.InPhase fd) : n.Tracked fd := by
  obtain ⟨hiff, hcount⟩ := phase_facts h
  rw [exists_mem_loads, loads_ne_nil] at hiff
  rw [countP_loads, countP_loads] at hcount
  exact ⟨hiff, hcount⟩

theorem receives_of_step (hI : n.Sound) {buf : Bytes} {env : UserEnv} {m : Sent} {ms : List Sent}
    (hdown : (n.net.link fd).down = m :: ms)
    (h : n.step (.group (.deliver fd buf env)) = .ok n') : n.Receives n' fd m buf := by
  obtain ⟨net, hnet, rfl⟩ := ok_of_map h
  cases GroupNet.moved_of_step hnet with
  | @deliver _ _ _ m' ms' u hfd hdown' hu =>
    obtain ⟨rfl, rfl⟩ := List.cons.inj (hdown.symm.trans hdown')
    have huser : ∀ n' : LoadNet,
        n'.net = n.net.setLink fd { n.net.link fd with user := u, down := ms } →
        n'.user fd = u := by
      intro n' hn'
      rw [user, hn', GroupNet.link_setLink, if_pos rfl]
    refine ⟨fun hline => ?_, fun hlast => ?_⟩
    · obtain ⟨hst, -⟩ := (hI.phase fd hfd).delivery hdown (.inr hline)
      obtain ⟨-, -, hout⟩ := User.receive_loading hu hline hst
      refine ⟨hst, ?_, by rw [huser _ rfl]; exact hout⟩
      have hst' : (n.net.link fd).user.loadingMessageState ≠ .idle := hst
      change Function.update n.shown fd _ fd = _
      rw [Function.update_self, Link.shows, hdown]
      dsimp only
      rw [if_pos ⟨hline, hst'⟩]
    · obtain ⟨-, -, -, hcase⟩ := (hI.phase fd hfd).delivery hdown (.inl hlast)
      refine ⟨?_, by rw [huser _ rfl]; exact (User.receive_load hu hlast).1⟩
      rcases hcase with ⟨-, -, hall⟩ | ⟨line, rest, hframe, -⟩
      · exact hall
      · rw [hframe] at hlast
        have hne : LMP_GRP_LOADING_MSG ≠ LMP_GRP_LOAD_MSG := by decide
        exact absurd hlast hne

/-- When the request of the client on `fd` is handled nothing has been shown for it, and the lines
are those that the history has then. -/
theorem reads_of_serve (hI : n.Sound) (hfd : fd ∈ n.net.conns) {k : Nat} {buf : Bytes} {env : Env}
    {f : Frame} {up : List Frame} (hk : n.net.conns[k]? = some fd) (hup : (n.user fd).up = f :: up)
    (hf : f.type = LMP_GRP_LOAD_MSG) (h : n.step (.group (.serve k buf env)) = .ok n') :
    n'.shown fd = [] ∧ n'.reads fd = n.net.world.server.historyReads env := by
  obtain ⟨net, hnet, rfl⟩ := ok_of_map h
  obtain ⟨-, -, -, -, -, hshown⟩ := (hI.phase fd hfd).request hup (.inl hf)
  have hhead : (n.user fd).up.head?.map Frame.type = some LMP_GRP_LOAD_MSG := by
    rw [hup, List.head?_cons, Option.map_some, hf]
  refine ⟨hshown, ?_⟩
  simp only [readsAfter, hk, hhead]
  rw [if_pos trivial, Function.update_self]

/-- **Loading the history**, while others send messages: the state of each client tells where its
request is, and it is shown what the server read when it handled the request, line by line. -/
theorem loads_of_run (listener : Int) (info : GroupInfo) (es : List LoadEvent)
    (hC : Meets step SendsOk (start listener info) es)
    (h : exec step (start listener info) es = .ok n) (fd : Int) (hfd : fd ∈ n.net.conns) :
    n.Tracked fd ∧
      (∀ k buf env f up n', n.net.conns[k]? = some fd → (n.user fd).up = f :: up →
        f.type = LMP_GRP_LOAD_MSG → n.step (.group (.serve k buf env)) = .ok n' →
        n'.shown fd = [] ∧ n'.reads fd = n.net.world.server.historyReads env) ∧
      ∀ buf env m ms n', (n.net.link fd).down = m :: ms →
        n.step (.group (.deliver fd buf env)) = .ok n' → n.Receives n' fd m buf := by
  have hI : n.Sound := exec_invariant (fun _ _ _ hI hC h => sound_step hI hC h)
    (sound_start listener info) hC h
  refine ⟨(hI.phase fd hfd).tracked, ?_, ?_⟩
  · intro k buf env f up n' hk hup hf hstep
    exact reads_of_serve hI hfd hk hup hf hstep
  · intro buf env m ms n' hdown hstep
    exact receives_of_step hI hdown hstep

/-- bob says hi and ann loads the history; between the two halves of her command she receives the
message, and bob says something more. -/
def annLoads : List LoadEvent :=
  annAndBob.map .group ++ [.group (.typed 6 (str "hi\n") .allOk), .group (.serve 1 [] .allOk),
    .group (.typed 5 (str "/load\n") .allOk), .group (.deliver 5 [] .allOk), .send 5 .allOk,
    .group (.typed 6 (str "ho\n") .allOk), .group (.serve 0 [] .allOk),
    .group (.serve 1 [] .allOk), .group (.deliver 5 [] .allOk)]

theorem loads_of_run_annLoads :
    ∃ n, exec step (start 3 gserverInfo) annLoads = .ok n ∧ n.Tracked 5 ∧
      n.reads 5 = [str "b0000002hi\n"] ∧ n.shown 5 = [str "b0000002hi\n"] := by
  have hC : Meets step SendsOk (start 3 gserverInfo) annLoads := by decide +kernel
  obtain ⟨n, h, hfd, hreads, hshown⟩ := exists_ok (P := fun n => 5 ∈ n.net.conns ∧
      n.reads 5 = [str "b0000002hi\n"] ∧ n.shown 5 = [str "b0000002hi\n"])
    (show (exec step (start 3 gserverInfo) annLoads).isOk by decide +kernel) (by decide +kernel)
  exact ⟨n, h, (loads_of_run 3 gserverInfo annLoads hC h 5 hfd).1, hreads, hshown⟩

end LoadNet

end SocketSpeak
