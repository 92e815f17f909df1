import SocketSpeak.Peer.Names
import SocketSpeak.Peer.PlainText

/-!
# One line, one input

A line that does not fit the buffer of `fgets` comes in pieces, and each piece is looked at as if it
were a line. `one_input_iff` says for the prompt of the group client and for both loops which lines
are one input all the same.
-/

namespace SocketSpeak
open CLib

/-- What a round of a loop makes of what it has read. -/
inductive Input where
  | message (text : Bytes)
  | command (line : Bytes)
  deriving DecidableEq

/-- At most one message or command, and which of the two is decided by the first character. -/
structure OneInput (inputs : List Input) (line : Bytes) : Prop where
  one : inputs.length ≤ 1
  command : ∀ c, .command c ∈ inputs → line.head? = some 0x2F
  message : ∀ t, .message t ∈ inputs → line.head? ≠ some 0x2F

/-- The lines as they are typed. -/
def typedLines (ls : List Bytes) : Bytes := (ls.map (· ++ [NEWLINE])).flatten

/-- Each line is read by itself, and is one input. -/
structure OneEach (inputs : Bytes → List Input) (ls : List Bytes) : Prop where
  byLine : inputs (typedLines ls) = ls.flatMap fun l => inputs (l ++ [NEWLINE])
  one : ∀ l ∈ ls, OneInput (inputs (l ++ [NEWLINE])) l

/-- What the prompt of `main` in `gclient` leaves to be read. -/
def promptRest (stdin : Bytes) : Bytes :=
  match fgets NICKNAME_MAX_LEN stdin with
  | none => []
  | some (_, rest) => rest

/-! ## The rounds of the loops -/

namespace Chatter

/-- What `chat_loop` takes the piece for. -/
def input (piece : Bytes) : Input :=
  let line := stripNewline piece
  if line.head? = some 0x2F then .command line else .message line

/-- The command is dispatched, or the text is sent. -/
def obey (p : Chatter) (env : ChatEnv) : Input → Except Halt Chatter
  | .command line => do
    let (r, p) ← dispatchSend initCommands env (line.drop 1) p
    match r with
    | .success => return p
    | .error => return p.print (str "Error executing '" ++ line ++ str "'\n")
    | .unrecognized => return p.print (str "Unrecognized command '" ++ line ++ str "'\n")
  | .message text =>
    let (r, p) := p.lmpSend env LMP_MSG text
    .ok (if r = 0 then (p.historyAppend env p.myNick.toStr text).2 else p)

/-- The inputs of all rounds of `chat_loop`. -/
def inputs (stdin : Bytes) : List Input := (fgetsAll LINE_SIZE stdin).map input

theorem typed_eq (p : Chatter) (env : ChatEnv) (piece : Bytes) :
    p.typed env piece = p.obey env (input piece) := by
  unfold typed input
  dsimp only
  split
  · rfl
  · rfl

/-- `chat_loop` does what its inputs say, and nothing else. -/
theorem types_eq (p : Chatter) (env : ChatEnv) (stdin : Bytes) :
    p.types env stdin = (inputs stdin).foldlM (fun p i => p.obey env i) p := by
  rw [types, inputs, List.foldlM_map]
  simp only [typed_eq]

end Chatter

namespace User

/-- What `chat_loop_user` takes the piece for; a message that is too long is refused. -/
def input? (piece : Bytes) : Option Input :=
  let line := stripNewline piece
  if line.head? = some 0x2F then some (.command line)
  else if line.length + 5 < LINE_SIZE then some (.message line)
  else none

/-- The command is dispatched; a message is a command as well. -/
def obey (u : User) (env : UserEnv) : Option Input → Except Fault User
  | none => .ok (u.print (str "Message too long\n"))
  | some i => do
    let line := match i with
      | .command line => line
      | .message text => msgCommand text
    let (r, u) ← dispatchSend initCommands env (line.drop 1) u
    match r with
    | .success => return u
    | .error => return u.print (str "Error executing '" ++ line ++ str "'\n")
    | .unrecognized => return u.print (str "Unrecognized command '" ++ line ++ str "'\n")

/-- The inputs of all rounds of `chat_loop_user`. -/
def inputs (stdin : Bytes) : List Input := (fgetsAll LINE_SIZE stdin).filterMap input?

theorem typed_eq (u : User) (env : UserEnv) (piece : Bytes) :
    u.typed env piece = u.obey env (input? piece) := by
  unfold typed input?
  dsimp only
  by_cases hslash : (stripNewline piece).head? = some 0x2F
  · have hline : asCommand (stripNewline piece) = some (stripNewline piece) := if_pos hslash
    rw [if_pos hslash, hline]
    rfl
  rw [if_neg hslash]
  by_cases hroom : (stripNewline piece).length + 5 < LINE_SIZE
  · have hline : asCommand (stripNewline piece) = some (msgCommand (stripNewline piece)) := by
      rw [asCommand, if_neg hslash]
      exact if_pos hroom
    rw [if_pos hroom, hline]
    rfl
  · have hline : asCommand (stripNewline piece) = none := by
      rw [asCommand, if_neg hslash]
      exact if_neg hroom
    rw [if_neg hroom, hline]
    rfl

/-- `chat_loop_user` does what its inputs say, and refuses the rest. -/
theorem types_eq (u : User) (env : UserEnv) (stdin : Bytes) :
    u.types env stdin =
      ((fgetsAll LINE_SIZE stdin).map input?).foldlM (fun u i => u.obey env i) u := by
  rw [types, List.foldlM_map]
  simp only [typed_eq]

end User

/-! ## What is read of a line -/

section
variable {l t : Bytes} {ls : List Bytes}

theorem fgetsAll_typedLines (ls : List Bytes) : fgetsAll LINE_SIZE (typedLines ls) =
    ls.flatMap fun l => fgetsAll LINE_SIZE (l ++ [NEWLINE]) := by
  have hterm : ∀ b ∈ ls.map (· ++ [NEWLINE]), Terminated b := by
    rintro b hb
    obtain ⟨l, -, rfl⟩ := List.mem_map.mp hb
    exact terminated_concat l
  rw [typedLines, fgetsAll_flatten (by decide) hterm, List.flatMap_map]

/-- The string in the buffer, whether the newline has been read or not. -/
theorem stripNewline_piece {n : Nat} (hn : 1 < n) (h : NEWLINE ∉ t) :
    stripNewline (piece n (t ++ [NEWLINE])) = (cstr t).take (n - 1) := by
  have hlast (s : Bytes) (hs : NEWLINE ∉ s) : (cstr s).getLast? ≠ some NEWLINE := fun hm =>
    hs ((List.takeWhile_prefix _).mem (List.mem_of_getLast? hm))
  by_cases hfits : t.length + 1 < n
  · have hle : (cstr t).length ≤ n - 1 :=
      Nat.le_trans (List.takeWhile_prefix _).length_le (by omega)
    rw [piece_line h hfits [], List.take_of_length_le hle]
    by_cases hnul : NulFree t
    · rw [stripNewline_line hnul, hnul.cstr_eq]
    · rw [stripNewline, cstr_append_of_mem (Classical.not_not.mp hnul), if_neg (hlast t h)]
  · have hpiece : piece n (t ++ [NEWLINE]) = t.take (n - 1) := by
      rw [piece, takeLine_line h, List.take_append_of_le_length (by omega)]
    have hcstr : cstr (t.take (n - 1)) = (cstr t).take (n - 1) := List.take_takeWhile.symm
    rw [hpiece, stripNewline, if_neg (hlast _ fun hm => h (List.mem_of_mem_take hm)), hcstr]

/-- The first character is read. -/
theorem head_piece {n : Nat} (hn : 1 < n) (h : NEWLINE ∉ t) :
    (stripNewline (piece n (t ++ [NEWLINE]))).head? = some 0x2F ↔ t.head? = some 0x2F := by
  rw [stripNewline_piece hn h, List.head?_take, if_neg (by omega), cstr, List.head?_takeWhile,
    Option.filter_eq_some_iff]
  exact and_iff_left (by decide)

theorem length_piece (h : NEWLINE ∉ t) :
    (stripNewline (piece LINE_SIZE (t ++ [NEWLINE]))).length + 5 < LINE_SIZE ↔
      strlen t ≤ MAX_TEXT_LEN := by
  rw [stripNewline_piece (by decide) h, List.length_take, strlen, LINE_SIZE, MAX_TEXT_LEN]
  omega

/-! ## The prompt -/

/-- The prompt consumes the line if the buffer has room for all of it. -/
theorem promptRest_iff (h : NEWLINE ∉ l) : promptRest (typedLines (l :: ls)) = typedLines ls ↔
    l.length + 1 < NICKNAME_MAX_LEN := by
  have hlines : typedLines (l :: ls) = l ++ NEWLINE :: typedLines ls := by
    rw [typedLines, List.map_cons, List.flatten_cons, List.append_assoc, List.singleton_append]
    rfl
  have hrest : promptRest (typedLines (l :: ls)) = (l ++ NEWLINE :: typedLines ls).drop
      (piece NICKNAME_MAX_LEN (l ++ NEWLINE :: typedLines ls)).length := by
    rw [promptRest, hlines, fgets_eq (by simp)]
  rw [hrest]
  constructor
  · intro heq
    have hlen := congrArg List.length heq
    have htake : (piece NICKNAME_MAX_LEN (l ++ NEWLINE :: typedLines ls)).length ≤
        NICKNAME_MAX_LEN - 1 := List.length_take_le _ _
    rw [List.length_drop, List.length_append, List.length_cons] at hlen
    rw [NICKNAME_MAX_LEN] at htake hlen ⊢
    omega
  · intro hfits
    rw [piece_line h hfits]
    exact (congrArg (List.drop _) (List.append_cons ..)).trans List.drop_left

/-! ## `chat_loop` -/

namespace Chatter

theorem inputs_typedLines (ls : List Bytes) :
    inputs (typedLines ls) = ls.flatMap fun l => inputs (l ++ [NEWLINE]) := by
  rw [inputs, fgetsAll_typedLines, List.map_flatMap]
  rfl

theorem input_piece (h : NEWLINE ∉ t) :
    (∀ c, input (piece LINE_SIZE (t ++ [NEWLINE])) = .command c → t.head? = some 0x2F) ∧
      ∀ s, input (piece LINE_SIZE (t ++ [NEWLINE])) = .message s → t.head? ≠ some 0x2F := by
  have hhead := head_piece (n := LINE_SIZE) (by decide) h
  unfold input
  dsimp only
  split
  · rename_i hslash
    exact ⟨fun _ _ => hhead.mp hslash, nofun⟩
  · rename_i hplain
    exact ⟨nofun, fun _ _ hslash => hplain (hhead.mpr hslash)⟩

/-- A line is one input if it is read in one piece. -/
theorem oneInput_iff (h : NEWLINE ∉ l) :
    OneInput (inputs (l ++ [NEWLINE])) l ↔ l.length + 1 < LINE_SIZE := by
  rw [inputs, fgetsAll_eq_cuts (by decide) h, List.map_map]
  constructor
  · intro hone
    have hle := hone.one
    rw [List.length_map, length_cuts] at hle
    have hzero : l.length / (LINE_SIZE - 1) = 0 := Nat.le_zero.mp (Nat.le_of_succ_le_succ hle)
    exact Nat.add_lt_of_lt_sub ((Nat.div_eq_zero_iff_lt (by decide)).mp hzero)
  · intro hfits
    obtain ⟨hcommand, hmessage⟩ := input_piece h
    rw [cuts_of_lt hfits, List.map_singleton]
    refine ⟨Nat.le_refl 1, fun c hc => ?_, fun s hs => ?_⟩
    · exact hcommand c (List.mem_singleton.mp hc).symm
    · exact hmessage s (List.mem_singleton.mp hs).symm

end Chatter

/-! ## `chat_loop_user` -/

namespace User

/-- A piece that is not refused. -/
def Heard (t : Bytes) : Prop := t.head? = some 0x2F ∨ strlen t ≤ MAX_TEXT_LEN

instance (t : Bytes) : Decidable (Heard t) := inferInstanceAs (Decidable (_ ∨ _))

/-- Only the first piece may begin with a slash, and all pieces but one are too long for a
message. -/
structure LineOk (l : Bytes) : Prop where
  plain : ∀ t ∈ (cuts LINE_SIZE l).tail, t.head? ≠ some 0x2F
  refused : (cuts LINE_SIZE l).countP (Heard ·) ≤ 1

instance (l : Bytes) : Decidable (LineOk l) :=
  decidable_of_iff ((∀ t ∈ (cuts LINE_SIZE l).tail, t.head? ≠ some 0x2F) ∧
    (cuts LINE_SIZE l).countP (Heard ·) ≤ 1) ⟨fun ⟨h1, h2⟩ => ⟨h1, h2⟩, fun h => ⟨h.1, h.2⟩⟩

theorem inputs_typedLines (ls : List Bytes) :
    inputs (typedLines ls) = ls.flatMap fun l => inputs (l ++ [NEWLINE]) := by
  rw [inputs, fgetsAll_typedLines, List.filterMap_flatMap]
  rfl

theorem isSome_input? (h : NEWLINE ∉ t) :
    (input? (piece LINE_SIZE (t ++ [NEWLINE]))).isSome = true ↔ Heard t := by
  rw [Heard, ← head_piece (n := LINE_SIZE) (by decide) h, ← length_piece h]
  unfold input?
  dsimp only
  split_ifs with hslash hroom
  · exact iff_of_true rfl (.inl hslash)
  · exact iff_of_true rfl (.inr hroom)
  · exact iff_of_false nofun fun hor => hor.elim hslash hroom

/-- What is not refused is taken for the same as by `chat_loop`. -/
theorem input_of_input? {piece : Bytes} {i : Input} (h : input? piece = some i) :
    Chatter.input piece = i := by
  unfold input? at h
  unfold Chatter.input
  dsimp only at h ⊢
  split_ifs at h ⊢
  · exact Option.some.inj h
  · exact Option.some.inj h

theorem inputs_line (h : NEWLINE ∉ l) : inputs (l ++ [NEWLINE]) =
    (cuts LINE_SIZE l).filterMap fun t => input? (piece LINE_SIZE (t ++ [NEWLINE])) := by
  rw [inputs, fgetsAll_eq_cuts (by decide) h, List.filterMap_map]
  rfl

theorem length_inputs_line (h : NEWLINE ∉ l) :
    (inputs (l ++ [NEWLINE])).length = (cuts LINE_SIZE l).countP (Heard ·) := by
  rw [inputs_line h, List.length_filterMap_eq_countP]
  refine List.countP_congr fun t ht => ?_
  rw [isSome_input? (newline_notMem_cuts h ht), decide_eq_true_eq]

theorem exists_cuts (l : Bytes) : ∃ rest, cuts LINE_SIZE l = l :: rest := by
  by_cases hfits : l.length + 1 < LINE_SIZE
  · exact ⟨_, cuts_of_lt hfits⟩
  · exact ⟨_, cuts_of_le (by decide) (Nat.not_lt.mp hfits)⟩

/-- Two pieces that are heard are two inputs. -/
theorem not_heard_of_refused {rest : List Bytes} (hcuts : cuts LINE_SIZE l = l :: rest)
    (hle : (cuts LINE_SIZE l).countP (Heard ·) ≤ 1) (hl : Heard l) (ht : t ∈ rest) : ¬ Heard t := by
  intro hheard
  have hcount : (l :: rest).countP (Heard ·) = rest.countP (Heard ·) + 1 :=
    List.countP_cons_of_pos (decide_eq_true hl)
  rw [hcuts, hcount] at hle
  have hpos : 0 < rest.countP (Heard ·) := List.countP_pos_iff.mpr ⟨t, ht, decide_eq_true hheard⟩
  omega

theorem oneInput_iff (h : NEWLINE ∉ l) : OneInput (inputs (l ++ [NEWLINE])) l ↔ LineOk l := by
  obtain ⟨rest, hcuts⟩ := exists_cuts l
  have hmem : ∀ t ∈ rest, NEWLINE ∉ t := fun t ht =>
    newline_notMem_cuts h (hcuts ▸ List.mem_cons_of_mem _ ht)
  constructor
  · intro hone
    have hle := hone.one
    rw [length_inputs_line h] at hle
    refine ⟨fun t ht hslash => ?_, hle⟩
    rw [hcuts, List.tail_cons] at ht
    -- a command that is found in the line makes the line a command itself, so there are two
    obtain ⟨i, hi⟩ := Option.isSome_iff_exists.mp ((isSome_input? (hmem t ht)).mpr (.inl hslash))
    have hin : i ∈ inputs (l ++ [NEWLINE]) := by
      rw [inputs_line h, hcuts]
      exact List.mem_filterMap.mpr ⟨t, List.mem_cons_of_mem _ ht, hi⟩
    cases i with
    | message s => exact (Chatter.input_piece (hmem t ht)).2 s (input_of_input? hi) hslash
    | command c =>
      exact not_heard_of_refused hcuts hle (.inl (hone.command c hin)) ht (.inl hslash)
  · intro hok
    have hplain : ∀ t ∈ rest, t.head? ≠ some 0x2F := fun t ht =>
      hok.plain t (by rwa [hcuts, List.tail_cons])
    refine ⟨(length_inputs_line h).trans_le hok.refused, fun c hc => ?_, fun s hs hslash => ?_⟩
    · rw [inputs_line h, hcuts] at hc
      obtain ⟨t, ht, hi⟩ := List.mem_filterMap.mp hc
      rcases List.mem_cons.mp ht with rfl | ht
      · exact (Chatter.input_piece h).1 c (input_of_input? hi)
      · have hslash := (Chatter.input_piece (hmem t ht)).1 c (input_of_input? hi)
        exact absurd hslash (hplain t ht)
    · rw [inputs_line h, hcuts] at hs
      obtain ⟨t, ht, hi⟩ := List.mem_filterMap.mp hs
      rcases List.mem_cons.mp ht with rfl | ht
      · exact (Chatter.input_piece h).2 s (input_of_input? hi) hslash
      · have hheard : Heard t :=
          (isSome_input? (hmem t ht)).mp (Option.isSome_iff_exists.mpr ⟨_, hi⟩)
        exact not_heard_of_refused hcuts hok.refused (.inl hslash) ht hheard

end User

end

/-! ## Main result -/

/-- **One typed line is one input** where it is short enough: the prompt consumes the line that has
room in its buffer, and a line is one input of `chat_loop` if it is read in one piece, and one of
`chat_loop_user` if it is taken for one in spite of its pieces. -/
theorem one_input_iff (first : Bytes) (ls : List Bytes) (hfirst : NEWLINE ∉ first)
    (hls : ∀ l ∈ ls, NEWLINE ∉ l) :
    (promptRest (typedLines (first :: ls)) = typedLines ls ↔
      first.length + 1 < NICKNAME_MAX_LEN) ∧
    (OneEach Chatter.inputs ls ↔ ∀ l ∈ ls, l.length + 1 < LINE_SIZE) ∧
    (OneEach User.inputs ls ↔ ∀ l ∈ ls, User.LineOk l) := by
  refine ⟨promptRest_iff hfirst, ⟨fun h l hl => ?_, fun h => ?_⟩, ⟨fun h l hl => ?_, fun h => ?_⟩⟩
  · exact (Chatter.oneInput_iff (hls l hl)).mp (h.one l hl)
  · exact ⟨Chatter.inputs_typedLines ls, fun l hl => (Chatter.oneInput_iff (hls l hl)).mpr (h l hl)⟩
  · exact (User.oneInput_iff (hls l hl)).mp (h.one l hl)
  · exact ⟨User.inputs_typedLines ls, fun l hl => (User.oneInput_iff (hls l hl)).mpr (h l hl)⟩

/-- A line of 2045 bytes is refused in both of its pieces. -/
theorem one_input_refused :
    let ls := [List.replicate 2045 0x61, str "/gi"]
    promptRest (typedLines (str "ann" :: ls)) = typedLines ls ∧ ¬ OneEach Chatter.inputs ls ∧
      OneEach User.inputs ls := by
  intro ls
  obtain ⟨hprompt, hchat, huser⟩ := one_input_iff (str "ann") ls (by decide) (by decide +kernel)
  refine ⟨hprompt.mpr (by decide), fun h => ?_, huser.mpr (by decide +kernel)⟩
  exact absurd (hchat.mp h) (by decide +kernel)

/-- A message with a command in its second piece, and a nickname that is too long. -/
theorem command_of_long_line :
    let l := List.replicate 1023 0x61 ++ str "/nick bob"
    NEWLINE ∉ l ∧ l.head? ≠ some 0x2F ∧ ¬ OneEach Chatter.inputs [l] ∧
      ¬ OneEach User.inputs [l] ∧ promptRest (typedLines [l]) ≠ [] ∧
      ∃ p p', Chatter.main (str "/home/ann") none (fun _ => none) = .ok p ∧
        p.types .allOk (l ++ [NEWLINE]) = .ok p' ∧ p'.myNick.toStr = str "bob" := by
  intro l
  have hline : l.head? ≠ some 0x2F := by decide +kernel
  refine ⟨by decide +kernel, hline, fun h => ?_, fun h => ?_, by decide +kernel, ?_⟩
  · have hone := (h.one l List.mem_cons_self).one
    exact absurd hone (by decide +kernel)
  · have hcommand := (h.one l List.mem_cons_self).command (str "/nick bob")
    exact hline (hcommand (by decide +kernel))
  · obtain ⟨p, hp, hok, hnick⟩ := exists_ok
      (x := Chatter.main (str "/home/ann") none fun _ => none)
      (P := fun p => (p.types .allOk (l ++ [NEWLINE])).isOk ∧
        ∀ p' ∈ (p.types .allOk (l ++ [NEWLINE])).toOption, p'.myNick.toStr = str "bob")
      rfl (by decide +kernel)
    obtain ⟨p', hp', hnick⟩ := exists_ok hok hnick
    exact ⟨p, p', hp, hp', hnick⟩

end SocketSpeak
