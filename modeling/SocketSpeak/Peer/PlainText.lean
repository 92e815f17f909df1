import SocketSpeak.Peer.UserDirectory

/-!
# Plain text and `/msg`

A line that does not begin with a slash is sent as it is by `chat_loop`, while `chat_loop_user` puts
`/msg ` in front of it and has it dispatched, as both loops do with a line that begins so. What is
dispatched must be shorter than the buffer of `dispatch_send`.
-/

namespace SocketSpeak
open CLib

/-- The longest text for which `chat_loop_user` has room behind `/msg `. -/
def MAX_TEXT_LEN : Nat := 1018

/-- What can be typed as a plain text: a line that fits and is no command. -/
structure IsPlainText (t : Bytes) : Prop where
  nulFree : NulFree t
  line : NEWLINE ∉ t
  plain : t.head? ≠ some 0x2F
  length_le : t.length ≤ MAX_TEXT_LEN

instance (t : Bytes) : Decidable (IsPlainText t) :=
  decidable_of_iff (NulFree t ∧ NEWLINE ∉ t ∧ t.head? ≠ some 0x2F ∧ t.length ≤ MAX_TEXT_LEN)
    ⟨fun ⟨h1, h2, h3, h4⟩ => ⟨h1, h2, h3, h4⟩, fun ⟨h1, h2, h3, h4⟩ => ⟨h1, h2, h3, h4⟩⟩

/-- `/msg ` and the text -/
def msgCommand (t : Bytes) : Bytes := str "/msg " ++ t

/-- The rounds of `chat_loop`, where `stdin` is what is typed. -/
def Chatter.types (p : Chatter) (env : ChatEnv) (stdin : Bytes) : Except Halt Chatter :=
  (fgetsAll LINE_SIZE stdin).foldlM (fun p line => p.typed env line) p

/-- The rounds of `chat_loop_user`, whose `line` has the same size. -/
def User.types (u : User) (env : UserEnv) (stdin : Bytes) : Except Fault User :=
  (fgetsAll LINE_SIZE stdin).foldlM (fun u line => u.typed env line) u

/-- What is typed is sent as one message, the text `t`, and nothing else is sent. -/
def Chatter.Sends (p : Chatter) (env : ChatEnv) (stdin t : Bytes) : Prop :=
  ∃ p', p.types env stdin = .ok p' ∧ p'.up = p.up ++ [lmpFrame LMP_MSG t]

/-- The same in the group client. -/
def User.Sends (u : User) (env : UserEnv) (stdin t : Bytes) : Prop :=
  ∃ u', u.types env stdin = .ok u' ∧ u'.up = u.up ++ [lmpFrame LMP_MSG t]

/-! ## The line -/

/-- The line that is typed is read whole, and comes out of `strip_newline` without its newline. -/
theorem stripNewline_line {t : Bytes} (hfree : NulFree t) :
    stripNewline (t ++ [NEWLINE]) = t := by
  have hnul : NulFree (t ++ [NEWLINE]) := by
    rw [NulFree, List.mem_append, List.mem_singleton]
    exact fun h => h.elim hfree (by decide)
  rw [stripNewline, hnul.cstr_eq, List.getLast?_concat, if_pos rfl, List.dropLast_concat]

variable {t : Bytes}

theorem Chatter.types_line (p : Chatter) (env : ChatEnv) (hline : NEWLINE ∉ t)
    (hlen : t.length + 1 < LINE_SIZE) :
    p.types env (t ++ [NEWLINE]) = p.typed env (t ++ [NEWLINE]) := by
  rw [types, fgetsAll_line (by decide) hline hlen]
  exact bind_pure _

theorem User.types_line (u : User) (env : UserEnv) (hline : NEWLINE ∉ t)
    (hlen : t.length + 1 < LINE_SIZE) :
    u.types env (t ++ [NEWLINE]) = u.typed env (t ++ [NEWLINE]) := by
  rw [types, fgetsAll_line (by decide) hline hlen]
  exact bind_pure _

theorem length_msgCommand (t : Bytes) : (msgCommand t).length = t.length + 5 := by
  rw [msgCommand, List.length_append]
  exact Nat.add_comm _ _

theorem IsPlainText.msgCommand (ht : IsPlainText t) :
    NulFree (msgCommand t) ∧ NEWLINE ∉ SocketSpeak.msgCommand t := by
  constructor
  · rw [NulFree, SocketSpeak.msgCommand, List.mem_append]
    exact fun h => h.elim (by decide) ht.nulFree
  · rw [SocketSpeak.msgCommand, List.mem_append]
    exact fun h => h.elim (by decide) ht.line

/-- The command that is dispatched. -/
theorem drop_msgCommand (t : Bytes) : (msgCommand t).drop 1 = str "msg" ++ str " " ++ t := rfl

theorem head_msgCommand (t : Bytes) : (msgCommand t).head? = some 0x2F := rfl

/-- The longest text for which `dispatch_send` has room behind `msg `. -/
def MAX_COMMAND_TEXT_LEN : Nat := 251

theorem length_command (t : Bytes) : (str "msg" ++ str " " ++ t).length = t.length + 4 := by
  rw [List.length_append]
  exact Nat.add_comm _ _

theorem IsPlainText.nulFree_command (ht : IsPlainText t) : NulFree (str "msg" ++ str " " ++ t) := by
  rw [NulFree, List.mem_append]
  exact fun h => h.elim (by decide) ht.nulFree

/-- A command that fits is dispatched with all of the text for its argument. -/
theorem dispatchSend_msg {ε σ φ : Type} {table : CommandTable ε σ φ} {env : ε} {s : σ}
    {send : SendHandler ε σ φ} {recv : Option (RecvHandler ε σ φ)} (ht : IsPlainText t)
    (hlen : t.length ≤ MAX_COMMAND_TEXT_LEN)
    (hmsg : table.find? (fun e => e.name = str "msg") =
      some ⟨LMP_MSG, str "msg", some send, recv⟩) :
    dispatchSend table env (str "msg" ++ str " " ++ t) s = send env LMP_MSG t s := by
  rw [MAX_COMMAND_TEXT_LEN] at hlen
  apply dispatchSend_args (e := ⟨LMP_MSG, str "msg", some send, recv⟩) hmsg rfl
  · exact show str "msg" ≠ [] by decide
  · exact show ∀ c ∈ str "msg", c ∉ str " " by decide +kernel
  · exact ht.nulFree_command
  · rw [length_command, COMMAND_LINE_SIZE]
    omega

/-- A longer one is refused. -/
theorem dispatchSend_long {ε σ φ : Type} {table : CommandTable ε σ φ} {env : ε} {s : σ}
    (ht : IsPlainText t) (hlen : MAX_COMMAND_TEXT_LEN < t.length) :
    dispatchSend table env (str "msg" ++ str " " ++ t) s = .ok (.error, s) := by
  rw [MAX_COMMAND_TEXT_LEN] at hlen
  apply if_pos
  rw [strlen, ht.nulFree_command.cstr_eq, length_command, COMMAND_LINE_SIZE]
  omega

/-! ## One-to-one chat -/

namespace Chatter
variable {p : Chatter} {env : ChatEnv}

theorem lmpSend_ok (hok : env.sendOk = true) (type : UInt8) (payload : Bytes) :
    p.lmpSend env type payload = (0, { p with up := p.up ++ [lmpFrame type payload] }) := by
  rw [lmpSend, if_pos hok]

theorem sends_plain (ht : IsPlainText t) (hok : env.sendOk = true) :
    p.Sends env (t ++ [NEWLINE]) t := by
  have hlen : t.length + 1 < LINE_SIZE := by
    have hle := ht.length_le
    rw [MAX_TEXT_LEN] at hle
    rw [LINE_SIZE]
    omega
  rw [Sends, types_line p env ht.line hlen, typed, stripNewline_line ht.nulFree]
  dsimp only
  rw [if_neg ht.plain, lmpSend_ok hok, if_pos rfl]
  refine ⟨_, rfl, ?_⟩
  exact up_historyAppend ..

/-- `msg_send` sends its arguments. -/
theorem msgSend_ok (hok : env.sendOk = true) (args : Bytes) :
    ∃ p', msgSend env LMP_MSG args p = .ok (.success, p') ∧
      p'.up = p.up ++ [lmpFrame LMP_MSG args] := by
  rw [msgSend, lmpSend_ok hok]
  dsimp only
  rw [if_neg (by decide)]
  refine ⟨_, rfl, ?_⟩
  exact up_historyAppend ..

theorem sends_command (ht : IsPlainText t) (hlen : t.length ≤ MAX_COMMAND_TEXT_LEN)
    (hok : env.sendOk = true) : p.Sends env (msgCommand t ++ [NEWLINE]) t := by
  obtain ⟨hfree, hline⟩ := ht.msgCommand
  have hmax : MAX_COMMAND_TEXT_LEN = 251 := rfl
  obtain ⟨p', hsend, hup⟩ := msgSend_ok (p := p) hok t
  rw [Sends, types_line p env hline (by rw [length_msgCommand, LINE_SIZE]; omega), typed,
    stripNewline_line hfree]
  dsimp only
  rw [if_pos (head_msgCommand t), drop_msgCommand, dispatchSend_msg ht hlen rfl, hsend]
  exact ⟨p', rfl, hup⟩

/-- A text that is too long for a command is not sent by one. -/
theorem not_sends_command (ht : IsPlainText t) (hlen : MAX_COMMAND_TEXT_LEN < t.length)
    (hline : t.length + 6 < LINE_SIZE) : ¬ p.Sends env (msgCommand t ++ [NEWLINE]) t := by
  obtain ⟨hfree, hnl⟩ := ht.msgCommand
  rintro ⟨p', h, hup⟩
  rw [types_line p env hnl (by rw [length_msgCommand]; omega), typed,
    stripNewline_line hfree] at h
  dsimp only at h
  rw [if_pos (head_msgCommand t), drop_msgCommand, dispatchSend_long ht hlen] at h
  cases h
  have hsame : p.up = p.up ++ [lmpFrame LMP_MSG t] := hup
  simp at hsame

end Chatter

/-! ## The group client -/

namespace User
variable {u : User} {env : UserEnv}

/-- A plain text becomes the command. -/
theorem asCommand_plain (ht : IsPlainText t) : asCommand t = some (msgCommand t) := by
  have hle := ht.length_le
  rw [MAX_TEXT_LEN] at hle
  rw [asCommand, if_neg ht.plain, if_pos (by omega), msgCommand]

theorem asCommand_command (t : Bytes) : asCommand (msgCommand t) = some (msgCommand t) :=
  if_pos (head_msgCommand t)

/-- A line that becomes the command is sent as one message. -/
theorem sends_of_asCommand {line : Bytes} (ht : IsPlainText t)
    (hlen : t.length ≤ MAX_COMMAND_TEXT_LEN) (hok : env.sendOk = true) (hline : NEWLINE ∉ line)
    (hfree : NulFree line) (hsize : line.length + 1 < LINE_SIZE)
    (hcmd : asCommand line = some (msgCommand t)) :
    u.Sends env (line ++ [NEWLINE]) t := by
  have hmax : MAX_COMMAND_TEXT_LEN = 251 := rfl
  have hsend : msgSend env LMP_MSG t u =
      .ok (.success, { u with up := u.up ++ [lmpFrame LMP_MSG t] }) := by
    rw [msgSend, sendCommand, lmpSend, if_pos hok]
    rfl
  rw [Sends, types_line u env hline hsize, typed, stripNewline_line hfree, hcmd]
  dsimp only
  rw [drop_msgCommand, dispatchSend_msg ht hlen rfl, hsend]
  exact ⟨_, rfl, rfl⟩

theorem not_sends_command (ht : IsPlainText t) (hlen : MAX_COMMAND_TEXT_LEN < t.length)
    (hline : t.length + 6 < LINE_SIZE) : ¬ u.Sends env (msgCommand t ++ [NEWLINE]) t := by
  obtain ⟨hfree, hnl⟩ := ht.msgCommand
  rintro ⟨u', h, hup⟩
  rw [types_line u env hnl (by rw [length_msgCommand]; omega), typed, stripNewline_line hfree,
    asCommand_command] at h
  dsimp only at h
  rw [drop_msgCommand, dispatchSend_long ht hlen] at h
  cases h
  have hsame : u.up = u.up ++ [lmpFrame LMP_MSG t] := hup
  simp at hsame

end User

/-! ## Main result -/

/-- **A text is one and the same message**, whether it is typed as it is or after `/msg `, up to the
length of a command; `chat_loop` sends longer ones as well. -/
theorem sends_text (t : Bytes) (ht : IsPlainText t) (p : Chatter) (env : ChatEnv)
    (hok : env.sendOk = true) (u : User) (uenv : UserEnv) (huok : uenv.sendOk = true) :
    p.Sends env (t ++ [NEWLINE]) t ∧ (t.length ≤ MAX_COMMAND_TEXT_LEN →
      u.Sends uenv (t ++ [NEWLINE]) t ∧ p.Sends env (msgCommand t ++ [NEWLINE]) t ∧
        u.Sends uenv (msgCommand t ++ [NEWLINE]) t) := by
  refine ⟨Chatter.sends_plain ht hok, fun hlen => ⟨?_, Chatter.sends_command ht hlen hok, ?_⟩⟩
  · have hle := ht.length_le
    rw [MAX_TEXT_LEN] at hle
    exact User.sends_of_asCommand ht hlen huok ht.line ht.nulFree (by rw [LINE_SIZE]; omega)
      (User.asCommand_plain ht)
  · have hmax : MAX_COMMAND_TEXT_LEN = 251 := rfl
    obtain ⟨hfree, hline⟩ := ht.msgCommand
    exact User.sends_of_asCommand ht hlen huok hline hfree
      (by rw [length_msgCommand, LINE_SIZE]; omega) (User.asCommand_command t)

/-- Blanks at both ends and in between are part of the text. -/
theorem sends_text_blanks :
    let t := str "  meet  at /dev/null  "
    let u := User.start (userMemberInfo (str "a0000001") (str "ann"))
    ∃ p, Chatter.main (str "/home/ann") none (fun _ => none) = .ok p ∧
      p.Sends .allOk (msgCommand t ++ [NEWLINE]) t ∧
        u.Sends .allOk (msgCommand t ++ [NEWLINE]) t := by
  intro t u
  have ht : IsPlainText t := by decide +kernel
  obtain ⟨p, hp, -⟩ := exists_ok (x := Chatter.main (str "/home/ann") none fun _ => none)
    (P := fun _ => True) rfl fun _ _ => trivial
  exact ⟨p, hp, ((sends_text t ht p .allOk rfl u .allOk rfl).2 (by decide +kernel)).2⟩

/-- A text of 252 bytes: the command is too long, in both loops. -/
theorem not_sends_252 :
    let t := List.replicate 252 0x61
    let u := User.start (userMemberInfo (str "a0000001") (str "ann"))
    ∃ p, Chatter.main (str "/home/ann") none (fun _ => none) = .ok p ∧ IsPlainText t ∧
      ¬ p.Sends .allOk (msgCommand t ++ [NEWLINE]) t ∧
        ¬ u.Sends .allOk (msgCommand t ++ [NEWLINE]) t := by
  intro t u
  have ht : IsPlainText t := by decide +kernel
  have hlong : MAX_COMMAND_TEXT_LEN < t.length := by decide +kernel
  have hline : t.length + 6 < LINE_SIZE := by decide +kernel
  obtain ⟨p, hp, -⟩ := exists_ok (x := Chatter.main (str "/home/ann") none fun _ => none)
    (P := fun _ => True) rfl fun _ _ => trivial
  exact ⟨p, hp, ht, Chatter.not_sends_command ht hlong hline,
    User.not_sends_command ht hlong hline⟩

end SocketSpeak
