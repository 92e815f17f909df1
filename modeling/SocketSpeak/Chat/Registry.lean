import SocketSpeak.CLib.Stdio
import SocketSpeak.CLib.Sys

/-!
# The command registry

`register_command`, `dispatch_send` and `dispatch_recv`, for handlers that work on any state `σ`, in
an environment `ε`, and that may run into a fault `φ`.
-/

namespace SocketSpeak
open CLib

def MAX_COMMANDS : Nat := 32
def MAX_NAME_LEN : Nat := 32

/-- `sizeof(buf)` in `dispatch_send` -/
def COMMAND_LINE_SIZE : Nat := 256

/-- `CommandResult` -/
inductive CommandResult where
  | success
  | error
  | unrecognized
  deriving DecidableEq

def CommandResult.toInt : CommandResult → Int
  | .success => 0
  | .error => 1
  | .unrecognized => 2

theorem CommandResult.toInt_nonneg (r : CommandResult) : 0 ≤ r.toInt := by cases r <;> decide

/-- `send(code, args, ctx)` -/
abbrev SendHandler (ε σ φ : Type) := ε → UInt8 → Bytes → σ → Except φ (CommandResult × σ)

/-- `recv(code, buf, len, ctx)` -/
abbrev RecvHandler (ε σ φ : Type) := ε → UInt8 → Bytes → Nat → σ → Except φ (CommandResult × σ)

structure CommandEntry (ε σ φ : Type) where
  code : UInt8
  name : Bytes
  send : Option (SendHandler ε σ φ)
  recv : Option (RecvHandler ε σ φ)

/-- The first `command_count` entries of `command_table`. -/
abbrev CommandTable (ε σ φ : Type) := List (CommandEntry ε σ φ)

variable {ε σ φ : Type}

/-- `register_command(code, name, send, recv)`; a `name` of `none` is a null pointer. -/
def registerCommand (table : CommandTable ε σ φ) (code : UInt8) (name : Option Bytes)
    (send : Option (SendHandler ε σ φ)) (recv : Option (RecvHandler ε σ φ)) :
    CommandTable ε σ φ :=
  match name with
  | none => table
  | some name =>
    if MAX_COMMANDS ≤ table.length then table
    else if MAX_NAME_LEN ≤ strlen name then table
    else if table.any fun e => e.code = code || e.name = cstr name then table
    else table ++ [⟨code, cstr name, send, recv⟩]

/-- `dispatch_send(line, ctx)` -/
def dispatchSend (table : CommandTable ε σ φ) (env : ε) (line : Bytes) (s : σ) :
    Except φ (CommandResult × σ) :=
  if COMMAND_LINE_SIZE ≤ strlen line then .ok (.error, s)
  else
    match strtok (str " ") (cstr line) with
    | none => .ok (.unrecognized, s)
    | some (name, rest) =>
      let args := ((strtok [] rest).map Prod.fst).getD []
      match table.find? fun e => e.name = name with
      | none => .ok (.unrecognized, s)
      | some e =>
        match e.send with
        | none => .ok (.error, s)
        | some send => send env e.code args s

/-- `dispatch_recv(code, buf, len, ctx)` -/
def dispatchRecv (table : CommandTable ε σ φ) (env : ε) (code : UInt8) (buf : Bytes) (len : Nat)
    (s : σ) : Except φ (CommandResult × σ) :=
  match table.find? fun e => e.code = code with
  | none => .ok (.unrecognized, s)
  | some e =>
    match e.recv with
    | none => .ok (.error, s)
    | some recv => recv env code buf len s

variable {table : CommandTable ε σ φ} {env : ε} {s s' : σ} {r : CommandResult}

/-- The name that `dispatch_send` looks up. -/
def commandName (line : Bytes) : Option Bytes :=
  if COMMAND_LINE_SIZE ≤ strlen line then none
  else (strtok (str " ") (cstr line)).map Prod.fst

/-- What a handler is given for its arguments: a string, which the line had room for. -/
structure IsArgs (args : Bytes) : Prop where
  nulFree : NulFree args
  length_lt : args.length < COMMAND_LINE_SIZE

theorem isArgs_strtok {delim rest : Bytes} (hfree : NulFree rest)
    (hlen : rest.length < COMMAND_LINE_SIZE) :
    IsArgs (((strtok delim rest).map Prod.fst).getD []) := by
  have hdrop : rest.dropWhile (· ∈ delim) <:+ rest := List.dropWhile_suffix _
  rw [strtok]
  split
  · exact ⟨List.not_mem_nil, Nat.zero_lt_of_lt hlen⟩
  · have htake := List.takeWhile_prefix (l := rest.dropWhile (· ∈ delim)) (· ∉ delim)
    exact ⟨fun h => hfree (hdrop.mem (htake.mem h)),
      Nat.lt_of_le_of_lt (Nat.le_trans htake.length_le hdrop.length_le) hlen⟩

theorem rest_of_strtok {delim s name rest : Bytes} (h : strtok delim s = some (name, rest)) :
    rest.length ≤ s.length ∧ ∀ c ∈ rest, c ∈ s := by
  rw [strtok] at h
  split at h
  · cases h
  · cases h
    have hsuffix : ((s.dropWhile (· ∈ delim)).dropWhile (· ∉ delim)).drop 1 <:+ s :=
      (List.drop_suffix _ _).trans ((List.dropWhile_suffix _).trans (List.dropWhile_suffix _))
    exact ⟨hsuffix.length_le, fun c hc => hsuffix.mem hc⟩

/-- A command line does nothing, or what the handler does that it names. -/
theorem dispatchSend_named {line : Bytes} (h : dispatchSend table env line s = .ok (r, s')) :
    s' = s ∨ ∃ e ∈ table, commandName line = some e.name ∧ ∃ send args, e.send = some send ∧
      IsArgs args ∧ send env e.code args s = .ok (r, s') := by
  unfold dispatchSend at h
  split at h
  · cases h
    exact .inl rfl
  rename_i hlen
  split at h
  · cases h
    exact .inl rfl
  rename_i name rest htok
  split at h
  · cases h
    exact .inl rfl
  rename_i e he
  split at h
  · cases h
    exact .inl rfl
  · rename_i send hsend
    obtain ⟨hle, hmem⟩ := rest_of_strtok htok
    have hfound : e.name = name := by simpa using List.find?_some he
    have hname : commandName line = some e.name := by
      rw [commandName, if_neg hlen, htok, hfound]
      rfl
    refine .inr ⟨e, List.mem_of_find?_eq_some he, hname, send, _, hsend, ?_, h⟩
    exact isArgs_strtok (fun h0 => cstr_nulFree _ (hmem 0 h0))
      (Nat.lt_of_le_of_lt hle (Nat.not_le.mp hlen))

/-- A command line does nothing, or what a handler of the table does. -/
theorem dispatchSend_ok {line : Bytes} (h : dispatchSend table env line s = .ok (r, s')) :
    s' = s ∨ ∃ e ∈ table, ∃ send args, e.send = some send ∧
      send env e.code args s = .ok (r, s') := by
  rcases dispatchSend_named h with rfl | ⟨e, he, -, send, args, hsend, -, h⟩
  · exact .inl rfl
  · exact .inr ⟨e, he, send, args, hsend, h⟩

/-- A command gets all that follows the blank after its name. -/
theorem dispatchSend_args {e : CommandEntry ε σ φ} {send : SendHandler ε σ φ} {args : Bytes}
    (he : table.find? (fun e' => e'.name = e.name) = some e) (hsend : e.send = some send)
    (hne : e.name ≠ []) (hword : ∀ c ∈ e.name, c ∉ str " ")
    (hfree : NulFree (e.name ++ str " " ++ args))
    (hlen : (e.name ++ str " " ++ args).length < COMMAND_LINE_SIZE) :
    dispatchSend table env (e.name ++ str " " ++ args) s = send env e.code args s := by
  have htok : strtok (str " ") (e.name ++ str " " ++ args) = some (e.name, args) := by
    rw [List.append_assoc]
    exact strtok_word hne hword List.mem_cons_self
  have hshort : ¬ COMMAND_LINE_SIZE ≤ strlen (e.name ++ str " " ++ args) := by
    rw [strlen, hfree.cstr_eq]
    exact Nat.not_le.mpr hlen
  rw [dispatchSend, if_neg hshort, hfree.cstr_eq, htok]
  dsimp only
  rw [he]
  dsimp only
  rw [hsend, strtok_nil]

/-- A frame does nothing, or what the handler of its type does. -/
theorem dispatchRecv_ok {code : UInt8} {buf : Bytes} {len : Nat}
    (h : dispatchRecv table env code buf len s = .ok (r, s')) :
    s' = s ∨ ∃ e ∈ table, e.code = code ∧ ∃ recv, e.recv = some recv ∧
      recv env code buf len s = .ok (r, s') := by
  unfold dispatchRecv at h
  split at h
  · cases h
    exact .inl rfl
  rename_i e he
  split at h
  · cases h
    exact .inl rfl
  · rename_i recv hrecv
    exact .inr ⟨e, List.mem_of_find?_eq_some he, by simpa using List.find?_some he, recv, hrecv, h⟩

end SocketSpeak
