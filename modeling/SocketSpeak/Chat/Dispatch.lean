import Mathlib.Data.List.Nodup
import SocketSpeak.Chat.Registry

/-!
# Registration and dispatch

What is in the command table after any calls of `register_command`, and which handler the code of a
frame and a command line reach in it, with which arguments.
-/

namespace SocketSpeak
open CLib

variable {ε σ φ : Type}

/-- What `strtok` splits a command line at. -/
def BLANK : UInt8 := 0x20

/-- The arguments of `register_command`. -/
structure RegisterCall (ε σ φ : Type) where
  code : UInt8
  name : Option Bytes
  send : Option (SendHandler ε σ φ)
  recv : Option (RecvHandler ε σ φ)

namespace RegisterCall

/-- The name as a string. -/
def text (c : RegisterCall ε σ φ) : Bytes := cstr (c.name.getD [])

/-- What the call puts into the table if it is accepted. -/
def entry (c : RegisterCall ε σ φ) : CommandEntry ε σ φ := ⟨c.code, c.text, c.send, c.recv⟩

/-- There is a name, and an entry has room for it. -/
def Named (c : RegisterCall ε σ φ) : Prop := c.name.isSome ∧ c.text.length < MAX_NAME_LEN

instance (c : RegisterCall ε σ φ) : Decidable c.Named := inferInstanceAs (Decidable (_ ∧ _))

end RegisterCall

def register (table : CommandTable ε σ φ) (c : RegisterCall ε σ φ) : CommandTable ε σ φ :=
  registerCommand table c.code c.name c.send c.recv

/-- The table after the calls, which begin with an empty one. -/
def registerAll (calls : List (RegisterCall ε σ φ)) : CommandTable ε σ φ := calls.foldl register []

/-- The call can be accepted beside these entries. -/
structure Acceptable (table : CommandTable ε σ φ) (c : RegisterCall ε σ φ) : Prop where
  named : c.Named
  room : table.length < MAX_COMMANDS
  fresh : ∀ e ∈ table, e.code ≠ c.code ∧ e.name ≠ c.text

instance (table : CommandTable ε σ φ) (c : RegisterCall ε σ φ) : Decidable (Acceptable table c) :=
  decidable_of_iff (c.Named ∧ table.length < MAX_COMMANDS ∧
      ∀ e ∈ table, e.code ≠ c.code ∧ e.name ≠ c.text)
    ⟨fun ⟨h1, h2, h3⟩ => ⟨h1, h2, h3⟩, fun ⟨h1, h2, h3⟩ => ⟨h1, h2, h3⟩⟩

/-- The entries of the calls at these positions. -/
def entriesAt (calls : List (RegisterCall ε σ φ)) (acc : List Nat) : CommandTable ε σ φ :=
  acc.filterMap fun k => calls[k]?.map RegisterCall.entry

/-- `acc` are the positions of the calls that are acceptable beside those of them that come before:
the first acceptable use of a code and of a name wins. -/
structure FirstCome (calls : List (RegisterCall ε σ φ)) (acc : List Nat) : Prop where
  sorted : acc.Pairwise (· < ·)
  mem_iff : ∀ k, k ∈ acc ↔
    ∃ c, calls[k]? = some c ∧ Acceptable (entriesAt calls (acc.filter (· < k))) c

/-- Each entry is reached by its name and by its code, and nothing else is. -/
structure Dispatches (table : CommandTable ε σ φ) : Prop where
  send : ∀ e ∈ table, e.name ≠ [] → BLANK ∉ e.name → ∀ env s,
    dispatchSend table env e.name s = match e.send with
      | none => .ok (.error, s)
      | some send => send env e.code [] s
  recv : ∀ e ∈ table, ∀ env buf len s,
    dispatchRecv table env e.code buf len s = match e.recv with
      | none => .ok (.error, s)
      | some recv => recv env e.code buf len s
  no_name : ∀ name, (∀ e ∈ table, e.name ≠ name) → NulFree name → BLANK ∉ name → ∀ env s,
    dispatchSend table env name s =
      .ok (if name.length < COMMAND_LINE_SIZE then .unrecognized else .error, s)
  no_code : ∀ code, (∀ e ∈ table, e.code ≠ code) → ∀ env buf len s,
    dispatchRecv table env code buf len s = .ok (.unrecognized, s)

/-! ## The table -/

section
variable {table : CommandTable ε σ φ} {c : RegisterCall ε σ φ} {calls : List (RegisterCall ε σ φ)}
variable {acc : List Nat}

theorem register_of_acceptable (h : Acceptable table c) :
    register table c = table ++ [c.entry] := by
  obtain ⟨hname, hlen⟩ := h.named
  obtain ⟨name, hname⟩ := Option.isSome_iff_exists.mp hname
  have htext : c.text = cstr name := by rw [RegisterCall.text, hname, Option.getD_some]
  have hfresh : (table.any fun e => e.code = c.code || e.name = cstr name) = false := by
    rw [List.any_eq_false]
    intro e he
    obtain ⟨hcode, hne⟩ := h.fresh e he
    rw [htext] at hne
    simp [hcode, hne]
  rw [htext] at hlen
  unfold register registerCommand
  rw [hname]
  dsimp only
  rw [if_neg (Nat.not_le.mpr h.room), if_neg (show ¬ MAX_NAME_LEN ≤ strlen name from
    Nat.not_le.mpr hlen), hfresh, RegisterCall.entry, htext]
  rfl

theorem register_of_not_acceptable (h : ¬ Acceptable table c) : register table c = table := by
  unfold register registerCommand
  split
  · rfl
  · rename_i name hname
    have htext : c.text = cstr name := by rw [RegisterCall.text, hname, Option.getD_some]
    split
    · rfl
    rename_i hroom
    split
    · rfl
    rename_i hlen
    split
    · rfl
    · rename_i hfresh
      refine absurd ⟨⟨by rw [hname]; rfl, ?_⟩, Nat.not_le.mp hroom, fun e he => ?_⟩ h
      · rw [htext]
        exact Nat.not_le.mp hlen
      · rw [htext]
        have hany := List.any_eq_false.mp (Bool.not_eq_true _ ▸ hfresh) e he
        rw [Bool.not_eq_true, Bool.or_eq_false_iff] at hany
        exact ⟨of_decide_eq_false hany.1, of_decide_eq_false hany.2⟩

theorem registerAll_succ {k : Nat} (h : calls[k]? = some c) :
    registerAll (calls.take (k + 1)) = register (registerAll (calls.take k)) c := by
  rw [List.take_add_one, h, registerAll, List.foldl_append]
  rfl

/-- The call at this position is accepted. -/
def Accepted (calls : List (RegisterCall ε σ φ)) (k : Nat) : Prop :=
  ∃ c ∈ calls[k]?, Acceptable (registerAll (calls.take k)) c

instance (calls : List (RegisterCall ε σ φ)) (k : Nat) : Decidable (Accepted calls k) :=
  inferInstanceAs (Decidable (∃ c ∈ calls[k]?, _))

/-- The positions of the calls that are accepted. -/
def accepted (calls : List (RegisterCall ε σ φ)) : List Nat :=
  (List.range calls.length).filter fun k => Accepted calls k

theorem accepted_lt {k : Nat} (h : Accepted calls k) : k < calls.length := by
  obtain ⟨c, hc, -⟩ := h
  exact (List.getElem?_eq_some_iff.mp hc).1

theorem mem_accepted {k : Nat} : k ∈ accepted calls ↔ Accepted calls k := by
  rw [accepted, List.mem_filter, List.mem_range, decide_eq_true_eq]
  exact and_iff_right_of_imp accepted_lt

theorem filter_accepted {k : Nat} (hk : k ≤ calls.length) :
    (accepted calls).filter (· < k) = (List.range k).filter fun j => Accepted calls j := by
  obtain ⟨n, hn⟩ := Nat.exists_eq_add_of_le hk
  rw [accepted, hn, List.range_add, List.filter_filter, List.filter_append]
  have hlow : (List.range k).filter (fun j => decide (j < k) && decide (Accepted calls j)) =
      (List.range k).filter fun j => decide (Accepted calls j) :=
    List.filter_congr fun j hj => by simp [List.mem_range.mp hj]
  have hhigh : ((List.range n).map (k + ·)).filter
      (fun j => decide (j < k) && decide (Accepted calls j)) = [] := by
    simp only [List.filter_eq_nil_iff, List.mem_map]
    rintro _ ⟨j, -, rfl⟩
    rw [decide_eq_false (Nat.not_lt.mpr (Nat.le_add_right k j))]
    exact Bool.false_ne_true
  rw [hlow, hhigh, List.append_nil]

/-- What is in the table is what has been accepted so far, in order. -/
theorem registerAll_take {k : Nat} (hk : k ≤ calls.length) :
    registerAll (calls.take k) = entriesAt calls ((accepted calls).filter (· < k)) := by
  rw [filter_accepted hk]
  induction k with
  | zero => rfl
  | succ k ih =>
    obtain ⟨c, hc⟩ : ∃ c, calls[k]? = some c := ⟨_, List.getElem?_eq_getElem hk⟩
    have hacc : Accepted calls k ↔ Acceptable (registerAll (calls.take k)) c := by
      simp [Accepted, hc]
    rw [registerAll_succ hc, List.range_succ, List.filter_append, entriesAt, List.filterMap_append,
      ← entriesAt, ← ih (Nat.le_of_succ_le hk)]
    by_cases h : Accepted calls k
    · rw [register_of_acceptable (hacc.mp h)]
      simp [h, hc]
    · rw [register_of_not_acceptable fun h' => h (hacc.mpr h')]
      simp [h]

theorem registerAll_eq (calls : List (RegisterCall ε σ φ)) :
    registerAll calls = entriesAt calls (accepted calls) := by
  have h : registerAll (calls.take calls.length) = _ := registerAll_take (Nat.le_refl _)
  have hall : (accepted calls).filter (· < calls.length) = accepted calls :=
    List.filter_eq_self.mpr fun k hk => decide_eq_true (accepted_lt (mem_accepted.mp hk))
  rwa [List.take_length, hall] at h

theorem firstCome_accepted (calls : List (RegisterCall ε σ φ)) :
    FirstCome calls (accepted calls) where
  sorted := List.pairwise_lt_range.filter _
  mem_iff k := by
    rw [mem_accepted, Accepted]
    constructor
    · rintro ⟨c, hc, hacc⟩
      have hk : k < calls.length := (List.getElem?_eq_some_iff.mp hc).1
      exact ⟨c, hc, registerAll_take (Nat.le_of_lt hk) ▸ hacc⟩
    · rintro ⟨c, hc, hacc⟩
      have hk : k < calls.length := (List.getElem?_eq_some_iff.mp hc).1
      exact ⟨c, hc, (registerAll_take (Nat.le_of_lt hk)).symm ▸ hacc⟩

/-- A call that is not accepted changes nothing. -/
theorem registerAll_of_not_accepted {k : Nat} (h : ¬ Accepted calls k) :
    registerAll (calls.take (k + 1)) = registerAll (calls.take k) := by
  cases hc : calls[k]? with
  | none =>
    rw [List.take_add_one, hc]
    exact congrArg registerAll (List.append_nil _)
  | some c =>
    rw [registerAll_succ hc]
    exact register_of_not_acceptable fun hacc => h ⟨c, hc, hacc⟩

/-- What holds of every table that calls have made. -/
structure CommandTableOk (table : CommandTable ε σ φ) : Prop where
  length_le : table.length ≤ MAX_COMMANDS
  codes : (table.map CommandEntry.code).Nodup
  names : (table.map CommandEntry.name).Nodup
  name_lt : ∀ e ∈ table, e.name.length < MAX_NAME_LEN
  nulFree : ∀ e ∈ table, NulFree e.name

theorem CommandTableOk.register (h : CommandTableOk table) (c : RegisterCall ε σ φ) :
    CommandTableOk (register table c) := by
  by_cases hacc : Acceptable table c
  · rw [register_of_acceptable hacc]
    refine ⟨?_, ?_, ?_, ?_, ?_⟩
    · rw [List.length_append]
      exact hacc.room
    · rw [List.map_append]
      refine h.codes.append (List.nodup_singleton _) ?_
      simpa [List.disjoint_singleton, RegisterCall.entry] using fun e he => (hacc.fresh e he).1
    · rw [List.map_append]
      refine h.names.append (List.nodup_singleton _) ?_
      simpa [List.disjoint_singleton, RegisterCall.entry] using fun e he => (hacc.fresh e he).2
    · simpa [or_imp, forall_and] using ⟨h.name_lt, hacc.named.2⟩
    · simpa [or_imp, forall_and] using ⟨h.nulFree, cstr_nulFree _⟩
  · rwa [register_of_not_acceptable hacc]

theorem commandTableOk_registerAll (calls : List (RegisterCall ε σ φ)) :
    CommandTableOk (registerAll calls) := by
  have hstart : CommandTableOk ([] : CommandTable ε σ φ) :=
    ⟨Nat.zero_le _, List.nodup_nil, List.nodup_nil, nofun, nofun⟩
  suffices h : ∀ table, CommandTableOk table →
      CommandTableOk (calls.foldl SocketSpeak.register table) from h [] hstart
  induction calls with
  | nil => exact fun _ h => h
  | cons c calls ih => exact fun table h => ih _ (h.register c)

/-! ## Command lines -/

/-- What `dispatch_send` does with the name and the arguments that it has found in a line. -/
def callByName (table : CommandTable ε σ φ) (env : ε) (name args : Bytes) (s : σ) :
    Except φ (CommandResult × σ) :=
  match table.find? fun e => e.name = name with
  | none => .ok (.unrecognized, s)
  | some e =>
    match e.send with
    | none => .ok (.error, s)
    | some send => send env e.code args s

/-- The name is the first run of bytes that are no blanks; the arguments are all that follows the
blank behind it. -/
structure Splits (line name args : Bytes) : Prop where
  ne_nil : name ≠ []
  word : BLANK ∉ name
  line_eq : ∃ k, line = List.replicate k BLANK ++ name ∧ args = [] ∨
    line = List.replicate k BLANK ++ name ++ BLANK :: args

variable {line name args : Bytes} {env : ε} {s : σ}

theorem mem_blank {c : UInt8} : c ∈ str " " ↔ c = BLANK := List.mem_singleton

theorem exists_splits (h : ∃ c ∈ line, c ≠ BLANK) : ∃ name args, Splits line name args := by
  cases htok : strtok (str " ") line with
  | none =>
    obtain ⟨c, hc, hne⟩ := h
    exact absurd (mem_blank.mp (strtok_eq_none.mp htok c hc)) hne
  | some p =>
    obtain ⟨before, hbefore, hne, hword, hline⟩ := exists_of_strtok htok
    have hblanks : before = List.replicate before.length BLANK :=
      List.eq_replicate_iff.mpr ⟨rfl, fun c hc => mem_blank.mp (hbefore c hc)⟩
    refine ⟨p.1, p.2, hne, fun hc => hword _ hc (mem_blank.mpr rfl), before.length, ?_⟩
    rw [← hblanks]
    rcases hline with h | ⟨sep, hsep, h⟩
    · exact .inl h
    · exact .inr (mem_blank.mp hsep ▸ h)

theorem Splits.strtok_eq (h : Splits line name args) :
    strtok (str " ") line = some (name, args) := by
  have hword : ∀ c ∈ name, c ∉ str " " := fun c hc hb => h.word (mem_blank.mp hb ▸ hc)
  have hblanks (k : Nat) : ∀ c ∈ List.replicate k BLANK, c ∈ str " " :=
    fun c hc => mem_blank.mpr (List.eq_of_mem_replicate hc)
  obtain ⟨k, ⟨rfl, rfl⟩ | rfl⟩ := h.line_eq
  · rw [strtok_skip (hblanks k), strtok_last h.ne_nil hword]
  · rw [List.append_assoc, strtok_skip (hblanks k)]
    exact strtok_word h.ne_nil hword (mem_blank.mpr rfl)

theorem dispatchSend_of_splits (h : Splits line name args) (hfree : NulFree line)
    (hlen : line.length < COMMAND_LINE_SIZE) :
    dispatchSend table env line s = callByName table env name args s := by
  have hshort : ¬ COMMAND_LINE_SIZE ≤ strlen line := by
    rw [strlen, hfree.cstr_eq]
    exact Nat.not_le.mpr hlen
  rw [dispatchSend, if_neg hshort, hfree.cstr_eq, h.strtok_eq]
  dsimp only
  rw [strtok_nil]
  rfl

theorem dispatchSend_blank (h : ∀ c ∈ line, c = BLANK) (hlen : line.length < COMMAND_LINE_SIZE) :
    dispatchSend table env line s = .ok (.unrecognized, s) := by
  have hfree : NulFree line := fun h0 => absurd (h 0 h0) (by decide)
  have hshort : ¬ COMMAND_LINE_SIZE ≤ strlen line := by
    rw [strlen, hfree.cstr_eq]
    exact Nat.not_le.mpr hlen
  rw [dispatchSend, if_neg hshort, hfree.cstr_eq,
    strtok_eq_none.mpr fun c hc => mem_blank.mpr (h c hc)]

/-- An entry is found by its own name. -/
theorem CommandTableOk.find_name (h : CommandTableOk table) {e : CommandEntry ε σ φ}
    (he : e ∈ table) : table.find? (fun e' => e'.name = e.name) = some e := by
  obtain ⟨e', hfound⟩ : ∃ e', table.find? (fun e' => e'.name = e.name) = some e' :=
    Option.isSome_iff_exists.mp (List.find?_isSome.mpr ⟨e, he, by simp⟩)
  have hname : e'.name = e.name := by simpa using List.find?_some hfound
  rw [hfound, List.inj_on_of_nodup_map h.names (List.mem_of_find?_eq_some hfound) he hname]

theorem CommandTableOk.find_code (h : CommandTableOk table) {e : CommandEntry ε σ φ}
    (he : e ∈ table) : table.find? (fun e' => e'.code = e.code) = some e := by
  obtain ⟨e', hfound⟩ : ∃ e', table.find? (fun e' => e'.code = e.code) = some e' :=
    Option.isSome_iff_exists.mp (List.find?_isSome.mpr ⟨e, he, by simp⟩)
  have hcode : e'.code = e.code := by simpa using List.find?_some hfound
  rw [hfound, List.inj_on_of_nodup_map h.codes (List.mem_of_find?_eq_some hfound) he hcode]

theorem CommandTableOk.dispatches (h : CommandTableOk table) : Dispatches table where
  send e he hne hword env s := by
    have hlen : e.name.length < COMMAND_LINE_SIZE :=
      Nat.lt_trans (h.name_lt e he) (by decide)
    have hsplits : Splits e.name e.name [] := ⟨hne, hword, 0, .inl ⟨rfl, rfl⟩⟩
    rw [dispatchSend_of_splits hsplits (h.nulFree e he) hlen, callByName, h.find_name he]
  recv e he env buf len s := by
    have hfind := h.find_code he
    cases hrecv : e.recv with
    | none => simp only [dispatchRecv, hfind, hrecv]
    | some recv => simp only [dispatchRecv, hfind, hrecv]
  no_name name hname hfree hword env s := by
    split
    · rename_i hlen
      by_cases hne : name = []
      · subst hne
        exact dispatchSend_blank nofun hlen
      · have hsplits : Splits name name [] := ⟨hne, hword, 0, .inl ⟨rfl, rfl⟩⟩
        have hnone : table.find? (fun e => e.name = name) = none :=
          List.find?_eq_none.mpr fun e he => by simpa using hname e he
        rw [dispatchSend_of_splits hsplits hfree hlen, callByName, hnone]
    · rename_i hlen
      rw [dispatchSend, if_pos]
      rw [strlen, hfree.cstr_eq]
      exact Nat.not_lt.mp hlen
  no_code code hcode env buf len s := by
    have hnone : table.find? (fun e => e.code = code) = none :=
      List.find?_eq_none.mpr fun e he => by simpa using hcode e he
    rw [dispatchRecv, hnone]

end

/-! ## Main results -/

/-- **The command table is a first-come registry**: it holds the calls that were acceptable when
they were made, each is reached by its name and by its code, and nothing else is. -/
theorem first_come (calls : List (RegisterCall ε σ φ)) : ∃ acc, FirstCome calls acc ∧
    registerAll calls = entriesAt calls acc ∧
      (∀ k, k ∉ acc → registerAll (calls.take (k + 1)) = registerAll (calls.take k)) ∧
        CommandTableOk (registerAll calls) ∧ Dispatches (registerAll calls) :=
  ⟨accepted calls, firstCome_accepted calls, registerAll_eq calls,
    fun _ hk => registerAll_of_not_accepted fun h => hk (mem_accepted.mpr h),
    commandTableOk_registerAll calls, (commandTableOk_registerAll calls).dispatches⟩

/-- A call of `register_command` whose send handler keeps its arguments. -/
def keepCall (name : Bytes) : RegisterCall Unit Bytes Empty :=
  ⟨1, some name, some fun _ _ args _ => .ok (.success, args), none⟩

/-- A name of 256 bytes is not in the table, and is reported as an error all the same. -/
theorem error_of_long_name :
    let table := registerAll [keepCall (str "msg")]
    let name := List.replicate 256 0x61
    (∀ e ∈ table, e.name ≠ name) ∧ dispatchSend table () name [] = .ok (.error, []) := by
  intro table name
  have hname : ∀ e ∈ table, e.name ≠ name := fun e he hname => by
    have hlen := (commandTableOk_registerAll _).name_lt e he
    rw [hname, List.length_replicate] at hlen
    exact absurd hlen (by decide)
  have hword : BLANK ∉ name := fun h => absurd (List.eq_of_mem_replicate h) (by decide)
  have hfree : NulFree name := fun h => absurd (List.eq_of_mem_replicate h) (by decide)
  refine ⟨hname, ?_⟩
  rw [(commandTableOk_registerAll _).dispatches.no_name name hname hfree hword,
    List.length_replicate]
  rfl

/-- **A command line is split without losing text.** -/
theorem splits_line (calls : List (RegisterCall ε σ φ)) (env : ε) (s : σ) :
    (∀ line, NulFree line → line.length < COMMAND_LINE_SIZE →
      ((∀ c ∈ line, c = BLANK) ∧
          dispatchSend (registerAll calls) env line s = .ok (.unrecognized, s)) ∨
        ∃ name args, Splits line name args ∧ dispatchSend (registerAll calls) env line s =
          callByName (registerAll calls) env name args s) ∧
      ∀ e ∈ registerAll calls, e.name ≠ [] → BLANK ∉ e.name → ∀ send, e.send = some send →
        ∀ t, NulFree t → e.name.length + 1 + t.length < COMMAND_LINE_SIZE →
          dispatchSend (registerAll calls) env (e.name ++ str " " ++ t) s =
            send env e.code t s := by
  refine ⟨fun line hfree hlen => ?_, fun e he hne hword send hsend t ht hlen => ?_⟩
  · by_cases h : ∀ c ∈ line, c = BLANK
    · exact .inl ⟨h, dispatchSend_blank h hlen⟩
    · push Not at h
      obtain ⟨name, args, hsplits⟩ := exists_splits h
      exact .inr ⟨name, args, hsplits, dispatchSend_of_splits hsplits hfree hlen⟩
  · have htable := commandTableOk_registerAll calls
    have hsplits : Splits (e.name ++ str " " ++ t) e.name t :=
      ⟨hne, hword, 0, .inr (List.append_assoc ..)⟩
    have hfree : NulFree (e.name ++ str " " ++ t) :=
      nulFree_append (nulFree_append (htable.nulFree e he) (by decide)) ht
    have hlen' : (e.name ++ str " " ++ t).length < COMMAND_LINE_SIZE := by
      rwa [List.length_append, List.length_append]
    rw [dispatchSend_of_splits hsplits hfree hlen', callByName, htable.find_name he]
    dsimp only
    rw [hsend]

/-- All the blanks behind the one that ends the name are part of the text. -/
theorem splits_line_msg : dispatchSend (registerAll [keepCall (str "msg")]) ()
    (str "msg" ++ str " " ++ str "  a  b ") [] = .ok (.success, str "  a  b ") :=
  (splits_line [keepCall (str "msg")] () []).2 (keepCall (str "msg")).entry (.head _) (by decide)
    (by decide) _ rfl (str "  a  b ") (by decide) (by decide)

/-- A command without a name can be registered, but a line does not reach it. -/
theorem unrecognized_of_empty_name :
    let table := registerAll [keepCall []]
    (keepCall []).entry ∈ table ∧
      dispatchSend table () ([] ++ str " " ++ str "hi") [] = .ok (.unrecognized, []) :=
  ⟨.head _, rfl⟩

end SocketSpeak
