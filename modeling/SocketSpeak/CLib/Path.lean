import Mathlib.Algebra.GroupWithZero.Nat
import Mathlib.Data.List.Infix
import SocketSpeak.CLib.Bytes

/-!
# Paths

The directory that a path leads to, for a tree without links: `..` goes up, and there is nothing
above the root of the file system. A path is confined to the directory it is followed from
(`descend`) or it leaves it, and then it takes as many bytes as there is to go back
(`walk_of_leaves`).
-/

namespace CLib

def SLASH : UInt8 := 0x2F

/-- What stands between the slashes. -/
def components (path : Bytes) : List Bytes := path.splitOn SLASH

/-- One component, from the directory `dir`. -/
def enter (dir : List Bytes) (c : Bytes) : List Bytes :=
  if c = [] ∨ c = str "." then dir
  else if c = str ".." then dir.dropLast
  else dir ++ [c]

/-- The directory that the components lead to from `dir`. -/
def walk (dir cs : List Bytes) : List Bytes := cs.foldl enter dir

/-- The directory that a path leads to in a process whose working directory is `cwd`. -/
def resolve (cwd : List Bytes) (path : Bytes) : List Bytes :=
  walk (if path.head? = some SLASH then [] else cwd) (components path)

/-- Where the components lead to from a directory, below it; none if they leave it on the way. -/
def descend : List Bytes → List Bytes → Option (List Bytes)
  | below, [] => some below
  | below, c :: cs =>
    if c = str ".." ∧ below = [] then none else descend (enter below c) cs

/-- The bytes of the components, and a slash for each. -/
def weight (cs : List Bytes) : Nat := (cs.map fun c => c.length + 1).sum

/-- The directories on the way along a path, and the one that it leads to: `mkdir -p` makes those of
them that are not there. -/
def visited (cwd : List Bytes) (path : Bytes) : List (List Bytes) :=
  (components path).inits.map (walk (if path.head? = some SLASH then [] else cwd))

variable {cwd dir below cs : List Bytes} {a b c path : Bytes}

theorem resolve_mem_visited (cwd : List Bytes) (path : Bytes) :
    resolve cwd path ∈ visited cwd path :=
  List.mem_map_of_mem ((List.mem_inits _ _).mpr (List.prefix_refl _))

@[simp] theorem weight_nil : weight [] = 0 := rfl

@[simp] theorem weight_cons (c : Bytes) (cs : List Bytes) :
    weight (c :: cs) = c.length + 1 + weight cs := rfl

@[simp] theorem weight_append (cs ds : List Bytes) : weight (cs ++ ds) = weight cs + weight ds := by
  simp [weight]

theorem weight_components (path : Bytes) : weight (components path) = path.length + 1 := by
  unfold components
  induction path with
  | nil => rfl
  | cons a path ih =>
    rw [List.splitOn_cons_eq_if_modifyHead]
    obtain ⟨w, ws, hws⟩ := List.exists_cons_of_ne_nil (List.splitOn_ne_nil SLASH path)
    rw [hws] at ih ⊢
    split
    · rw [weight_cons, ih, List.length_nil, List.length_cons]
      omega
    · rw [List.modifyHead_cons, weight_cons, List.length_cons, List.length_cons]
      rw [weight_cons] at ih
      omega

theorem components_append (a b : Bytes) :
    components (a ++ SLASH :: b) = components a ++ components b :=
  List.splitOn_append_cons_self a b

theorem walk_append (dir cs ds : List Bytes) : walk dir (cs ++ ds) = walk (walk dir cs) ds :=
  List.foldl_append

theorem resolve_append (cwd : List Bytes) (h : a ≠ []) (b : Bytes) :
    resolve cwd (a ++ SLASH :: b) = walk (resolve cwd a) (components b) := by
  have hhead : (a ++ SLASH :: b).head? = a.head? := by
    cases a with
    | nil => exact absurd rfl h
    | cons => rfl
  rw [resolve, hhead, components_append, walk_append, resolve]

/-- A slash at the end leads nowhere. -/
theorem resolve_slash (cwd : List Bytes) (h : a ≠ []) :
    resolve cwd (a ++ [SLASH]) = resolve cwd a := resolve_append cwd h []

theorem walk_slash (dir : List Bytes) (path : Bytes) :
    walk dir (components (path ++ [SLASH])) = walk dir (components path) := by
  rw [components_append, walk_append]
  rfl

/-- A component that names an entry of a directory. -/
structure IsEntryName (c : Bytes) : Prop where
  ne_nil : c ≠ []
  ne_dot : c ≠ str "."
  ne_up : c ≠ str ".."
  slash : SLASH ∉ c

theorem walk_name (h : IsEntryName c) (dir : List Bytes) :
    walk dir (components c) = dir ++ [c] := by
  have henter : enter dir c = dir ++ [c] := by
    rw [enter, if_neg (not_or.mpr ⟨h.ne_nil, h.ne_dot⟩), if_neg h.ne_up]
  rw [components, List.splitOn_eq_singleton h.slash]
  exact henter

/-- A path from an entry of a directory. -/
theorem resolve_entry (cwd : List Bytes) (ha : a ≠ []) (hc : IsEntryName c) (path : Bytes) :
    resolve cwd (a ++ SLASH :: c ++ SLASH :: path) =
      walk (resolve cwd a ++ [c]) (components path) := by
  rw [resolve_append cwd (by simp), resolve_append cwd ha, walk_name hc]

/-! ## Confined paths -/

theorem enter_append (h : ¬ (c = str ".." ∧ below = [])) :
    enter (dir ++ below) c = dir ++ enter below c := by
  unfold enter
  split
  · rfl
  split
  · rename_i hup
    exact List.dropLast_append_of_ne_nil fun h0 => h ⟨hup, h0⟩
  · exact List.append_assoc ..

theorem weight_enter (dir : List Bytes) (c : Bytes) :
    weight (enter dir c) ≤ c.length + 1 + weight dir := by
  unfold enter
  split
  · omega
  split
  · rcases List.eq_nil_or_concat dir with rfl | ⟨init, last, rfl⟩
    · exact Nat.zero_le _
    · rw [List.concat_eq_append, List.dropLast_concat, weight_append]
      omega
  · rw [weight_append, weight_cons, weight_nil]
    omega

theorem walk_of_descend {ys : List Bytes} (h : descend below cs = some ys) :
    walk (dir ++ below) cs = dir ++ ys := by
  induction cs generalizing below with
  | nil =>
    cases h
    rfl
  | cons c cs ih =>
    rw [descend] at h
    split at h
    · cases h
    · rename_i hstay
      rw [walk, List.foldl_cons, enter_append hstay]
      exact ih h

/-- Going up from the directory itself. -/
theorem walk_up (dir cs : List Bytes) :
    walk (dir ++ []) (str ".." :: cs) = walk (dir.dropLast ++ []) cs := by
  rw [List.append_nil, List.append_nil]
  rfl

/-- The step up takes a name of `dir`, for three bytes. -/
theorem walk_up_step {k : Nat} (hk : k ≤ dir.dropLast.length)
    (h : ∃ ys, walk (dir.dropLast ++ []) cs = dir.dropLast.take k ++ ys ∧
      weight ys + 3 * (dir.dropLast.length - k) ≤ weight cs + weight []) :
    ∃ ys, walk (dir ++ []) (str ".." :: cs) = dir.take k ++ ys ∧
      weight ys + 3 * (dir.length - k) ≤ weight (str ".." :: cs) + weight [] := by
  obtain ⟨ys, hwalk, hweight⟩ := h
  rw [List.length_dropLast] at hk hweight
  refine ⟨ys, ?_, ?_⟩
  · rw [walk_up, hwalk, List.dropLast_eq_take, List.take_take, Nat.min_eq_left hk]
  · have hlen : (str "..").length = 2 := rfl
    rw [weight_cons, hlen]
    omega

/-- A component that stays below `dir`. -/
theorem walk_enter_step {k : Nat} (hup : ¬ (c = str ".." ∧ below = []))
    (h : ∃ ys, walk (dir ++ enter below c) cs = dir.take k ++ ys ∧
      weight ys + 3 * (dir.length - k) ≤ weight cs + weight (enter below c)) :
    ∃ ys, walk (dir ++ below) (c :: cs) = dir.take k ++ ys ∧
      weight ys + 3 * (dir.length - k) ≤ weight (c :: cs) + weight below := by
  obtain ⟨ys, hwalk, hweight⟩ := h
  have henter := weight_enter below c
  refine ⟨ys, ?_, ?_⟩
  · rw [walk, List.foldl_cons, enter_append hup]
    exact hwalk
  · rw [weight_cons]
    omega

/-- Wherever components lead, they have gone up from the rest of `dir`, and they bring the names
that they lead to. -/
theorem walk_eq (dir below cs : List Bytes) : ∃ k ≤ dir.length, ∃ ys,
    walk (dir ++ below) cs = dir.take k ++ ys ∧
      weight ys + 3 * (dir.length - k) ≤ weight cs + weight below := by
  induction cs generalizing dir below with
  | nil => exact ⟨_, Nat.le_refl _, below, by rw [List.take_length]; rfl, by simp⟩
  | cons c cs ih =>
    by_cases hup : c = str ".." ∧ below = []
    · obtain ⟨rfl, rfl⟩ := hup
      obtain ⟨k, hk, hwalk⟩ := ih dir.dropLast []
      have hle : dir.dropLast.length ≤ dir.length := (List.dropLast_prefix dir).length_le
      exact ⟨k, Nat.le_trans hk hle, walk_up_step hk hwalk⟩
    · obtain ⟨k, hk, hwalk⟩ := ih dir (enter below c)
      exact ⟨k, hk, walk_enter_step hup hwalk⟩

/-- Components that leave a directory. -/
theorem walk_of_leaves (hdir : dir ≠ []) (h : descend below cs = none) : ∃ k < dir.length, ∃ ys,
    walk (dir ++ below) cs = dir.take k ++ ys ∧
      weight ys + 3 * (dir.length - k) ≤ weight cs + weight below := by
  have hpos : 0 < dir.length := List.length_pos_iff.mpr hdir
  induction cs generalizing below with
  | nil => cases h
  | cons c cs ih =>
    by_cases hup : c = str ".." ∧ below = []
    · obtain ⟨rfl, rfl⟩ := hup
      obtain ⟨k, hk, hwalk⟩ := walk_eq dir.dropLast [] cs
      have hlt : k < dir.length := by
        rw [List.length_dropLast] at hk
        omega
      exact ⟨k, hlt, walk_up_step hk hwalk⟩
    · rw [descend, if_neg hup] at h
      obtain ⟨k, hk, hwalk⟩ := ih h
      exact ⟨k, hk, walk_enter_step hup hwalk⟩

/-- A path that is too short to leave a directory and to name it again does not come back. -/
theorem eq_of_walk_child {top other name : Bytes} (hlen : path.length < top.length + 4)
    (h : walk (dir ++ [other]) (components path) = dir ++ [top, name]) :
    other = top ∧ descend [] (components path) = some [name] := by
  have hshort {k : Nat} (hk : k ≤ dir.length) {ys : List Bytes}
      (hys : dir ++ [top, name] = dir.take k ++ ys)
      (hweight : weight ys + 3 * (dir.length + 1 - k) ≤ path.length + 1) : False := by
    have hsplit : dir.drop k ++ [top, name] = ys := by
      rw [← List.take_append_drop k dir, List.append_assoc] at hys
      simpa using hys
    rw [← hsplit, weight_append, weight_cons, weight_cons] at hweight
    omega
  have hback {k : Nat} (hk : k < (dir ++ [other]).length) {ys : List Bytes}
      (hwalk : walk (dir ++ [other] ++ []) (components path) = (dir ++ [other]).take k ++ ys)
      (hweight : weight ys + 3 * ((dir ++ [other]).length - k) ≤
        weight (components path) + weight []) : False := by
    rw [List.length_append, List.length_singleton] at hk hweight
    rw [List.append_nil, h, List.take_append_of_le_length (by omega)] at hwalk
    rw [weight_components, weight_nil] at hweight
    exact hshort (Nat.le_of_lt_succ hk) hwalk hweight
  have htop : other = top := by
    obtain ⟨k, hk, ys, hwalk, hweight⟩ := walk_eq (dir ++ [other]) [] (components path)
    rcases Nat.lt_or_eq_of_le hk with hlt | rfl
    · exact (hback hlt hwalk hweight).elim
    · rw [List.append_nil, h, List.take_length, List.append_assoc] at hwalk
      exact (List.cons.inj (List.append_cancel_left hwalk)).1.symm
  refine ⟨htop, ?_⟩
  cases hd : descend [] (components path) with
  | none =>
    have hdir : dir ++ [other] ≠ [] := List.append_ne_nil_of_right_ne_nil _ nofun
    obtain ⟨k, hk, ys, hwalk, hweight⟩ := walk_of_leaves hdir hd
    exact (hback hk hwalk hweight).elim
  | some ys =>
    have hys : walk (dir ++ [other] ++ []) (components path) = dir ++ [other] ++ ys :=
      walk_of_descend hd
    rw [List.append_nil, h, List.append_assoc] at hys
    have hname : [name] = ys := (List.cons.inj (List.append_cancel_left hys)).2
    rw [hname]

end CLib
