import SocketSpeak.CLib.Socket

/-!
# Reading from a connection that is still written to

A program that takes bytes off a stream asks for a number of them and goes on when it has them, or
what there is when the stream has ended (`Script`). While it waits for the rest it may be fed what
has come so far (`Reader`). What it makes of a stream does not depend on how the stream is cut
(`parse_feed`), nor on what comes later (`parse_append`).
-/

namespace CLib.Blocking

variable {ρ : Type*} {n : Nat} {inp rest more : Bytes} {r : ρ}

/-- A program over the next bytes of a stream. -/
inductive Script (ρ : Type*) where
  | done (r : ρ)
  /-- needs `n` bytes, and goes on with those or, at the end of the stream, with fewer -/
  | need (n : Nat) (k : Bytes → Script ρ)

namespace Script

/-- The result on a stream that begins with `inp`, and the bytes that are left; `none` as long as
there are too few. -/
def parse : Script ρ → Bytes → Option (ρ × Bytes)
  | done r, inp => some (r, inp)
  | need n k, inp => if inp.length < n then none else (k (inp.take n)).parse (inp.drop n)

theorem parse_need (k : Bytes → Script ρ) (h : n ≤ inp.length) :
    (need n k).parse inp = (k (inp.take n)).parse (inp.drop n) := by
  rw [parse, if_neg (Nat.not_lt.mpr h)]

/-- What comes later is left. -/
theorem parse_append {p : Script ρ} (h : p.parse inp = some (r, rest)) (more : Bytes) :
    p.parse (inp ++ more) = some (r, rest ++ more) := by
  induction p generalizing inp with
  | done r' =>
    cases h
    rfl
  | need n k ih =>
    rw [parse] at h
    split at h
    · cases h
    · rename_i hlen
      have hle : n ≤ inp.length := Nat.not_lt.mp hlen
      rw [parse_need k (Nat.le_trans hle (by simp)), List.take_append_of_le_length hle,
        List.drop_append_of_le_length hle]
      exact ih _ h

end Script

open Script

/-- A script that has been fed some of the bytes that it needs next. -/
inductive Reader (ρ : Type*) where
  | done (r : ρ)
  | waiting (n : Nat) (k : Bytes → Script ρ) (got : Bytes) (h : got.length < n)

namespace Reader

/-- A script up to the first byte that it needs. -/
def start : Script ρ → Reader ρ
  | .done r => done r
  | .need 0 k => start (k [])
  | .need (n + 1) k => waiting (n + 1) k [] (Nat.succ_pos n)

/-- How many bytes are asked for. -/
def asked : Reader ρ → Nat
  | done _ => 0
  | waiting n _ got _ => n - got.length

/-- Some of the bytes that are asked for come. -/
def feed : Reader ρ → Bytes → Reader ρ
  | done r, _ => done r
  | waiting n k got _, b =>
    if h : (got ++ b).length < n then waiting n k (got ++ b) h else start (k (got ++ b))

/-- The end of the stream comes. -/
def feedEnd : Reader ρ → Reader ρ
  | done r => done r
  | waiting _ k got _ => start (k got)

/-- What becomes of the reader when `inp` comes. -/
def parse : Reader ρ → Bytes → Option (ρ × Bytes)
  | done r, inp => some (r, inp)
  | waiting n k got _, inp => (need n k).parse (got ++ inp)

theorem parse_start (p : Script ρ) (inp : Bytes) : (start p).parse inp = p.parse inp := by
  induction p generalizing inp with
  | done r => rfl
  | need n k ih =>
    cases n with
    | zero =>
      rw [start, ih, parse_need k (Nat.zero_le _)]
      rfl
    | succ n => rfl

/-- **The cut does not matter.** -/
theorem parse_feed {x : Reader ρ} {b : Bytes} (hb : b.length ≤ x.asked) (inp : Bytes) :
    (x.feed b).parse inp = x.parse (b ++ inp) := by
  cases x with
  | done r =>
    have hnil : b = [] := List.length_eq_zero_iff.mp (Nat.le_zero.mp hb)
    rw [hnil]
    rfl
  | waiting n k got h =>
    have hb : b.length ≤ n - got.length := hb
    rw [feed]
    split
    · rw [parse, parse, List.append_assoc]
    · rename_i hlen
      have hall : (got ++ b).length = n := by
        rw [List.length_append] at hlen ⊢
        omega
      have hle : n ≤ (got ++ (b ++ inp)).length := by
        rw [← List.append_assoc, List.length_append, hall]
        exact Nat.le_add_right _ _
      rw [parse_start, parse, parse_need k hle, ← List.append_assoc, List.take_left' hall,
        List.drop_left' hall]

theorem parse_append {x : Reader ρ} (h : x.parse inp = some (r, rest)) (more : Bytes) :
    x.parse (inp ++ more) = some (r, rest ++ more) := by
  cases x with
  | done r' =>
    cases h
    rfl
  | waiting n k got hlt =>
    rw [parse, ← List.append_assoc]
    exact Script.parse_append h more

/-- A reader that waits has nothing yet. -/
theorem parse_waiting {k : Bytes → Script ρ} {got : Bytes} (h : got.length < n) :
    (waiting n k got h).parse [] = none := by
  rw [parse, List.append_nil, Script.parse, if_pos h]

end Reader

/-! ## On a socket whose stream is known -/

/-- Running a script with `read_all`, where no read fails. -/
def Script.onStream : Script ρ → Bytes → ρ × Bytes
  | done r, inp => (r, inp)
  | need n k, inp => (k (inp.take n)).onStream (inp.drop n)

/-- A stream that is long enough is read as it comes. -/
theorem Script.onStream_of_parse {p : Script ρ} (h : p.parse inp = some (r, rest)) :
    p.onStream inp = (r, rest) := by
  induction p generalizing inp with
  | done r' =>
    cases h
    rfl
  | need n k ih =>
    rw [parse] at h
    split at h
    · cases h
    · exact ih _ h

end CLib.Blocking
