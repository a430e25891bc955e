import Mathlib.Algebra.Group.Nat.Defs
import Mathlib.Data.List.Basic
import Mathlib.Data.List.TakeWhile
import Mathlib.Algebra.Order.Group.Int

/-!
# Base — C strings

`Str` is a C string: the bytes before the terminator, none of which is the terminator.  `NULL` is
`none` of `Option Str`.  The functions of the C library and of GLib that the proxy calls on
strings are here under their own names: `g_strsplit`, `g_strstrip`, `strtol`, `atol`, the decimal
conversions of `printf`, and the ASCII comparison behind `base_strcmp`.

`Fault` is what a handler of the proxy can die of: a failed `g_assert`, a `NULL` dereference, a
use after free, an access outside an array, a signed overflow.
-/

namespace Ctrlproxy

/-- Why a C function does not return. -/
inductive Fault where
  /-- a failed `g_assert` -/
  | assertion
  /-- a `NULL` pointer dereferenced, or handed to a C library function that does so -/
  | null
  /-- an object used after it was freed -/
  | dangling
  /-- an index outside one of the `MAXMODES` arrays -/
  | modeIndex
  /-- a read beyond the end of an argument vector, a string or a mode-group vector -/
  | overread
  /-- a loop that does not empty the list it consumes, or a recursion nested too deep -/
  | diverges
  /-- a signed addition that leaves the range of its type -/
  | overflow
  deriving DecidableEq, Repr

/-! ### Bytes -/

/-- A byte of a C string: any value but the terminator. -/
abbrev Byte := {n : ℕ // 0 < n ∧ n < 256}

instance : LawfulBEq Byte := inferInstance

theorem byte_one : 0 < 1 ∧ 1 < 256 := by decide

/-- The value of a byte as a (signed) `char`. -/
def Byte.char (b : Byte) : ℤ := if b.1 < 128 then b.1 else (b.1 : ℤ) - 256

/-- A character constant. -/
def chr (c : Char) : Byte :=
  if h : 0 < c.toNat ∧ c.toNat < 256 then ⟨c.toNat, h⟩ else ⟨1, byte_one⟩

/-- The byte `0xFF`. -/
def byteFF : Byte := ⟨255, by decide⟩

abbrev Str := List Byte

/-- A string constant. -/
def str (s : String) : Str := s.toList.map chr

theorem Byte.char_inj {a b : Byte} : a.char = b.char ↔ a = b := by
  obtain ⟨a, ha⟩ := a
  obtain ⟨b, hb⟩ := b
  simp only [Byte.char, Subtype.mk.injEq]
  constructor
  · intro h; split at h <;> split at h <;> omega
  · rintro rfl; rfl

theorem dropWhile_ne_eq_nil {c : Byte} {w : Str} : w.dropWhile (· ≠ c) = [] ↔ c ∉ w := by
  rw [List.dropWhile_eq_nil_iff]
  exact ⟨fun h hc => of_decide_eq_true (h c hc) rfl, fun hc b hb => decide_eq_true fun e => hc (e ▸ hb)⟩

theorem Byte.char_ne_zero (b : Byte) : b.char ≠ 0 := by
  obtain ⟨b, hb⟩ := b
  simp only [Byte.char]
  split <;> omega

/-! ### Comparison -/

/-- `g_ascii_tolower`. -/
def Byte.lower (b : Byte) : Byte :=
  if h : 65 ≤ b.1 ∧ b.1 ≤ 90 then ⟨b.1 + 32, by omega⟩ else b

/-- `!base_strcmp(a, b)`: `g_ascii_strcasecmp` is zero on strings equal but for ASCII case, and
returns zero when it is handed `NULL`. -/
def baseEq (a : Option Str) (b : Str) : Bool :=
  match a with
  | none => true
  | some a => a.map Byte.lower == b.map Byte.lower

/-- Two words for the same command. -/
theorem baseEq_of_baseEq {cmd w : Str} (h : baseEq (some cmd) w = true) (w' : Str) :
    baseEq (some cmd) w' = baseEq (some w) w' := by
  have same : cmd.map Byte.lower = w.map Byte.lower := by simpa [baseEq] using h
  simp only [baseEq, same]

/-- `base_strncmp(a, b, n) == 0`. -/
def baseEqN (a b : Str) (n : ℕ) : Bool :=
  (a.take n).map Byte.lower == (b.take n).map Byte.lower

/-! ### Splitting -/

/-- The pieces of a string between the occurrences of a separator; never empty. -/
def pieces (c : Byte) : Str → List Str
  | [] => [[]]
  | b :: s =>
      if b = c then [] :: pieces c s
      else match pieces c s with
        | [] => [[b]]
        | p :: ps => (b :: p) :: ps

/-- `g_strsplit(s, c, 0)`: the empty string has no piece. -/
def gStrsplit (s : Str) (c : Byte) : List Str :=
  if s = [] then [] else pieces c s

/-- The first `n` pieces, the last of them holding the rest of the string. -/
def piecesN (c : Byte) : ℕ → Str → List Str
  | 0, s => [s]
  | 1, s => [s]
  | n + 2, s =>
      match s.dropWhile (· ≠ c) with
      | [] => [s]
      | _ :: rest => s.takeWhile (· ≠ c) :: piecesN c (n + 1) rest

/-- `g_strsplit(s, c, n)` for `n > 0`. -/
def gStrsplitN (s : Str) (c : Byte) (n : ℕ) : List Str :=
  if s = [] then [] else piecesN c n s

theorem pieces_single {c : Byte} {w : Str} (h : c ∉ w) : pieces c w = [w] := by
  induction w with
  | nil => rfl
  | cons b w ih =>
      have hb : b ≠ c := fun e => h (e ▸ List.mem_cons_self)
      rw [pieces, if_neg hb, ih fun hw => h (List.mem_cons_of_mem _ hw)]

theorem pieces_append {c : Byte} {w : Str} (h : c ∉ w) (t : Str) :
    pieces c (w ++ c :: t) = w :: pieces c t := by
  induction w with
  | nil => rw [List.nil_append, pieces, if_pos rfl]
  | cons b w ih =>
      have hb : b ≠ c := fun e => h (e ▸ List.mem_cons_self)
      rw [List.cons_append, pieces, if_neg hb, ih fun hw => h (List.mem_cons_of_mem _ hw)]

/-- No piece has a separator in it. -/
theorem not_mem_of_mem_pieces {c : Byte} {w s : Str} (h : s ∈ pieces c w) : c ∉ s := by
  induction w generalizing s with
  | nil =>
      cases List.mem_singleton.mp h
      exact List.not_mem_nil
  | cons b w ih =>
      rw [pieces] at h
      split at h
      · rcases List.mem_cons.mp h with rfl | h
        · exact List.not_mem_nil
        · exact ih h
      · next hb =>
        split at h
        · cases List.mem_singleton.mp h
          rw [List.mem_singleton]
          exact Ne.symm hb
        · next p ps hpieces =>
          rw [hpieces] at ih
          rcases List.mem_cons.mp h with rfl | h
          · rw [List.mem_cons, not_or]
            exact ⟨Ne.symm hb, ih List.mem_cons_self⟩
          · exact ih (List.mem_cons_of_mem _ h)

/-- The string in front of the separator is the first piece. -/
theorem piecesN_append {c : Byte} {w : Str} (h : c ∉ w) (n : ℕ) (t : Str) :
    piecesN c (n + 2) (w ++ c :: t) = w :: piecesN c (n + 1) t := by
  have hword : ∀ b ∈ w, decide (b ≠ c) = true := fun b hb => decide_eq_true fun e => h (e ▸ hb)
  have hdrop : (w ++ c :: t).dropWhile (· ≠ c) = c :: t := by
    rw [List.dropWhile_append_of_pos hword]
    simp
  have htake : (w ++ c :: t).takeWhile (· ≠ c) = w := by
    rw [List.takeWhile_append_of_pos hword]
    simp
  rw [piecesN, hdrop]
  dsimp only
  rw [htake]

/-- `isspace`, `g_ascii_isspace`. -/
def Byte.isSpace (b : Byte) : Bool := (9 ≤ b.1 && b.1 ≤ 13) || b.1 == 32

/-- `g_strstrip`. -/
def gStrstrip (s : Str) : Str :=
  ((s.dropWhile Byte.isSpace).reverse.dropWhile Byte.isSpace).reverse

/-! ### Numbers -/

/-- A `long`: `time_t` and the result of `strtol`. -/
abbrev Long := {v : ℤ // -2 ^ 63 ≤ v ∧ v < 2 ^ 63}

theorem long_zero : (-2 ^ 63 : ℤ) ≤ 0 ∧ (0 : ℤ) < 2 ^ 63 := by decide

/-- The value of a digit or letter as a digit. -/
def Byte.digit? (b : Byte) : Option ℕ :=
  if 48 ≤ b.1 ∧ b.1 ≤ 57 then some (b.1 - 48)
  else if 65 ≤ b.1 ∧ b.1 ≤ 90 then some (b.1 - 55)
  else if 97 ≤ b.1 ∧ b.1 ≤ 122 then some (b.1 - 87)
  else none

/-- Whether a string begins with a digit of the base. -/
def startsDigit (base : ℕ) : Str → Bool
  | [] => false
  | b :: _ => match b.digit? with
      | some d => d < base
      | none => false

/-- The value of the longest prefix of digits, and what follows it. -/
def digitsVal (base : ℕ) : ℕ → Str → ℕ × Str
  | v, [] => (v, [])
  | v, b :: s => match b.digit? with
      | some d => if d < base then digitsVal base (v * base + d) s else (v, b :: s)
      | none => (v, b :: s)

/-- A value brought into the range of a `long`, as `strtol` does on overflow. -/
def clampLong (v : ℤ) : Long :=
  if h : v < -2 ^ 63 then ⟨-2 ^ 63, by decide⟩
  else if h' : 2 ^ 63 ≤ v then ⟨2 ^ 63 - 1, by decide⟩
  else ⟨v, by omega⟩

/-- The base `strtol` reads in, and the string after the base's mark: base 0 stands for the base
the string announces, `0x` for 16 and `0` for 8. -/
def strtolBase (base : ℕ) (s : Str) : ℕ × Str :=
  match base, s with
  | 0, z :: x :: s' =>
      if z = chr '0' ∧ (x = chr 'x' ∨ x = chr 'X') ∧ startsDigit 16 s' then (16, s')
      else if z = chr '0' then (8, s)
      else (10, s)
  | 0, [z] => if z = chr '0' then (8, s) else (10, s)
  | 0, [] => (10, s)
  | b, s => (b, s)

/-- The sign in front of a number. -/
def strtolSign : Str → Bool × Str
  | [] => (false, [])
  | b :: s => if b = chr '-' then (true, s) else if b = chr '+' then (false, s) else (false, b :: s)

/-- `strtol(s, &end, base)`: the value and what `end` points to. -/
def strtol (s : Str) (base : ℕ) : Long × Str :=
  let t := s.dropWhile Byte.isSpace
  let (neg, t) := strtolSign t
  let (b, t) := strtolBase base t
  if startsDigit b t then
    let (v, rest) := digitsVal b 0 t
    (clampLong (if neg then -(v : ℤ) else v), rest)
  else (⟨0, long_zero⟩, s)

/-- `atol`. -/
def atol (s : Str) : Long := (strtol s 10).1

/-- A `long` stored into an `int`. -/
def toInt (v : Long) : ℤ := Int.bmod v.1 (2 ^ 32)

/-- `atoi`. -/
def atoi (s : Str) : ℤ := toInt (atol s)

/-- The digit `d`. -/
def digit (d : ℕ) : Byte := ⟨48 + d % 10, by omega⟩

/-- The decimal digits of `n`, in front of `acc`; the first argument bounds their number. -/
def decimalAux : ℕ → ℕ → Str → Str
  | 0, _, acc => acc
  | f + 1, n, acc =>
      if n < 10 then digit n :: acc else decimalAux f (n / 10) (digit (n % 10) :: acc)

/-- `%d` of a natural number. -/
def decimal (n : ℕ) : Str := decimalAux (n + 1) n []

/-- `%d`, `%ld`. -/
def decimalInt (v : ℤ) : Str :=
  if v < 0 then chr '-' :: decimal v.natAbs else decimal v.natAbs

example : strtol (str " -12x") 10 = (⟨-12, by decide⟩, str "x") := by decide
example : (strtol (str "0x1f") 0).1 = ⟨31, by decide⟩ := by decide
example : decimalInt (-120) = str "-120" := by decide
example : gStrsplit (str "#a,,#b") (chr ',') = [str "#a", [], str "#b"] := by decide

end Ctrlproxy
