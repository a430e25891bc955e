import Ctrlproxy.Base.Str

/-!
# Base — IRC lines

`struct irc_line` of `libirc/line.h` with the parser and the printer of `libirc/line.c`.

`args` is a `NULL`-terminated vector of `argc` strings.  Reading `args[argc]` gives `NULL`;
reading beyond it leaves the vector (`IrcLine.arg`).
-/

namespace Ctrlproxy

/-- `enum has_endcolon`. -/
inductive HasEndcolon where
  | colonUnknown
  | withColon
  | withoutColon
  deriving DecidableEq, Repr

/-- `struct irc_line`. -/
structure IrcLine where
  origin : Option Str
  args : List Str
  hasEndcolon : HasEndcolon
  deriving DecidableEq

namespace IrcLine

def argc (l : IrcLine) : ℕ := l.args.length

/-- `l->args[i]`, possibly `NULL`. -/
def arg (l : IrcLine) (i : ℕ) : Except Fault (Option Str) :=
  if i ≤ l.argc then .ok l.args[i]? else .error .overread

/-- `l->args[i]`, where the code goes on to read the string. -/
def argStr (l : IrcLine) (i : ℕ) : Except Fault Str :=
  if i ≤ l.argc then
    match l.args[i]? with
    | some s => .ok s
    | none => .error .null
  else .error .overread

theorem arg_eq {l : IrcLine} {i : ℕ} {w : Str} (h : l.args[i]? = some w) :
    l.arg i = .ok (some w) := by
  have hlt : i < l.args.length := (List.getElem?_eq_some_iff.mp h).1
  rw [arg, argc, if_pos hlt.le, h]

theorem argStr_eq {l : IrcLine} {i : ℕ} {w : Str} (h : l.args[i]? = some w) :
    l.argStr i = .ok w := by
  have hlt : i < l.args.length := (List.getElem?_eq_some_iff.mp h).1
  rw [argStr, argc, if_pos hlt.le, h]

end IrcLine

/-- `line_get_nick`: the origin up to its first `!`. -/
def lineGetNick (l : IrcLine) : Except Fault Str :=
  match l.origin with
  | none => .error .assertion
  | some o => .ok (o.takeWhile (· ≠ chr '!'))

/-! ### Parsing -/

/-- The loop of `irc_parse_line` over `p`; `cur` is the argument being read.  It returns the
arguments from `cur` on, and whether one of them was introduced by a colon. -/
def parseArgs : (dosplit : Bool) → (cur : Str) → Str → List Str × HasEndcolon
  | _, cur, [] => ([cur], .withoutColon)
  | dosplit, cur, b :: p =>
      if b = chr ' ' ∧ dosplit then
        match p with
        -- the colon belongs to no argument, and nothing splits after it
        | c :: p' =>
            if c = chr ':' then
              (cur :: (parseArgs false [] p').1, .withColon)
            else
              let r := parseArgs true [] (c :: p')
              (cur :: r.1, r.2)
        | [] => ([cur, []], .withoutColon)
      else if b = chr '\r' ∨ b = chr '\n' then ([cur], .withoutColon)
      else parseArgs dosplit (cur ++ [b]) p

/-- `irc_parse_line`. -/
def ircParseLine (d : Str) : Option IrcLine :=
  match d with
  | b :: d' =>
      if b = chr ':' then
        match d'.dropWhile (· ≠ chr ' ') with
        | [] => none
        | rest =>
            let r := parseArgs true [] (rest.dropWhile (· = chr ' '))
            some ⟨some (d'.takeWhile (· ≠ chr ' ')), r.1, r.2⟩
      else
        let r := parseArgs true [] d
        some ⟨none, r.1, r.2⟩
  | [] => some ⟨none, [[]], .withoutColon⟩

/-! ### Printing -/

/-- The numerics `requires_colon` prints without a colon. -/
def colonlessResponses : List ℤ :=
  [324, 341, 367, 200, 201, 203, 204, 329, 205, 206, 208, 261, 211, 212, 213, 214, 215, 216, 218,
    219, 241, 242, 243, 244, 221, 4, 333]

/-- `requires_colon`. -/
def requiresColon (l : IrcLine) : Bool :=
  match l.hasEndcolon with
  | .withColon => true
  | .withoutColon => false
  | .colonUnknown =>
      let cmd := l.args[0]?
      if baseEq cmd (str "MODE") then false
      else if baseEq cmd (str "NICK") then false
      else if baseEq cmd (str "JOIN") then false
      else if baseEq cmd (str "PART") || baseEq cmd (str "TOPIC") then decide (l.argc > 2)
      else !(colonlessResponses.contains (atoi (cmd.getD [])))

/-- The arguments from the current one on, each but the last followed by a space; `first` holds
at `args[0]`, which never gets a colon. -/
def printArgs (colon : Bool) : (first : Bool) → List Str → Str
  | _, [] => []
  | first, [a] => if colon && !first then chr ':' :: a else a
  | _, a :: b :: rest => a ++ chr ' ' :: printArgs colon false (b :: rest)

/-- `irc_line_string`. -/
def ircLineString (l : IrcLine) : Str :=
  if l.argc = 0 then []
  else
    (match l.origin with
      | some o => chr ':' :: o ++ [chr ' ']
      | none => []) ++ printArgs (requiresColon l) true l.args

/-- `irc_line_string_nl`. -/
def ircLineStringNl (l : IrcLine) : Str := ircLineString l ++ str "\r\n"

example : ircParseLine (str ":n!u@h  PRIVMSG #c :hi  there\r\n") =
    some ⟨some (str "n!u@h"), [str "PRIVMSG", str "#c", str "hi  there"], .withColon⟩ := by
  simp [ircParseLine, parseArgs, str, chr]

end Ctrlproxy
