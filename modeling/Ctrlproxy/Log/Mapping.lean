import Ctrlproxy.Base.Announce
import Ctrlproxy.Lib.Cells

/-!
# Log — what a special character stands for

The translation table of `src/log_subst.c` and its callbacks.  `get_modechanges` joins the arguments of a
line in an array of 512 characters.  It bounds every `strncat` by the array and not by what is left of it,
so it stays inside exactly when what it joins, each argument cut at 511 characters, fits
(`getModechanges_iff`).
-/

namespace Ctrlproxy.Log
open Outcome

/-- What the callbacks read of `struct subst_context`: the identifier, the name of the network, and the
host of `current_server`. -/
structure SubstContext where
  identifier : Option Str
  networkName : Option Str
  server : Option Str

/-- What `time` and `localtime` say. -/
structure Moment where
  time : ℤ
  hour : ℤ
  min : ℤ
  sec : ℤ
  mday : ℤ
  mon : ℤ
  year : ℤ
  /-- `%b` of `strftime` -/
  monthName : Str

/-- The callbacks of the table. -/
inductive Callback where
  | hours
  | minutes
  | seconds
  | secondsSince1970
  | day
  | month
  | year
  | user
  | monthname
  | nick
  | network
  | server
  | percent
  | identifier
  | modechanges
  deriving DecidableEq, Repr

/-- `%0wd`. -/
def zeroPadded (w : ℕ) (v : ℤ) : Str :=
  let sign := if v < 0 then str "-" else []
  let digits := decimal v.natAbs
  sign ++ List.replicate (w - sign.length - digits.length) (chr '0') ++ digits

/-- `g_ascii_strdown`, which is called if `case_sensitive` is set. -/
def strdownIf (caseSensitive : Bool) (s : Str) : Str := if caseSensitive then s.map Byte.lower else s

/-! ### `get_modechanges` -/

/-- An argument behind the ones in `buf`; `first` holds at `args[3]`. -/
def addModechange (buf : Cells Byte) (first : Bool) (arg : Str) : Except Access (Cells Byte) := do
  let buf ← if first then pure buf else buf.strncat (str " ") 511
  buf.strncat arg 511

/-- The loop over the arguments. -/
def modechangesLoop (buf : Cells Byte) : (first : Bool) → List Str → Except Access (Cells Byte)
  | _, [] => .ok buf
  | first, arg :: args => do
      let buf ← addModechange buf first arg
      modechangesLoop buf false args

/-- `get_modechanges`. -/
def getModechanges (l : IrcLine) : Except Access Str := do
  let buf ← modechangesLoop (List.replicate 512 none) true (l.args.drop 3)
  buf.text

/-! ### The table -/

section
variable (ctx : SubstContext) (now : Moment) (l : IrcLine) (caseSensitive : Bool)

/-- A callback. -/
def Callback.run : Callback → Except Access (Option Str)
  | hours => .ok (some (zeroPadded 2 now.hour))
  | minutes => .ok (some (zeroPadded 2 now.min))
  | seconds => .ok (some (zeroPadded 2 now.sec))
  | secondsSince1970 => .ok (some (decimalInt now.time))
  | day => .ok (some (zeroPadded 2 now.mday))
  | month => .ok (some (zeroPadded 2 (now.mon + 1)))
  | year => .ok (some (zeroPadded 4 (now.year + 1900)))
  | user => .ok <| match l.origin with
      | none => none
      | some o => match o.dropWhile (· ≠ chr '!') with
          | [] => none
          | _ :: name => some (strdownIf caseSensitive name)
  | monthname => .ok (some now.monthName)
  | nick => .ok <| match l.origin with
      | none => some []
      | some o => some (strdownIf caseSensitive (o.takeWhile (· ≠ chr '!')))
  | network => .ok ctx.networkName
  | server => .ok (some (ctx.server.getD []))
  | percent => .ok (some (str "%"))
  | identifier => .ok (ctx.identifier.map (strdownIf caseSensitive))
  | modechanges => (getModechanges l).map some

end

/-- `struct log_mapping`: where the text is, an index into the arguments or a callback. -/
structure LogMapping where
  command : Option Str
  subst : Byte
  source : ℕ ⊕ Callback

/-- `mappings`. -/
def mappings : List LogMapping :=
  [⟨none, chr '@', .inr .identifier⟩, ⟨none, chr 'h', .inr .hours⟩, ⟨none, chr 'M', .inr .minutes⟩,
   ⟨none, chr 's', .inr .seconds⟩, ⟨none, chr 'd', .inr .day⟩, ⟨none, chr 'B', .inr .month⟩,
   ⟨none, chr 'Y', .inr .year⟩, ⟨none, chr 'e', .inr .secondsSince1970⟩,
   ⟨none, chr 'b', .inr .monthname⟩, ⟨none, chr 'n', .inr .nick⟩, ⟨none, chr 'u', .inr .user⟩,
   ⟨none, chr 'N', .inr .network⟩, ⟨none, chr 'S', .inr .server⟩, ⟨none, chr '%', .inr .percent⟩,
   ⟨some (str "JOIN"), chr 'c', .inl 1⟩,
   ⟨some (str "PART"), chr 'c', .inl 1⟩, ⟨some (str "PART"), chr 'm', .inl 2⟩,
   ⟨some (str "KICK"), chr 'c', .inl 1⟩, ⟨some (str "KICK"), chr 't', .inl 2⟩,
   ⟨some (str "KICK"), chr 'r', .inl 3⟩,
   ⟨some (str "QUIT"), chr 'm', .inl 1⟩,
   ⟨some (str "NOTICE"), chr 't', .inl 1⟩, ⟨some (str "NOTICE"), chr 'm', .inl 2⟩,
   ⟨some (str "PRIVMSG"), chr 't', .inl 1⟩, ⟨some (str "PRIVMSG"), chr 'm', .inl 2⟩,
   ⟨some (str "MSG"), chr 't', .inl 1⟩, ⟨some (str "MSG"), chr 'm', .inl 2⟩,
   ⟨some (str "TOPIC"), chr 'c', .inl 1⟩, ⟨some (str "TOPIC"), chr 't', .inl 2⟩,
   ⟨some (str "MODE"), chr 't', .inl 1⟩, ⟨some (str "MODE"), chr 'p', .inl 2⟩,
   ⟨some (str "MODE"), chr 'c', .inr .modechanges⟩,
   ⟨some (str "NICK"), chr 'r', .inl 1⟩,
   ⟨none, chr '0', .inl 0⟩, ⟨none, chr '1', .inl 1⟩, ⟨none, chr '2', .inl 2⟩,
   ⟨none, chr '3', .inl 3⟩, ⟨none, chr '4', .inl 4⟩, ⟨none, chr '5', .inl 5⟩,
   ⟨none, chr '6', .inl 6⟩, ⟨none, chr '7', .inl 7⟩, ⟨none, chr '8', .inl 8⟩,
   ⟨none, chr '9', .inl 9⟩]

/-- `strcmp(mapping.command, l->args[0])`, where the mapping has a command. -/
def LogMapping.otherCommand (m : LogMapping) (l : IrcLine) : Except Access Bool :=
  match m.command with
  | none => .ok false
  | some command => match l.args[0]? with
      | none => .error .read
      | some cmd => .ok (command ≠ cmd)

/-- The loop of `find_mapping`; `c` is `none` for the terminator, and `call` the callbacks. -/
def findMappingLoop (call : Callback → Except Access (Option Str)) (l : IrcLine) (c : Option Byte)
    (caseSensitive : Bool) : List LogMapping → Except Access (Option Str)
  | [] => .ok (some [])
  | m :: ms => do
      let other ← m.otherCommand l
      if other then findMappingLoop call l c caseSensitive ms
      else if c ≠ some m.subst then findMappingLoop call l c caseSensitive ms
      else match m.source with
        | .inr callback => call callback
        | .inl index => match l.args[index]? with
            | some arg => .ok (some (strdownIf caseSensitive arg))
            -- the line is too short: the search goes on
            | none => findMappingLoop call l c caseSensitive ms

/-- `find_mapping`. -/
def findMapping (call : Callback → Except Access (Option Str)) (l : IrcLine) (c : Option Byte)
    (caseSensitive : Bool) : Except Access (Option Str) :=
  findMappingLoop call l c caseSensitive mappings

/-! ### Finding -/

/-- The mapping is for the command of the line, and has its text there. -/
def LogMapping.applies (m : LogMapping) (l : IrcLine) : Bool :=
  (m.command.all fun command => l.args[0]? = some command) &&
    match m.source with
    | .inl index => index < l.argc
    | .inr _ => true

/-- The text of a mapping. -/
def LogMapping.text (m : LogMapping) (call : Callback → Except Access (Option Str)) (l : IrcLine)
    (caseSensitive : Bool) : Except Access (Option Str) :=
  match m.source with
  | .inl index => .ok (l.args[index]?.map (strdownIf caseSensitive))
  | .inr callback => call callback

section
variable {call : Callback → Except Access (Option Str)} {l : IrcLine} {c : Option Byte} {cs : Bool}

/-- The first mapping of the character that applies is found. -/
theorem findMappingLoop_eq (hl : l.args ≠ []) (ms : List LogMapping) :
    findMappingLoop call l c cs ms =
      match ms.find? fun m => c = some m.subst && m.applies l with
      | none => .ok (some [])
      | some m => m.text call l cs := by
  obtain ⟨cmd, args, hargs⟩ := List.exists_cons_of_ne_nil hl
  have hcmd : l.args[0]? = some cmd := by rw [hargs]; rfl
  induction ms with
  | nil => rfl
  | cons m ms ih =>
      have hother : m.otherCommand l = .ok !(m.command.all fun command => l.args[0]? = some command) := by
        rw [LogMapping.otherCommand, hcmd]
        cases m.command with
        | none => rfl
        | some w => simp [eq_comm]
      rw [findMappingLoop, hother, ok_bind, List.find?_cons, LogMapping.applies]
      cases m.command.all fun command => l.args[0]? = some command with
      | false => simpa using ih
      | true =>
          by_cases hc : c = some m.subst
          · cases hsource : m.source with
            | inr callback => simp [hc, LogMapping.text, hsource]
            | inl index =>
                by_cases hlt : index < l.args.length
                · simp [hc, LogMapping.text, hsource, IrcLine.argc, hlt]
                · simpa [hc, IrcLine.argc, hlt] using ih
          · simpa [hc] using ih

/-- The modes of a MODE line are found behind `c`. -/
theorem findMapping_modechanges (hl : l.args[0]? = some (str "MODE")) :
    findMapping call l (some (chr 'c')) cs = call .modechanges := by
  have hne : l.args ≠ [] := by
    intro h
    rw [h] at hl
    cases hl
  have hfind : mappings.find? (fun m => some (chr 'c') = some m.subst && m.applies l) =
      some ⟨some (str "MODE"), chr 'c', .inr .modechanges⟩ := by
    simp only [LogMapping.applies, hl]
    rfl
  rw [findMapping, findMappingLoop_eq hne, hfind]
  rfl

end

/-! ### Joining -/

/-- The arguments from the fourth on. -/
def modechangeArgs (l : IrcLine) : List Str := l.args.drop 3

/-- What `get_modechanges` is to return, and what it tries to put into its array: no `strncat` takes more
than 511 characters. -/
def modechanges (l : IrcLine) : Str := joinWith (chr ' ') (modechangeArgs l)

def modechangesTaken (l : IrcLine) : Str :=
  joinWith (chr ' ') ((modechangeArgs l).map (·.take 511))

/-- Nothing is written behind the array, and a text that fits is returned. -/
def StaysInBuffer (l : IrcLine) : Prop :=
  (∃ text, getModechanges l = .ok text) ∧
    ((modechanges l).length ≤ 511 → getModechanges l = .ok (modechanges l))

section
variable {buf : Cells Byte} {s : Str} {l : IrcLine}

/-- What an argument adds to the text. -/
def modechangePiece (first : Bool) (arg : Str) : Str :=
  if first then arg.take 511 else chr ' ' :: arg.take 511

/-- An argument is added if there is room for it. -/
theorem addModechange_fits (h : buf.Holds s) {first : Bool} {arg : Str}
    (hlt : s.length + (modechangePiece first arg).length < buf.length) :
    ∃ buf', addModechange buf first arg = .ok buf' ∧ buf'.length = buf.length ∧
      buf'.Holds (s ++ modechangePiece first arg) := by
  cases first with
  | true => exact h.strncat hlt
  | false =>
      have hspace : s.length + ((str " ").take 511).length < buf.length := by
        have : ((str " ").take 511).length = 1 := rfl
        simp only [modechangePiece, Bool.false_eq_true, if_false, List.length_cons] at hlt
        omega
      obtain ⟨buf₁, hrun₁, hlen₁, h₁⟩ := h.strncat hspace
      have htext : (s ++ (str " ").take 511).length + (arg.take 511).length < buf₁.length := by
        rw [hlen₁]
        have : (s ++ (str " ").take 511).length = s.length + 1 := List.length_append
        simp only [modechangePiece, Bool.false_eq_true, if_false, List.length_cons] at hlt
        omega
      obtain ⟨buf₂, hrun₂, hlen₂, h₂⟩ := h₁.strncat htext
      have hrun : addModechange buf false arg = .ok buf₂ := by
        simp only [addModechange, Bool.false_eq_true, if_false, hrun₁, ok_bind, hrun₂]
      refine ⟨buf₂, hrun, hlen₂.trans hlen₁, ?_⟩
      rw [List.append_assoc] at h₂
      exact h₂

/-- Without room for it the array is left. -/
theorem addModechange_overflows (h : buf.Holds s) {first : Bool} {arg : Str}
    (hle : buf.length ≤ s.length + (modechangePiece first arg).length) :
    addModechange buf first arg = .error .write := by
  cases first with
  | true => exact h.strncat_error hle
  | false =>
      simp only [modechangePiece, Bool.false_eq_true, if_false, List.length_cons] at hle
      have hone : ((str " ").take 511).length = 1 := rfl
      simp only [addModechange, Bool.false_eq_true, if_false]
      by_cases hspace : s.length + ((str " ").take 511).length < buf.length
      · obtain ⟨buf₁, hrun₁, hlen₁, h₁⟩ := h.strncat hspace
        rw [hrun₁, ok_bind]
        refine h₁.strncat_error ?_
        rw [List.length_append, hone, hlen₁]
        omega
      · rw [h.strncat_error (Nat.le_of_not_lt hspace)]
        rfl

/-- What the arguments add, one after the other. -/
def modechangeText : (first : Bool) → List Str → Str
  | _, [] => []
  | first, arg :: args => modechangePiece first arg ++ modechangeText false args

theorem modechangeText_eq (args : List Str) :
    modechangeText true args = joinWith (chr ' ') (args.map (·.take 511)) := by
  induction args with
  | nil => rfl
  | cons arg args ih =>
      cases args with
      | nil => simp [modechangeText, modechangePiece, joinWith]
      | cons arg' args =>
          rw [List.map_cons, joinWith_cons (by simp), ← ih]
          rfl

/-- The loop joins the arguments, as long as there is room. -/
theorem modechangesLoop_cases (h : buf.Holds s) (first : Bool) (args : List Str) :
    (s.length + (modechangeText first args).length < buf.length →
      ∃ buf', modechangesLoop buf first args = .ok buf' ∧ buf'.Holds (s ++ modechangeText first args)) ∧
    (buf.length ≤ s.length + (modechangeText first args).length →
      modechangesLoop buf first args = .error .write) := by
  induction args generalizing buf s first with
  | nil =>
      refine ⟨fun _ => ⟨buf, rfl, by simpa [modechangeText] using h⟩, fun hle => ?_⟩
      exact absurd h.length_lt (Nat.not_lt_of_le hle)
  | cons arg args ih =>
      rw [modechangesLoop, modechangeText, List.length_append, ← List.append_assoc]
      by_cases hfit : s.length + (modechangePiece first arg).length < buf.length
      · obtain ⟨buf₁, hrun₁, hlen₁, h₁⟩ := addModechange_fits h hfit
        have hloop := ih h₁ false
        rw [hlen₁, List.length_append, Nat.add_assoc] at hloop
        rw [hrun₁, ok_bind]
        exact hloop
      · rw [addModechange_overflows h (Nat.le_of_not_lt hfit)]
        exact ⟨fun hlt => absurd (by omega) hfit, fun _ => rfl⟩

/-- What is tried to put into the array fits, or the array is left. -/
theorem getModechanges_cases (l : IrcLine) :
    ((modechangesTaken l).length ≤ 511 → getModechanges l = .ok (modechangesTaken l)) ∧
      (511 < (modechangesTaken l).length → getModechanges l = .error .write) := by
  have hempty : Cells.Holds (List.replicate 512 (none : Option Byte)) [] :=
    ⟨List.replicate 511 none, rfl⟩
  have hloop := modechangesLoop_cases hempty true (modechangeArgs l)
  rw [modechangeText_eq, List.length_nil, Nat.zero_add, List.length_replicate] at hloop
  constructor
  · intro hle
    obtain ⟨buf, hrun, hholds⟩ := hloop.1 (Nat.lt_succ_of_le hle)
    rw [getModechanges, ← modechangeArgs, hrun, ok_bind, hholds.text_eq, List.nil_append, modechangesTaken]
  · intro hlt
    rw [getModechanges, ← modechangeArgs, hloop.2 hlt]
    rfl

/-- Nothing is cut from arguments that fit together. -/
theorem modechangesTaken_eq (h : (modechanges l).length ≤ 511) : modechangesTaken l = modechanges l := by
  have hshort : ∀ args : List Str, (joinWith (chr ' ') args).length ≤ 511 →
      args.map (·.take 511) = args := by
    intro args
    induction args with
    | nil => exact fun _ => rfl
    | cons arg args ih =>
        intro hlen
        cases args with
        | nil => exact congrArg (fun arg => [arg]) (List.take_of_length_le hlen)
        | cons arg' args =>
            rw [joinWith_cons (List.cons_ne_nil _ _), List.length_append, List.length_cons] at hlen
            rw [List.map_cons, List.take_of_length_le (by omega), ih (by omega)]
  rw [modechangesTaken, hshort _ h, modechanges]

end

/-- **The mode changes stay in their array** exactly when the arguments from the fourth on, each cut at 511
characters and joined by spaces, have no more than 511 characters. -/
theorem getModechanges_iff (l : IrcLine) : StaysInBuffer l ↔ (modechangesTaken l).length ≤ 511 := by
  obtain ⟨hfits, hoverflows⟩ := getModechanges_cases l
  constructor
  · rintro ⟨⟨text, hrun⟩, -⟩
    by_contra hlt
    rw [hoverflows (Nat.lt_of_not_le hlt)] at hrun
    cases hrun
  · intro hle
    refine ⟨⟨_, hfits hle⟩, fun hall => ?_⟩
    rw [hfits hle, modechangesTaken_eq hall]

/-- Two arguments that fit one by one do not fit together. -/
theorem two_modechanges_overflow : ¬∀ l : IrcLine, l.args[0]? = some (str "MODE") → StaysInBuffer l := by
  intro h
  let l : IrcLine := ⟨some (str "op!u@h"), [str "MODE", str "#c", str "+bb",
    List.replicate 256 (chr 'a'), List.replicate 256 (chr 'b')], .withoutColon⟩
  have hlen : 511 < (modechangesTaken l).length := by decide +kernel
  obtain ⟨⟨text, hrun⟩, -⟩ := h l rfl
  rw [(getModechanges_cases l).2 hlen] at hrun
  cases hrun

end Ctrlproxy.Log
