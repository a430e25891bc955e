import Ctrlproxy.State.Handlers

/-!
# Linestack — the marshaller

The functions `marshall_*` of `libirc/linestack.c`.  Each is one function in two modes: in
`MARSHALL_PUSH` it appends the text of a value, in `MARSHALL_PULL` it takes text from the front
and returns what it read in the place of the value it was handed.  A marshaller returns its
`gboolean`, the text and the value.  Writing succeeds.

What comes from outside this repository:

* `read` is `g_io_channel_read_line`: it splits the text at hand into a line and its line end;
* `junk` is what `g_malloc` leaves in the objects it returns, by their addresses.
-/

namespace Ctrlproxy
open Outcome

/-- `enum marshall_mode`. -/
inductive MarshallMode where
  | pull
  | push
  deriving DecidableEq

/-- `g_io_channel_read_line`: a line and what ends it. -/
abbrev LineReader := Str → Str × Str

/-- What memory holds before it is written to. -/
structure Junk where
  nick : Ref → NetworkNick
  chan : Ref → ChannelState
  entry : NicklistEntry

/-- Memory that holds zeroes. -/
def zeroes : Junk where
  nick := fun _ => NetworkNick.zero
  chan := fun _ => ircChannelStateNew []
  entry := ⟨none, none, long0⟩

/-- A marshaller of a value that is no pointer into the state. -/
abbrev Marshall (D : Type) := Str → D → Except Fault (Bool × Str × D)

/-! ### Lines -/

/-- The result of `g_snprintf` into a buffer of `size` characters. -/
def gSnprintf (size : ℕ) (s : Str) : Str := s.take (size - 1)

/-- `marshall_set`. -/
def marshallSet (t : Str) (level : ℕ) (name : Str) (value : Option Str) : Except Fault Str :=
  if chr '\n' ∈ name ∨ ∃ v ∈ value, chr '\n' ∈ v then .error .assertion
  else
    let text := match value with
      | none => []
      | some v => str ": " ++ v
    .ok (t ++ (List.replicate level (chr '\t') ++ name ++ text ++ [chr '\n']))

/-- `marshall_get`: `none` stands for `FALSE`. -/
def marshallGet (read : LineReader) (t : Str) (level : ℕ) (name : Str) :
    Except Fault (Option (Option Str) × Str) :=
  if t = [] then .ok (none, t)
  else
    let (line, eol) := read t
    let t := t.drop (line.length + eol.length)
    let start := List.replicate level (chr '\t') ++ name
    if start <+: line then
      match line.drop start.length with
      | [] => .ok (some none, t)
      | b :: rest =>
          if b = chr ':' then
            match rest with
            | [] => .error .overread
            | _ :: v => .ok (some (some v), t)
          else .ok (some none, t)
    else .error .assertion

/-- `marshall_struct`. -/
def marshallStruct (read : LineReader) (m : MarshallMode) (level : ℕ) (name t : Str) :
    Except Fault (Bool × Str) :=
  match m with
  | .push => do
      let t ← marshallSet t level name none
      pure (true, t)
  | .pull => do
      let (v, t) ← marshallGet read t level name
      match v with
      | none => pure (false, t)
      | some (some _) => pure (false, t)
      | some none => pure (true, t)

/-! ### Values -/

/-- A value that is written as a string: `print` makes the string, `parse` reads it into the
place that held the value handed in. -/
def marshallVia {D : Type} (read : LineReader) (print : D → Option Str)
    (parse : Option Str → D → Except Fault (Bool × D)) (name : Str) (level : ℕ)
    (m : MarshallMode) : Marshall D := fun t d =>
  match m with
  | .push => do
      let t ← marshallSet t level name (print d)
      pure (true, t, d)
  | .pull => do
      let (v, t) ← marshallGet read t level name
      match v with
      | none => pure (false, t, d)
      | some v => do
          let (ok, d) ← parse v d
          pure (ok, t, d)

/-- A string the code goes on to read. -/
def nonNull (v : Option Str) : Except Fault Str :=
  match v with
  | none => .error .null
  | some v => .ok v

/-- `marshall_string`. -/
def marshallString (read : LineReader) : Str → ℕ → MarshallMode → Marshall (Option Str) :=
  marshallVia read id fun v _ => .ok (true, v)

def printBool (b : Bool) : Str := if b then str "true" else str "false"

/-- `marshall_bool`. -/
def marshallBool (read : LineReader) : Str → ℕ → MarshallMode → Marshall Bool :=
  marshallVia read (fun b => some (printBool b)) fun v b => do
    let v ← nonNull v
    if v = str "true" then pure (true, true)
    else if v = str "false" then pure (true, false)
    else pure (false, b)

/-- `marshall_char`: the character 0 is `none`. -/
def marshallChar (read : LineReader) : Str → ℕ → MarshallMode → Marshall (Option Byte) :=
  marshallVia read (fun c => some c.toList) fun v _ => do
    let v ← nonNull v
    pure (true, v.head?)

/-- `marshall_int`. -/
def marshallInt (read : LineReader) : Str → ℕ → MarshallMode → Marshall ℤ :=
  marshallVia read (fun n => some (gSnprintf 10 (decimalInt n))) fun v _ => do
    let v ← nonNull v
    pure (true, atoi v)

/-- `marshall_time`. -/
def marshallTime (read : LineReader) : Str → ℕ → MarshallMode → Marshall Long :=
  marshallVia read (fun n => some (gSnprintf 30 (decimalInt n.1))) fun v _ => do
    let v ← nonNull v
    pure (true, (strtol v 0).1)

/-- `marshall_modes`. -/
def marshallModes (read : LineReader) : Str → ℕ → MarshallMode → Marshall Modes :=
  marshallVia read mode2string fun v _ => do
    let (modes, _) ← string2mode v
    pure (true, modes)

/-- `"[%d]"` in a buffer of `size` characters. -/
def indexName (size i : ℕ) : Str := gSnprintf size (chr '[' :: decimal i ++ [chr ']'])

/-! ### Nicks -/

/-- `marshall_network_nick`. -/
def marshallNetworkNick (read : LineReader) (name : Str) (level : ℕ) (m : MarshallMode) :
    Marshall NetworkNick := fun t n => do
  let (_, t) ← marshallStruct read m level name t
  let (r₁, t, query) ← marshallBool read (str "query") (level + 1) m t n.query
  let (r₂, t, modes) ← marshallModes read (str "modes") (level + 1) m t n.modes
  let (r₃, t, nick) ← marshallString read (str "nick") (level + 1) m t n.nick
  if nick = none then .error .assertion
  else do
    let (r₄, t, fullname) ← marshallString read (str "fullname") (level + 1) m t n.fullname
    let (r₅, t, username) ← marshallString read (str "username") (level + 1) m t n.username
    let (r₆, t, hostname) ← marshallString read (str "hostname") (level + 1) m t n.hostname
    let (r₇, t, hostmask) ← marshallString read (str "hostmask") (level + 1) m t n.hostmask
    let (r₈, t, server) ← marshallString read (str "server") (level + 1) m t n.server
    let channelNicks := if m = .pull then [] else n.channelNicks
    pure (r₁ && r₂ && r₃ && r₄ && r₅ && r₆ && r₇ && r₈, t,
      { n with
        query := query
        modes := modes
        nick := nick
        fullname := fullname
        username := username
        hostname := hostname
        hostmask := hostmask
        server := server
        channelNicks := channelNicks })

/-! ### Lists -/

/-- A marshaller that follows pointers into the state. -/
abbrev MarshallIn (D : Type) := NetworkState → Str → D → Except Fault (Bool × NetworkState × Str × D)

def Marshall.lift {D : Type} (f : Marshall D) : MarshallIn D := fun nst t d => do
  let (ok, t, d) ← f t d
  pure (ok, nst, t, d)

/-- The loop of `marshall_GList` over a list that is written, from its `i`-th element on. -/
def pushElements {D : Type} (f : Str → ℕ → MarshallMode → MarshallIn D) (level : ℕ) :
    ℕ → List D → NetworkState → Str → Except Fault (Bool × NetworkState × Str)
  | _, [], nst, t => .ok (true, nst, t)
  | i, d :: l, nst, t => do
      let (ok, nst, t, _) ← f (indexName 20 i) (level + 1) .push nst t d
      if ok then pushElements f level (i + 1) l nst t else pure (false, nst, t)

/-- The loop of `marshall_GList` that reads `k` elements, the first of them the `i`-th; `v` is
what the pointer to an element holds before it is set. -/
def pullElements {D : Type} (f : Str → ℕ → MarshallMode → MarshallIn D) (level : ℕ) (v : D) :
    ℕ → ℕ → List D → NetworkState → Str → Except Fault (Bool × NetworkState × Str × List D)
  | _, 0, l, nst, t => .ok (true, nst, t, l)
  | i, k + 1, l, nst, t => do
      let (ok, nst, t, d) ← f (indexName 20 i) (level + 1) .pull nst t v
      if ok then pullElements f level v (i + 1) k (l ++ [d]) nst t else pure (false, nst, t, l)

/-- `marshall_GList`. -/
def marshallGList {D : Type} (read : LineReader) (v : D) (f : Str → ℕ → MarshallMode → MarshallIn D)
    (name : Str) (level : ℕ) (m : MarshallMode) : MarshallIn (List D) := fun nst t gl => do
  let (_, t) ← marshallStruct read m level name t
  match m with
  | .pull => do
      let (_, t, count) ← marshallInt read (str "count") (level + 1) m t 0
      pullElements f level v 0 count.toNat [] nst t
  | .push => do
      let (_, t, _) ← marshallInt read (str "count") (level + 1) m t gl.length
      let (ok, nst, t) ← pushElements f level 0 gl nst t
      pure (ok, nst, t, gl)

/-- `marshall_network_nick_p`. -/
def marshallNetworkNickP (read : LineReader) (junk : Junk) (name : Str) (level : ℕ)
    (m : MarshallMode) : MarshallIn Ref := fun nst t r =>
  match m with
  | .pull => do
      let (ok, t, n) ← marshallNetworkNick read name level .pull t (junk.nick nst.next)
      pure (ok, { nst with nickHeap := nst.nickHeap.set nst.next n, next := nst.next + 1 }, t,
        nst.next)
  | .push => do
      let n ← nst.nick r
      let (ok, t, _) ← marshallNetworkNick read name level .push t n
      pure (ok, nst, t, r)

/-- `marshall_nicklist_entry`. -/
def marshallNicklistEntry (read : LineReader) (junk : Junk) (name : Str) (level : ℕ)
    (m : MarshallMode) : Marshall NicklistEntry := fun t d => do
  let d := if m = .pull then junk.entry else d
  let (_, t) ← marshallStruct read m level name t
  let (r₁, t, timeSet) ← marshallTime read (str "time") (level + 1) m t d.timeSet
  let (r₂, t, hostmask) ← marshallString read (str "hostmask") (level + 1) m t d.hostmask
  let (r₃, t, by') ← marshallString read (str "by") (level + 1) m t d.by'
  pure (r₁ && r₂ && r₃, t, { hostmask := hostmask, by' := by', timeSet := timeSet })

/-! ### Channels -/

/-- `"%s[%d]"` in a buffer of 20 characters. -/
def slotName (name : Str) (i : ℕ) : Str := gSnprintf 20 (name ++ chr '[' :: decimal i ++ [chr ']'])

/-- A list of masks of a channel. -/
def marshallMasks (read : LineReader) (junk : Junk) (name : Str) (level : ℕ) (m : MarshallMode) :
    MarshallIn (List NicklistEntry) :=
  marshallGList read junk.entry
    (fun name level m => (marshallNicklistEntry read junk name level m).lift) name level m

/-- The loop over the `MAXMODES` lists of masks and options of a channel. -/
def marshallSlots (read : LineReader) (junk : Junk) (level : ℕ) (m : MarshallMode) :
    List (Fin MAXMODES) → MarshallIn (ModeArray (List NicklistEntry) × ModeArray (Option Str))
  | [], nst, t, d => .ok (true, nst, t, d)
  | i :: is, nst, t, (lists, options) => do
      let (r₁, nst, t, l) ←
        marshallMasks read junk (slotName (str "mode_nicklist") i) (level + 1) m nst t (lists i)
      let (r₂, t, o) ←
        marshallString read (slotName (str "mode_option") i) (level + 1) m t (options i)
      let (r₃, nst, t, d) ← marshallSlots read junk level m is nst t
        (ModeArray.set lists i l, ModeArray.set options i o)
      pure (r₁ && r₂ && r₃, nst, t, d)

/-- The fields of a channel but its members. -/
def marshallChannelFields (read : LineReader) (junk : Junk) (level : ℕ) (m : MarshallMode) :
    MarshallIn ChannelState := fun nst t c => do
  let (r₁, t, mode) ← marshallChar read (str "mode") (level + 1) m t c.mode
  let (r₂, t, modes) ← marshallModes read (str "modes") (level + 1) m t c.modes
  let (r₃, t, namreply) ←
    marshallBool read (str "namreply_started") (level + 1) m t c.namreplyStarted
  let (r₄, t, banlist) ← marshallBool read (str "banlist_started") (level + 1) m t c.banlistStarted
  let (r₅, t, invitelist) ←
    marshallBool read (str "invitelist_started") (level + 1) m t c.invitelistStarted
  let (r₆, t, exceptlist) ←
    marshallBool read (str "exceptlist_started") (level + 1) m t c.exceptlistStarted
  let (r₇, t, name) ← marshallString read (str "name") (level + 1) m t (some c.name)
  -- a channel without a name cannot be represented; it is never written
  let name ← nonNull name
  let (r₈, t, topic) ← marshallString read (str "topic") (level + 1) m t c.topic
  let (r₉, t, setBy) ← marshallString read (str "topic_set_by") (level + 1) m t c.topicSetBy
  let (r₁₀, t, setTime) ← marshallTime read (str "topic_set_time") (level + 1) m t c.topicSetTime
  let (r₁₁, nst, t, lists, options) ← marshallSlots read junk level m (List.finRange MAXMODES) nst t
    (c.chanmodeNicklist, c.chanmodeOption)
  pure (r₁ && r₂ && r₃ && r₄ && r₅ && r₆ && r₇ && r₈ && r₉ && r₁₀ && r₁₁, nst, t,
    { c with
      mode := mode
      modes := modes
      namreplyStarted := namreply
      banlistStarted := banlist
      invitelistStarted := invitelist
      exceptlistStarted := exceptlist
      name := name
      topic := topic
      topicSetBy := setBy
      topicSetTime := setTime
      chanmodeNicklist := lists
      chanmodeOption := options
      network := true })

/-- The loop that writes the members of a channel, from the `i`-th on. -/
def pushMembers (read : LineReader) (level : ℕ) :
    ℕ → List Ref → NetworkState → Str → Except Fault (Bool × Str)
  | _, [], _, t => .ok (true, t)
  | i, r :: l, nst, t => do
      let cn ← nst.memb r
      let gn ← nst.nick cn.globalNick
      let (_, t) ← marshallStruct read .push (level + 2) (indexName 10 i) t
      let (r₁, t, _) ← marshallString read (str "nick") (level + 3) .push t gn.nick
      let (r₂, t, _) ← marshallModes read (str "modes") (level + 3) .push t cn.modes
      if r₁ && r₂ then pushMembers read level (i + 1) l nst t else pure (false, t)

/-- The loop that reads `k` members of the channel at `c`, the first of them the `i`-th. -/
def pullMembers (read : LineReader) (level : ℕ) (c : Ref) :
    ℕ → ℕ → NetworkState → Str → Except Fault (Bool × NetworkState × Str)
  | _, 0, nst, t => .ok (true, nst, t)
  | i, k + 1, nst, t => do
      let (_, t) ← marshallStruct read .pull (level + 2) (indexName 10 i) t
      let (r₁, t, nick) ← marshallString read (str "nick") (level + 3) .pull t none
      if r₁ = false then pure (false, nst, t)
      else do
        -- `find_add_channel_nick` asserts that it is handed a name
        let (r, nst) ← findAddChannelNick nst c (nick.getD [])
        let cn ← nst.memb r
        let (r₂, t, modes) ← marshallModes read (str "modes") (level + 3) .pull t cn.modes
        let nst := nst.setMemb r { cn with modes := modes }
        if r₂ = false then pure (false, nst, t) else pullMembers read level c (i + 1) k nst t

/-- `marshall_channel_state`. -/
def marshallChannelState (read : LineReader) (junk : Junk) (name : Str) (level : ℕ)
    (m : MarshallMode) : MarshallIn Ref := fun nst t c =>
  match m with
  | .pull => do
      let c := nst.next
      let nst := { nst with next := nst.next + 1 }
      let (_, t) ← marshallStruct read .pull level name t
      let (ret, nst, t, ch) ← marshallChannelFields read junk level .pull nst t (junk.chan c)
      let (_, t) ← marshallStruct read .pull (level + 1) (str "nicks") t
      let nst := nst.setChan c { ch with nicks := [] }
      let (_, t, count) ← marshallInt read (str "count") (level + 2) .pull t 0
      let (ok, nst, t) ← pullMembers read level c 0 count.toNat nst t
      pure (ok && ret, nst, t, c)
  | .push => do
      let ch ← nst.chan c
      let (_, t) ← marshallStruct read .push level name t
      let (ret, nst, t, ch) ← marshallChannelFields read junk level .push nst t ch
      let nst := nst.setChan c ch
      let (_, t) ← marshallStruct read .push (level + 1) (str "nicks") t
      let (_, t, _) ← marshallInt read (str "count") (level + 2) .push t ch.nicks.length
      let (ok, t) ← pushMembers read level 0 ch.nicks nst t
      pure (ok && ret, nst, t, c)

/-! ### The state -/

/-- `marshall_network_state`. -/
def marshallNetworkState (read : LineReader) (junk : Junk) (m : MarshallMode) (t : Str)
    (n : NetworkState) : Except Fault (Bool × Str × NetworkState) := do
  let me ← n.nick meRef
  let me := if m = .pull then { me with hostmask := none } else me
  let (r₁, t, me) ← marshallNetworkNick read (str "me") 0 m t me
  let n := n.setNick meRef me
  let (r₂, n, t, nicks) ←
    marshallGList read 0 (marshallNetworkNickP read junk) (str "nicks") 0 m n t n.nicks
  let n := { n with nicks := nicks }
  let (r₃, n, t, channels) ←
    marshallGList read 0 (marshallChannelState read junk) (str "channels") 0 m n t n.channels
  let n := { n with channels := channels }
  let me ← n.nick meRef
  if me.nick = none then .error .assertion else pure (r₁ && r₂ && r₃, t, n)

end Ctrlproxy
