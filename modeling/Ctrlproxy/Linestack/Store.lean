import Ctrlproxy.Lib.File
import Ctrlproxy.Linestack.Marshal

/-!
# Linestack — the store

`struct linestack_context` and the functions of `libirc/linestack.c` that write to it and read from
it.  A log is a directory: the file `lines` with the text of the lines, the file `index` with a
record of three numbers for each of them, and the snapshots in `states`, by the count of the lines
before them.

A channel is a file at a position: what GLib buffers it flushes before it seeks or tells, and a
position is only ever told or moved by the functions below.  A write fails when `fails` says so or
when the file would outgrow the offsets of `lseek`; it then writes nothing.  Opening, seeking and
reading succeed.
-/

namespace Ctrlproxy
open Outcome

/-! ### Records -/

/-- An `int` that counts: it leaves its range at `2 ^ 31`. -/
def intAdd (a b : ℕ) : Except Fault ℕ :=
  if a + b < 2 ^ 31 then .ok (a + b) else .error .overflow

def INDEX_RECORD_SIZE : ℕ := 24

-- irreducible: a comparison with it is not to be unfolded a thousand times
@[irreducible] def STATE_DUMP_INTERVAL : ℕ := 1000

/-- The octets of a `time_t`. -/
def timeOctets (t : Long) : List Octet := toOctets 8 (t.1 % 2 ^ 64).toNat

/-- The `time_t` that a number of 8 octets stands for. -/
def timeOf (v : ℕ) : Long :=
  if h : v < 2 ^ 63 then ⟨v, by omega⟩ else clampLong ((v : ℤ) - 2 ^ 64)

/-- `g_io_channel_read_chars` into a number of `k` octets.  At the end of the file the callers go
on to print the message of an error that is not there. -/
def readNumber (f : File Octet) (k : ℕ) : Except Fault (ℕ × File Octet) :=
  let (bytes, f) := f.read k
  if bytes = [] then .error .null
  else if bytes.length < k then .error .overread
  else .ok (ofOctets bytes, f)

/-! ### Directories -/

/-- The files of a log. -/
structure LogDir where
  lines : List Byte
  index : List Octet
  states : ℕ → Option Str

/-- `struct linestack_context`. -/
structure LinestackContext where
  lineFile : File Byte
  indexFile : File Octet
  /-- `state_dir` -/
  states : ℕ → Option Str
  count : ℕ
  lastLineWithState : ℕ

/-- The places where the store is written to. -/
inductive WriteSite where
  | stateOpen
  | stateFlush
  | lineOffset
  | lineTime
  | stateIndex
  | line
  deriving DecidableEq

/-- `g_io_channel_write_chars`: `none` if it fails. -/
def writeChars {α : Type} (fails : WriteSite → Bool) (site : WriteSite) (f : File α)
    (xs : List α) : Option (File α) :=
  if fails site || decide (2 ^ 63 ≤ f.pos + xs.length) then none else some (f.write xs)

/-- `file_insert_state`; what `marshall_network_state` returns is not looked at. -/
def fileInsertState (read : LineReader) (junk : Junk) (fails : WriteSite → Bool)
    (nd : LinestackContext) (state : NetworkState) (stateId : ℕ) :
    Except Fault (Bool × LinestackContext) :=
  if fails .stateOpen then .ok (false, nd)
  else do
    let nd := { nd with lastLineWithState := nd.count }
    let (_, text, _) ← marshallNetworkState read junk .push [] state
    if fails .stateFlush then
      pure (false, { nd with states := Function.update nd.states stateId (some []) })
    else pure (true, { nd with states := Function.update nd.states stateId (some text) })

/-- The context before its first snapshot: of an empty directory, or at the end of the files that
are there. -/
def openContext (dir : LogDir) (truncate : Bool) : Except Fault LinestackContext :=
  if truncate then .ok ⟨.empty, .empty, fun _ => none, 0, 0⟩
  else do
    let count ← intAdd (dir.index.length / INDEX_RECORD_SIZE) 0
    pure ⟨File.seekEnd ⟨dir.lines, 0⟩, File.seekEnd ⟨dir.index, 0⟩, dir.states, count, 0⟩

/-- `create_linestack`: `none` is `NULL`. -/
def createLinestack (read : LineReader) (junk : Junk) (fails : WriteSite → Bool) (dir : LogDir)
    (truncate : Bool) (state : NetworkState) : Except Fault (Option LinestackContext) := do
  let data ← openContext dir truncate
  let (ok, data) ← fileInsertState read junk fails data state 0
  pure (if ok then some data else none)

/-! ### Inserting -/

/-- `enum data_direction`. -/
inductive DataDirection where
  | toServer
  | fromServer
  deriving DecidableEq

/-- `linestack_messages`. -/
def linestackMessages : List Str :=
  [str "NICK", str "JOIN", str "QUIT", str "PART", str "PRIVMSG", str "NOTICE", str "KICK",
    str "MODE", str "TOPIC", str "353", str "366", str "331", str "333", str "332", str "324",
    str "329"]

/-- `write_index_entry`. -/
def writeIndexEntry (fails : WriteSite → Bool) (ioc : File Octet) (lineOffset : ℕ) (time : Long)
    (stateLineIndex : ℕ) : Bool × File Octet :=
  match writeChars fails .lineOffset ioc (toOctets 8 lineOffset) with
  | none => (false, ioc)
  | some ioc => match writeChars fails .lineTime ioc (timeOctets time) with
      | none => (false, ioc)
      | some ioc => match writeChars fails .stateIndex ioc (toOctets 8 stateLineIndex) with
          | none => (false, ioc)
          | some ioc => (true, ioc)

/-- The end of `linestack_insert_line`: the line is written and counted. -/
def writeLine (fails : WriteSite → Bool) (nd : LinestackContext) (l : IrcLine) (now : Long) :
    Except Fault (Bool × LinestackContext) :=
  let (ok, index) := writeIndexEntry fails nd.indexFile nd.lineFile.pos now nd.lastLineWithState
  let nd := { nd with indexFile := index }
  if ok = false then .ok (false, nd)
  else
    match writeChars fails .line nd.lineFile (ircLineStringNl l) with
    | none => .ok (false, nd)
    | some f => do
        let count ← intAdd nd.count 1
        pure (true, { nd with lineFile := f, count := count })

/-- `linestack_insert_line` behind its filters: a snapshot if one is due, and the line. -/
def storeLine (read : LineReader) (junk : Junk) (fails : WriteSite → Bool) (nd : LinestackContext)
    (l : IrcLine) (now : Long) (state : NetworkState) : Except Fault (Bool × LinestackContext) := do
  let due ← intAdd nd.lastLineWithState STATE_DUMP_INTERVAL
  let (ok, nd) ← if due ≤ nd.count then fileInsertState read junk fails nd state nd.count
    else pure (true, nd)
  if ok then writeLine fails nd l now else pure (false, nd)

/-- `linestack_insert_line`; `now` is what `time(NULL)` returns. -/
def linestackInsertLine (read : LineReader) (junk : Junk) (fails : WriteSite → Bool)
    (nd : LinestackContext) (l : IrcLine) (dir : DataDirection) (now : Long)
    (state : NetworkState) : Except Fault (Bool × LinestackContext) :=
  let cmd := l.args[0]?
  if l.argc = 0 then .ok (true, nd)
  else if dir = .toServer ∧ baseEq cmd (str "PRIVMSG") = false ∧
      baseEq cmd (str "NOTICE") = false then .ok (true, nd)
  else if (baseEq cmd (str "PRIVMSG") ∨ baseEq cmd (str "NOTICE")) ∧
      ∃ a ∈ l.args[2]?, a.head? = some ⟨1, byte_one⟩ ∧
        baseEqN a (⟨1, byte_one⟩ :: str "ACTION") 7 = false then .ok (true, nd)
  else if ∀ m ∈ linestackMessages, baseEq cmd m = false then .ok (true, nd)
  else if ∃ a ∈ l.args, chr '\n' ∈ a ∨ chr '\r' ∈ a then .error .assertion
  else storeLine read junk fails nd l now state

/-! ### Reading -/

/-- `linestack_get_marker`. -/
def linestackGetMarker (nd : LinestackContext) : ℕ := nd.count

/-- `linestack_read_entry`.  At the end of the file of lines it hands `NULL` to
`irc_parse_line`. -/
def linestackReadEntry (read : LineReader) (nd : LinestackContext) (i : ℕ) :
    Except Fault (Option IrcLine × Long × LinestackContext) := do
  let (offset, index) ← readNumber (nd.indexFile.seek (i * INDEX_RECORD_SIZE)) 8
  let (time, index) ← readNumber index 8
  let lines := nd.lineFile.seek offset
  if lines.rest = [] then .error .null
  else
    let (line, eol) := read lines.rest
    let raw := line ++ eol
    pure (ircParseLine raw, timeOf time,
      { nd with indexFile := index, lineFile := lines.seek (offset + raw.length) })

/-- A `linestack_traverse_fn` with its `userdata`. -/
abbrev TraverseFn (H : Type) := Option IrcLine → Long → H → Bool × H

/-- The loop of `linestack_traverse` over the `k` lines from the `i`-th on. -/
def traverseLoop {H : Type} (read : LineReader) (handler : TraverseFn H) :
    ℕ → ℕ → LinestackContext → H → Except Fault (Bool × LinestackContext × H)
  | 0, _, nd, u => .ok (true, nd, u)
  | k + 1, i, nd, u => do
      let (l, time, nd) ← linestackReadEntry read nd i
      let (ret, u) := handler l time u
      if ret then traverseLoop read handler k (i + 1) nd u else pure (false, nd, u)

/-- `linestack_traverse`: a marker may be `NULL`. -/
def linestackTraverse {H : Type} (read : LineReader) (nd : LinestackContext)
    (lmFrom lmTo : Option ℕ) (handler : TraverseFn H) (userdata : H) :
    Except Fault (Bool × LinestackContext × H) := do
  let startIndex := lmFrom.getD 0
  let endIndex := lmTo.getD nd.count
  let (ret, nd, u) ← traverseLoop read handler (endIndex - startIndex) startIndex nd userdata
  pure (ret, { nd with lineFile := nd.lineFile.seekEnd, indexFile := nd.indexFile.seekEnd }, u)

end Ctrlproxy
