import Ctrlproxy.State.Types
import Ctrlproxy.Lib.Outcome

/-!
# State — operations on nicks, channels and memberships

The functions of `libirc/state.c` that the message handlers are made of: the setters of a nick's
identity, the searches, the searches that create what they do not find, and the destructors.

A state is passed and returned explicitly.  The destructors of memberships and nicks call each
other in C; `freeChannelNick` takes the depth of that recursion as an argument, and the `while`
loops of the destructors take the number of their iterations (`whileFree`).  Both run out only
where the C code would not end; on the states the handlers build they never do
(`freeChannelNick_ok`, `freeNetworkNick_ok`).
-/

namespace Ctrlproxy
open Outcome

/-! ### The identity of a nick -/

/-- A string printed with `%s`. -/
def printS (s : Option Str) : Str := s.getD (str "(null)")

/-- `"%s!%s@%s"`. -/
def printHostmask (nick username hostname : Option Str) : Str :=
  printS nick ++ chr '!' :: printS username ++ chr '@' :: printS hostname

/-- `network_nick_set_data`. -/
def networkNickSetData (n : NetworkNick) (nick username host : Str) : NetworkNick :=
  let changed := n.nick ≠ some nick ∨ n.username ≠ some username ∨ n.hostname ≠ some host
  let hm := if changed then some (printHostmask (some nick) (some username) (some host))
    else n.hostmask
  { n with nick := some nick, username := some username, hostname := some host, hostmask := hm }

/-- `network_nick_set_nick`. -/
def networkNickSetNick (n : NetworkNick) (nick : Str) : NetworkNick :=
  if n.nick = some nick then n
  else { n with nick := some nick, hostmask := some (printHostmask (some nick) n.username n.hostname) }

/-- `network_nick_set_username`. -/
def networkNickSetUsername (n : NetworkNick) (username : Str) : NetworkNick :=
  if n.username = some username then n
  else { n with username := some username,
                hostmask := some (printHostmask n.nick (some username) n.hostname) }

/-- `network_nick_set_hostname`. -/
def networkNickSetHostname (n : NetworkNick) (hostname : Str) : NetworkNick :=
  if n.hostname = some hostname then n
  else { n with hostname := some hostname,
                hostmask := some (printHostmask n.nick n.username (some hostname)) }

/-- The nick, user name and host name of a hostmask; those behind a missing `!` or `@` are
`NULL`. -/
def splitHostmask (hm : Str) : Option Str × Option Str × Option Str :=
  match hm.dropWhile (· ≠ chr '!') with
  | [] => (none, none, none)
  | _ :: t =>
      let nick := hm.takeWhile (· ≠ chr '!')
      match t.dropWhile (· ≠ chr '@') with
      | [] => (some nick, none, none)
      | _ :: host => (some nick, some (t.takeWhile (· ≠ chr '@')), some host)

/-- `network_nick_set_hostmask` at a string. -/
def networkNickSetHostmask (n : NetworkNick) (hm : Str) : NetworkNick :=
  if n.hostmask = some hm then n
  else
    let p := splitHostmask hm
    { n with hostmask := some hm, nick := p.1, username := p.2.1, hostname := p.2.2 }

/-! ### Destructors -/

/-- `while (list) free(list->data)`. -/
def whileFree (list : NetworkState → Except Fault (List Ref))
    (free : NetworkState → Ref → Except Fault NetworkState) :
    ℕ → NetworkState → Except Fault NetworkState
  | 0, s => do
      let l ← list s
      if l = [] then pure s else .error .diverges
  | k + 1, s => do
      let l ← list s
      match l with
      | [] => pure s
      | r :: _ => do
          let s ← free s r
          whileFree list free k s

/-- `n->channel_nicks` of the nick at `r`. -/
def channelNicksOf (r : Ref) (s : NetworkState) : Except Fault (List Ref) := do
  let n ← s.nick r
  pure n.channelNicks

/-- `c->nicks` of the channel at `r`. -/
def nicksOf (r : Ref) (s : NetworkState) : Except Fault (List Ref) := do
  let c ← s.chan r
  pure c.nicks

/-- The body of `free_network_nick`; `st` is whether it is handed the state or `NULL`. -/
def freeNetworkNickBody (freeMemb : NetworkState → Ref → Except Fault NetworkState)
    (st : Bool) (s : NetworkState) (nn : Ref) : Except Fault NetworkState :=
  if st ∧ nn = meRef then .error .assertion
  else do
    let n ← s.nick nn
    -- no recursion: the memberships freed below must not free the nick again
    let s := s.setNick nn { n with query := true }
    let s ← whileFree (channelNicksOf nn) freeMemb n.channelNicks.length s
    let s := if st then { s with nicks := s.nicks.erase nn } else s
    pure { s with nickHeap := s.nickHeap.del nn }

/-- The nick at `g`, an object `gn`, is freed when it is on no channel and nothing else keeps
it. -/
def freeUnused (freeNick : Bool → NetworkState → Ref → Except Fault NetworkState)
    (network : Bool) (s : NetworkState) (g : Ref) (gn : NetworkNick) :
    Except Fault NetworkState :=
  if gn.channelNicks.length = 0 ∧ gn.query = false then freeNick network s g else .ok s

/-- The body of `free_channel_nick`. -/
def freeChannelNickBody (freeNick : Bool → NetworkState → Ref → Except Fault NetworkState)
    (s : NetworkState) (n : Ref) : Except Fault NetworkState := do
  let cn ← s.memb n
  let c ← s.chan cn.channel
  let s := s.setChan cn.channel { c with nicks := c.nicks.erase n }
  let gn ← s.nick cn.globalNick
  let gn := { gn with channelNicks := gn.channelNicks.erase n }
  let s := s.setNick cn.globalNick gn
  let s ← freeUnused freeNick c.network s cn.globalNick gn
  pure { s with membHeap := s.membHeap.del n }

/-- `free_channel_nick` with the recursion bounded. -/
def freeChannelNickDepth : ℕ → NetworkState → Ref → Except Fault NetworkState
  | 0, _, _ => .error .diverges
  | d + 1, s, n => freeChannelNickBody (freeNetworkNickBody (freeChannelNickDepth d)) s n

/-- `free_channel_nick`. -/
def freeChannelNick (s : NetworkState) (n : Ref) : Except Fault NetworkState :=
  freeChannelNickDepth 2 s n

/-- `free_network_nick(s, nn)`. -/
def freeNetworkNick (s : NetworkState) (nn : Ref) : Except Fault NetworkState :=
  freeNetworkNickBody freeChannelNick true s nn

/-- `free_names`. -/
def freeNames (s : NetworkState) (c : Ref) : Except Fault NetworkState := do
  let ch ← s.chan c
  let s ← whileFree (nicksOf c) freeChannelNick ch.nicks.length s
  s.modifyChan c fun ch => { ch with nicks := [] }

/-- `free_channel_state`. -/
def freeChannelState (s : NetworkState) (c : Ref) : Except Fault NetworkState := do
  let s ← freeNames s c
  let ch ← s.chan c
  let s := if ch.network then { s with channels := s.channels.erase c } else s
  pure { s with chanHeap := s.chanHeap.del c }

/-! ### Searches -/

/-- `!irccmp(info, a, b)`. -/
def ircEq (info : Option NetworkInfo) (a b : Option Str) : Except Fault Bool := do
  let d ← irccmp info a b
  pure (d = 0)

/-- `find_channel`. -/
def findChannel (s : NetworkState) (name : Str) : Except Fault (Option Ref) :=
  findFirst (fun r => do
    let c ← s.chan r
    ircEq (some s.info) (some c.name) (some name)) s.channels

/-- A name without the prefix character in front of it, if there is one. -/
def stripPrefix (info : Option NetworkInfo) (name : Str) : Str :=
  if isPrefix name.head? info then name.tail else name

/-- The loop of `find_channel_nick`. -/
def findMember (s : NetworkState) (info : Option NetworkInfo) (realname : Str) (l : List Ref) :
    Except Fault (Option Ref) :=
  findFirst (fun r => do
    let cn ← s.memb r
    let n ← s.nick cn.globalNick
    ircEq info n.nick (some realname)) l

/-- `find_channel_nick`. -/
def findChannelNick (s : NetworkState) (c : Ref) (name : Str) : Except Fault (Option Ref) := do
  let ch ← s.chan c
  findMember s (s.infoFor ch) (stripPrefix (s.infoFor ch) name) ch.nicks

/-- `find_network_nick`. -/
def findNetworkNick (s : NetworkState) (name : Str) : Except Fault (Option Ref) :=
  findFirst (fun r => do
    let n ← s.nick r
    ircEq (some s.info) n.nick (some name)) (meRef :: s.nicks)

/-! ### Searches that create -/

/-- The nick `find_add_network_nick` creates. -/
def newNetworkNick (name : Str) : NetworkNick :=
  { NetworkNick.zero with nick := some name, hops := -1 }

/-- A new nick at the end of `s->nicks`. -/
def addNick (s : NetworkState) (n : NetworkNick) : NetworkState :=
  { s with nickHeap := s.nickHeap.set s.next n, nicks := s.nicks ++ [s.next], next := s.next + 1 }

/-- A new channel at the end of `s->channels`. -/
def addChan (s : NetworkState) (c : ChannelState) : NetworkState :=
  { s with chanHeap := s.chanHeap.set s.next c, channels := s.channels ++ [s.next],
           next := s.next + 1 }

/-- A new membership of the nick at `g` (an object `gn`) in the channel at `c` (an object
`ch`). -/
def addMemb (s : NetworkState) (c g : Ref) (ch : ChannelState) (gn : NetworkNick) (m : Modes) :
    NetworkState :=
  let cn : ChannelNick :=
    { modes := m, globalNick := g, channel := c, lastUpdate := long0, lastFlags := none }
  { s with
    membHeap := s.membHeap.set s.next cn
    chanHeap := s.chanHeap.set c { ch with nicks := ch.nicks ++ [s.next] }
    nickHeap := s.nickHeap.set g { gn with channelNicks := gn.channelNicks ++ [s.next] }
    next := s.next + 1 }

/-- `find_add_channel`. -/
def findAddChannel (s : NetworkState) (name : Str) : Except Fault (Ref × NetworkState) := do
  match ← findChannel s name with
  | some r => pure (r, s)
  | none => pure (s.next, addChan s { ircChannelStateNew name with network := true })

/-- `find_add_network_nick`. -/
def findAddNetworkNick (s : NetworkState) (name : Str) : Except Fault (Ref × NetworkState) := do
  match ← findNetworkNick s name with
  | some r => pure (r, s)
  | none =>
      if isPrefix name.head? (some s.info) then .error .assertion
      else pure (s.next, addNick s (newNetworkNick name))

/-- The modes of a new membership: that of the prefix character, if it stands for one. -/
def prefixModes (info : NetworkInfo) (p : Option Byte) : Except Fault Modes :=
  match p with
  | none => .ok modesClear
  | some p => match getModeByPrefix p info with
      | none => .ok modesClear
      | some m => modesChangeMode modesClear true m

/-- The part of `find_add_channel_nick` that creates a membership. -/
def addChannelNick (s : NetworkState) (c : Ref) (realname : Str) (p : Option Byte) :
    Except Fault (Ref × NetworkState) := do
  let (g, s) ← findAddNetworkNick s realname
  let modes ← prefixModes s.info p
  let ch ← s.chan c
  let gn ← s.nick g
  pure (s.next, addMemb s c g ch gn modes)

/-- `find_add_channel_nick`. -/
def findAddChannelNick (s : NetworkState) (c : Ref) (name : Str) :
    Except Fault (Ref × NetworkState) :=
  if name = [] then .error .assertion
  else do
    let ch ← s.chan c
    if ch.network = false then .error .assertion
    else do
      let p := if isPrefix name.head? (some s.info) then name.head? else none
      let realname := stripPrefix (some s.info) name
      match ← findChannelNick s c realname with
      | some m => pure (m, s)
      | none => addChannelNick s c realname p

end Ctrlproxy
