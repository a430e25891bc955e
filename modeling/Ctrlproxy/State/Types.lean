import Ctrlproxy.Base.Isupport
import Ctrlproxy.Lib.Heap

/-!
# State — the objects of a network state

The structures of `libirc/state.h`.  Nicks, channels and memberships are heap objects that point
to each other, so a state holds three heaps besides the lists of `struct irc_network_state`:

* `s->nicks`, `c->nicks` and `n->channel_nicks` are lists of addresses, as the `GList`s are;
* a membership (`struct channel_nick`) points back to its channel and its nick;
* `s->me` is embedded in the state in C; here it is the nick at the address `meRef`, which is in
  no list.

Left out: `userdata` and `log`, which no transition reads.
-/

namespace Ctrlproxy

/-! ### Mode sets -/

def MAXMODES : ℕ := 255

theorem maxmodes_pos : 0 < MAXMODES := by decide

/-- An array of `MAXMODES` entries. -/
abbrev ModeArray (α : Type) := Fin MAXMODES → α

/-- `irc_modes_t`. -/
abbrev Modes := ModeArray Bool

/-- `modes_clear`. -/
def modesClear : Modes := fun _ => false

/-- The slot of a mode character: an array has no slot for `0xFF`. -/
def modeSlot (m : Byte) : Except Fault (Fin MAXMODES) :=
  if h : m.1 < MAXMODES then .ok ⟨m.1, h⟩ else .error .modeIndex

/-- `a[(unsigned char)m] = v`. -/
def ModeArray.set {α : Type} (a : ModeArray α) (i : Fin MAXMODES) (v : α) : ModeArray α :=
  fun j => if j = i then v else a j

/-- `modes_change_mode`. -/
def modesChangeMode (modes : Modes) (set : Bool) (newmode : Byte) : Except Fault Modes := do
  let i ← modeSlot newmode
  pure (ModeArray.set modes i set)

/-! ### Objects -/

/-- `struct channel_nick`: a nick on a channel. -/
structure ChannelNick where
  modes : Modes
  globalNick : Ref
  channel : Ref
  lastUpdate : Long
  lastFlags : Option Str

/-- `struct network_nick`. -/
structure NetworkNick where
  query : Bool
  nick : Option Str
  fullname : Option Str
  username : Option Str
  hostname : Option Str
  hostmask : Option Str
  modes : Modes
  server : Option Str
  channelNicks : List Ref
  hops : ℤ

/-- `struct nicklist_entry`. -/
structure NicklistEntry where
  hostmask : Option Str
  by' : Option Str
  timeSet : Long
  deriving DecidableEq

/-- `struct irc_channel_state`.  `network` says whether `c->network` points to the state the
channel is in, or is `NULL`; `mode` is `none` for the character 0. -/
structure ChannelState where
  name : Str
  topic : Option Str
  topicSetTime : Long
  topicSetBy : Option Str
  mode : Option Byte
  modes : Modes
  creationTime : Long
  namreplyStarted : Bool
  banlistStarted : Bool
  invitelistStarted : Bool
  exceptlistStarted : Bool
  modeReceived : Bool
  nicks : List Ref
  network : Bool
  chanmodeNicklist : ModeArray (List NicklistEntry)
  chanmodeNicklistPresent : ModeArray Bool
  chanmodeOption : ModeArray (Option Str)

/-- `struct irc_network_state`, with the heap its pointers lead into.  `next` is an address no
object has had yet. -/
structure NetworkState where
  nickHeap : Heap NetworkNick
  chanHeap : Heap ChannelState
  membHeap : Heap ChannelNick
  next : Ref
  nicks : List Ref
  channels : List Ref
  info : NetworkInfo
  isAway : Bool

/-- The address of `s->me`. -/
def meRef : Ref := 0

def long0 : Long := ⟨0, long_zero⟩

/-- A `struct network_nick` of zeroes. -/
def NetworkNick.zero : NetworkNick where
  query := false
  nick := none
  fullname := none
  username := none
  hostname := none
  hostmask := none
  modes := modesClear
  server := none
  channelNicks := []
  hops := 0

/-- `irc_channel_state_new`. -/
def ircChannelStateNew (name : Str) : ChannelState where
  name := name
  topic := none
  topicSetTime := long0
  topicSetBy := none
  mode := none
  modes := modesClear
  creationTime := long0
  namreplyStarted := false
  banlistStarted := false
  invitelistStarted := false
  exceptlistStarted := false
  modeReceived := false
  nicks := []
  network := false
  chanmodeNicklist := fun _ => []
  chanmodeNicklistPresent := fun _ => false
  chanmodeOption := fun _ => none

namespace NetworkState

/-- Follow a pointer to a nick. -/
def nick (s : NetworkState) (r : Ref) : Except Fault NetworkNick :=
  match s.nickHeap r with
  | some n => .ok n
  | none => .error .dangling

/-- Follow a pointer to a channel. -/
def chan (s : NetworkState) (r : Ref) : Except Fault ChannelState :=
  match s.chanHeap r with
  | some c => .ok c
  | none => .error .dangling

/-- Follow a pointer to a membership. -/
def memb (s : NetworkState) (r : Ref) : Except Fault ChannelNick :=
  match s.membHeap r with
  | some m => .ok m
  | none => .error .dangling

def setNick (s : NetworkState) (r : Ref) (n : NetworkNick) : NetworkState :=
  { s with nickHeap := s.nickHeap.set r n }

def setChan (s : NetworkState) (r : Ref) (c : ChannelState) : NetworkState :=
  { s with chanHeap := s.chanHeap.set r c }

def setMemb (s : NetworkState) (r : Ref) (m : ChannelNick) : NetworkState :=
  { s with membHeap := s.membHeap.set r m }

@[simp] theorem setNick_nickHeap (s : NetworkState) (r : Ref) (n : NetworkNick) :
    (s.setNick r n).nickHeap = s.nickHeap.set r n := rfl

@[simp] theorem setNick_chanHeap (s : NetworkState) (r : Ref) (n : NetworkNick) :
    (s.setNick r n).chanHeap = s.chanHeap := rfl

@[simp] theorem setNick_membHeap (s : NetworkState) (r : Ref) (n : NetworkNick) :
    (s.setNick r n).membHeap = s.membHeap := rfl

@[simp] theorem setNick_next (s : NetworkState) (r : Ref) (n : NetworkNick) :
    (s.setNick r n).next = s.next := rfl

@[simp] theorem setNick_nicks (s : NetworkState) (r : Ref) (n : NetworkNick) :
    (s.setNick r n).nicks = s.nicks := rfl

@[simp] theorem setNick_channels (s : NetworkState) (r : Ref) (n : NetworkNick) :
    (s.setNick r n).channels = s.channels := rfl

@[simp] theorem setNick_info (s : NetworkState) (r : Ref) (n : NetworkNick) :
    (s.setNick r n).info = s.info := rfl

@[simp] theorem setNick_isAway (s : NetworkState) (r : Ref) (n : NetworkNick) :
    (s.setNick r n).isAway = s.isAway := rfl

@[simp] theorem setChan_nickHeap (s : NetworkState) (r : Ref) (c : ChannelState) :
    (s.setChan r c).nickHeap = s.nickHeap := rfl

@[simp] theorem setChan_chanHeap (s : NetworkState) (r : Ref) (c : ChannelState) :
    (s.setChan r c).chanHeap = s.chanHeap.set r c := rfl

@[simp] theorem setChan_membHeap (s : NetworkState) (r : Ref) (c : ChannelState) :
    (s.setChan r c).membHeap = s.membHeap := rfl

@[simp] theorem setChan_next (s : NetworkState) (r : Ref) (c : ChannelState) :
    (s.setChan r c).next = s.next := rfl

@[simp] theorem setChan_nicks (s : NetworkState) (r : Ref) (c : ChannelState) :
    (s.setChan r c).nicks = s.nicks := rfl

@[simp] theorem setChan_channels (s : NetworkState) (r : Ref) (c : ChannelState) :
    (s.setChan r c).channels = s.channels := rfl

@[simp] theorem setChan_info (s : NetworkState) (r : Ref) (c : ChannelState) :
    (s.setChan r c).info = s.info := rfl

@[simp] theorem setChan_isAway (s : NetworkState) (r : Ref) (c : ChannelState) :
    (s.setChan r c).isAway = s.isAway := rfl

@[simp] theorem setMemb_nickHeap (s : NetworkState) (r : Ref) (m : ChannelNick) :
    (s.setMemb r m).nickHeap = s.nickHeap := rfl

@[simp] theorem setMemb_chanHeap (s : NetworkState) (r : Ref) (m : ChannelNick) :
    (s.setMemb r m).chanHeap = s.chanHeap := rfl

@[simp] theorem setMemb_membHeap (s : NetworkState) (r : Ref) (m : ChannelNick) :
    (s.setMemb r m).membHeap = s.membHeap.set r m := rfl

@[simp] theorem setMemb_next (s : NetworkState) (r : Ref) (m : ChannelNick) :
    (s.setMemb r m).next = s.next := rfl

@[simp] theorem setMemb_nicks (s : NetworkState) (r : Ref) (m : ChannelNick) :
    (s.setMemb r m).nicks = s.nicks := rfl

@[simp] theorem setMemb_channels (s : NetworkState) (r : Ref) (m : ChannelNick) :
    (s.setMemb r m).channels = s.channels := rfl

@[simp] theorem setMemb_info (s : NetworkState) (r : Ref) (m : ChannelNick) :
    (s.setMemb r m).info = s.info := rfl

@[simp] theorem setMemb_isAway (s : NetworkState) (r : Ref) (m : ChannelNick) :
    (s.setMemb r m).isAway = s.isAway := rfl

/-- Change the nick a pointer leads to. -/
def modifyNick (s : NetworkState) (r : Ref) (f : NetworkNick → NetworkNick) :
    Except Fault NetworkState := do
  let n ← s.nick r
  pure (s.setNick r (f n))

/-- Change the channel a pointer leads to. -/
def modifyChan (s : NetworkState) (r : Ref) (f : ChannelState → ChannelState) :
    Except Fault NetworkState := do
  let c ← s.chan r
  pure (s.setChan r (f c))

/-- What a channel sees of the network's announcements. -/
def infoFor (s : NetworkState) (c : ChannelState) : Option NetworkInfo :=
  if c.network then some s.info else none

end NetworkState

end Ctrlproxy
