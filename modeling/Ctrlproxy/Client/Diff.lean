import Mathlib.Data.List.FinRange
import Ctrlproxy.Client.Channel

/-!
# Client — telling a client what changed

`client_send_state_diff` and `client_send_channel_state_diff` of `libirc/client.c`: the lines that
are meant to turn one network state, `old`, into another, `new`.  A member of `old` is looked up in
`new` by hostmask, a member of `new` in `old` by nick.  Both states stay as they are; `c->state`
follows the lines as they are sent.
-/

namespace Ctrlproxy
open Outcome

/-- `find_channel_nick_hostmask`. -/
def findChannelNickHostmask (s : NetworkState) (c : Ref) (hm : Option Str) :
    Except Fault (Option Ref) := do
  match hm with
  | none => .error .assertion
  | some hm => do
      let ch ← s.chan c
      if ch.network = false then .error .assertion
      else findFirst (fun r => do
        let cn ← s.memb r
        let n ← s.nick cn.globalNick
        ircEq (s.infoFor ch) n.hostmask (some hm)) ch.nicks

/-- What is sent for a member of the old channel, an object `on`: PART, or NICK if the search by
hostmask found the member `m` of the new one. -/
def sendLeaving (now : Long) (c : Client) (new : NetworkState) (name : Str) (on : NetworkNick) :
    Option Ref → Except Fault (Bool × Client)
  | none => clientSendArgsEx now c on.hostmask [some (str "PART"), some name]
  | some m => do
      let cn ← new.memb m
      let nn ← new.nick cn.globalNick
      clientSendArgsEx now c on.hostmask [some (str "NICK"), nn.nick]

/-- The first loop of `client_send_channel_state_diff`, over the members of the old channel; `d` is
the new one. -/
def sendOldMembers (now : Long) (old new : NetworkState) (d : Ref) :
    List Ref → Client → Except Fault (Bool × Client)
  | [], c => .ok (true, c)
  | m :: ms, c => do
      let cn ← old.memb m
      let on ← old.nick cn.globalNick
      let found ← findChannelNickHostmask new d on.hostmask
      let ch ← new.chan d
      let x ← sendLeaving now c new ch.name on found
      andThen x (sendOldMembers now old new d ms)

/-- What is sent for a member of the new channel, an object `nn`, that the search by nick did not
find in the old one. -/
def sendEntering (now : Long) (c : Client) (new : NetworkState) (cn : ChannelNick)
    (nn : NetworkNick) : Option Ref → Except Fault (Bool × Client)
  | some _ => .ok (true, c)
  | none => do
      let ch ← new.chan cn.channel
      clientSendArgsEx now c nn.hostmask [some (str "JOIN"), some ch.name]

/-- The second loop of `client_send_channel_state_diff`, over the members of the new channel; `r` is
the old one. -/
def sendNewMembers (now : Long) (old new : NetworkState) (r : Ref) :
    List Ref → Client → Except Fault (Bool × Client)
  | [], c => .ok (true, c)
  | m :: ms, c => do
      let cn ← new.memb m
      let nn ← new.nick cn.globalNick
      match nn.nick with
      | none => .error .assertion
      | some nick => do
          let found ← findChannelNick old r nick
          let x ← sendEntering now c new cn nn found
          andThen x (sendNewMembers now old new r ms)

/-- TOPIC, if the topic is different. -/
def sendNewTopic (now : Long) (c : Client) (os ns : ChannelState) : Except Fault (Bool × Client) :=
  if os.topic ≠ ns.topic then
    clientSendArgsEx now c ns.topicSetBy [some (str "TOPIC"), some ns.name, ns.topic]
  else .ok (true, c)

/-- `memcmp` of two arrays of modes finds no difference. -/
def sameModes (m m' : Modes) : Bool := (List.finRange MAXMODES).all fun i => m i == m' i

theorem sameModes_iff {m m' : Modes} : sameModes m m' = true ↔ m = m' := by
  rw [sameModes, List.all_eq_true, funext_iff]
  simp

/-- MODE, if the modes changed: the new modes, none of the old ones is removed. -/
def sendNewModes (now : Long) (c : Client) (os ns : ChannelState) : Except Fault (Bool × Client) :=
  if sameModes os.modes ns.modes then .ok (true, c)
  else clientSendArgs now c [some (str "MODE"), some ns.name, mode2string ns.modes]

/-- `client_send_channel_state_diff`. -/
def clientSendChannelStateDiff (now : Long) (c : Client) (old new : NetworkState) (r d : Ref) :
    Except Fault (Bool × Client) := do
  let os ← old.chan r
  let ns ← new.chan d
  let x ← sendOldMembers now old new d os.nicks c
  andThen x fun c => do
    let x ← sendNewMembers now old new r ns.nicks c
    andThen x fun c => do
      let x ← sendNewTopic now c os ns
      andThen x fun c => sendNewModes now c os ns

/-- What is sent for a channel of the old state. -/
def sendOldChannel (now : Long) (c : Client) (old new : NetworkState) (r : Ref) :
    Except Fault (Bool × Client) := do
  let os ← old.chan r
  match ← findChannel new os.name with
  | some d => clientSendChannelStateDiff now c old new r d
  | none => do
      let hm ← clientGetOwnHostmask c
      clientSendArgsEx now c hm [some (str "PART"), some os.name]

/-- The first loop of `client_send_state_diff`. -/
def sendOldChannels (now : Long) (old new : NetworkState) :
    List Ref → Client → Except Fault (Bool × Client)
  | [], c => .ok (true, c)
  | r :: rs, c => do
      let x ← sendOldChannel now c old new r
      andThen x (sendOldChannels now old new rs)

/-- What is sent for a channel of the new state: all of it, if it is only there. -/
def sendNewChannel (now : Long) (c : Client) (old new : NetworkState) (d : Ref) :
    Except Fault (Bool × Client) := do
  let ns ← new.chan d
  match ← findChannel old ns.name with
  | some _ => pure (true, c)
  | none => clientSendChannelState now c new d

/-- The second loop of `client_send_state_diff`. -/
def sendNewChannels (now : Long) (old new : NetworkState) :
    List Ref → Client → Except Fault (Bool × Client)
  | [], c => .ok (true, c)
  | d :: ds, c => do
      let x ← sendNewChannel now c old new d
      andThen x (sendNewChannels now old new ds)

/-- `client_send_state_diff`. -/
def clientSendStateDiff (now : Long) (c : Client) (old new : NetworkState) :
    Except Fault (Bool × Client) := do
  let x ← sendOldChannels now old new old.channels c
  andThen x (sendNewChannels now old new new.channels)

end Ctrlproxy
