import Ctrlproxy.Base.Decimal
import Ctrlproxy.Client.Send

/-!
# Client — telling a client what is on a channel

The senders of `libirc/client.c` that spell out a channel or a whole network state.  The state
they spell out, `src`, is not the client's own: it is the one the network keeps, and `c->state`
follows the lines as they are sent.

A sender returns at once when one of its lines is refused (`andThen`).
-/

namespace Ctrlproxy
open Outcome

/-- The rest of a sender, run if the line before it was taken. -/
def andThen (r : Bool × Client) (rest : Client → Except Fault (Bool × Client)) :
    Except Fault (Bool × Client) :=
  if r.1 then rest r.2 else .ok (false, r.2)

/-- A line and what is sent behind it. -/
theorem andThen_bind {x : Except Fault (Bool × Client)}
    {rest : Client → Except Fault (Bool × Client)} {P : Client → Prop} {Q : Bool × Client → Prop}
    {E : Fault → Prop} (hx : Ensures x (fun r => r.1 = true ∧ P r.2) E)
    (hrest : ∀ c, P c → Ensures (rest c) Q E) : Ensures (x >>= fun r => andThen r rest) Q E := by
  refine hx.bind fun r hr => ?_
  rw [andThen, if_pos hr.1]
  exact hrest r.2 hr.2

/-! ### Names -/

/-- The first prefix of a table whose mode is set. -/
def firstPrefix (modes : Modes) : List (Byte × Byte) → Except Fault (Option Byte)
  | [] => .ok none
  | (p, m) :: t => do
      let i ← modeSlot m
      if modes i then pure (some p) else firstPrefix modes t

/-- `get_prefix_from_modes`, `none` being 0. -/
def getPrefixFromModes (info : NetworkInfo) (modes : Modes) : Except Fault (Option Byte) :=
  match prefixTable info with
  | none => .ok none
  | some t => firstPrefix modes t

def IRC_MAXLINELEN : ℕ := 512

/-- `line_len`. -/
def lineLen (l : IrcLine) : ℕ := 4 + (l.args.map fun a => a.length + 1).sum

/-- `line_add_arg`: `none` when the argument does not fit. -/
def lineAddArg (l : IrcLine) (arg : Str) : Option IrcLine :=
  if lineLen l + arg.length + 1 > IRC_MAXLINELEN then none
  else some { l with args := l.args ++ [arg] }

/-- The name of a member with the prefix in front of it, `NULL` for a nick without a name. -/
def nameArg (p : Option Byte) (nick : Option Str) : Option Str :=
  match p with
  | none => nick
  | some p => some (p :: printS nick)

/-- `line_add_arg` to the line being filled, if there is one. -/
def addToLine (l : Option IrcLine) (arg : Option Str) : Except Fault (Option IrcLine) :=
  match l with
  | none => .ok none
  | some l => match arg with
      | none => .error .null
      | some arg => .ok (lineAddArg l arg)

/-- The head of a 353 line for a channel. -/
def namesHead (origin : Option Str) (target : Str) (ch : ChannelState) : IrcLine :=
  ⟨origin, [str "353", target, ch.mode.toList, ch.name], .withoutColon⟩

/-- A new 353 line with its first name; the colon in front of the names is written by hand. -/
def newNamesLine (c : Client) (ch : ChannelState) (arg : Option Str) : Except Fault IrcLine := do
  let target ← clientGetDefaultTarget c
  match lineAddArg (namesHead c.defaultOrigin target ch) (chr ':' :: printS arg) with
  | some l => pure l
  | none => .error .assertion

/-- The line being filled is sent, if there is one. -/
def flushLine (now : Long) (c : Client) : Option IrcLine → Except Fault (Bool × Client)
  | none => .ok (true, c)
  | some l => clientSendLine now c l

/-- What the loop of `client_send_nameslist` writes for a member. -/
def memberArg (src : NetworkState) (c : Client) (m : Ref) : Except Fault (Option Str) := do
  let n ← src.memb m
  match c.state with
  | none => .error .assertion
  | some s => do
      let p ← getPrefixFromModes s.info n.modes
      let g ← src.nick n.globalNick
      pure (nameArg p g.nick)

/-- The loop of `client_send_nameslist` from the members `ms` on, `l` being the line it fills. -/
def namesLoop (now : Long) (src : NetworkState) (ch : ChannelState) :
    List Ref → Option IrcLine → Client → Except Fault (Bool × Client)
  | [], l, c => flushLine now c l
  | m :: ms, l, c => do
      let arg ← memberArg src c m
      match ← addToLine l arg with
      | some l => namesLoop now src ch ms (some l) c
      | none => do
          let r ← flushLine now c l
          let l ← newNamesLine r.2 ch arg
          andThen r (namesLoop now src ch ms (some l))

/-- `client_send_nameslist`. -/
def clientSendNameslist (now : Long) (c : Client) (src : NetworkState) (r : Ref) :
    Except Fault (Bool × Client) := do
  let ch ← src.chan r
  let r ← namesLoop now src ch ch.nicks none c
  andThen r fun c =>
    clientSendResponse now c 366 [some ch.name, some (str "End of /NAMES list")]

/-! ### Topic and modes -/

/-- The topic itself, or, where it is asked for, that there is none. -/
def sendTopicText (now : Long) (c : Client) (ch : ChannelState) (explicit : Bool) :
    Except Fault (Bool × Client) :=
  match ch.topic with
  | some topic => clientSendResponse now c 332 [some ch.name, some topic]
  | none =>
      if explicit then clientSendResponse now c 331 [some ch.name, some (str "No topic set")]
      else .ok (true, c)

/-- Who set the topic and when, as far as both are known. -/
def sendTopicSetter (now : Long) (c : Client) (ch : ChannelState) : Except Fault (Bool × Client) :=
  if ch.topicSetTime ≠ long0 ∧ ch.topicSetBy ≠ none then
    clientSendResponse now c 333
      [some ch.name, ch.topicSetBy, some (decimalInt ch.topicSetTime.1)]
  else .ok (true, c)

/-- `client_send_topic`. -/
def clientSendTopic (now : Long) (c : Client) (src : NetworkState) (r : Ref) (explicit : Bool) :
    Except Fault (Bool × Client) := do
  let ch ← src.chan r
  let r ← sendTopicText now c ch explicit
  andThen r fun c => sendTopicSetter now c ch

/-- The options of the modes in a string that are announced to need one only when they are set. -/
def modeOptions (info : NetworkInfo) (ch : ChannelState) : Str → Except Fault (List Str)
  | [] => .ok []
  | b :: w => do
      let t ← networkChanmodeType b info
      let opt ← if t = .optSetting then do
          let i ← modeSlot b
          pure (ch.chanmodeOption i)
        else pure none
      let opts ← modeOptions info ch w
      pure (opt.toList ++ opts)

/-- The 324 line of a channel with the mode string `mode`. -/
def channelModeLine (c : Client) (ch : ChannelState) (mode : Str) : Except Fault IrcLine := do
  let target ← clientGetDefaultTarget c
  match c.state with
  | none => .error .null
  | some s => do
      let opts ← modeOptions s.info ch mode
      pure ⟨c.defaultOrigin, responseStr 324 :: target :: ch.name :: mode :: opts, .colonUnknown⟩

/-- The mode string of a channel, if it has modes. -/
def sendModeString (now : Long) (c : Client) (ch : ChannelState) : Except Fault (Bool × Client) :=
  match mode2string ch.modes with
  | none => .ok (true, c)
  | some mode => do
      let l ← channelModeLine c ch mode
      clientSendLine now c l

/-- `client_send_channel_mode`. -/
def clientSendChannelMode (now : Long) (c : Client) (src : NetworkState) (r : Ref) :
    Except Fault (Bool × Client) := do
  let ch ← src.chan r
  let x ← sendModeString now c ch
  andThen x fun c =>
    if ch.creationTime.1 > 0 then
      clientSendResponse now c 329 [some ch.name, some (decimalInt ch.creationTime.1)]
    else .ok (true, c)

/-! ### Channels and states -/

/-- `client_send_channel_state`. -/
def clientSendChannelState (now : Long) (c : Client) (src : NetworkState) (r : Ref) :
    Except Fault (Bool × Client) := do
  let ch ← src.chan r
  let hm ← clientGetOwnHostmask c
  let x ← clientSendArgsEx now c hm [some (str "JOIN"), some ch.name]
  andThen x fun c => do
    let x ← clientSendTopic now c src r false
    andThen x fun c => clientSendNameslist now c src r

/-- The loop of `client_send_state` over the channels. -/
def sendChannels (now : Long) (src : NetworkState) : List Ref → Client → Except Fault (Bool × Client)
  | [], c => .ok (true, c)
  | r :: rs, c => do
      let x ← clientSendChannelState now c src r
      andThen x (sendChannels now src rs)

/-- A client that goes by another name than the state says is told the name. -/
def sendOwnNick (now : Long) (c : Client) (src : NetworkState) : Except Fault (Bool × Client) :=
  match c.state with
  | none => .ok (true, c)
  | some s => do
      let theirs ← src.nick meRef
      let own ← s.nick meRef
      match theirs.nick, own.nick with
      | some a, some b =>
          if a ≠ b then clientSendArgsEx now c own.hostmask [some (str "NICK"), some a]
          else pure (true, c)
      | _, _ => .error .null

/-- `client_send_state`. -/
def clientSendState (now : Long) (c : Client) (src : NetworkState) : Except Fault (Bool × Client) :=
  do
    let x ← sendOwnNick now c src
    andThen x fun c => do
      let x ← sendChannels now src src.channels c
      andThen x fun c => do
        let me ← src.nick meRef
        match mode2string me.modes with
        | none => pure (true, c)
        | some mode => clientSendArgsEx now c me.nick [some (str "MODE"), some mode]

end Ctrlproxy
