import Ctrlproxy.State.Objects

/-!
# State — the message handlers

The handlers of `libirc/state.c`, the table `irc_commands` that selects them and
`state_handle_data`.  `now` is what `time(NULL)` returns while the line is handled.  The calls of
`network_state_log` are left out: they change no state.  Where a logging branch is chosen by a
comparison that may abort, the comparison is kept.
-/

namespace Ctrlproxy
open Outcome

/-! ### Mode strings -/

/-- The loop over a mode string with its two signs. -/
def changeModes : (action : Bool) → Modes → Str → Except Fault Modes
  | _, modes, [] => .ok modes
  | action, modes, b :: w =>
      if b = chr '+' then changeModes true modes w
      else if b = chr '-' then changeModes false modes w
      else do
        let modes ← modesChangeMode modes action b
        changeModes action modes w

/-- `string2mode`: the new contents of the array, and whether the string was a mode change. -/
def string2mode (modes : Option Str) : Except Fault (Modes × Bool) :=
  match modes with
  | none => .ok (modesClear, true)
  | some [] => .ok (modesClear, true)
  | some (b :: w) =>
      if b ≠ chr '+' ∧ b ≠ chr '-' then .ok (modesClear, false)
      else do
        let m ← changeModes true modesClear (b :: w)
        pure (m, true)

/-- The characters of the slots from `i` on that are set, up to a set slot 0: its character ends
the string. -/
def mode2stringBody (modes : Modes) : Str :=
  (List.finRange MAXMODES).filterMap fun i =>
    if h : modes i ∧ 0 < i.1 then some ⟨i.1, h.2, by have := i.2; unfold MAXMODES at this; omega⟩
    else none

/-- `mode2string`: a set slot 0 comes first and makes the string empty. -/
def mode2string (modes : Modes) : Option Str :=
  if modes ⟨0, maxmodes_pos⟩ then none
  else match mode2stringBody modes with
    | [] => none
    | w => some (chr '+' :: w)

/-! ### Lists of masks -/

/-- `nicklist_add_entry`. -/
def nicklistAddEntry (l : List NicklistEntry) (optArg byNick : Option Str) (at' : Long) :
    List NicklistEntry :=
  l ++ [{ hostmask := optArg, by' := byNick, timeSet := at' }]

/-- `nicklist_remove_entry`: the list without the first entry for the mask.  The search compares
the mask of every entry before that one with `strcmp`. -/
def nicklistRemoveEntry (l : List NicklistEntry) (hostmask : Str) :
    Except Fault (List NicklistEntry) :=
  match l with
  | [] => .ok []
  | e :: l => match e.hostmask with
      | none => .error .null
      | some h =>
          if h = hostmask then .ok l
          else do
            let l ← nicklistRemoveEntry l hostmask
            pure (e :: l)

/-! ### Joining and leaving -/

/-- One channel of a JOIN line. -/
def joinChannel (origin nick : Str) (s : NetworkState) (name : Str) :
    Except Fault NetworkState := do
  let (c, s) ← findAddChannel s name
  let (m, s) ← findAddChannelNick s c nick
  let cn ← s.memb m
  let s ← s.modifyNick cn.globalNick fun n => networkNickSetHostmask n origin
  -- the comparison only chooses a log message
  let me ← s.nick meRef
  let _ ← irccmp (some s.info) (some nick) me.nick
  pure s

/-- `handle_join`. -/
def handleJoin (s : NetworkState) (l : IrcLine) : Except Fault NetworkState :=
  match l.origin with
  | none => .ok s
  | some origin => do
      let nick ← lineGetNick l
      let channels ← l.argStr 1
      (gStrsplit channels (chr ',')).foldlM (joinChannel origin nick) s

/-- The membership a search found, if any, is freed. -/
def freeFound (s : NetworkState) : Option Ref → Except Fault NetworkState
  | some m => freeChannelNick s m
  | none => .ok s

/-- The channel is freed when the nick that left it is the user's own. -/
def leaveChannel (s : NetworkState) (c : Ref) (nick : Str) : Except Fault NetworkState := do
  let me ← s.nick meRef
  if ← ircEq (some s.info) (some nick) me.nick then freeChannelState s c else pure s

/-- One channel of a PART line. -/
def partChannel (nick : Str) (s : NetworkState) (name : Str) : Except Fault NetworkState := do
  match ← findChannel s name with
  | none => pure s
  | some c => do
      let m ← findChannelNick s c nick
      let s ← freeFound s m
      leaveChannel s c nick

/-- `handle_part`. -/
def handlePart (s : NetworkState) (l : IrcLine) : Except Fault NetworkState :=
  match l.origin with
  | none => .ok s
  | some _ => do
      let nick ← lineGetNick l
      let channels ← l.argStr 1
      (gStrsplit channels (chr ',')).foldlM (partChannel nick) s

/-- One channel and nick of a KICK line. -/
def kickChannel (s : NetworkState) (p : Str × Str) : Except Fault NetworkState := do
  match ← findChannel s p.1 with
  | none => pure s
  | some c => match ← findChannelNick s c p.2 with
      | none => pure s
      | some m => do
          let s ← freeChannelNick s m
          leaveChannel s c p.2

/-- `handle_kick`. -/
def handleKick (s : NetworkState) (l : IrcLine) : Except Fault NetworkState :=
  match l.origin with
  | none => .ok s
  | some _ => do
      let channels ← l.argStr 1
      let nicks ← l.argStr 2
      ((gStrsplit channels (chr ',')).zip (gStrsplit nicks (chr ','))).foldlM kickChannel s

/-- `handle_quit`. -/
def handleQuit (s : NetworkState) (l : IrcLine) : Except Fault NetworkState :=
  match l.origin with
  | none => .ok s
  | some _ => do
      let nick ← lineGetNick l
      match ← findNetworkNick s nick with
      | none => pure s
      | some nn =>
          if nn = meRef then do
            let me ← s.nick meRef
            whileFree (channelNicksOf meRef) freeChannelNick me.channelNicks.length s
          else freeNetworkNick s nn

/-! ### Topics -/

/-- `handle_topic`. -/
def handleTopic (now : Long) (s : NetworkState) (l : IrcLine) : Except Fault NetworkState := do
  let name ← l.argStr 1
  let c ← findChannel s name
  match l.origin with
  | none => pure s
  | some _ => match c with
      | none => .error .null
      | some c => do
          let topic ← l.arg 2
          let nick ← lineGetNick l
          s.modifyChan c fun ch =>
            { ch with topic := topic, topicSetTime := now, topicSetBy := some nick }

/-- `handle_332`. -/
def handle332 (s : NetworkState) (l : IrcLine) : Except Fault NetworkState := do
  let name ← l.argStr 2
  match ← findChannel s name with
  | none => pure s
  | some c => do
      let topic ← l.arg 3
      s.modifyChan c fun ch => { ch with topic := topic }

/-- `handle_333`. -/
def handle333 (s : NetworkState) (l : IrcLine) : Except Fault NetworkState := do
  let name ← l.argStr 2
  match ← findChannel s name with
  | none => pure s
  | some c => do
      let time ← l.argStr 4
      let by' ← l.arg 3
      s.modifyChan c fun ch => { ch with topicSetTime := (strtol time 0).1, topicSetBy := by' }

/-- `handle_no_topic`. -/
def handleNoTopic (s : NetworkState) (l : IrcLine) : Except Fault NetworkState := do
  let name ← l.argStr 1
  match ← findChannel s name with
  | none => pure s
  | some c => s.modifyChan c fun ch => { ch with topic := none }

/-! ### Names -/

/-- One name of a 353 line. -/
def addName (c : Ref) (s : NetworkState) (name : Str) : Except Fault NetworkState :=
  if name = [] then .ok s
  else do
    let (_, s) ← findAddChannelNick s c name
    pure s

/-- The first 353 line of a listing empties the channel. -/
def restartNames (s : NetworkState) (c : Ref) : Except Fault NetworkState := do
  let ch ← s.chan c
  if ch.namreplyStarted then pure s
  else do
    let s ← freeNames s c
    s.modifyChan c fun ch => { ch with namreplyStarted := true }

/-- `handle_namreply`. -/
def handleNamreply (s : NetworkState) (l : IrcLine) : Except Fault NetworkState := do
  let name ← l.argStr 3
  match ← findChannel s name with
  | none => pure s
  | some c => do
      let names ← l.argStr 4
      let mode ← l.argStr 2
      let s ← s.modifyChan c fun ch => { ch with mode := mode.head? }
      let s ← restartNames s c
      (gStrsplit names (chr ' ')).foldlM (addName c) s

/-- `handle_end_names`. -/
def handleEndNames (s : NetworkState) (l : IrcLine) : Except Fault NetworkState := do
  let name ← l.argStr 2
  match ← findChannel s name with
  | none => pure s
  | some c => s.modifyChan c fun ch => { ch with namreplyStarted := false }

/-! ### Listings of the masks of a channel -/

/-- The three listings. -/
inductive MaskList where
  | invitelist
  | exceptlist
  | banlist
  deriving DecidableEq, Repr

namespace MaskList

def letter : MaskList → Byte
  | invitelist => chr 'I'
  | exceptlist => chr 'e'
  | banlist => chr 'b'

def started (k : MaskList) (ch : ChannelState) : Bool :=
  match k with
  | invitelist => ch.invitelistStarted
  | exceptlist => ch.exceptlistStarted
  | banlist => ch.banlistStarted

def setStarted (k : MaskList) (ch : ChannelState) (v : Bool) : ChannelState :=
  match k with
  | invitelist => { ch with invitelistStarted := v }
  | exceptlist => { ch with exceptlistStarted := v }
  | banlist => { ch with banlistStarted := v }

end MaskList

/-- The channel with one entry added to a listing; the first entry empties the list. -/
def addMask (k : MaskList) (i : Fin MAXMODES) (mask byNick : Option Str) (at' : Long)
    (ch : ChannelState) : ChannelState :=
  let old := if k.started ch then ch.chanmodeNicklist i else []
  let new := ModeArray.set ch.chanmodeNicklist i (nicklistAddEntry old mask byNick at')
  { k.setStarted ch true with chanmodeNicklist := new }

/-- Who set a mask and when: read from a 367 line only. -/
def maskSetter (l : IrcLine) : MaskList → Except Fault (Option Str × Long)
  | .banlist => do
      let by' ← l.arg 4
      match by' with
      | none => pure (none, long0)
      | some _ => do
          let at' ← l.arg 5
          pure (by', (at'.map atol).getD long0)
  | _ => .ok (none, long0)

/-- `handle_invitelist_entry`, `handle_exceptlist_entry` and `handle_banlist_entry`. -/
def handleMaskEntry (k : MaskList) (s : NetworkState) (l : IrcLine) :
    Except Fault NetworkState := do
  let name ← l.argStr 2
  match ← findChannel s name with
  | none => pure s
  | some c => do
      let i ← modeSlot k.letter
      let mask ← l.arg 3
      let (by', at') ← maskSetter l k
      s.modifyChan c (addMask k i mask by' at')

/-- `handle_end_invitelist`, `handle_end_exceptlist` and `handle_end_banlist`. -/
def handleEndMasks (k : MaskList) (s : NetworkState) (l : IrcLine) :
    Except Fault NetworkState := do
  let name ← l.argStr 2
  match ← findChannel s name with
  | none => pure s
  | some c => do
      let i ← modeSlot k.letter
      s.modifyChan c fun ch =>
        let new := ModeArray.set ch.chanmodeNicklistPresent i true
        { k.setStarted ch false with chanmodeNicklistPresent := new }

def handleInvitelistEntry := handleMaskEntry .invitelist
def handleEndInvitelist := handleEndMasks .invitelist
def handleExceptlistEntry := handleMaskEntry .exceptlist
def handleEndExceptlist := handleEndMasks .exceptlist
def handleBanlistEntry := handleMaskEntry .banlist
def handleEndBanlist := handleEndMasks .banlist

/-! ### Users -/

/-- What a 352 line says about a nick besides its identity. -/
def whoreplyNick (hops : ℤ) (rest server : Str) (n : NetworkNick) : NetworkNick :=
  let fullname := match n.fullname with
    | some f => some f
    | none => some (if rest.head? = some (chr ' ') then rest.tail else rest)
  { n with hops := hops, fullname := fullname, server := some server }

/-- `handle_whoreply`. -/
def handleWhoreply (now : Long) (s : NetworkState) (l : IrcLine) : Except Fault NetworkState := do
  let nick ← l.argStr 6
  let (nn, s) ← findAddNetworkNick s nick
  let username ← l.argStr 3
  let host ← l.argStr 4
  let s ← s.modifyNick nn fun n => networkNickSetData n nick username host
  let trailing ← l.argStr 8
  let server ← l.argStr 5
  let (hops, rest) := strtol trailing 10
  let s ← s.modifyNick nn (whoreplyNick (toInt hops) rest server)
  let name ← l.argStr 2
  match ← findChannel s name with
  | none => pure s
  | some c => do
      let n ← s.nick nn
      match n.nick with
      | none => .error .assertion
      | some nick => match ← findChannelNick s c nick with
          | none => pure s
          | some m => do
              let cn ← s.memb m
              let flags ← l.arg 7
              pure (s.setMemb m { cn with lastFlags := flags, lastUpdate := now })

/-- `handle_end_who`. -/
def handleEndWho (s : NetworkState) (_ : IrcLine) : Except Fault NetworkState := .ok s

/-- `handle_nowaway`. -/
def handleNowaway (s : NetworkState) (_ : IrcLine) : Except Fault NetworkState :=
  .ok { s with isAway := true }

/-- `handle_unaway`. -/
def handleUnaway (s : NetworkState) (_ : IrcLine) : Except Fault NetworkState :=
  .ok { s with isAway := false }

/-- `handle_privmsg`. -/
def handlePrivmsg (s : NetworkState) (l : IrcLine) : Except Fault NetworkState :=
  match l.origin with
  | none => .ok s
  | some _ => do
      let target ← l.argStr 1
      let me ← s.nick meRef
      if ← ircEq (some s.info) (some target) me.nick then do
        let nick ← lineGetNick l
        let (nn, s) ← findAddNetworkNick s nick
        s.modifyNick nn fun n => { n with query := true }
      else pure s

/-- `handle_nick`. -/
def handleNick (s : NetworkState) (l : IrcLine) : Except Fault NetworkState :=
  match l.origin with
  | none => .ok s
  | some _ => do
      let nick ← lineGetNick l
      let (nn, s) ← findAddNetworkNick s nick
      let new ← l.argStr 1
      s.modifyNick nn fun n => networkNickSetNick n new

/-- One user of a 302 line: `nick=±user@host`. -/
def userhost (s : NetworkState) (user : Str) : Except Fault NetworkState :=
  match gStrsplitN user (chr '=') 2 with
  | nick :: rest :: _ => do
      let (nn, s) ← findAddNetworkNick s nick
      match rest with
      -- `tmp302[1]+1` is behind the terminator of an empty string
      | [] => .error .overread
      | _ :: uh => s.modifyNick nn fun n => networkNickSetHostmask n (nick ++ chr '!' :: uh)
  | _ => .ok s

/-- `handle_302`. -/
def handle302 (s : NetworkState) (l : IrcLine) : Except Fault NetworkState := do
  let users ← l.argStr 2
  (gStrsplit (gStrstrip users) (chr ' ')).foldlM userhost s

/-! ### Modes -/

/-- The name of the nick that changed a mode. -/
def setterNick (s : NetworkState) : Option Ref → Except Fault (Option Str)
  | none => .ok none
  | some b => do
      let n ← s.nick b
      pure n.nick

/-- A mask list after a mode change. -/
def changeMasks (now : Long) (by' : Option Ref) (set : Bool) (mask : Str) (s : NetworkState)
    (old : List NicklistEntry) : Except Fault (List NicklistEntry) :=
  if set then do
    let byNick ← setterNick s by'
    pure (nicklistAddEntry old (some mask) byNick now)
  else nicklistRemoveEntry old mask

/-- `channel_state_change_mode` for a list of masks.  Like the branches below it returns the new
state and the number of arguments consumed, `none` for `-1`. -/
def changeNicklist (now : Long) (by' : Option Ref) (c : Ref) (set : Bool) (mode : Byte)
    (optArg : Option Str) (s : NetworkState) : Except Fault (NetworkState × Option ℕ) :=
  match optArg with
  | none => .ok (s, none)
  | some mask => do
      let i ← modeSlot mode
      let ch ← s.chan c
      if ch.chanmodeNicklistPresent i then do
        let new ← changeMasks now by' set mask s (ch.chanmodeNicklist i)
        let lists := ModeArray.set ch.chanmodeNicklist i new
        pure (s.setChan c { ch with chanmodeNicklist := lists }, some 1)
      else pure (s, some 1)

/-- An option of a channel is replaced. -/
def setOption (c : Ref) (mode : Byte) (v : Option Str) (s : NetworkState) :
    Except Fault NetworkState := do
  let i ← modeSlot mode
  s.modifyChan c fun ch => { ch with chanmodeOption := ModeArray.set ch.chanmodeOption i v }

/-- `channel_state_change_mode` for an option. -/
def changeSetting (c : Ref) (set : Bool) (mode : Byte) (optArg : Option Str) (s : NetworkState) :
    Except Fault (NetworkState × Option ℕ) :=
  if set then match optArg with
    | none => .ok (s, none)
    | some v => do
        let s ← setOption c mode (some v) s
        pure (s, some 1)
  else do
    let s ← setOption c mode none s
    pure (s, some 0)

/-- `channel_state_change_mode` for a mode of a member. -/
def changePrefixMode (c : Ref) (set : Bool) (mode : Byte) (optArg : Option Str)
    (s : NetworkState) : Except Fault (NetworkState × Option ℕ) :=
  match optArg with
  | none => .ok (s, none)
  | some nick => do
      match ← findChannelNick s c nick with
      | none => pure (s, none)
      | some m => do
          let cn ← s.memb m
          let modes ← modesChangeMode cn.modes set mode
          pure (s.setMemb m { cn with modes := modes }, some 1)

/-- `channel_state_change_mode` for a flag of the channel. -/
def changeBool (c : Ref) (set : Bool) (mode : Byte) (s : NetworkState) :
    Except Fault (NetworkState × Option ℕ) := do
  let ch ← s.chan c
  let modes ← modesChangeMode ch.modes set mode
  pure (s.setChan c { ch with modes := modes }, some 0)

/-- `channel_state_change_mode`. -/
def channelStateChangeMode (now : Long) (by' : Option Ref) (c : Ref) (set : Bool) (mode : Byte)
    (optArg : Option Str) (s : NetworkState) : Except Fault (NetworkState × Option ℕ) := do
  let cmt ← networkChanmodeType mode s.info
  if cmt = .nicklist then changeNicklist now by' c set mode optArg s
  else if cmt = .optSetting ∨ cmt = .setting then changeSetting c set mode optArg s
  else if isPrefixMode s.info mode then changePrefixMode c set mode optArg s
  else if cmt = .bool then changeBool c set mode s
  else pure (s, some 1)

/-- The loop of `handle_mode` over the letters of a channel mode change: `t` is the current sign,
`arg` the index of the next parameter. -/
def channelModeLoop (now : Long) (l : IrcLine) (by' : Option Ref) (c : Ref) :
    Str → (t : Bool) → (arg : ℕ) → NetworkState → Except Fault NetworkState
  | [], _, _, s => .ok s
  | b :: w, t, arg, s =>
      if b = chr '+' then channelModeLoop now l by' c w true arg s
      else if b = chr '-' then channelModeLoop now l by' c w false arg s
      else do
        let opt ← l.arg arg
        let (s, ret) ← channelStateChangeMode now by' c t b opt s
        match ret with
        | none => pure s
        | some n => channelModeLoop now l by' c w t (if opt.isSome then arg + n else arg) s

section
variable {now : Long} {l : IrcLine} {by' : Option Ref} {c : Ref} {b : Byte} {w : Str} {t : Bool}
  {arg : ℕ} {s : NetworkState}

theorem channelModeLoop_plus (hp : b = chr '+') : channelModeLoop now l by' c (b :: w) t arg s =
    channelModeLoop now l by' c w true arg s :=
  if_pos hp

theorem channelModeLoop_minus (hp : b ≠ chr '+') (hm : b = chr '-') :
    channelModeLoop now l by' c (b :: w) t arg s = channelModeLoop now l by' c w false arg s :=
  (if_neg hp).trans (if_pos hm)

/-- A sign only says what the letters behind it do. -/
theorem channelModeLoop_sign (hb : b = chr '+' ∨ b = chr '-') :
    channelModeLoop now l by' c (b :: w) t arg s =
      channelModeLoop now l by' c w (b = chr '+') arg s := by
  by_cases hp : b = chr '+'
  · rw [channelModeLoop_plus hp, decide_eq_true hp]
  · rw [channelModeLoop_minus hp (hb.resolve_left hp), decide_eq_false hp]

theorem channelModeLoop_change (hp : b ≠ chr '+') (hm : b ≠ chr '-') :
    channelModeLoop now l by' c (b :: w) t arg s = (l.arg arg >>= fun opt =>
      channelStateChangeMode now by' c t b opt s >>= fun x => match x.2 with
        | none => pure x.1
        | some n => channelModeLoop now l by' c w t (if opt.isSome then arg + n else arg) x.1) :=
  (if_neg hp).trans (if_neg hm)

end

/-- `handle_mode`. -/
def handleMode (now : Long) (s : NetworkState) (l : IrcLine) : Except Fault NetworkState := do
  let target ← l.argStr 1
  let change ← l.argStr 2
  if ← isChannelname target s.info then
    match ← findChannel s target with
    | none => pure s
    | some c => do
        let byName ← lineGetNick l
        let by' ← findNetworkNick s byName
        channelModeLoop now l by' c change true 3 s
  else do
    let (nn, s) ← findAddNetworkNick s target
    let n ← s.nick nn
    let modes ← changeModes true n.modes change
    pure (s.setNick nn { n with modes := modes })

/-- `handle_umodeis`. -/
def handleUmodeis (s : NetworkState) (l : IrcLine) : Except Fault NetworkState := do
  let w ← l.argStr 1
  let (modes, _) ← string2mode (some w)
  s.modifyNick meRef fun n => { n with modes := modes }

/-- `handle_324`. -/
def handle324 (s : NetworkState) (l : IrcLine) : Except Fault NetworkState := do
  let name ← l.argStr 2
  match ← findChannel s name with
  | none => pure s
  | some c => do
      let w ← l.argStr 3
      let (modes, _) ← string2mode (some w)
      s.modifyChan c fun ch => { ch with modes := modes, modeReceived := true }

/-- `handle_329`. -/
def handle329 (s : NetworkState) (l : IrcLine) : Except Fault NetworkState := do
  let name ← l.argStr 2
  match ← findChannel s name with
  | none => pure s
  | some c => do
      let time ← l.argStr 3
      s.modifyChan c fun ch => { ch with creationTime := atol time }

/-! ### The server -/

/-- `handle_001`. -/
def handle001 (s : NetworkState) (l : IrcLine) : Except Fault NetworkState := do
  let nick ← l.arg 1
  s.modifyNick meRef fun n => { n with nick := nick }

/-- `handle_004`. -/
def handle004 (s : NetworkState) (l : IrcLine) : Except Fault NetworkState := do
  let userModes ← l.arg 4
  let channelModes ← l.arg 5
  let server ← l.arg 2
  let info := { s.info with
    supportedUserModes := userModes, supportedChannelModes := channelModes, server := server }
  pure { s with info := info }

/-- `handle_005`: the tokens are the arguments but the first two and the last. -/
def handle005 (s : NetworkState) (l : IrcLine) : Except Fault NetworkState := do
  let info ← (l.args.dropLast.drop 2).foldlM networkInfoParse s.info
  pure { s with info := info }

/-! ### Dispatch -/

/-- The handlers. -/
inductive Command where
  | join | part | kick | quit | topic | nick | privmsg | mode
  | c001 | c004 | c005 | umodeis | c302 | c324 | c329 | c332 | c333 | noTopic
  | namreply | endNames | banlistEntry | endBanlist | invitelistEntry | endInvitelist
  | exceptlistEntry | endExceptlist | whoreply | endWho | nowaway | unaway
  deriving DecidableEq, Repr

/-- `irc_commands`: the command, the number of arguments it must have, the handler. -/
def ircCommands : List (Str × ℕ × Command) :=
  [(str "JOIN", 1, .join), (str "PART", 1, .part), (str "KICK", 2, .kick), (str "QUIT", 0, .quit),
   (str "TOPIC", 2, .topic), (str "NICK", 1, .nick), (str "PRIVMSG", 2, .privmsg),
   (str "MODE", 2, .mode), (str "001", 1, .c001), (str "004", 5, .c004), (str "005", 3, .c005),
   (str "221", 1, .umodeis), (str "302", 2, .c302), (str "324", 3, .c324), (str "329", 3, .c329),
   (str "332", 3, .c332), (str "333", 3, .c333), (str "331", 1, .noTopic),
   (str "353", 4, .namreply), (str "366", 2, .endNames), (str "367", 2, .banlistEntry),
   (str "368", 2, .endBanlist), (str "346", 2, .invitelistEntry), (str "347", 2, .endInvitelist),
   (str "348", 2, .exceptlistEntry), (str "349", 2, .endExceptlist), (str "352", 8, .whoreply),
   (str "315", 1, .endWho), (str "306", 1, .nowaway), (str "305", 1, .unaway)]

/-- The handler of a command. -/
def Command.handler (now : Long) (s : NetworkState) (l : IrcLine) :
    Command → Except Fault NetworkState
  | .join => handleJoin s l
  | .part => handlePart s l
  | .kick => handleKick s l
  | .quit => handleQuit s l
  | .topic => handleTopic now s l
  | .nick => handleNick s l
  | .privmsg => handlePrivmsg s l
  | .mode => handleMode now s l
  | .c001 => handle001 s l
  | .c004 => handle004 s l
  | .c005 => handle005 s l
  | .umodeis => handleUmodeis s l
  | .c302 => handle302 s l
  | .c324 => handle324 s l
  | .c329 => handle329 s l
  | .c332 => handle332 s l
  | .c333 => handle333 s l
  | .noTopic => handleNoTopic s l
  | .namreply => handleNamreply s l
  | .endNames => handleEndNames s l
  | .banlistEntry => handleBanlistEntry s l
  | .endBanlist => handleEndBanlist s l
  | .invitelistEntry => handleInvitelistEntry s l
  | .endInvitelist => handleEndInvitelist s l
  | .exceptlistEntry => handleExceptlistEntry s l
  | .endExceptlist => handleEndExceptlist s l
  | .whoreply => handleWhoreply now s l
  | .endWho => handleEndWho s l
  | .nowaway => handleNowaway s l
  | .unaway => handleUnaway s l

/-- The entry of `irc_commands` a line selects; `none` also when an argument the entry asks for is
missing. -/
def commandOf (l : IrcLine) : Option Command :=
  match l.args with
  | [] => none
  | cmd :: _ => match ircCommands.find? fun e => baseEq (some cmd) e.1 with
      | none => none
      | some (_, minArgs, k) => if minArgs < l.argc then some k else none

/-- `state_handle_data`. -/
def stateHandleData (now : Long) (s : NetworkState) (l : IrcLine) :
    Except Fault (Bool × NetworkState) :=
  match commandOf l with
  | none => .ok (false, s)
  | some k => do
      let s ← k.handler now s l
      pure (true, s)

/-- `network_state_init`. -/
def networkStateInit (nick username hostname : Str) : NetworkState where
  nickHeap := Heap.empty.set meRef
    (networkNickSetData { NetworkNick.zero with query := true } nick username hostname)
  chanHeap := Heap.empty
  membHeap := Heap.empty
  next := meRef + 1
  nicks := []
  channels := []
  info := networkInfoInit
  isAway := false

/-- A line as it arrives: with the time at which it is handled. -/
abbrev Input := Long × IrcLine

/-- One step of a network state: the state `state_handle_data` leaves behind. -/
def stateStep (s : NetworkState) (i : Input) : Except Fault NetworkState := do
  let (_, s) ← stateHandleData i.1 s i.2
  pure s

end Ctrlproxy
