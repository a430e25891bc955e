import Ctrlproxy.Base.Line

/-!
# Base — what the server announces about itself

`struct irc_network_info` and `libirc/isupport.c`: the 005 tokens, the case mapping and the
comparison it selects, the `PREFIX` table and the `CHANMODES` groups.

The fields that `network_info_parse` treats alike are families: `text` for the strings it
copies, `num` for the bounded numbers, `flag` for the booleans and `mode` for the letters.
`chanmodes_a` … `chanmodes_d` point into `chanmodes` and are read by no function, and are left
out.
-/

namespace Ctrlproxy

/-- `enum casemapping`. -/
inductive Casemapping where
  | unknown
  | rfc1459
  | ascii
  | strictRfc1459
  deriving DecidableEq, Repr

/-- `enum chanmode_type`. -/
inductive ChanmodeType where
  | unknown
  | nicklist
  | setting
  | optSetting
  | bool
  deriving DecidableEq, Repr

/-- The strings a 005 token replaces. -/
inductive InfoText where
  | name | ircd | chantypes | chanlimit | maxlist | idchan | statusmsg | charset
  deriving DecidableEq, Repr

/-- The numbers a 005 token sets. -/
inductive InfoNum where
  | nicklen | userlen | hostlen | channellen | awaylen | kicklen | topiclen | watch | maxpara
  | maxchannels | maxtargets | maxbans | maxmodes | keylen | silenceLimit
  deriving DecidableEq, Repr

/-- The booleans a 005 token sets. -/
inductive InfoFlag where
  | operoverride | vbanlist | remove | wallchops | map | ssl | wallvoices | rfc2812 | penalty
  | forcedNickChanges | safelist | userip | cprivmsg | cnotice | knock | capab | hcn | vchannels
  | whox | callerid | accept | esilence | uhnames | silence | namesx | securelist
  | elistMaskSearch | elistInverseMaskSearch | elistUsercountSearch | elistCreationTimeSearch
  | elistTopicSearch
  deriving DecidableEq, Repr

/-- The mode letters a 005 token sets. -/
inductive InfoMode where
  | excepts | invex | deaf
  deriving DecidableEq, Repr

/-- `struct irc_network_info`. -/
structure NetworkInfo where
  server : Option Str
  supportedUserModes : Option Str
  supportedChannelModes : Option Str
  casemapping : Casemapping
  /-- `prefix`; never `NULL` -/
  prefixes : Str
  chanmodes : Option (List Str)
  extbanPrefix : Option Str
  extbanSupported : Option Str
  text : InfoText → Option Str
  num : InfoNum → ℤ
  flag : InfoFlag → Bool
  mode : InfoMode → Option Byte

def DEFAULT_PREFIX : Str := str "(ov)@+"

def DEFAULT_CHANTYPES : Str := str "#&"

/-- `network_info_init`. -/
def networkInfoInit : NetworkInfo where
  server := none
  supportedUserModes := none
  supportedChannelModes := none
  casemapping := .unknown
  prefixes := DEFAULT_PREFIX
  chanmodes := none
  extbanPrefix := none
  extbanSupported := none
  text := fun t => if t = .chantypes then some DEFAULT_CHANTYPES else none
  num := fun _ => 0
  flag := fun _ => false
  mode := fun _ => none

/-! ### Comparison -/

/-- `str_cmphelper`: `len` is the bound on the characters compared, `none` for `(size_t)-1`; the
letters `sl..el` are the upper case of `sh..eh`. -/
def strCmphelper (sh sl eh el : ℤ) : (len : Option ℕ) → Str → Str → ℤ
  | _, [], [] => 0
  | _, [], b :: _ => 0 - b.char
  | _, a :: _, [] => a.char - 0
  | len, a :: as, b :: bs =>
      if len = some 0 then a.char - b.char
      else if a = b then strCmphelper sh sl eh el (len.map Nat.pred) as bs
      else
        let l := if a.char > b.char then b.char else a.char
        let h := if a.char > b.char then a.char else b.char
        if h < sh ∨ h > eh ∨ l < sl ∨ l > el then a.char - b.char
        else if h - sh ≠ l - sl then a.char - b.char
        else strCmphelper sh sl eh el (len.map Nat.pred) as bs

def strAsciicmp (a b : Str) : ℤ := strCmphelper 97 65 122 90 none a b

def strStrictrfc1459cmp (a b : Str) : ℤ := strCmphelper 97 65 125 93 none a b

def strRfc1459cmp (a b : Str) : ℤ := strCmphelper 97 65 126 94 none a b

/-- The mapping of a network, unknown without one. -/
def casemapOf (n : Option NetworkInfo) : Casemapping :=
  match n with
  | some n => n.casemapping
  | none => .unknown

/-- `irccmp` on two strings. -/
def irccmpStr (m : Casemapping) (a b : Str) : ℤ :=
  match m with
  | .unknown | .rfc1459 => strRfc1459cmp a b
  | .ascii => strAsciicmp a b
  | .strictRfc1459 => strStrictrfc1459cmp a b

/-- `irccmp`: the comparisons assert that neither string is `NULL`. -/
def irccmp (n : Option NetworkInfo) (a b : Option Str) : Except Fault ℤ :=
  match a, b with
  | some a, some b => .ok (irccmpStr (casemapOf n) a b)
  | _, _ => .error .assertion

/-! ### Channel names and prefixes -/

/-- `is_channelname`: `strchr` finds the terminator, so the empty name is one. -/
def isChannelname (name : Str) (n : NetworkInfo) : Except Fault Bool :=
  match n.text .chantypes with
  | none => .error .assertion
  | some t => match name with
      | [] => .ok true
      | b :: _ => .ok (decide (b ∈ t))

/-- The part of a `PREFIX` value after the first `)`, the whole value without one. -/
def prefixEnd (p : Str) : Str :=
  match p.dropWhile (· ≠ chr ')') with
  | [] => p
  | _ :: e => e

/-- `is_prefix` at a character, `none` being the terminator. -/
def isPrefix (p : Option Byte) (n : Option NetworkInfo) : Bool :=
  match p with
  | none => false
  | some p =>
      let t := match n with
        | some n => n.prefixes
        | none => DEFAULT_PREFIX
      decide (p ∈ prefixEnd t)

/-- The symbols and the modes of a well-formed `PREFIX` value, position by position.  The modes
are read from behind the `(`, so that a symbol beyond the last mode meets `)` and the symbols
themselves. -/
def prefixTable (n : NetworkInfo) : Option (List (Byte × Byte)) :=
  match n.prefixes with
  | [] => none
  | b :: rest =>
      if b = chr '(' ∧ chr ')' ∈ n.prefixes then some ((prefixEnd n.prefixes).zip rest) else none

/-- `get_mode_by_prefix`, `none` being 0. -/
def getModeByPrefix (p : Byte) (n : NetworkInfo) : Option Byte :=
  match prefixTable n with
  | none => none
  | some t => (t.find? fun e => e.1 = p).map Prod.snd

/-- `get_prefix_by_mode`. -/
def getPrefixByMode (m : Byte) (n : NetworkInfo) : Byte :=
  match prefixTable n with
  | none => chr ' '
  | some t => match t.find? fun e => e.2 = m with
      | some e => e.1
      | none => chr ' '

/-- `is_prefix_mode`. -/
def isPrefixMode (n : NetworkInfo) (m : Byte) : Bool := getPrefixByMode m n ≠ chr ' '

def default_chanmodes : List Str := [str "beI", str "k", str "l", str "imnpsta"]

/-- The search of `network_chanmode_type` from group `i` on; a group vector that ends before the
fourth group is read at its `NULL`. -/
def chanmodeTypeFrom (m : Byte) : List ChanmodeType → List Str → Except Fault ChanmodeType
  | [], _ => .ok .unknown
  | _ :: _, [] => .error .null
  | t :: ts, g :: gs => if m ∈ g then .ok t else chanmodeTypeFrom m ts gs

/-- `network_chanmode_type`. -/
def networkChanmodeType (m : Byte) (n : NetworkInfo) : Except Fault ChanmodeType :=
  chanmodeTypeFrom m [.nicklist, .setting, .optSetting, .bool] (n.chanmodes.getD default_chanmodes)

/-! ### The 005 tokens -/

/-- `g_ascii_string_to_signed(val, 10, 0, G_MAXINT, …)`, which refuses `NULL`. -/
def gAsciiStringToSigned (val : Option Str) : Option ℤ :=
  match val with
  | none => none
  | some [] => none
  | some (b :: s) =>
      let r := strtol (b :: s) 10
      if b.isSpace ∨ r.2 ≠ [] ∨ r.1.1 < 0 ∨ r.1.1 > 2 ^ 31 - 1 then none else some r.1.1

/-- What a 005 key announces. -/
inductive InfoKey where
  | casemapping
  | text (t : InfoText)
  | num (n : InfoNum)
  | flag (f : InfoFlag)
  | keylen
  | silence
  | chanmodes
  | mode (m : InfoMode) (byDefault : Byte)
  | elist
  | extban
  | prefixes
  deriving DecidableEq

/-- The keys, in the order `network_info_parse` tries them. -/
def infoKeys : List (Str × InfoKey) :=
  [(str "CASEMAPPING", .casemapping), (str "NETWORK", .text .name), (str "IRCD", .text .ircd),
   (str "NICKLEN", .num .nicklen), (str "MAXNICKLEN", .num .nicklen),
   (str "USERLEN", .num .userlen), (str "HOSTLEN", .num .hostlen),
   (str "OVERRIDE", .flag .operoverride),
   (str "CHANNELLEN", .num .channellen), (str "MAXCHANNELLEN", .num .channellen),
   (str "AWAYLEN", .num .awaylen), (str "KICKLEN", .num .kicklen),
   (str "TOPICLEN", .num .topiclen), (str "WATCH", .num .watch), (str "VBANLIST", .flag .vbanlist),
   (str "MAXPARA", .num .maxpara), (str "MAXCHANNELS", .num .maxchannels),
   (str "MAXTARGETS", .num .maxtargets), (str "REMOVE", .flag .remove),
   (str "MAXBANS", .num .maxbans), (str "MODES", .num .maxmodes),
   (str "WALLCHOPS", .flag .wallchops), (str "MAP", .flag .map), (str "SSL", .flag .ssl),
   (str "WALLVOICES", .flag .wallvoices), (str "RFC2812", .flag .rfc2812),
   (str "PENALTY", .flag .penalty), (str "FNC", .flag .forcedNickChanges),
   (str "SAFELIST", .flag .safelist), (str "USERIP", .flag .userip),
   (str "CPRIVMSG", .flag .cprivmsg), (str "CNOTICE", .flag .cnotice),
   (str "KNOCK", .flag .knock), (str "CAPAB", .flag .capab), (str "HCN", .flag .hcn),
   (str "VCHANNELS", .flag .vchannels), (str "WHOX", .flag .whox),
   (str "CALLERID", .flag .callerid), (str "ACCEPT", .flag .accept),
   (str "ESILENCE", .flag .esilence), (str "UHNAMES", .flag .uhnames),
   (str "KEYLEN", .keylen), (str "SILENCE", .silence), (str "CHANTYPES", .text .chantypes),
   (str "CHANMODES", .chanmodes), (str "CHANLIMIT", .text .chanlimit),
   (str "EXCEPTS", .mode .excepts (chr 'e')), (str "INVEX", .mode .invex (chr 'I')),
   (str "ELIST", .elist), (str "DEAF", .mode .deaf (chr 'D')), (str "EXTBAN", .extban),
   (str "MAXLIST", .text .maxlist), (str "IDCHAN", .text .idchan),
   (str "STATUSMSG", .text .statusmsg), (str "PREFIX", .prefixes),
   (str "CHARSET", .text .charset), (str "NAMESX", .flag .namesx),
   (str "SECURELIST", .flag .securelist)]

namespace NetworkInfo

def setText (n : NetworkInfo) (t : InfoText) (v : Option Str) : NetworkInfo :=
  { n with text := fun t' => if t' = t then v else n.text t' }

def setNum (n : NetworkInfo) (k : InfoNum) (v : ℤ) : NetworkInfo :=
  { n with num := fun k' => if k' = k then v else n.num k' }

def setFlag (n : NetworkInfo) (f : InfoFlag) : NetworkInfo :=
  { n with flag := fun f' => if f' = f then true else n.flag f' }

def setMode (n : NetworkInfo) (m : InfoMode) (v : Option Byte) : NetworkInfo :=
  { n with mode := fun m' => if m' = m then v else n.mode m' }

end NetworkInfo

/-- `check_chanmodes_inconsistency`: a letter of `CHANMODES` missing from the 004 line is added
to the letters that line gave. -/
def checkChanmodesInconsistency (n : NetworkInfo) (groups : List Str) : NetworkInfo :=
  match n.supportedChannelModes with
  | none => n
  | some m =>
      let m' := groups.flatten.foldl (fun m b => if b ∈ m then m else m ++ [b]) m
      { n with supportedChannelModes := some m' }

/-- The flags an `ELIST` value sets. -/
def elistFlag (b : Byte) : Option InfoFlag :=
  if b = chr 'M' then some .elistMaskSearch
  else if b = chr 'N' then some .elistInverseMaskSearch
  else if b = chr 'T' then some .elistTopicSearch
  else if b = chr 'U' then some .elistUsercountSearch
  else if b = chr 'C' then some .elistCreationTimeSearch
  else none

/-- The effect of a token on the info, by what its key announces. -/
def applyInfoKey (n : NetworkInfo) (val : Option Str) : InfoKey → Except Fault NetworkInfo
  | .casemapping =>
      let m : Casemapping :=
        if baseEq val (str "rfc1459") then .rfc1459
        else if baseEq val (str "strict-rfc1459") then .strictRfc1459
        else if baseEq val (str "ascii") then .ascii
        else .unknown
      .ok { n with casemapping := m }
  | .text t => .ok (n.setText t val)
  | .num k => match gAsciiStringToSigned val with
      | some v => .ok (n.setNum k v)
      | none => .ok n
  | .flag f => .ok (n.setFlag f)
  | .keylen => match val with
      | none => .error .null
      | some v => .ok (n.setNum .keylen (atoi v))
  | .silence => match val with
      | none => .ok (n.setFlag .silence)
      | some v => .ok ((n.setNum .silenceLimit (atoi v)).setFlag .silence)
  | .chanmodes => match val with
      -- `g_strsplit` of `NULL` is `NULL`: the default groups are back in force
      | none => .ok { n with chanmodes := none }
      | some v =>
          let groups := gStrsplitN v (chr ',') 4
          let n := { n with chanmodes := some groups }
          .ok (if groups.length = 4 then checkChanmodesInconsistency n groups else n)
  | .mode m d => match val with
      | none => .ok (n.setMode m (some d))
      | some [] => .ok (n.setMode m none)
      | some [b] => .ok (n.setMode m (some b))
      | some _ => .ok n
  | .elist => match val with
      | none => .error .null
      | some v => .ok (v.foldl (fun n b => match elistFlag b with
          | some f => n.setFlag f
          | none => n) n)
  | .extban => match val with
      | none => .ok { n with extbanPrefix := some (str "~"), extbanSupported := some (str "cqr") }
      | some v =>
          let parts := gStrsplitN v (chr ',') 2
          -- an empty value has no part: `parts[1]` is then read beyond the vector
          if parts = [] then .error .overread
          else .ok { n with extbanPrefix := parts[0]?, extbanSupported := parts[1]? }
  | .prefixes => match val with
      | none => .error .null
      | some v =>
          if v ≠ [] ∧ (v.head? ≠ some (chr '(') ∨ chr ')' ∉ v) then .ok n
          else .ok { n with prefixes := v }

/-- What the key of a token announces. -/
def tokenKey (parameter : Str) : Option InfoKey :=
  (infoKeys.find? fun e => baseEq (some (parameter.takeWhile (· ≠ chr '='))) e.1).map Prod.snd

/-- The value of a token: what stands behind its first `=`. -/
def tokenValue (parameter : Str) : Option Str :=
  match parameter.dropWhile (· ≠ chr '=') with
  | [] => none
  | _ :: v => some v

/-- `network_info_parse`. -/
def networkInfoParse (n : NetworkInfo) (parameter : Str) : Except Fault NetworkInfo :=
  match tokenKey parameter with
  | some k => applyInfoKey n (tokenValue parameter) k
  | none => .ok n

end Ctrlproxy
