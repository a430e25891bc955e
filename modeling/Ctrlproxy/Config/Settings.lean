import Mathlib.Data.List.Infix
import Ctrlproxy.Lib.Heap
import Ctrlproxy.Lib.Outcome
import Ctrlproxy.Config.Keyfile

/-!
# Config — loading

The networks of a configuration directory, as `load_configuration` of `src/settings.c` makes them: one
for each file in `networks`, one for each group of the main file that is no setting of the proxy itself,
and those that `autoconnect` names and no network answers to.

A key file is a list of groups of keys with values.  What a value is written as is a matter of GLib
(`KeyFileValues`).  Settings that no network depends on are left out, but for the groups and keys that
are removed from the main file when they are read.
-/

namespace Ctrlproxy.Config
open Outcome

/-! ### Key files -/

/-- How GKeyFile reads the text of a value, and writes it. -/
structure KeyFileValues (V : Type) where
  getString : V → Str
  getStringList : V → List Str
  getBoolean : V → Bool
  getInteger : V → ℤ
  ofString : Str → V
  ofStringList : List Str → V
  ofInteger : ℤ → V

/-- `GKeyFile`. -/
abbrev KeyFile (V : Type) := List (Str × List (Str × V))

namespace KeyFile
variable {V : Type}

/-- `g_key_file_get_groups`. -/
def groups (kf : KeyFile V) : List Str := kf.map Prod.fst

/-- `g_key_file_has_group`. -/
def hasGroup (kf : KeyFile V) (group : Str) : Bool := (kf.lookup group).isSome

/-- The value of a key. -/
def value (kf : KeyFile V) (group key : Str) : Option V := (kf.lookup group).bind (·.lookup key)

/-- `g_key_file_has_key`. -/
def hasKey (kf : KeyFile V) (group key : Str) : Bool := (kf.value group key).isSome

/-- `g_key_file_remove_group`. -/
def removeGroup (kf : KeyFile V) (group : Str) : KeyFile V := kf.filter (·.1 ≠ group)

/-- `g_key_file_remove_key`. -/
def removeKey (kf : KeyFile V) (group key : Str) : KeyFile V :=
  kf.map fun g => if g.1 = group then (g.1, g.2.filter (·.1 ≠ key)) else g

/-- `g_key_file_set_value`. -/
def setValue (kf : KeyFile V) (group key : Str) (v : V) : KeyFile V :=
  if kf.hasGroup group then
    kf.map fun g => if g.1 = group then (g.1, g.2.filter (·.1 ≠ key) ++ [(key, v)]) else g
  else kf ++ [(group, [(key, v)])]

end KeyFile

/-! ### URLs -/

/-- `irc_create_url`. -/
def ircCreateUrl (server port : Str) (ssl : Bool) : Str :=
  if ssl ∧ (port = str "ircs" ∨ port = str "994") then str "ircs://" ++ server
  else if ssl = false ∧ (port = str "ircd" ∨ port = str "6667") then str "irc://" ++ server
  else (if ssl then str "ircs" else str "irc") ++ str "://" ++ server ++ str ":" ++ port

/-- What is behind the scheme of a URL, and whether it is `ircs`: `none` where the scheme is
another. -/
def urlScheme (url : Str) : Option (Bool × Str) :=
  if str "irc://" <+: url then some (false, url.drop 6)
  else if str "ircs://" <+: url then some (true, url.drop 7)
  else if str "://" <:+: url then none
  else some (false, url)

/-- `irc_parse_url`: server, port, and whether it is `ircs`. -/
def ircParseUrl (url : Str) : Option (Str × Str × Bool) :=
  (urlScheme url).map fun (ssl, url) =>
    let q := url.takeWhile (· ≠ chr '/')
    -- a colon counts in front of the first slash only
    match q.dropWhile (· ≠ chr ':') with
    | _ :: _ => (q.takeWhile (· ≠ chr ':'), (url.dropWhile (· ≠ chr ':')).drop 1, ssl)
    | [] => (q, if ssl then str "994" else str "6667", ssl)

/-! ### Networks -/

/-- `struct channel_config`. -/
structure ChannelConfig where
  name : Option Str
  key : Option Str
  autojoin : Bool
  deriving DecidableEq

/-- `struct tcp_server_config`. -/
structure TcpServerConfig where
  host : Str
  port : Str
  bindAddress : Option Str
  ssl : Bool
  password : Option Str
  deriving DecidableEq

/-- The type of a network, with its settings. -/
inductive NetworkType where
  | tcp (defaultBindAddress : Option Str) (servers : List TcpServerConfig)
  | program (programLocation : Option Str)
  | virtual (virtualName : Option Str)
  | iochannel
  deriving DecidableEq

/-- `keyfile`, which may be the one of the configuration, and `filename`. -/
inductive NetworkKeyfile (V : Type) where
  | none
  | main
  | own (kf : KeyFile V) (filename : Str)

/-- `struct network_config`. -/
structure NetworkConfig (V : Type) where
  keyfile : NetworkKeyfile V
  groupname : Option Str
  name : Str
  nick : Option Str
  fullname : Option Str
  username : Option Str
  password : Option Str
  implicit : Bool
  autoconnect : Bool
  ignoreFirstNick : Bool
  queueSpeed : ℤ
  reconnectInterval : ℤ
  channels : List ChannelConfig
  type : NetworkType
  autocmd : Option (List Str)

/-- `struct ctrlproxy_config`: the networks, where they are, and the main key file. -/
structure CtrlproxyConfig (V : Type) where
  networks : List Ref
  heap : Heap (NetworkConfig V)
  next : Ref
  keyfile : KeyFile V

/-- The files of a configuration directory; a file that cannot be parsed is `none`. -/
structure ConfigDir (V : Type) where
  config : Option (KeyFile V)
  /-- the files in `networks`, in the order of `g_dir_read_name` -/
  networks : List (Str × Option (KeyFile V))
  keys : Option (List Octet)

section
variable {V : Type} (values : KeyFileValues V)

/-! ### Channels -/

/-- `config_find_add_channel`, and what is done with the channel. -/
def configFindAddChannel (name : Option Str) (f : ChannelConfig → ChannelConfig) :
    List ChannelConfig → Except Fault (List ChannelConfig)
  | [] => .ok [f ⟨name, none, false⟩]
  | cc :: channels =>
      match cc.name, name with
      | some a, some b =>
          if baseEq (some a) b then .ok (f cc :: channels)
          else (configFindAddChannel name f channels).map (cc :: ·)
      | _, _ => .error .null

/-- The entry of a key in the loop of `config_load_network_keyfile_group`. -/
def configLoadKey (n : NetworkConfig V) : KeyfileEntry → Except Fault (NetworkConfig V)
  | .everywhere _ _ => .error .null
  | .on network _ _ =>
      if baseEq (some network) n.name then do
        -- the channel and the key of the entry are not looked at
        let channels ← configFindAddChannel n.nick (fun cc => { cc with key := n.password }) n.channels
        pure { n with channels := channels }
      else pure n

/-- A channel that is to be joined. -/
def configLoadAutojoin (n : NetworkConfig V) (name : Str) : Except Fault (NetworkConfig V) := do
  let channels ← configFindAddChannel (some name) (fun cc => { cc with autojoin := true }) n.channels
  pure { n with channels := channels }

/-- `config_load_channel`. -/
def configLoadChannel (kf : KeyFile V) (n : NetworkConfig V) (name : Str) : NetworkConfig V :=
  { n with channels := n.channels ++ [⟨some name, (kf.value name (str "key")).map values.getString,
    ((kf.value name (str "autojoin")).map values.getBoolean).getD false⟩] }

/-! ### Servers -/

/-- A URL of the loop of `config_load_servers`. -/
def configLoadServer (r : List TcpServerConfig × KeyFile V) (url : Str) :
    List TcpServerConfig × KeyFile V :=
  match ircParseUrl url with
  | none => r
  | some (host, port, ssl) =>
      (r.1 ++ [{
          host := host
          port := port
          bindAddress := (r.2.value url (str "bind")).map values.getString
          ssl := ((r.2.value url (str "ssl")).map values.getBoolean).getD ssl
          password := (r.2.value url (str "password")).map values.getString }],
        r.2.removeGroup url)

/-- `config_load_servers`. -/
def configLoadServers (kf : KeyFile V) (groupname : Str) : List TcpServerConfig × KeyFile V :=
  match kf.value groupname (str "servers") with
  | none => ([], kf)
  | some v => (values.getStringList v).foldl (configLoadServer values) ([], kf)

/-! ### Networks of the files -/

/-- The type of a network, and the key file without the groups of its servers. -/
def configLoadType (kf : KeyFile V) (groupname : Str) : NetworkType × KeyFile V :=
  if kf.hasKey groupname (str "program") then
    (.program ((kf.value groupname (str "program")).map values.getString), kf)
  else if kf.hasKey groupname (str "virtual") then
    (.virtual ((kf.value groupname (str "virtual")).map values.getString), kf)
  else
    let (servers, kf') := configLoadServers values kf groupname
    (.tcp ((kf.value groupname (str "bind")).map values.getString) servers, kf')

/-- `config_load_network_keyfile_group`: the network that it fills, and the key file. -/
def configLoadNetworkKeyfileGroup (networkname : Str) (kf : KeyFile V) (groupname : Str)
    (channelKeys : List KeyfileEntry) : Except Fault (NetworkConfig V × KeyFile V) := do
  let get (key : String) := kf.value groupname (str key)
  let (type, kf') := configLoadType values kf groupname
  let n ← channelKeys.foldlM configLoadKey {
    keyfile := .main
    groupname := some groupname
    name := networkname
    nick := (get "nick").map values.getString
    fullname := (get "fullname").map values.getString
    username := (get "username").map values.getString
    password := (get "password").map values.getString
    implicit := false
    autoconnect := false
    ignoreFirstNick := ((get "ignore_first_nick").map values.getBoolean).getD false
    queueSpeed := ((get "queue-speed").map values.getInteger).getD 0
    reconnectInterval := ((get "reconnect-interval").map values.getInteger).getD (-1)
    channels := []
    type := type
    autocmd := (get "autocmd").map values.getStringList }
  let n ← (((kf'.value groupname (str "autojoin")).map values.getStringList).getD []).foldlM
    configLoadAutojoin n
  pure (n, kf')

/-- `network_config_init`, with what its caller makes of the network. -/
def networkConfigInit (cfg : CtrlproxyConfig V) (n : NetworkConfig V) : CtrlproxyConfig V :=
  { cfg with
    networks := cfg.networks ++ [cfg.next]
    heap := cfg.heap.set cfg.next n
    next := cfg.next + 1 }

/-- `config_load_network_file`, of a file that can be parsed. -/
def configLoadNetworkFile (channelKeys : List KeyfileEntry) (cfg : CtrlproxyConfig V) (name : Str)
    (kf : KeyFile V) : Except Fault (CtrlproxyConfig V) := do
  let (n, kf) ← configLoadNetworkKeyfileGroup values name kf (str "global") channelKeys
  let isAlpha (b : Byte) := 97 ≤ b.lower.1 ∧ b.lower.1 ≤ 122
  let channels := kf.groups.filter fun g => ∀ b ∈ g.head?, ¬isAlpha b
  let n := channels.foldl (configLoadChannel values kf) n
  pure (networkConfigInit cfg { n with keyfile := .own kf name })

/-- `IS_SPECIAL_FILE`. -/
def isSpecialFile (name : Str) : Bool :=
  name.head? = some (chr '.') ∨ name.getLast? = some (chr '~')

/-- A file of the directory `networks`. -/
def configLoadDirEntry (channelKeys : List KeyfileEntry) (cfg : CtrlproxyConfig V)
    (file : Str × Option (KeyFile V)) : Except Fault (CtrlproxyConfig V) :=
  if isSpecialFile file.1 then pure cfg
  else match file.2 with
    | none => .error .assertion
    | some kf => configLoadNetworkFile values channelKeys cfg file.1 kf

/-- `!strncasecmp(a, b, strlen(b))`. -/
def hasPrefix (a b : Str) : Bool := baseEqN a b b.length

/-- The groups of the main file that are no networks. -/
def isSettingGroup (group : Str) : Bool :=
  group = str "global" ∨ hasPrefix group (str "irc://") ∨ hasPrefix group (str "ircs://") ∨
    group.head? = some (chr '#') ∨ group.head? = some (chr '&')

/-- A group of the main file. -/
def configLoadGroup (channelKeys : List KeyfileEntry) (cfg : CtrlproxyConfig V) (group : Str) :
    Except Fault (CtrlproxyConfig V) :=
  if isSettingGroup group then pure cfg
  else do
    let (n, kf) ← configLoadNetworkKeyfileGroup values group cfg.keyfile group channelKeys
    pure (networkConfigInit { cfg with keyfile := kf } n)

/-- `config_load_networks`. -/
def configLoadNetworks (files : List (Str × Option (KeyFile V))) (channelKeys : List KeyfileEntry)
    (cfg : CtrlproxyConfig V) : Except Fault (CtrlproxyConfig V) := do
  let cfg ← files.foldlM (configLoadDirEntry values channelKeys) cfg
  cfg.keyfile.groups.foldlM (configLoadGroup values channelKeys) cfg

/-! ### Networks by name -/

/-- The test that a server of `find_create_network_config` is found by. -/
def TcpServerConfig.answers (sc : TcpServerConfig) (name : Str) : Bool :=
  baseEq (some sc.host) name ||
    hasPrefix name sc.host && baseEq (some (ircCreateUrl sc.host sc.port false)) name

/-- Whether `find_create_network_config` finds a network by a name. -/
def NetworkConfig.answers (nc : NetworkConfig V) (name : Str) : Bool :=
  baseEq (some nc.name) name || match nc.type with
    | .tcp _ servers => servers.any (·.answers name)
    | _ => false

/-- A network in the list. -/
def CtrlproxyConfig.network (cfg : CtrlproxyConfig V) (r : Ref) : Except Fault (NetworkConfig V) :=
  match cfg.heap r with
  | some nc => .ok nc
  | none => .error .dangling

/-- The network that `find_create_network_config` makes of a name. -/
def implicitNetwork (name : Str) (server : TcpServerConfig) : NetworkConfig V where
  keyfile := .none
  groupname := none
  name := name
  nick := none
  fullname := none
  username := none
  password := none
  implicit := false
  autoconnect := false
  ignoreFirstNick := false
  queueSpeed := 0
  reconnectInterval := -1
  channels := []
  type := .tcp none [server]
  autocmd := none

/-- `find_create_network_config`.  A name that is no URL frees the configuration, and `NULL` is
returned. -/
def findCreateNetworkConfig (cfg : CtrlproxyConfig V) (name : Str) :
    Except Fault (Option (CtrlproxyConfig V × Ref)) := do
  let found ← findFirst (fun r => (cfg.network r).map (·.answers name)) cfg.networks
  match found with
  | some r => pure (some (cfg, r))
  | none => match ircParseUrl name with
      | none => pure none
      | some (host, port, ssl) =>
          let cfg' := networkConfigInit cfg (implicitNetwork name ⟨host, port, none, ssl, none⟩)
          pure (some ({ cfg' with networks := cfg'.networks ++ [cfg.next] }, cfg.next))

/-- A name of the list `autoconnect`. -/
def configLoadAutoconnect (cfg : CtrlproxyConfig V) (name : Str) :
    Except Fault (CtrlproxyConfig V) := do
  match ← findCreateNetworkConfig cfg name with
  | none => .error .assertion
  | some (cfg, r) =>
      let nc ← cfg.network r
      pure { cfg with heap := cfg.heap.set r { nc with autoconnect := true } }

/-! ### The configuration -/

/-- The main file without the groups and keys that are removed when they are read. -/
def consumeSettings (kf : KeyFile V) : KeyFile V :=
  let kf := if kf.hasKey (str "client") (str "charset") then
      kf.removeKey (str "client") (str "charset")
    else kf.removeKey (str "global") (str "client-charset")
  let kf := kf.removeKey (str "admin") (str "without_privmsg")
  let kf := kf.removeKey (str "admin") (str "log")
  -- `config_load_listeners`
  let kf := match kf.value (str "listener") (str "password") with
    | some v => (kf.setValue (str "global") (str "password") v).removeKey (str "listener") (str "password")
    | none => kf
  let kf := if kf.hasKey (str "global") (str "listener-auto") then kf
    else kf.removeKey (str "listener") (str "auto")
  let kf := if kf.hasKey (str "global") (str "listener-autoport") then kf
    else kf.removeKey (str "listener") (str "autoport")
  -- `config_load_listeners_socks`
  let kf := if kf.hasKey (str "socks") (str "allow") then kf.removeGroup (str "socks") else kf
  -- `config_load_log`, `config_load_auto_away`
  let kf := kf.removeGroup (str "log-custom")
  let kf := if kf.hasGroup (str "log-irssi") ∨
      (kf.value (str "global") (str "logging")).map values.getString = some (str "irssi") then
      kf.removeGroup (str "log-irssi")
    else kf
  kf.removeGroup (str "auto-away")

/-- The networks that the files and groups of a directory are read as. -/
def configuredNetworks (lines : FileLines) (d : ConfigDir V) (kf : KeyFile V) :
    Except Fault (CtrlproxyConfig V) :=
  configLoadNetworks values d.networks ((d.keys.map (keyfileReadFile lines (chr ';'))).getD [])
    ⟨[], Heap.empty, 0, consumeSettings values kf⟩

/-- The names of the setting `autoconnect`. -/
def autoconnectList (kf : KeyFile V) : List Str :=
  ((kf.value (str "global") (str "autoconnect")).map values.getStringList).getD []

/-- `load_configuration`. -/
def loadConfiguration (lines : FileLines) (d : ConfigDir V) :
    Except Fault (Option (CtrlproxyConfig V)) :=
  match d.config with
  | none => .ok none
  | some kf => do
      let cfg ← configuredNetworks values lines d kf
      -- the keys of the group are gone through for unknown ones
      if cfg.keyfile.hasGroup (str "global") then do
        let cfg ← (autoconnectList values cfg.keyfile).foldlM configLoadAutoconnect cfg
        pure (some cfg)
      else .error .null

end

end Ctrlproxy.Config
