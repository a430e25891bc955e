import Ctrlproxy.Lib.Outcome
import Ctrlproxy.Base.Str

/-!
# Connection — connecting to a server

The TCP part of `libirc/connection.c`: connecting, closing, reconnecting and the event sources that
drive them.  The system answers a connection attempt with an `Attempt`.  The main loop keeps the
sources that are registered; an id is not used twice.

Left out: the addresses a socket is bound to, the lines that are sent and received (a write reports
no end of the file, so sending calls nothing back), the login details, how long the timers run, and
what the callbacks of the network do with queries, linestack and clients.
-/

namespace Ctrlproxy.Connection
open Outcome

/-- `enum irc_network_connection_state`. -/
inductive ConnectionState where
  | notConnected
  | reconnectPending
  | connecting
  | connected
  | loginSent
  | motdRecvd
  deriving DecidableEq, Repr

/-- `struct tcp_server_config`. -/
structure TcpServerConfig where
  host : Str
  port : Str
  ssl : Bool
  deriving DecidableEq

/-- What `socket` and `connect` answer for an address. -/
inductive Dial where
  | noSocket
  | refused
  | inProgress
  | connected
  deriving DecidableEq, Repr

/-- The conditions a connect watch is called with. -/
structure Condition where
  err : Bool
  out : Bool
  hup : Bool
  sockError : Str

/-- What the system answers while a server is connected to. -/
structure Attempt where
  /-- `getaddrinfo`, and what each address is answered with -/
  addresses : Option (List (Str × Dial))
  /-- `getsockname` -/
  localName : Str
  /-- whether `ssl_wrap_iochannel` returns a channel -/
  sslWraps : Bool
  /-- whether the encoding and the flags of the channel can be set -/
  channelSets : Bool

/-- The connection of a `struct irc_network` to a TCP server, and the sources of the main loop that
belong to it. -/
structure Network where
  servers : List TcpServerConfig
  autoconnect : Bool
  state : ConnectionState
  /-- the position of `current_server` in `servers` -/
  currentServer : Option ℕ
  remoteName : Option Str
  localName : Option Str
  lastDisconnectReason : Option Str
  reconnectId : ℕ
  connectId : ℕ
  pingId : ℕ
  /-- whether `transport` is not `NULL` -/
  transport : Bool
  /-- whether `external_state` is not `NULL` -/
  externalState : Bool
  /-- the timers that call `delayed_connect_server` -/
  reconnects : List ℕ
  /-- the watches that call `server_finish_connect` -/
  connects : List ℕ
  /-- the timers that call `ping_server` -/
  pings : List ℕ
  /-- the id of the next source -/
  nextId : ℕ

def MIN_SILENT_TIME : ℤ := 60

def MAX_SILENT_TIME : ℤ := 2 * MIN_SILENT_TIME

namespace Network

/-- `irc_network_new`. -/
def ircNetworkNew (servers : List TcpServerConfig) (autoconnect : Bool) : Network where
  servers := servers
  autoconnect := autoconnect
  state := .notConnected
  currentServer := none
  remoteName := none
  localName := none
  lastDisconnectReason := none
  reconnectId := 0
  connectId := 0
  pingId := 0
  transport := false
  externalState := false
  reconnects := []
  connects := []
  pings := []
  nextId := 1

/-- `network_report_disconnect`. -/
def networkReportDisconnect (s : Network) (reason : Str) : Network :=
  { s with lastDisconnectReason := some reason }

/-- `network_get_next_tcp_server`. -/
def networkGetNextTcpServer (s : Network) : Option ℕ :=
  let first := if s.servers.length = 0 then none else some 0
  match s.currentServer with
  | none => first
  | some i => if i + 1 < s.servers.length then some (i + 1) else first

/-- `free_tcp_names`. -/
def freeTcpNames (s : Network) : Network := { s with localName := none, remoteName := none }

/-- `close_server`. -/
def closeServer (s : Network) : Except Fault (Bool × Network) :=
  let s :=
    if s.state = .reconnectPending then
      { s with
        reconnects := s.reconnects.erase s.reconnectId, reconnectId := 0, state := .notConnected }
    else s
  let s :=
    if s.state = .connecting then
      { s with
        connects := s.connects.erase s.connectId, connectId := 0, state := .notConnected }.freeTcpNames
    else s
  if s.state = .notConnected then .ok (false, s)
  else
    let s := { s with externalState := false }
    -- `irc_transport_disconnect` reads the transport
    if s.transport then
      let s := if 0 < s.pingId then { s with pings := s.pings.erase s.pingId, pingId := 0 } else s
      .ok (true, { s.freeTcpNames with transport := false, state := .notConnected })
    else .error .null

/-- `reconnect`. -/
def reconnect (s : Network) : Except Fault Network :=
  if s.state = .reconnectPending then .error .assertion
  else do
    let (_, s) ← s.closeServer
    let s := { s with currentServer := s.networkGetNextTcpServer }
    pure { s with
      state := .reconnectPending
      reconnectId := s.nextId
      reconnects := s.reconnects ++ [s.nextId]
      nextId := s.nextId + 1 }

/-- `server_send_login`. -/
def serverSendLogin (s : Network) : Network := { s with state := .loginSent, externalState := true }

/-- `network_set_iochannel`. -/
def networkSetIochannel (s : Network) (a : Attempt) : Bool × Network :=
  if a.channelSets then (true, { s with transport := true }.serverSendLogin) else (false, s)

/-- `server_finish_connect`. -/
def serverFinishConnect (s : Network) (cond : Condition) (a : Attempt) : Except Fault Network :=
  if cond.err then (s.networkReportDisconnect (str "Error connecting: " ++ cond.sockError)).reconnect
  else if cond.out then
    let (set, s) := { s with state := .connected, connectId := 0 }.networkSetIochannel a
    if set then
      .ok { s with pingId := s.nextId, pings := s.pings ++ [s.nextId], nextId := s.nextId + 1 }
    else .ok s
  else if cond.hup then (s.networkReportDisconnect (str "Server closed connection")).reconnect
  else .ok s

/-- The loop of `connect_current_tcp_server` over the addresses: the one that is connected to, and
whether the connection is there already. -/
def dial : List (Str × Dial) → Option (Str × Bool)
  | [] => none
  | (_, .noSocket) :: rest => dial rest
  | (_, .refused) :: rest => dial rest
  | (addr, .inProgress) :: _ => some (addr, false)
  | (addr, .connected) :: _ => some (addr, true)

/-- `s->connection.data.tcp.current_server`, which is looked for when there is none. -/
def pickServer (s : Network) : Network :=
  match s.currentServer with
  | none => { s with currentServer := s.networkGetNextTcpServer }
  | some _ => s

/-- `current_server` as a server of the list. -/
def current (s : Network) : Option TcpServerConfig := s.currentServer.bind (s.servers[·]?)

/-- `connect_current_tcp_server`, once an address is connected to. -/
def connectOpened (s : Network) (cs : TcpServerConfig) (a : Attempt) (addr : Str) (finished : Bool) :
    Except Fault (Bool × Network) :=
  let s := { s with remoteName := some addr, localName := some a.localName }
  if cs.ssl ∧ a.sslWraps = false then do
    let s ← (s.networkReportDisconnect
      (str "Couldn't connect via server " ++ cs.host ++ str ":" ++ cs.port)).reconnect
    pure (false, s)
  else
    let s := { s with state := .connecting }
    if finished then do
      let s ← s.serverFinishConnect ⟨false, true, false, []⟩ a
      pure (true, s)
    else
      .ok (true, { s with
        connectId := s.nextId, connects := s.connects ++ [s.nextId], nextId := s.nextId + 1 })

/-- `connect_current_tcp_server`. -/
def connectCurrentTcpServer (s : Network) (a : Attempt) : Except Fault (Bool × Network) :=
  let s := s.pickServer
  match s.current, a.addresses with
  | none, _ => .ok (false, { s with autoconnect := false })
  | some _, none => .ok (false, s)
  | some cs, some addresses =>
      if s.localName ≠ none ∨ s.remoteName ≠ none then .error .assertion
      else
        match dial addresses with
        | none => .ok (false, s)
        | some (addr, finished) => s.connectOpened cs a addr finished

/-- `connect_network`. -/
def connectNetwork (s : Network) (a : Attempt) : Except Fault (Bool × Network) :=
  if s.state = .notConnected ∨ s.state = .reconnectPending then s.connectCurrentTcpServer a
  else .error .assertion

/-- `delayed_connect_server`. -/
def delayedConnectServer (s : Network) (a : Attempt) : Except Fault (Bool × Network) := do
  let (_, s) ← s.connectCurrentTcpServer a
  pure (s.state = .reconnectPending, s)

/-- `disconnect_network`. -/
def disconnectNetwork (s : Network) : Except Fault (Bool × Network) :=
  if s.state = .notConnected then .ok (false, s) else s.closeServer

/-- `irc_network_select_next_server`. -/
def ircNetworkSelectNextServer (s : Network) : Network :=
  { s with currentServer := s.networkGetNextTcpServer }

/-- `on_transport_hup`. -/
def onTransportHup (s : Network) : Except Fault Network :=
  (s.networkReportDisconnect (str "Hangup from server, scheduling reconnect")).reconnect

/-- `on_transport_error`. -/
def onTransportError (s : Network) (message : Str) : Except Fault Network :=
  (s.networkReportDisconnect
    (str "Error from server: " ++ message ++ str ", scheduling reconnect")).reconnect

/-- `ping_server`, after some seconds without a line. -/
def pingServer (s : Network) (silentTime : ℤ) : Except Fault Network :=
  if MAX_SILENT_TIME < silentTime then
    (s.networkReportDisconnect
      (str "Ping timeout (" ++ decimalInt silentTime ++ str " seconds)")).reconnect
  else .ok s

/-- `process_from_server` for the end of the message of the day. -/
def processEndOfMotd (s : Network) : Network :=
  if s.externalState then { s with state := .motdRecvd } else s

end Network

end Ctrlproxy.Connection
