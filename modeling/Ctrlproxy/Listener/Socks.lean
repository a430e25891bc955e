import Ctrlproxy.Base.Str
import Ctrlproxy.Lib.File
import Ctrlproxy.Transport.Iochannel

/-!
# Listener — clients that speak SOCKS

The SOCKS part of `libirc/listener.c`: a pending client, and what `handle_client_receive` does with
the bytes it has sent so far.

`g_io_channel_read_chars` takes what there is, up to the count it is asked for: it returns less
than the count when less was delivered, and only when nothing was it returns another status than
`NORMAL`.  A `gchar` is signed, and is turned into a huge `gsize` when it is negative.  A local
array holds anything before it is written to.

The callbacks of the listener are outside: `history` is what they were called with.  Left out: what
happens to a client that does not begin with the SOCKS version, the log, and the tokens of GSSAPI.
-/

namespace Ctrlproxy.Listener
open Outcome
open Transport (GIOStatus)

def SOCKS_VERSION : Octet := 0x05

def SOCKS_METHOD_NOACCEPTABLE : Octet := 0xFF

def ATYP_IPV4 : Octet := 0x01

def ATYP_FQDN : Octet := 0x03

def ATYP_IPV6 : Octet := 0x04

def CMD_CONNECT : Octet := 0x01

def REP_OK : Octet := 0x00

def REP_GENERAL_FAILURE : Octet := 0x01

def REP_CMD_NOT_SUPPORTED : Octet := 0x07

def REP_ATYP_NOT_SUPPORTED : Octet := 0x08

/-- `enum client_type`. -/
inductive ClientType where
  | unknown
  | regular
  | socks
  deriving DecidableEq, Repr

/-- `enum socks_state`; `SOCKS_UNKNOWN` is `unknown`. -/
inductive SocksState where
  | unknown
  | new
  | auth
  | normal
  deriving DecidableEq, Repr

/-- The rows of `socks_methods`. -/
inductive SocksMethod where
  | noauth
  | gssapi
  | usernamePw
  deriving DecidableEq, Repr

def SocksMethod.id : SocksMethod → Octet
  | .noauth => 0x00
  | .gssapi => 0x01
  | .usernamePw => 0x02

/-- Whether `handle_data` is not `NULL`. -/
def SocksMethod.handlesData : SocksMethod → Bool
  | .noauth => false
  | .gssapi => true
  | .usernamePw => true

/-- What the callbacks of a listener are called with; `verdict` is `on_known`, called for the
credentials `socks_auth_simple` was called with. -/
inductive Callback where
  | auth (username password : List Octet)
  | verdict (username password : List Octet) (accepted : Bool)
  | connectIpv4
  | connectIpv6
  | connectFqdn (hostname : List Octet) (port : ℕ)
  deriving DecidableEq

/-- The listener: how it was built, and which of its callbacks are not `NULL`. -/
structure IrcListener where
  haveGssapi : Bool
  connectIpv4 : Bool
  connectIpv6 : Bool
  connectFqdn : Bool

/-- What bytes are read into. -/
inductive Buffer where
  | header
  | methods
  | uname
  | pass
  | hostname
  | token
  deriving DecidableEq, Repr

/-- The arrays of 256 bytes. -/
def Buffer.isField : Buffer → Bool
  | .header => false
  | .methods => true
  | .uname => true
  | .pass => true
  | .hostname => true
  | .token => false

/-- `struct pending_client`, with the bytes that were delivered: those still to be read and those
that were read. -/
structure PendingClient where
  type : ClientType
  method : Option SocksMethod
  state : SocksState
  unread : List Octet
  consumed : List Octet
  /-- the reads, and how many bytes were asked for -/
  requests : List (Buffer × ℕ)
  sent : List Octet
  history : List Callback
  /-- whether `kill_pending_client` was called -/
  killed : Bool
  deriving DecidableEq

/-- What the system and the callbacks answer while bytes are handled. -/
structure Answers where
  /-- the status of a read when there is nothing to read -/
  noData : {status : GIOStatus // status ≠ .normal}
  /-- what each array holds before it is written to -/
  junk : Buffer → ℕ → Octet
  /-- whether a write is `NORMAL` -/
  writes : Bool
  /-- what `socks_auth_simple` reports before it returns, if it does -/
  verdict : Option Bool
  /-- `gssapi_acceptable` -/
  gssAcceptable : Bool
  /-- whether GSSAPI and `socks_gssapi` accept a token, and the reply is written -/
  gssAccepts : Bool
  /-- what the callback for a connection returns -/
  connects : Bool

/-- An array of `n` bytes. -/
def Answers.array (a : Answers) (b : Buffer) (n : ℕ) : List Octet := (List.range n).map (a.junk b)

/-- A byte of an array. -/
def byteAt (buf : List Octet) (i : ℕ) : Octet := buf.getD i 0

/-- A `gchar` as a `gsize`. -/
def gsize (b : Octet) : ℕ := if b.val < 128 then b.val else 2 ^ 64 - 256 + b.val

/-- A `gchar` as a `gint`. -/
def gint (b : Octet) : ℤ := if b.val < 128 then b.val else (b.val : ℤ) - 256

/-- The string an array holds. -/
def cString (buf : List Octet) : List Octet := buf.takeWhile (· ≠ 0)

/-- `ntohs` of the first two bytes of an array. -/
def ntohs (buf : List Octet) : ℕ := 256 * (byteAt buf 0).val + (byteAt buf 1).val

namespace PendingClient

variable (cl : PendingClient) (a : Answers)

/-- `listener_new_pending_client`. -/
def listenerNewPendingClient : PendingClient where
  type := .unknown
  method := none
  state := .unknown
  unread := []
  consumed := []
  requests := []
  sent := []
  history := []
  killed := false

/-- `g_io_channel_read_chars` into an array. -/
def readChars (b : Buffer) (buf : List Octet) (count : ℕ) :
    Except Fault (GIOStatus × List Octet × PendingClient) :=
  let cl := { cl with requests := cl.requests ++ [(b, count)] }
  if count = 0 then .ok (.normal, buf, cl)
  else if cl.unread = [] then .ok (a.noData, buf, cl)
  else
    let got := cl.unread.take count
    if buf.length < got.length then .error .overflow
    else .ok (.normal, got ++ buf.drop got.length,
      { cl with unread := cl.unread.drop count, consumed := cl.consumed ++ got })

/-- `listener_socks_reply`. -/
def listenerSocksReply (err atyp : Octet) (data : List Octet) (port : ℕ) : Bool × PendingClient :=
  if a.writes then
    (err = REP_OK, { cl with
      sent := cl.sent ++ [SOCKS_VERSION, err, 0, atyp] ++ data ++
        [Fin.ofNat 256 (port / 256), Fin.ofNat 256 port] })
  else (false, cl)

/-- `listener_socks_error`. -/
def listenerSocksError (err : Octet) : Bool × PendingClient :=
  cl.listenerSocksReply a err ATYP_FQDN [0] 0

/-- `on_socks_pass_accepted`. -/
def onSocksPassAccepted (writes : Bool) (username password : List Octet) (accepted : Bool) :
    Bool × PendingClient :=
  let cl := { cl with history := cl.history ++ [.verdict username password accepted] }
  if writes then
    let cl := { cl with sent := cl.sent ++ [0x1, if accepted then 0x0 else 0x1] }
    if accepted then (true, { cl with state := .normal }) else (false, cl)
  else (false, cl)

/-- The end of `pass_handle_data`: `socks_auth_simple` is called. -/
def socksAuthSimple (username password : List Octet) : PendingClient :=
  let cl := { cl with history := cl.history ++ [.auth username password] }
  match a.verdict with
  | none => cl
  | some accepted => (cl.onSocksPassAccepted a.writes username password accepted).2

/-- `pass_handle_data`. -/
def passHandleData : Except Fault (Bool × PendingClient) := do
  let (status, header, cl) ← cl.readChars a .header (a.array .header 2) 2
  if status ≠ .normal then pure (false, cl)
  else if byteAt header 0 ≠ SOCKS_VERSION ∧ byteAt header 0 ≠ 0x1 then
    pure (cl.listenerSocksError a REP_GENERAL_FAILURE)
  else do
    let (status, uname, cl) ← cl.readChars a .uname (a.array .uname 0x100) (gsize (byteAt header 1))
    if status ≠ .normal then pure (false, cl)
    else do
      let uname := uname.set (byteAt header 1).val 0
      let (status, header, cl) ← cl.readChars a .header header 1
      if status ≠ .normal then pure (false, cl)
      else do
        let (status, pass, cl) ← cl.readChars a .pass (a.array .pass 0x100) (gsize (byteAt header 0))
        if status ≠ .normal then pure (false, cl)
        else
          let pass := pass.set (byteAt header 0).val 0
          pure (true, cl.socksAuthSimple a (cString uname) (cString pass))

/-- `gssapi_handle_data`. -/
def gssapiHandleData : Except Fault (Bool × PendingClient) := do
  let (status, header, cl) ← cl.readChars a .header (a.array .header 4) 4
  if status ≠ .normal ∨ byteAt header 0 ≠ 1 ∨ byteAt header 1 ≠ 1 then pure (false, cl)
  else do
    let len := ntohs (header.drop 2)
    -- `g_try_malloc` of nothing is `NULL`
    if len = 0 then pure (false, cl)
    else do
      let (status, _, cl) ← cl.readChars a .token (a.array .token len) len
      pure (status = .normal ∧ a.gssAccepts, cl)

/-- `socks_methods`. -/
def socksMethods (l : IrcListener) : List SocksMethod :=
  if l.haveGssapi then [.noauth, .gssapi, .usernamePw] else [.noauth, .usernamePw]

/-- `acceptable` of a row. -/
def acceptable : SocksMethod → Bool
  | .noauth => false
  | .gssapi => a.gssAcceptable
  | .usernamePw => true

/-- The loop over the methods a client offers: a later one replaces an earlier one. -/
def chooseMethod (l : IrcListener) (methods : List Octet) : Option SocksMethod :=
  methods.foldl (fun chosen b =>
    match (socksMethods l).find? fun m => m.id = b ∧ acceptable a m with
    | some m => some m
    | none => chosen) none

/-- `handle_client_socks_data` in `SOCKS_STATE_NEW`. -/
def handleMethods (l : IrcListener) : Except Fault (Bool × PendingClient) := do
  let (status, header, cl) ← cl.readChars a .header (a.array .header 2) 1
  if status ≠ .normal then pure (false, cl)
  else do
    let (status, methods, cl) ← cl.readChars a .methods (a.array .methods 0x100) (gsize (byteAt header 0))
    if status ≠ .normal then pure (false, { cl with method := none })
    else
      let method := chooseMethod a l (methods.take (gint (byteAt header 0)).toNat)
      let cl := { cl with method := method }
      if a.writes then
        let cl := { cl with
          sent := cl.sent ++ [SOCKS_VERSION, (method.map SocksMethod.id).getD SOCKS_METHOD_NOACCEPTABLE] }
        match method with
        | none => pure (false, cl)
        | some m => pure (true, { cl with state := if m.handlesData then .auth else .normal })
      else pure (false, cl)

/-- `handle_client_socks_data` in `SOCKS_STATE_NORMAL`, for a host name. -/
def handleFqdn (l : IrcListener) (header : List Octet) : Except Fault (Bool × PendingClient) := do
  -- the statuses of these reads are not looked at
  let (_, header, cl) ← cl.readChars a .header header 1
  let (_, hostname, cl) ← cl.readChars a .hostname (a.array .hostname 0x100) (gsize (byteAt header 0))
  let hostname := hostname.set (byteAt header 0).val 0
  let (_, header, cl) ← cl.readChars a .header header 2
  if l.connectFqdn then
    pure (a.connects, { cl with
      history := cl.history ++ [.connectFqdn (cString hostname) (ntohs header)] })
  else pure (cl.listenerSocksError a REP_ATYP_NOT_SUPPORTED)

/-- `handle_client_socks_data` in `SOCKS_STATE_NORMAL`. -/
def handleConnect (l : IrcListener) : Except Fault (Bool × PendingClient) := do
  let (status, header, cl) ← cl.readChars a .header (a.array .header 4) 4
  if status ≠ .normal then pure (false, cl)
  else if byteAt header 0 ≠ SOCKS_VERSION then pure (cl.listenerSocksError a REP_GENERAL_FAILURE)
  else if byteAt header 1 ≠ CMD_CONNECT then pure (cl.listenerSocksError a REP_CMD_NOT_SUPPORTED)
  else if byteAt header 3 = ATYP_IPV4 then
    if l.connectIpv4 then pure (a.connects, { cl with history := cl.history ++ [.connectIpv4] })
    else pure (cl.listenerSocksError a REP_ATYP_NOT_SUPPORTED)
  else if byteAt header 3 = ATYP_IPV6 then
    if l.connectIpv6 then pure (a.connects, { cl with history := cl.history ++ [.connectIpv6] })
    else pure (cl.listenerSocksError a REP_ATYP_NOT_SUPPORTED)
  else if byteAt header 3 = ATYP_FQDN then cl.handleFqdn a l header
  else pure (cl.listenerSocksError a REP_ATYP_NOT_SUPPORTED)

/-- `handle_client_socks_data`. -/
def handleClientSocksData (l : IrcListener) : Except Fault (Bool × PendingClient) :=
  match cl.state with
  | .unknown => .ok (true, cl)
  | .new => cl.handleMethods a l
  | .auth =>
      match cl.method with
      | some .usernamePw => cl.passHandleData a
      | some .gssapi => cl.gssapiHandleData a
      | _ => .error .null
  | .normal => cl.handleConnect a l

/-- `handle_client_detect`. -/
def handleClientDetect : Except Fault (Bool × PendingClient) := do
  let (status, header, cl) ← cl.readChars a .header (a.array .header 2) 1
  if status ≠ .normal ∧ status ≠ .again then pure (false, cl)
  else if byteAt header 0 = SOCKS_VERSION then
    pure (true, { cl with type := .socks, state := .new })
  else pure (true, { cl with type := .regular })

/-- `handle_client_receive` when there is something to read. -/
def handleClientReceive (l : IrcListener) : Except Fault PendingClient :=
  match cl.type with
  | .unknown => do
      let (ret, cl) ← cl.handleClientDetect a
      pure (if ret then cl else { cl with killed := true })
  | .regular => .ok cl
  | .socks => do
      let (ret, cl) ← cl.handleClientSocksData a l
      pure (if ret then cl else { cl with killed := true })

end PendingClient

/-! ### Runs -/

/-- What happens to a pending client. -/
inductive Event where
  | deliver (bytes : List Octet)
  | receive (a : Answers)
  | known (username password : List Octet) (accepted writes : Bool)
  | hangup

namespace PendingClient

def step (l : IrcListener) (cl : PendingClient) : Event → Except Fault PendingClient
  | .deliver bytes => .ok { cl with unread := cl.unread ++ bytes }
  | .receive a => cl.handleClientReceive a l
  | .known username password accepted writes =>
      .ok (cl.onSocksPassAccepted writes username password accepted).2
  | .hangup => .ok { cl with killed := true }

/-- A client is handled until it is killed or turns out not to speak SOCKS, and `on_known` is
called for credentials `socks_auth_simple` was called with. -/
def Admits (cl : PendingClient) (e : Event) : Prop :=
  cl.killed = false ∧ cl.type ≠ .regular ∧
    match e with
    | .known username password _ _ => .auth username password ∈ cl.history
    | _ => True

end PendingClient

end Ctrlproxy.Listener
