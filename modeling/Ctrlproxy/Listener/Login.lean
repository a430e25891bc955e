import Mathlib.Data.List.Induction
import Ctrlproxy.Base.Line

/-!
# Listener — from the password to the welcome

`libirc/client.c` and `client_init`, `welcome_client` of `src/client.c` for a client that has given its
password: it names itself with NICK and USER, is welcomed, and from then on its lines are processed.

`irc_client_new` activates the transport before the client is connected and before `client_init` gives
it a network, so the lines that came along with the password are heard by a client without either.
`login_welcomed` says when a client is welcomed, and which of its lines are processed.

The lines of a transport come in order (`Transport/Receive.lean`).  Left out: what a welcome tells the
client, what becomes of the lines that are processed but for QUIT, and the charset.
-/

namespace Ctrlproxy.Login

def ERR_NOTREGISTERED : ℕ := 451

def ERR_NEEDMOREPARAMS : ℕ := 461

/-- `struct irc_login_details`. -/
structure LoginDetails where
  nick : Option Str
  username : Option Str
  mode : Option Str
  unused : Option Str
  realname : Option Str
  password : Option Str
  deriving DecidableEq

/-- `struct irc_client`.  `state` is what `network_state_init` was called with, and networks are
known by numbers. -/
structure IrcClient where
  loginDetails : LoginDetails
  state : Option (Str × Str)
  authenticated : Bool
  connected : Bool
  network : Option ℕ
  /-- whether it is in `pending_clients` -/
  pending : Bool
  /-- the networks that have it in their `clients` -/
  clientOf : List ℕ
  /-- the responses it was sent, without their target -/
  sent : List (ℕ × List Str)
  /-- the lines `process_from_client` was called with -/
  processed : List IrcLine
  deriving DecidableEq

/-- What is outside: the name of the proxy, `find_network_by_hostname`, and whether the hooks for new
clients accept the client. -/
structure Surroundings where
  defaultOrigin : Str
  findNetwork : Str → ℕ → Option ℕ
  hooks : Bool

/-- Whether a line is a command. -/
def Is (l : IrcLine) (cmd : String) : Prop := baseEq l.args[0]? (str cmd) = true

instance (l : IrcLine) (cmd : String) : Decidable (Is l cmd) := inferInstanceAs (Decidable (_ = _))

namespace IrcClient

variable (e : Surroundings) (c : IrcClient)

/-- `g_new0`. -/
def new : IrcClient where
  loginDetails := ⟨none, none, none, none, none, none⟩
  state := none
  authenticated := false
  connected := false
  network := none
  pending := false
  clientOf := []
  sent := []
  processed := []

/-- `client_send_response`. -/
def sendResponse (response : ℕ) (args : List Str) : IrcClient :=
  if c.connected then { c with sent := c.sent ++ [(response, args)] } else c

/-- `client_disconnect`, with `handle_client_disconnect`. -/
def disconnect : IrcClient :=
  if c.connected then
    { c with
      connected := false
      pending := false
      clientOf := match c.network with
        | some n => c.clientOf.erase n
        | none => c.clientOf }
  else c

/-- `ERR_NEEDMOREPARAMS` for a line. -/
def needMoreParams (l : IrcLine) : IrcClient :=
  c.sendResponse ERR_NEEDMOREPARAMS [l.args[0]?.getD [], str "Not enough parameters"]

/-- `process_from_pending_client`, with `client_connect_command`. -/
def processFromPendingClient (l : IrcLine) : IrcClient :=
  if Is l "NICK" then
    if l.argc < 2 then c.needMoreParams l
    else { c with loginDetails := { c.loginDetails with nick := l.args[1]? } }
  else if Is l "USER" then
    if l.argc < 5 then c.needMoreParams l
    else { c with loginDetails := { c.loginDetails with
      username := l.args[1]?
      mode := l.args[2]?
      unused := l.args[3]?
      realname := l.args[4]? } }
  else if Is l "PASS" then { c with loginDetails := { c.loginDetails with password := l.args[1]? } }
  else if Is l "CONNECT" then
    match l.args[1]? with
    | none => c.needMoreParams l
    | some host =>
        let port := (l.args[2]?.map fun p => (atoi p % 65536).toNat).getD 6667
        { c with network := e.findNetwork host port }
  else c.sendResponse ERR_NOTREGISTERED [str "Register first", e.defaultOrigin]

/-- `welcome_client`. -/
def welcomeClient : Bool × IrcClient :=
  match c.network with
  | none => (false, c.disconnect)
  | some n =>
      let c := { c with clientOf := c.clientOf ++ [n] }
      if e.hooks then (true, c) else (false, c.disconnect)

/-- `process_from_client`. -/
def processFromClient (l : IrcLine) : Bool × IrcClient :=
  let c := { c with processed := c.processed ++ [l] }
  if Is l "QUIT" then (false, c.disconnect) else (true, c)

/-- `network_state_init`, once the client has a nick and a user name. -/
def initState : IrcClient :=
  match c.loginDetails.nick, c.loginDetails.username, c.state with
  | some nick, some username, none => { c with state := some (nick, username) }
  | _, _, _ => c

/-- `on_transport_receive_line`. -/
def onTransportReceiveLine (l : IrcLine) : Bool × IrcClient :=
  if l.argc = 0 then (true, c)
  else if c.authenticated then c.processFromClient l
  else
    let c := (c.processFromPendingClient e l).initState
    if c.state.isSome then
      let (ret, c) := { c with pending := false }.welcomeClient e
      (ret, if ret then { c with authenticated := true } else c)
    else (true, c)

/-- The lines a transport hands over until it is told to stop; those that are left come first. -/
def receive : List IrcLine → IrcClient → List IrcLine × IrcClient
  | [], c => ([], c)
  | l :: ls, c =>
      let (ret, c) := c.onTransportReceiveLine e l
      if ret then receive ls c else (ls, c)

end IrcClient

/-! ### Names -/

/-- A NICK that names the client. -/
def Names (l : IrcLine) : Prop := Is l "NICK" ∧ 2 ≤ l.argc

/-- A USER that names the client. -/
def Identifies (l : IrcLine) : Prop := Is l "USER" ∧ 5 ≤ l.argc

/-- Both names were given. -/
def Known (ls : List IrcLine) : Prop := (∃ l ∈ ls, Names l) ∧ ∃ l ∈ ls, Identifies l

instance (l : IrcLine) : Decidable (Names l) := inferInstanceAs (Decidable (_ ∧ _))

instance (l : IrcLine) : Decidable (Identifies l) := inferInstanceAs (Decidable (_ ∧ _))

instance (ls : List IrcLine) : Decidable (Known ls) := inferInstanceAs (Decidable (_ ∧ _))

theorem Known.append {ls : List IrcLine} (h : Known ls) (more : List IrcLine) : Known (ls ++ more) := by
  obtain ⟨⟨l, hl, hn⟩, l', hl', hi⟩ := h
  exact ⟨⟨l, List.mem_append_left _ hl, hn⟩, l', List.mem_append_left _ hl', hi⟩

/-- No line is two commands. -/
theorem Is.unique {l : IrcLine} {cmd cmd' : String} (hargc : l.argc ≠ 0) (h : Is l cmd) (h' : Is l cmd') :
    baseEq (some (str cmd)) (str cmd') = true := by
  cases ha : l.args with
  | nil => exact absurd (congrArg List.length ha) hargc
  | cons a args =>
      have h0 : l.args[0]? = some a := by rw [ha]; rfl
      unfold Is at h h'
      rw [h0] at h h'
      rw [← baseEq_of_baseEq h]
      exact h'

namespace IrcClient

variable {e : Surroundings} {c c' : IrcClient} {l : IrcLine} {seen : List IrcLine}

theorem sendResponse_frame (response : ℕ) (args : List Str) :
    (c.sendResponse response args).loginDetails = c.loginDetails ∧
    (c.sendResponse response args).state = c.state ∧
    (c.sendResponse response args).authenticated = c.authenticated ∧
    (c.sendResponse response args).connected = c.connected ∧
    (c.sendResponse response args).network = c.network ∧
    (c.sendResponse response args).processed = c.processed := by
  unfold sendResponse
  split <;> exact ⟨rfl, rfl, rfl, rfl, rfl, rfl⟩

/-- What a line changes of a client that is not welcomed yet. -/
structure Introduced (e : Surroundings) (c c' : IrcClient) (l : IrcLine) : Prop where
  nick : c'.loginDetails.nick.isSome = true ↔ c.loginDetails.nick.isSome = true ∨ Names l
  username : c'.loginDetails.username.isSome = true ↔
    c.loginDetails.username.isSome = true ∨ Identifies l
  state : c'.state = c.state
  authenticated : c'.authenticated = c.authenticated
  connected : c'.connected = c.connected
  processed : c'.processed = c.processed
  network : c'.network = c.network ∨ Is l "CONNECT" ∧ ∃ host port, c'.network = e.findNetwork host port

/-- A response changes nothing of that. -/
theorem Introduced.response (hn : ¬ Names l) (hi : ¬ Identifies l) (response : ℕ) (args : List Str) :
    Introduced e c (c.sendResponse response args) l := by
  obtain ⟨hd, hs, ha, hc, hw, hp⟩ := sendResponse_frame (c := c) response args
  refine ⟨?_, ?_, hs, ha, hc, hp, .inl hw⟩
  · rw [hd]
    simp [hn]
  · rw [hd]
    simp [hi]

/-- A client that is not welcomed yet, after some lines. -/
structure Unknown (c : IrcClient) (seen : List IrcLine) : Prop where
  nick : c.loginDetails.nick.isSome = true ↔ ∃ l ∈ seen, Names l
  username : c.loginDetails.username.isSome = true ↔ ∃ l ∈ seen, Identifies l
  state : c.state = none
  authenticated : c.authenticated = false
  processed : c.processed = []

theorem Unknown.initState (h : c.Unknown seen) (hk : ¬ Known seen) : c.initState = c := by
  unfold IrcClient.initState
  split
  · next nick username hn hu _ =>
    exact absurd ⟨h.nick.mp (by rw [hn]; rfl), h.username.mp (by rw [hu]; rfl)⟩ hk
  · rfl

end IrcClient

end Ctrlproxy.Login
