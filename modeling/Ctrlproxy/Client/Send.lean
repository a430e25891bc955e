import Ctrlproxy.State.Handlers

/-!
# Client — sending lines

The senders of `libirc/client.c` that everything a client is told goes through.  A line is handed
to `state_handle_data` for `c->state` before it is handed to the transport, which takes every line:
what becomes of it there is `Transport`.  `now` is what `time(NULL)` returns during the call.

Left out: the fields of `struct irc_client` no sender reads, and `process_to_client`, which writes a
log and whose result is ignored.
-/

namespace Ctrlproxy
open Outcome

/-- `struct irc_client`.  `sent` holds the lines the transport was given, oldest first, each with the
time of the call. -/
structure Client where
  connected : Bool
  defaultOrigin : Option Str
  state : Option NetworkState
  sent : List Input

namespace Client

/-- A connected client whose state was just set up, as `on_transport_receive_line` does once the
nick and the user name are known. -/
def welcomed (defaultOrigin : Option Str) (nick username hostname : Str) : Client where
  connected := true
  defaultOrigin := defaultOrigin
  state := some (networkStateInit nick username hostname)
  sent := []

end Client

/-! ### Lines from argument lists -/

/-- The strings of an argument list up to the first `NULL`. -/
def vaList : List (Option Str) → List Str
  | some a :: ap => a :: vaList ap
  | _ => []

/-- `virc_parse_line`. -/
def vircParseLine (hostmask : Option Str) (ap : List (Option Str)) : IrcLine :=
  ⟨hostmask, vaList ap, .colonUnknown⟩

/-- `"%03d"` of a response. -/
def responseStr (response : ℕ) : Str :=
  List.replicate (3 - (decimal response).length) (chr '0') ++ decimal response

/-- `virc_parse_response`. -/
def vircParseResponse (src : Option Str) (target : Str) (response : ℕ) (ap : List (Option Str)) :
    IrcLine :=
  ⟨src, responseStr response :: target :: vaList ap, .colonUnknown⟩

/-! ### Sending -/

/-- What `handle_302` makes of the line it is given: it strips the second argument in place. -/
def strippedLine (l : IrcLine) : IrcLine :=
  if commandOf l = some .c302 then { l with args := l.args.modify 2 gStrstrip } else l

/-- `client_send_line`. -/
def clientSendLine (now : Long) (c : Client) (l : IrcLine) : Except Fault (Bool × Client) :=
  if c.connected = false then .ok (false, c)
  else match c.state with
    | none => .ok (true, { c with sent := c.sent ++ [(now, l)] })
    | some s => do
        let (_, s) ← stateHandleData now s l
        pure (true, { c with state := some s, sent := c.sent ++ [(now, strippedLine l)] })

/-- `client_get_own_hostmask`. -/
def clientGetOwnHostmask (c : Client) : Except Fault (Option Str) :=
  match c.state with
  | none => .ok none
  | some s => do
      let me ← s.nick meRef
      pure me.hostmask

/-- `client_get_default_target`. -/
def clientGetDefaultTarget (c : Client) : Except Fault Str :=
  match c.state with
  | none => .ok (str "*")
  | some s => do
      let me ← s.nick meRef
      pure (me.nick.getD (str "*"))

/-- `client_send_response`. -/
def clientSendResponse (now : Long) (c : Client) (response : ℕ) (ap : List (Option Str)) :
    Except Fault (Bool × Client) :=
  if response = 0 then .error .assertion
  else do
    let target ← clientGetDefaultTarget c
    clientSendLine now c (vircParseResponse c.defaultOrigin target response ap)

/-- `client_send_args_ex`. -/
def clientSendArgsEx (now : Long) (c : Client) (hm : Option Str) (ap : List (Option Str)) :
    Except Fault (Bool × Client) :=
  clientSendLine now c (vircParseLine hm ap)

/-- `client_send_args`. -/
def clientSendArgs (now : Long) (c : Client) (ap : List (Option Str)) :
    Except Fault (Bool × Client) :=
  clientSendLine now c (vircParseLine c.defaultOrigin ap)

/-! ### What a connected client gets -/

section
variable {now : Long} {c c' : Client} {s : NetworkState} {l : IrcLine}

theorem clientSendLine_state (hc : c.connected = true) (hs : c.state = some s) :
    clientSendLine now c l = (stateStep s (now, l)).map fun s' =>
      (true, { c with state := some s', sent := c.sent ++ [(now, strippedLine l)] }) := by
  rw [clientSendLine, if_neg (by simp [hc]), hs]
  dsimp only
  rw [stateStep]
  cases stateHandleData now s l <;> rfl

/-- A client that has a state keeps one, and is told the line. -/
theorem clientSendLine_inv {ret : Bool} (hc : c.connected = true) (hs : c.state = some s)
    (h : clientSendLine now c l = .ok (ret, c')) : ∃ s', stateStep s (now, l) = .ok s' ∧
      ret = true ∧ c' = { c with state := some s', sent := c.sent ++ [(now, strippedLine l)] } := by
  rw [clientSendLine_state hc hs] at h
  obtain ⟨s', hs', e⟩ := map_eq_ok h
  cases e
  exact ⟨s', hs', rfl, rfl⟩

end

/-- The client after a line that it was sent. -/
def clientStep (c : Client) (i : Input) : Except Fault Client := do
  let (_, c) ← clientSendLine i.1 c i.2
  pure c

/-- The state of a client that was sent lines is reached by these lines. -/
theorem clientStep_reach {ok : Client → Input → Prop} {c₀ c : Client} {s₀ : NetworkState}
    (h : Reach clientStep ok c₀ c) (hc : c₀.connected = true) (hs : c₀.state = some s₀) :
    c.connected = true ∧ ∃ s, c.state = some s ∧ Reach stateStep (fun _ _ => True) s₀ s := by
  induction h with
  | refl => exact ⟨hc, s₀, hs, .refl⟩
  | step _ _ hstep ih =>
      obtain ⟨hc', s, hs', hreach⟩ := ih
      obtain ⟨⟨ret, c₁⟩, hsend, e⟩ := bind_eq_ok hstep
      cases e
      obtain ⟨s', hs₁, -, rfl⟩ := clientSendLine_inv hc' hs' hsend
      exact ⟨hc', s', rfl, hreach.step trivial hs₁⟩

end Ctrlproxy
