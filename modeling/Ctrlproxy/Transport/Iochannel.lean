import Ctrlproxy.Lib.Outcome
import Ctrlproxy.Base.Line

/-!
# Transport — lines over a channel

The sending half of `libirc/transport_ioc.c`: a line is written to the channel, or waits in
`pending_lines` for the callback of a `G_IO_OUT` watch.

The channel answers each write and each flush with a `GIOStatus`; a line is accepted when its write
is `NORMAL`, and a write that is `AGAIN` takes nothing, as `irc_send_line` asserts.  The main loop
keeps the watches that are registered, and drops one when its callback returns `FALSE`.
`last_line_sent` and the log are left out.
-/

namespace Ctrlproxy.Transport
open Outcome

/-- `GIOStatus`. -/
inductive GIOStatus where
  | error
  | normal
  | eof
  | again
  deriving DecidableEq, Repr

/-- What the `hangup` callback of a transport does: `irc_transport_disconnect`, or nothing to the
transport. -/
inductive Hangup where
  | keeps
  | disconnects
  deriving DecidableEq, Repr

/-- `struct irc_transport_data_iochannel`, with what is around it: the watches of the main loop,
the lines the channel took, and those it refused with an error. -/
structure Iochannel (L : Type) where
  /-- whether `incoming` is not `NULL` -/
  incoming : Bool
  pendingDisconnect : Bool
  incomingId : ℕ
  outgoingId : ℕ
  pendingLines : List L
  /-- the `G_IO_IN` watches -/
  inWatches : List ℕ
  /-- the `G_IO_OUT` watches -/
  outWatches : List ℕ
  /-- what `g_io_add_watch` returns next -/
  nextId : ℕ
  accepted : List L
  refused : List L
  /-- whether a write reported the end of the file -/
  eof : Bool
  deriving DecidableEq

variable {L : Type}

namespace Iochannel

/-- `irc_transport_new_iochannel` and `irc_transport_iochannel_activate`. -/
def activated (L : Type) : Iochannel L where
  incoming := true
  pendingDisconnect := false
  incomingId := 1
  outgoingId := 0
  pendingLines := []
  inWatches := [1]
  outWatches := []
  nextId := 2
  accepted := []
  refused := []
  eof := false

/-- `irc_transport_iochannel_is_connected`. -/
def isConnected (s : Iochannel L) : Bool := s.incoming && !s.pendingDisconnect

/-- `really_disconnect`. -/
def reallyDisconnect (s : Iochannel L) : Except Fault (Iochannel L) :=
  if s.incoming then
    .ok { s with
      inWatches := s.inWatches.erase s.incomingId
      outWatches := if s.outgoingId ≠ 0 then s.outWatches.erase s.outgoingId else s.outWatches
      incoming := false }
  else .error .null

/-- `irc_transport_iochannel_disconnect`. -/
def disconnect (s : Iochannel L) : Except Fault (Iochannel L) :=
  let s := { s with pendingDisconnect := true }
  if s.outgoingId = 0 then s.reallyDisconnect else .ok s

/-- `irc_transport_disconnect`. -/
def transportDisconnect (s : Iochannel L) : Except Fault (Iochannel L) :=
  if s.isConnected then s.disconnect else .ok s

/-- The `hangup` callback. -/
def hangup (h : Hangup) (s : Iochannel L) : Except Fault (Iochannel L) :=
  match h with
  | .keeps => .ok s
  | .disconnects => s.transportDisconnect

/-- `outgoing_id` is a new watch for `transport_send_queue`. -/
def addWatch (s : Iochannel L) : Iochannel L :=
  { s with outgoingId := s.nextId, outWatches := s.outWatches ++ [s.nextId], nextId := s.nextId + 1 }

/-- `irc_send_line`: what a write with the given status does. -/
def ircSendLine (s : Iochannel L) (l : L) (status : GIOStatus) : Except Fault (Iochannel L) :=
  if s.incoming then
    match status with
    | .normal => .ok { s with accepted := s.accepted ++ [l] }
    | .error => .ok { s with refused := s.refused ++ [l] }
    | .eof => .ok { s with eof := true }
    | .again => .ok s
  else .error .assertion

/-- The flush at the end of `irc_transport_iochannel_send_line`. -/
def flushSent (s : Iochannel L) (flush : GIOStatus) : Except Fault (Bool × Iochannel L) :=
  match flush with
  | .eof => .error .assertion
  | .normal => .ok (true, s)
  | .again => .ok (true, s.addWatch)
  | .error => .ok (false, s)

/-- `irc_transport_iochannel_send_line`. -/
def sendLine (h : Hangup) (s : Iochannel L) (l : L) (write flush : GIOStatus) :
    Except Fault (Bool × Iochannel L) :=
  if s.outgoingId ≠ 0 then .ok (true, { s with pendingLines := s.pendingLines ++ [l] })
  else do
    let s ← s.ircSendLine l write
    match write with
    | .again =>
        let s := s.addWatch
        flushSent { s with pendingLines := s.pendingLines ++ [l] } flush
    | .eof => do
        let s ← s.hangup h
        pure (false, s)
    | .error => pure (false, s)
    | .normal => flushSent s flush

/-- `transport_send_line`. -/
def transportSendLine (h : Hangup) (s : Iochannel L) (l : L) (write flush : GIOStatus) :
    Except Fault (Bool × Iochannel L) :=
  if s.isConnected then s.sendLine h l write flush else .ok (false, s)

/-- The loop of `transport_send_queue` over `pending_lines`, from the `i`-th line on: the value it
returns with before the queue is empty, if it does. -/
def queueLoop (h : Hangup) (writes flushes : ℕ → GIOStatus) :
    ℕ → List L → Iochannel L → Except Fault (Option Bool × Iochannel L)
  | _, [], s => .ok (none, s)
  | i, l :: rest, s => do
      let s ← { s with pendingLines := rest }.ircSendLine l (writes i)
      match writes i with
      | .again => pure (some true, { s with pendingLines := l :: rest })
      | .eof => do
          let s ← { s with outgoingId := 0 }.hangup h
          pure (some false, s)
      | _ =>
          match flushes (i + 1) with
          | .eof => .error .assertion
          | .again => pure (some true, s)
          | _ => queueLoop h writes flushes (i + 1) rest s

/-- How a turn of `queueLoop` ends, by the status of its flush; `next` is what the other turns do. -/
def afterFlush (status : GIOStatus) (s : Iochannel L)
    (next : Except Fault (Option Bool × Iochannel L)) : Except Fault (Option Bool × Iochannel L) :=
  match status with
  | .eof => .error .assertion
  | .again => pure (some true, s)
  | _ => next

/-- `transport_send_queue`: the first flush is `flushes 0`. -/
def transportSendQueue (h : Hangup) (s : Iochannel L) (writes flushes : ℕ → GIOStatus) :
    Except Fault (Bool × Iochannel L) :=
  if s.incoming then do
    let ret := flushes 0 == .again
    let (early, s) ← queueLoop h writes flushes 0 s.pendingLines s
    match early with
    | some r => pure (r, s)
    | none =>
        if ret then pure (true, s)
        else
          let s := { s with outgoingId := 0 }
          if s.pendingDisconnect then do
            let s ← s.reallyDisconnect
            pure (false, s)
          else pure (false, s)
  else .error .assertion

/-- The main loop calls the callback of a watch. -/
def dispatch (h : Hangup) (s : Iochannel L) (watch : ℕ) (writes flushes : ℕ → GIOStatus) :
    Except Fault (Iochannel L) := do
  let (ret, s) ← s.transportSendQueue h writes flushes
  pure (if ret then s else { s with outWatches := s.outWatches.erase watch })

end Iochannel

end Ctrlproxy.Transport
