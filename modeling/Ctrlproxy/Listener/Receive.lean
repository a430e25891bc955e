import Ctrlproxy.Listener.Password
import Ctrlproxy.Listener.Socks
import Ctrlproxy.Transport.Receive

/-!
# Listener — the lines of a plain client

`handle_client_receive` of `libirc/listener.c` for a client that speaks IRC, from the byte that says
so to the line with the password, and then the transport of the client that is made.

`handle_client_detect` takes a byte off the channel before it reads the first line, and puts it back
in front of the line, if there is a whole line already.  `Detected` says what becomes of the stream,
and `reachable_handed` is that the listener and then the transport are given its lines, each once
and in order.

The listeners of `src/` have no charset: `iconv` is `(GIConv)-1`.  Left out are clients that speak
SOCKS (`Listener/Socks.lean`) behind their first byte, the watch of the transport, and the lines that
are written.
-/

namespace Ctrlproxy.Listener
open Outcome
open Transport (Arrival GIConv GIOCondition Receiver Replies Inbound lineReader gIoChannelReadLine
  ircRecvLine scanLine)
open Transport.Inbound (callsOf)

/-- `struct pending_client` of a client that does not speak SOCKS.  `handled` are the lines
`handle_client_line` was called with, and `transport` is that of the client it made, which reads the
channel from then on. -/
structure LineClient where
  type : ClientType
  unread : List Arrival
  handled : List IrcLine
  killed : Bool
  transport : Option Receiver

/-- What is outside when a client is heard: what is around the `i`-th call of `handle_client_line`,
whether the channel holds something when the transport is activated, and what the callbacks of the
transport return. -/
structure Hearing where
  around : ℕ → Surroundings
  inn : Bool
  replies : Replies
  /-- what `header[0]` holds when nothing is read into it -/
  junk : Octet

namespace LineClient

/-- `handle_client_line`, and `irc_transport_iochannel_activate` when it makes a client. -/
def handleLine (listener : LineListener) (a : Hearing) (i : ℕ) (s : LineClient) (l : Option IrcLine) :
    Except Fault (Bool × LineClient) := do
  let reply ← handleClientLine (a.around i) listener l
  let s := { s with handled := s.handled ++ l.toList }
  if reply.client.isSome then do
    let r ← (Receiver.ircTransportNewIochannel s.unread).activate a.inn a.replies
    pure (reply.keep, { s with transport := some r, unread := [] })
  else pure (reply.keep, s)

/-- The byte `handle_client_detect` read, and the line behind it, as a C string. -/
def complete (header : Octet) (raw : Str) : Str :=
  if h : header.val ≠ 0 then Transport.octetByte header h :: raw else []

/-- `handle_client_detect`, for a byte that was read. -/
def detectLine (listener : LineListener) (a : Hearing) (s : LineClient) (header : Octet) :
    Except Fault (Bool × LineClient) :=
  if header = SOCKS_VERSION then .ok (true, { s with type := .socks })
  else
    match gIoChannelReadLine s.unread with
    | (_, some raw, rest) =>
        handleLine listener a 0 { s with type := .regular, unread := rest }
          (ircParseLine (complete header raw))
    -- the status is returned as a truth value, and is not `G_IO_STATUS_ERROR`
    | (_, none, rest) => .ok (true, { s with type := .regular, unread := rest })

/-- `handle_client_detect`. -/
def handleClientDetect (listener : LineListener) (a : Hearing) (s : LineClient) :
    Except Fault (Bool × LineClient) :=
  match s.unread with
  | [] => detectLine listener a s a.junk
  | .closed :: _ => .ok (false, s)
  | .byte header :: rest => detectLine listener a { s with unread := rest } header

/-- The loop of `handle_client_receive`, from its `i`-th call of `handle_client_line` on. -/
def receiveLoop (listener : LineListener) (a : Hearing) :
    ℕ → ℕ → LineClient → Except Fault (Bool × LineClient)
  | 0, _, _ => .error .diverges
  | fuel + 1, i, s =>
      match ircRecvLine s.unread none with
      | (.normal, _, none, rest) => receiveLoop listener a fuel i { s with unread := rest }
      | (.normal, _, some l, rest) => do
          let (ret, s) ← handleLine listener a i { s with unread := rest } (some l)
          if ret then receiveLoop listener a fuel (i + 1) s else pure (false, s)
      | (status, _, _, rest) => .ok (status = .again, { s with unread := rest })

/-- `handle_client_receive`. -/
def handleClientReceive (listener : LineListener) (a : Hearing) (cond : GIOCondition) (s : LineClient) :
    Except Fault LineClient := do
  let (ret, s) ← if cond.inn then
      match s.type with
      | .unknown => handleClientDetect listener a s
      | .regular => receiveLoop listener a (s.unread.length + 1) 0 s
      | .socks => pure (true, s)
    else pure (true, s)
  pure (if ret && !cond.hup then s else { s with killed := true })

/-- `listener_new_pending_client`. -/
def listenerNewPendingClient : LineClient := ⟨.unknown, [], [], false, none⟩

end LineClient

/-! ### Runs -/

/-- A client, all that it has sent, and what of that had arrived when its type was detected. -/
structure Peer where
  client : LineClient
  arrived : List Arrival
  first : Option (List Arrival)

namespace Peer

/-- What happens to it: the last two happen to the transport. -/
inductive Event where
  | arrive (piece : List Arrival)
  | receive (cond : GIOCondition) (a : Hearing)
  | setCharset (iconv : GIConv)
  | dispatch (cond : GIOCondition) (a : Replies)

def start : Peer := ⟨.listenerNewPendingClient, [], none⟩

/-- More to read, for whoever reads the channel. -/
def arrive (c : LineClient) (piece : List Arrival) : LineClient :=
  match c.transport with
  | none => { c with unread := c.unread ++ piece }
  | some r => { c with transport := some { r with unread := r.unread ++ piece } }

def step (listener : LineListener) (s : Peer) : Event → Except Fault Peer
  | .arrive piece => .ok { s with client := arrive s.client piece, arrived := s.arrived ++ piece }
  | .receive cond a => do
      let c ← s.client.handleClientReceive listener a cond
      pure { s with
        client := c
        first := if s.client.type = .unknown ∧ c.type ≠ .unknown then some s.client.unread else s.first }
  | .setCharset iconv =>
      .ok { s with client := { s.client with
        transport := s.client.transport.map fun r => { r with incomingIconv := iconv } } }
  | .dispatch cond a =>
      match s.client.transport with
      | none => .ok s
      | some r => do
          let r ← r.dispatch cond a
          pure { s with client := { s.client with transport := some r } }

/-- A client is heard until it is killed, and its transport while the main loop has the watch. -/
def Admits (s : Peer) : Event → Prop
  | .arrive _ => True
  | .receive _ _ => s.client.killed = false
  | .setCharset _ => True
  | .dispatch cond _ => ∃ r, s.client.transport = some r ∧ r.watched = true ∧ cond.err = false ∧
      (cond.hup = true → cond.inn = false → r.unread.head? = some .closed)

end Peer

/-! ### What becomes of the first byte -/

/-- The stream behind the byte that was taken to detect the type. -/
def behind (first arrived : List Arrival) : List Arrival :=
  match first with
  | .byte _ :: _ => arrived.drop 1
  | _ => arrived

/-- Lines behind that byte: it goes back in front of the first of them, if that was there as a
whole. -/
def putBack (first : List Arrival) (raws : List Str) : List Str :=
  match first, raws with
  | .byte header :: rest, raw :: raws =>
      if (lineReader.next rest).isSome then LineClient.complete header raw :: raws else raw :: raws
  | _, raws => raws

/-- The lines of a client's stream, as they are handled. -/
def detectedLines (first arrived : List Arrival) : List Str :=
  putBack first (lineReader.items (behind first arrived))

/-- There was a whole line when the type was detected. -/
def WholeLine (first : List Arrival) : Prop :=
  ∃ header rest, first = .byte header :: rest ∧ (lineReader.next rest).isSome = true

theorem putBack_append {first : List Arrival} {raws : List Str} (h : WholeLine first → raws ≠ [])
    (more : List Str) : putBack first (raws ++ more) = putBack first raws ++ more := by
  match first, raws with
  | [], _ => rfl
  | .closed :: _, _ => rfl
  | .byte header :: rest, raw :: raws =>
      simp only [putBack, List.cons_append]
      split <;> rfl
  | .byte header :: rest, [] =>
      have hn : ¬ (lineReader.next rest).isSome = true := fun hs => h ⟨header, rest, rfl, hs⟩ rfl
      simp only [putBack, List.nil_append]
      cases more with
      | nil => rfl
      | cons raw more => simp only [if_neg hn]

theorem behind_append {first arrived : List Arrival} (h : first <+: arrived) (piece : List Arrival) :
    behind first (arrived ++ piece) = behind first arrived ++ piece := by
  match first with
  | [] => rfl
  | .closed :: _ => rfl
  | .byte header :: rest =>
      obtain ⟨t, rfl⟩ := h
      rfl

/-! ### The password -/

section
variable {a : Surroundings} {listener : LineListener}

/-- A line with a password the listener accepts. -/
def LogsIn (listener : LineListener) (l : IrcLine) : Prop :=
  IrcLine.isPass l = true ∧ ∃ arg, l.args[1]? = some arg ∧ listener.accepts (splitPass arg).1 = true

/-- A client that is made is not heard by the listener again. -/
theorem passAccepted_client {networkname : Option Str} {r : Reply}
    (h : passAccepted a listener networkname = .ok r) (hc : r.client.isSome = true) :
    r.keep = false := by
  obtain ⟨⟨sent, selected⟩, -, h⟩ := bind_eq_ok h
  cases selected with
  | none =>
      cases h
      cases hc
  | some n =>
      obtain ⟨ok, -, h⟩ := bind_eq_ok h
      cases h
      rfl

theorem handleClientLine_other {l : IrcLine} (h : ¬ IrcLine.isPass l = true) :
    handleClientLine a listener (some l) =
      if l.args[0]? = none then .ok ⟨true, [], none⟩
      else ircSendf (numericText a ERR_NOTREGISTERED
          (str "You are not registered. Did you specify a password?")) >>= fun e =>
        .ok ⟨true, [e], none⟩ := by
  have hp : l.args ≠ [] → ¬ baseEq l.args[0]? (str "PASS") = true := by
    intro hne
    simpa [IrcLine.isPass, hne] using h
  unfold handleClientLine
  dsimp only
  split
  · rfl
  · next h0 =>
    rw [if_neg (hp (by simpa using h0))]

/-- Only a PASS with the right password makes a client, and then the listener is done. -/
theorem handleClientLine_client {line : Option IrcLine} {r : Reply}
    (h : handleClientLine a listener line = .ok r) (hc : r.client.isSome = true) :
    r.keep = false ∧ ∃ l, line = some l ∧ LogsIn listener l := by
  have hret : ¬ PassFaults listener line := (handleClientLine_returns line).2.mp ⟨r, h⟩
  cases line with
  | none =>
      cases h
      cases hc
  | some l =>
      by_cases hp : IrcLine.isPass l = true
      · have hargc : 2 ≤ l.argc := by
          by_contra hlt
          exact hret ⟨l, rfl, hp, .inl (Nat.lt_of_not_le hlt)⟩
        have hrule : listener.hasCompleteRule = false := by
          rw [← Bool.not_eq_true]
          exact fun hr => hret ⟨l, rfl, hp, .inr hr⟩
        obtain ⟨arg, harg, -⟩ := argStr_one hargc
        rw [handleClientLine_pass hp harg hrule] at h
        split at h
        · next hacc => exact ⟨passAccepted_client h hc, l, rfl, hp, arg, harg, hacc⟩
        · obtain ⟨e, -, he⟩ := bind_eq_ok h
          cases he
          cases hc
      · rw [handleClientLine_other hp] at h
        split at h
        · cases h
          cases hc
        · obtain ⟨e, -, he⟩ := bind_eq_ok h
          cases he
          cases hc

end

/-! ### Reading lines -/

theorem filterMap_single {α β : Type} (f : α → Option β) (x : α) : [x].filterMap f = (f x).toList := by
  rw [List.filterMap_cons]
  cases f x <;> rfl

namespace LineClient

variable {listener : LineListener} {a : Hearing} {s s' : LineClient} {raws texts : List Str}

/-- A client was made of the connection, and its transport reads what is left. -/
def Made (listener : LineListener) (left : List Arrival) (t : Receiver) (handled : List IrcLine) : Prop :=
  (∃ charsets lines n, Inbound.Ordered ⟨t, left, charsets⟩ lines n) ∧
    ∃ l, handled.getLast? = some l ∧ LogsIn listener l

/-- From `s` to `s'` the lines `raws` were read, and `texts` were handled; then a client may have been
made. -/
structure Hears (listener : LineListener) (s s' : LineClient) (raws texts : List Str) : Prop where
  handled : s'.handled = s.handled ++ texts.filterMap ircParseLine
  rest : (s'.transport = none ∧ lineReader.Takes s.unread raws s'.unread) ∨
    ∃ left t, s'.transport = some t ∧ lineReader.Takes s.unread raws left ∧
      Made listener left t s'.handled

theorem Hears.refl (hs : s.transport = none) : Hears listener s s [] [] where
  handled := by simp
  rest := .inl ⟨hs, .refl _⟩

/-- One line, and then others. -/
theorem Hears.cons {raw : Str} {rest : List Arrival} (hn : lineReader.next s.unread = some (raw, rest))
    (h : Hears listener { s with unread := rest, handled := s.handled ++ (ircParseLine raw).toList } s'
      raws texts) : Hears listener s s' (raw :: raws) (raw :: texts) where
  handled := by
    rw [h.handled, List.filterMap_cons]
    cases ircParseLine raw <;> simp
  rest := by
    rcases h.rest with ⟨ht, hr⟩ | ⟨left, t, ht, hr, hm⟩
    · exact .inl ⟨ht, .next hn hr⟩
    · exact .inr ⟨left, t, ht, .next hn hr, hm⟩

/-- A line is handled, and nothing else changes unless a client is made. -/
theorem handleLine_cases (i : ℕ) (l : Option IrcLine) :
    Ensures (handleLine listener a i s l)
      (fun r => r.2 = { s with handled := s.handled ++ l.toList } ∨
        r.1 = false ∧ ∃ t, r.2 = { s with
          handled := s.handled ++ l.toList, transport := some t, unread := [] } ∧
          Made listener s.unread t (s.handled ++ l.toList)) fun _ => True := by
  unfold handleLine
  cases hr : handleClientLine (a.around i) listener l with
  | error e => trivial
  | ok reply =>
      rw [ok_bind]
      dsimp only
      split
      · next hc =>
        obtain ⟨hkeep, l, rfl, hlog⟩ := handleClientLine_client hr hc
        refine Ensures.bind (Q := fun r => ∃ lines n, Inbound.Ordered ⟨r, s.unread, [none]⟩ lines n)
          ((Inbound.activate_ordered a.inn).mono (fun _ h => h) fun _ h => h.elim) ?_
        rintro t ⟨lines, n, ht⟩
        exact .inr ⟨hkeep, t, rfl, ⟨_, lines, n, ht⟩, l, by simp, hlog⟩
      · exact .inl rfl

/-- The loop reads lines, and stops when a client is made. -/
theorem receiveLoop_hears {fuel : ℕ} (i : ℕ) (hfuel : s.unread.length < fuel)
    (hs : s.transport = none) :
    Ensures (receiveLoop listener a fuel i s)
      (fun r => (∃ raws, Hears listener s r.2 raws raws) ∧ r.2.type = s.type ∧
        (r.2.transport ≠ none → r.1 = false)) fun _ => True := by
  induction fuel generalizing s i with
  | zero => cases hfuel
  | succ fuel ih =>
      rw [receiveLoop]
      rcases Transport.ircRecvLine_cases s.unread none with
        ⟨hn, ⟨hr, hc⟩ | hr⟩ | ⟨raw, rest, hn, ⟨l, hl, hr⟩ | ⟨e, l, hl, hr⟩⟩
      · rw [hr]
        exact ⟨⟨[], .refl hs⟩, rfl, fun h => absurd hs h⟩
      · rw [hr]
        exact ⟨⟨[], .refl hs⟩, rfl, fun h => absurd hs h⟩
      · rw [hr]
        have hshort : rest.length < fuel := by
          have : rest.length < s.unread.length := lineReader.shorter hn
          omega
        have hl : ircParseLine raw = l := Transport.Callback.recv.inj hl
        cases l with
        | none =>
            refine (ih (s := { s with unread := rest }) i hshort hs).imp ?_
            rintro r ⟨⟨raws, h⟩, hrest⟩
            exact ⟨⟨raw :: raws, .cons hn (by simpa [hl] using h)⟩, hrest⟩
        | some l =>
            refine (handleLine_cases i (some l)).bind ?_
            rintro ⟨ret, s₁⟩ (h₁ | ⟨hret, t, h₁, hm⟩)
            · have h₁ : s₁ = { s with unread := rest, handled := s.handled ++ [l] } := h₁
              subst h₁
              dsimp only
              split
              · refine (ih (s := { s with unread := rest, handled := _ }) (i + 1) hshort hs).imp ?_
                rintro r ⟨⟨raws, h⟩, hrest⟩
                exact ⟨⟨raw :: raws, .cons hn (by simpa [hl] using h)⟩, hrest⟩
              · exact ⟨⟨[raw], .cons hn (by simpa [hl] using .refl hs)⟩, rfl, fun _ => rfl⟩
            · have h₁ : s₁ = { s with
                  unread := [], handled := s.handled ++ [l], transport := some t } := h₁
              subst h₁
              have hret : ret = false := hret
              subst hret
              refine ⟨⟨[raw], .cons hn ⟨by simp [hl], .inr ⟨rest, t, rfl, .refl _, hm⟩⟩⟩, rfl, fun _ => rfl⟩
      · split at hl <;> cases hl

/-- What `handle_client_detect` makes of a byte: the type, and of a plain client the first line, with
the byte in front, if it is there. -/
theorem detectLine_hears (header : Octet) (hs : s.transport = none) :
    Ensures (detectLine listener a s header)
      (fun r => (r.2.transport ≠ none → r.1 = false) ∧
        (header = SOCKS_VERSION ∧ r.2.type = .socks ∨ r.2.type = .regular ∧
          ((∃ raw rest, lineReader.next s.unread = some (raw, rest) ∧
            Hears listener s r.2 [raw] [complete header raw]) ∨
          lineReader.next s.unread = none ∧ Hears listener s r.2 [] []))) fun _ => True := by
  unfold detectLine
  split
  · next h5 => exact ⟨fun h => absurd hs h, .inl ⟨h5, rfl⟩⟩
  · unfold gIoChannelReadLine
    cases hn : lineReader.next s.unread with
    | none =>
        have hscan : Transport.scanLine [] s.unread = none := hn
        rw [hscan]
        exact ⟨fun h => absurd hs h, .inr ⟨rfl, .inr ⟨rfl, by simp, .inl ⟨hs, .refl _⟩⟩⟩⟩
    | some p =>
        obtain ⟨raw, rest⟩ := p
        have hscan : Transport.scanLine [] s.unread = some (raw, rest) := hn
        rw [hscan]
        refine (handleLine_cases 0 _).imp ?_
        rintro ⟨ret, s₁⟩ (h₁ | ⟨hret, t, h₁, hm⟩)
        · have h₁ : s₁ = { s with
              type := .regular, unread := rest
              handled := s.handled ++ (ircParseLine (complete header raw)).toList } := h₁
          subst h₁
          refine ⟨fun h => absurd hs h, .inr ⟨rfl, .inl ⟨raw, rest, rfl, ?_, ?_⟩⟩⟩
          · rw [filterMap_single]
          · exact .inl ⟨hs, .next hn (.refl _)⟩
        · have h₁ : s₁ = { s with
              type := .regular, unread := [], transport := some t
              handled := s.handled ++ (ircParseLine (complete header raw)).toList } := h₁
          subst h₁
          refine ⟨fun _ => hret, .inr ⟨rfl, .inl ⟨raw, rest, rfl, ?_, ?_⟩⟩⟩
          · rw [filterMap_single]
          · exact .inr ⟨rest, t, rfl, .next hn (.refl _), hm⟩

end LineClient

namespace Peer

variable {listener : LineListener} {s : Peer}

/-- Nothing was read yet. -/
structure Undetected (s : Peer) : Prop where
  first : s.first = none
  transport : s.client.transport = none
  handled : s.client.handled = []
  unread : s.client.unread = s.arrived

/-- The lines `raws` were read off what is behind the first byte and handled, and then `lines` by the
transport. -/
structure Detected (listener : LineListener) (s : Peer) (first : List Arrival) (raws : List Str) :
    Prop where
  known : s.first = some first
  sub : first <+: s.arrived
  whole : WholeLine first → raws ≠ []
  handled : s.client.handled = (putBack first raws).filterMap ircParseLine
  rest : (s.client.transport = none ∧
      lineReader.Takes (behind first s.arrived) raws s.client.unread) ∨
    s.client.killed = true ∧ ∃ left t, s.client.transport = some t ∧
      lineReader.Takes (behind first s.arrived) raws left ∧
      LineClient.Made listener left t s.client.handled

/-- What is known of a client, by its type. -/
structure Heard (listener : LineListener) (s : Peer) : Prop where
  unknown : s.client.type = .unknown → s.Undetected
  regular : s.client.type = .regular → ∃ first raws, s.Detected listener first raws

theorem start_heard : start.Heard listener where
  unknown _ := ⟨rfl, rfl, rfl, rfl⟩
  regular h := by cases h

theorem Heard.arrive (h : s.Heard listener) (piece : List Arrival) :
    Heard listener { s with client := arrive s.client piece, arrived := s.arrived ++ piece } := by
  have htype : (Peer.arrive s.client piece).type = s.client.type := by
    unfold Peer.arrive
    split <;> rfl
  refine ⟨fun hu => ?_, fun hr => ?_⟩
  · have hu := h.unknown (htype ▸ hu)
    simp only [Peer.arrive, hu.transport]
    exact ⟨hu.first, rfl, hu.handled, by rw [hu.unread]⟩
  · obtain ⟨first, raws, hd⟩ := h.regular (htype ▸ hr)
    have hsub : first <+: s.arrived ++ piece := hd.sub.trans (List.prefix_append _ _)
    rcases hd.rest with ⟨ht, htakes⟩ | ⟨hk, left, t, ht, htakes, ⟨charsets, lines, n, ho⟩, hlog⟩
    · simp only [Peer.arrive, ht]
      refine ⟨first, raws, hd.known, hsub, hd.whole, hd.handled, .inl ⟨rfl, ?_⟩⟩
      rw [behind_append hd.sub]
      exact htakes.arrive piece
    · simp only [Peer.arrive, ht]
      refine ⟨first, raws, hd.known, hsub, hd.whole, hd.handled,
        .inr ⟨hk, left ++ piece, _, rfl, ?_, ⟨charsets, lines, n, ho.arrive piece⟩, hlog⟩⟩
      rw [behind_append hd.sub]
      exact htakes.arrive piece

/-- What happens to the transport. -/
theorem Heard.transport (h : s.Heard listener) {r t : Receiver} (ht : s.client.transport = some r)
    (hkeep : ∀ left, (∃ charsets lines n, Inbound.Ordered ⟨r, left, charsets⟩ lines n) →
      ∃ charsets lines n, Inbound.Ordered ⟨t, left, charsets⟩ lines n) :
    Heard listener { s with client := { s.client with transport := some t } } := by
  refine ⟨fun hu => ?_, fun hr => ?_⟩
  · rw [(h.unknown hu).transport] at ht
    cases ht
  · obtain ⟨first, raws, hd⟩ := h.regular hr
    refine ⟨first, raws, hd.known, hd.sub, hd.whole, hd.handled, ?_⟩
    rcases hd.rest with ⟨hnone, -⟩ | ⟨hk, left, r', hr', htakes, ho, hlog⟩
    · rw [hnone] at ht
      cases ht
    · rw [hr'] at ht
      cases ht
      exact .inr ⟨hk, left, t, rfl, htakes, hkeep left ho, hlog⟩

/-- The watch of a client is dropped. -/
def settle (ret hup : Bool) (c : LineClient) : LineClient :=
  if ret && !hup then c else { c with killed := true }

theorem settle_type (ret hup : Bool) (c : LineClient) : (settle ret hup c).type = c.type := by
  unfold settle
  split <;> rfl

theorem settle_handled (ret hup : Bool) (c : LineClient) : (settle ret hup c).handled = c.handled := by
  unfold settle
  split <;> rfl

theorem settle_transport (ret hup : Bool) (c : LineClient) :
    (settle ret hup c).transport = c.transport := by
  unfold settle
  split <;> rfl

theorem settle_unread (ret hup : Bool) (c : LineClient) : (settle ret hup c).unread = c.unread := by
  unfold settle
  split <;> rfl

theorem settle_false (hup : Bool) (c : LineClient) : (settle false hup c).killed = true := by
  rw [settle, Bool.false_and, if_neg Bool.false_ne_true]

variable {c c' : LineClient} {first : List Arrival} {raws texts : List Str} {ret : Bool}

/-- What a client that was heard has read, once its watch is settled. -/
theorem settle_rest (h : LineClient.Hears listener c c' raws texts)
    (hret : c'.transport ≠ none → ret = false) (hup : Bool) :
    ((settle ret hup c').transport = none ∧
      lineReader.Takes c.unread raws (settle ret hup c').unread) ∨
    (settle ret hup c').killed = true ∧ ∃ left t, (settle ret hup c').transport = some t ∧
      lineReader.Takes c.unread raws left ∧
      LineClient.Made listener left t (settle ret hup c').handled := by
  rw [settle_transport, settle_unread, settle_handled]
  rcases h.rest with hnone | ⟨left, t, ht, hr⟩
  · exact .inl hnone
  · have hret : ret = false := hret (ht ▸ Option.some_ne_none t)
    subst hret
    exact .inr ⟨settle_false hup c', left, t, ht, hr⟩

/-- A client turned out to be a plain one, and `raws` were read behind its first byte. -/
theorem Undetected.detected (h : s.Undetected) (hu : s.client.type = .unknown) {unread : List Arrival}
    (hc : c.type = .regular) (hh : LineClient.Hears listener { s.client with unread := unread } c raws texts)
    (hret : c.transport ≠ none → ret = false) (hup : Bool)
    (hbehind : behind s.client.unread s.arrived = unread)
    (hputs : putBack s.client.unread raws = texts) (hwhole : WholeLine s.client.unread → raws ≠ []) :
    Detected listener { s with
      client := settle ret hup c
      first := if s.client.type = .unknown ∧ (settle ret hup c).type ≠ .unknown then
        some s.client.unread else s.first } s.client.unread raws where
  known := by simp [settle_type, hu, hc]
  sub := h.unread ▸ List.prefix_rfl
  whole := hwhole
  handled := by
    have hh : c.handled = s.client.handled ++ texts.filterMap ircParseLine := hh.handled
    rw [settle_handled, hh, h.handled, List.nil_append, hputs]
  rest := by
    rw [hbehind]
    exact settle_rest hh hret hup

/-- The type of a client is detected. -/
theorem Undetected.detect (h : s.Undetected) (hu : s.client.type = .unknown) (a : Hearing) (hup : Bool) :
    Ensures (s.client.handleClientDetect listener a)
      (fun r => Heard listener { s with
        client := settle r.1 hup r.2
        first := if s.client.type = .unknown ∧ (settle r.1 hup r.2).type ≠ .unknown then
          some s.client.unread else s.first }) fun _ => True := by
  unfold LineClient.handleClientDetect
  split
  · next hnil =>
    refine (LineClient.detectLine_hears a.junk h.transport).imp ?_
    rintro ⟨ret, c⟩ ⟨hret, hcase⟩
    refine ⟨fun hc => ?_, fun hc => ?_⟩
    · rw [settle_type] at hc
      rcases hcase with ⟨-, hs⟩ | ⟨hs, -⟩ <;> cases hs.symm.trans hc
    · have hc : c.type = .regular := settle_type ret hup c ▸ hc
      rcases hcase with ⟨-, hs⟩ | ⟨-, ⟨raw, rest, hn, -⟩ | ⟨-, hh⟩⟩
      · cases hs.symm.trans hc
      · rw [hnil] at hn
        cases hn
      · refine ⟨_, [], h.detected hu hc hh hret hup ?_ ?_ ?_⟩
        · rw [hnil, h.unread.symm.trans hnil]
          rfl
        · rw [hnil]
          rfl
        · rintro ⟨header, rest, hf, -⟩
          rw [hnil] at hf
          cases hf
  · next hclosed =>
    refine ⟨fun _ => ⟨?_, ?_, ?_, ?_⟩, fun hc => ?_⟩
    · simp [settle_type, hu, h.first]
    · rw [settle_transport, h.transport]
    · rw [settle_handled, h.handled]
    · rw [settle_unread, h.unread]
    · rw [settle_type, hu] at hc
      cases hc
  · next header rest hbyte =>
    have hbehind : behind s.client.unread s.arrived = rest := by
      rw [← h.unread, hbyte]
      rfl
    refine (LineClient.detectLine_hears header (s := { s.client with unread := rest }) h.transport).imp ?_
    rintro ⟨ret, c⟩ ⟨hret, hcase⟩
    refine ⟨fun hc => ?_, fun hc => ?_⟩
    · rw [settle_type] at hc
      rcases hcase with ⟨-, hs⟩ | ⟨hs, -⟩ <;> cases hs.symm.trans hc
    · have hc : c.type = .regular := settle_type ret hup c ▸ hc
      rcases hcase with ⟨-, hs⟩ | ⟨-, ⟨raw, left, hn, hh⟩ | ⟨hn, hh⟩⟩
      · cases hs.symm.trans hc
      · have hn : lineReader.next rest = some (raw, left) := hn
        refine ⟨_, [raw], h.detected hu hc hh hret hup hbehind ?_ fun _ => List.cons_ne_nil _ _⟩
        rw [hbyte, putBack, hn]
        rfl
      · have hn : lineReader.next rest = none := hn
        refine ⟨_, [], h.detected hu hc hh hret hup hbehind ?_ ?_⟩
        · rw [hbyte]
          rfl
        · rintro ⟨header', rest', hf, hs⟩
          rw [hbyte] at hf
          cases hf
          rw [hn] at hs
          cases hs

/-- More lines of a plain client are read. -/
theorem Detected.loop (h : s.Detected listener first raws) (hk : s.client.killed = false)
    (htype : s.client.type = .regular) (a : Hearing) (hup : Bool) :
    Ensures (s.client.receiveLoop listener a (s.client.unread.length + 1) 0)
      (fun r => Heard listener { s with
        client := settle r.1 hup r.2
        first := if s.client.type = .unknown ∧ (settle r.1 hup r.2).type ≠ .unknown then
          some s.client.unread else s.first }) fun _ => True := by
  rcases h.rest with ⟨ht, htakes⟩ | ⟨hkilled, -⟩
  · refine (LineClient.receiveLoop_hears 0 (Nat.lt_succ_self _) ht).imp ?_
    rintro ⟨ret, c⟩ ⟨⟨more, hh⟩, hc, hret⟩
    have hc : c.type = .regular := hc.trans htype
    refine ⟨fun hu => ?_, fun _ => ⟨first, raws ++ more, ?_, h.sub, ?_, ?_, ?_⟩⟩
    · rw [settle_type, hc] at hu
      cases hu
    · simp [htype, h.known]
    · exact fun hw => List.append_ne_nil_of_left_ne_nil (h.whole hw) more
    · have hh : c.handled = s.client.handled ++ more.filterMap ircParseLine := hh.handled
      rw [putBack_append h.whole, List.filterMap_append, settle_handled, hh, h.handled]
    · rcases settle_rest hh hret hup with ⟨hnone, hr⟩ | ⟨hkilled, left, t, ht', hr, hm⟩
      · exact .inl ⟨hnone, htakes.trans hr⟩
      · exact .inr ⟨hkilled, left, t, ht', htakes.trans hr, hm⟩
  · rw [hk] at hkilled
    cases hkilled

/-- A client whose channel is not read. -/
theorem Heard.unheard (h : s.Heard listener) (ret hup : Bool) :
    Heard listener { s with
      client := settle ret hup s.client
      first := if s.client.type = .unknown ∧ (settle ret hup s.client).type ≠ .unknown then
        some s.client.unread else s.first } := by
  have hfirst : (if s.client.type = .unknown ∧ (settle ret hup s.client).type ≠ .unknown then
      some s.client.unread else s.first) = s.first :=
    if_neg fun hne => hne.2 ((settle_type _ _ _).trans hne.1)
  rw [hfirst]
  refine ⟨fun hu => ?_, fun hr => ?_⟩
  · have hu := h.unknown (settle_type ret hup s.client ▸ hu)
    exact ⟨hu.first, (settle_transport _ _ _).trans hu.transport,
      (settle_handled _ _ _).trans hu.handled, (settle_unread _ _ _).trans hu.unread⟩
  · obtain ⟨first, raws, hd⟩ := h.regular (settle_type ret hup s.client ▸ hr)
    refine ⟨first, raws, hd.known, hd.sub, hd.whole, (settle_handled _ _ _).trans hd.handled, ?_⟩
    rw [settle_transport, settle_unread, settle_handled]
    rcases hd.rest with hnone | ⟨hk, hrest⟩
    · exact .inl hnone
    · refine .inr ⟨?_, hrest⟩
      unfold settle
      split
      · exact hk
      · rfl

/-- `handle_client_receive`. -/
theorem Heard.receive (h : s.Heard listener) (hk : s.client.killed = false) (cond : GIOCondition)
    (a : Hearing) :
    Ensures (s.client.handleClientReceive listener a cond)
      (fun c => Heard listener { s with
        client := c
        first := if s.client.type = .unknown ∧ c.type ≠ .unknown then some s.client.unread
          else s.first }) fun _ => True := by
  unfold LineClient.handleClientReceive
  split
  · split
    · next htype => exact ((h.unknown htype).detect htype a cond.hup).bind fun r hr => hr
    · next htype =>
      obtain ⟨first, raws, hd⟩ := h.regular htype
      exact (hd.loop hk htype a cond.hup).bind fun r hr => hr
    · exact h.unheard true cond.hup
  · exact h.unheard true cond.hup

theorem step_heard {e : Event} (h : s.Heard listener) (hok : s.Admits e) :
    Ensures (s.step listener e) (Heard listener) fun _ => True := by
  cases e with
  | arrive piece => exact h.arrive piece
  | setCharset iconv =>
      cases ht : s.client.transport with
      | none =>
          have hsame : s.client.transport.map (fun r => { r with incomingIconv := iconv }) =
              s.client.transport := by rw [ht]; rfl
          have hs : s.step listener (.setCharset iconv) = .ok s := by simp only [step, hsame]
          exact ensures_of_eq_ok hs h
      | some r =>
          have hs : s.step listener (.setCharset iconv) = .ok { s with client := { s.client with
              transport := some { r with incomingIconv := iconv } } } := by
            rw [step, ht]
            rfl
          refine ensures_of_eq_ok hs (h.transport ht ?_)
          rintro left ⟨charsets, lines, n, ho⟩
          exact ⟨_, lines, n, ho.setCharset iconv⟩
  | dispatch cond a =>
      obtain ⟨r, ht, hw, hcond⟩ := hok
      rw [step, ht]
      dsimp only
      refine Ensures.bind (Q := fun t => Heard listener
        { s with client := { s.client with transport := some t } }) ?_ fun t ht => ht
      refine Ensures.imp (Q := fun t => ∀ left, (∃ charsets lines n,
        Inbound.Ordered ⟨r, left, charsets⟩ lines n) → ∃ charsets lines n,
          Inbound.Ordered ⟨t, left, charsets⟩ lines n) ?_ fun t hkeep => h.transport ht hkeep
      exact (Inbound.dispatch_ordered hcond.1 hcond.2).mono (fun _ h => h) fun _ h => h.elim
  | receive cond a => exact (h.receive hok cond a).bind fun c hc => hc

/-- No whole line is left to read. -/
def Waiting (s : Peer) : Prop :=
  match s.client.transport with
  | none => lineReader.next s.client.unread = none
  | some r => lineReader.next r.unread = none

/-- A byte that begins no end of a line. -/
def Plain (header : Octet) : Prop := header.val ≠ 0 ∧ header ≠ 0x0a ∧ header ≠ 0x0d ∧ header ≠ 0xe2

/-- Behind a plain byte a whole line is the rest of a line of the stream. -/
theorem detectedLines_plain {header : Octet} {rest arrived : List Arrival} (hp : Plain header)
    (hsub : .byte header :: rest <+: arrived) :
    detectedLines (.byte header :: rest) arrived =
      if (lineReader.next rest).isSome then lineReader.items arrived
      else lineReader.items (arrived.drop 1) := by
  obtain ⟨h0, hlf, hcr, hsep⟩ := hp
  obtain ⟨t, rfl⟩ := hsub
  have hdrop : behind (.byte header :: rest) (.byte header :: rest ++ t) = rest ++ t := rfl
  rw [detectedLines, hdrop]
  cases hn : lineReader.next rest with
  | none =>
      cases hi : lineReader.items (rest ++ t) with
      | nil => simp [putBack, hi]
      | cons raw raws => simp [putBack, hn, hi]
  | some p =>
      obtain ⟨raw, r⟩ := p
      have hnt : lineReader.next (rest ++ t) = some (raw, r ++ t) := lineReader.stable t hn
      have hscan : scanLine [Transport.octetByte header h0] (rest ++ t) =
          some (Transport.octetByte header h0 :: raw, r ++ t) :=
        Transport.scanLine_append [Transport.octetByte header h0] hnt
      have hwhole : lineReader.next (.byte header :: rest ++ t) =
          some (Transport.octetByte header h0 :: raw, r ++ t) := by
        show scanLine [] (.byte header :: (rest ++ t)) = _
        rw [scanLine, dif_neg h0, if_neg hlf, if_neg hcr, if_neg fun h => hsep h.1]
        exact hscan
      have hc : LineClient.complete header raw = Transport.octetByte header h0 :: raw := dif_pos h0
      rw [Reader.items_some hnt, Reader.items_some hwhole]
      simp only [putBack, hn, Option.isSome_some, if_true, hc]

/-- The lines of a client reach the listener, and behind the PASS that made it a client its
transport, each once and in order, however the stream arrives.  They are the lines of its stream if
a whole line was there when the type was detected; if not, the first byte of the stream is lost. -/
theorem reachable_handed (h : Reach (step listener) Admits start s) (hreg : s.client.type = .regular) :
    ∃ first raws lines n, s.first = some first ∧
      s.client.handled = raws.filterMap ircParseLine ∧
      (s.client.transport = none → lines = []) ∧
      (∀ r, s.client.transport = some r → r.called = callsOf lines ++ List.replicate n .hangup ∧
        ∃ l, s.client.handled.getLast? = some l ∧ LogsIn listener l) ∧
      raws ++ lines.map Prod.snd <+: detectedLines first s.arrived ∧
      (s.Waiting → raws ++ lines.map Prod.snd = detectedLines first s.arrived) ∧
      (∀ header rest, first = .byte header :: rest → Plain header →
        detectedLines first s.arrived =
          if (lineReader.next rest).isSome then lineReader.items s.arrived
          else lineReader.items (s.arrived.drop 1)) := by
  have hs : s.Heard listener := h.invariant start_heard fun s e hi hok => step_heard hi hok
  obtain ⟨first, raws, hd⟩ := hs.regular hreg
  have hplain : ∀ header rest, first = .byte header :: rest → Plain header →
      detectedLines first s.arrived =
        if (lineReader.next rest).isSome then lineReader.items s.arrived
        else lineReader.items (s.arrived.drop 1) := by
    rintro header rest rfl hp
    exact detectedLines_plain hp hd.sub
  rcases hd.rest with ⟨ht, htakes⟩ | ⟨-, left, t, ht, htakes, ⟨charsets, lines, n, ho⟩, hlog⟩
  · have hlines : detectedLines first s.arrived =
        putBack first raws ++ lineReader.items s.client.unread := by
      rw [detectedLines, htakes.items_eq, putBack_append hd.whole]
    refine ⟨first, putBack first raws, [], 0, hd.known, hd.handled, fun _ => rfl, ?_, ?_, ?_, hplain⟩
    · intro r hr
      rw [ht] at hr
      cases hr
    · rw [hlines]
      simp
    · intro hw
      have hw : lineReader.next s.client.unread = none := by simpa only [Waiting, ht] using hw
      rw [hlines, Reader.items_none hw]
      rfl
  · have hlines : detectedLines first s.arrived =
        putBack first raws ++ (lines.map Prod.snd ++ lineReader.items t.unread) := by
      rw [detectedLines, htakes.items_eq, putBack_append hd.whole, ho.takes.items_eq]
    refine ⟨first, putBack first raws, lines, n, hd.known, hd.handled, ?_, ?_, ?_, ?_, hplain⟩
    · intro hnone
      rw [ht] at hnone
      cases hnone
    · intro r hr
      rw [ht] at hr
      cases hr
      exact ⟨ho.called, hlog⟩
    · rw [hlines, ← List.append_assoc]
      exact List.prefix_append _ _
    · intro hw
      have hw : lineReader.next t.unread = none := by simpa only [Waiting, ht] using hw
      rw [hlines, Reader.items_none hw, List.append_nil]

instance (s : Peer) : (e : Event) → Decidable (s.Admits e)
  | .arrive _ => .isTrue trivial
  | .receive _ _ => inferInstanceAs (Decidable (_ = _))
  | .setCharset _ => .isTrue trivial
  | .dispatch _ _ =>
      match h : s.client.transport with
      | none => .isFalse fun ⟨_, hr, _⟩ => by simp [h] at hr
      | some r => decidable_of_iff (r.watched = true ∧ _ ∧ (_ → _ → _))
          ⟨fun hr => ⟨r, h, hr⟩, fun ⟨_, hr, h'⟩ => by
            cases h.symm.trans hr
            exact h'⟩

/-- A password, and a line behind it in the same piece. -/
theorem reachable_handed_pass : ∃ s : Peer,
    s.client.transport.map Receiver.called = some [.recv (ircParseLine (str "NICK a"))] ∧
    ∃ first raws lines n, s.first = some first ∧
      s.client.handled = raws.filterMap ircParseLine ∧
      (s.client.transport = none → lines = []) ∧
      (∀ r, s.client.transport = some r → r.called = callsOf lines ++ List.replicate n .hangup ∧
        ∃ l, s.client.handled.getLast? = some l ∧
          LogsIn ⟨none, none, ⟨some (str "x"), false, []⟩⟩ l) ∧
      raws ++ lines.map Prod.snd <+: detectedLines first s.arrived ∧
      (s.Waiting → raws ++ lines.map Prod.snd = detectedLines first s.arrived) ∧
      (∀ header rest, first = .byte header :: rest → Plain header →
        detectedLines first s.arrived =
          if (lineReader.next rest).isSome then lineReader.items s.arrived
          else lineReader.items (s.arrived.drop 1)) := by
  let listener : LineListener := ⟨none, none, ⟨some (str "x"), false, []⟩⟩
  let a : Hearing := ⟨fun _ => ⟨str "h", fun _ => none, true, true⟩, true, ⟨fun _ => true, false⟩, 0⟩
  have run : (admittedRun (step listener) Admits start
      [.arrive (Transport.arrivals (str "PASS x\r\nNICK a\r\n")),
        .receive ⟨true, false, false⟩ a]).map
      (fun s => (s.client.transport.map Receiver.called, s.client.type)) =
        some (some [.recv (ircParseLine (str "NICK a"))], .regular) := by decide +kernel
  obtain ⟨s, hs, hcalled⟩ := Option.map_eq_some_iff.mp run
  obtain ⟨hcalled, hreg⟩ := Prod.mk.inj hcalled
  exact ⟨s, hcalled, reachable_handed (Reach.of_admittedRun .refl hs) hreg⟩

/-- A password of which one byte arrives first. -/
example : (admittedRun (step ⟨none, none, ⟨some (str "x"), false, []⟩⟩) Admits start
    [.arrive (Transport.arrivals (str "P")),
      .receive ⟨true, false, false⟩
        ⟨fun _ => ⟨str "h", fun _ => none, true, true⟩, true, ⟨fun _ => true, false⟩, 0⟩,
      .arrive (Transport.arrivals (str "ASS x\r\n")),
      .receive ⟨true, false, false⟩
        ⟨fun _ => ⟨str "h", fun _ => none, true, true⟩, true, ⟨fun _ => true, false⟩, 0⟩]).map
      (fun s => (s.client.handled, s.client.transport.isSome)) =
    some ((ircParseLine (str "ASS x")).toList, false) := by decide +kernel

end Peer

end Ctrlproxy.Listener
