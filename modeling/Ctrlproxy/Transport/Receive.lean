import Ctrlproxy.Transport.Channel

/-!
# Transport — lines arrive in order

The receiving half of `libirc/transport_ioc.c`: each line of the peer is handed to the `recv`
callback, and each line that cannot be converted to another.

What a peer sends arrives in pieces, and the main loop calls `handle_transport_receive` when it
likes.  `reachable_called` says that this does not matter: the callbacks were called for a part of
the lines of the whole stream, from the first on and in order, and for all of them unless a callback
stopped the watch.  A dispatch stops behind a line that cannot be converted; `catch_up` is that
further dispatches get to the others.

The callbacks are outside: `called` is what they were called with.  Left out are the texts of the
errors, and what the callbacks do to the transport.
-/

namespace Ctrlproxy.Transport
open Outcome

/-- `GIOCondition`. -/
structure GIOCondition where
  inn : Bool
  hup : Bool
  err : Bool
  deriving DecidableEq, Repr

/-- A callback of the transport, and what it is called with. -/
inductive Callback where
  | recv (l : Option IrcLine)
  | charsetError
  | error
  | hangup
  deriving DecidableEq

/-- What the callbacks return: `recv`, to its `i`-th call in a dispatch, and `error`. -/
structure Replies where
  recv : ℕ → Bool
  error : Bool

/-- The callbacks want more, whatever they are called with. -/
structure Replies.Keeps (a : Replies) : Prop where
  recv : ∀ i, a.recv i = true
  error : a.error = true

/-- The incoming half of `struct irc_transport_data_iochannel`, with what the peer sent and the
channel has not given yet, whether the main loop has the watch, and the calls of the callbacks. -/
structure Receiver where
  incomingIconv : GIConv
  unread : List Arrival
  watched : Bool
  called : List Callback

namespace Receiver

/-- `handle_recv_status`. -/
def handleRecvStatus (s : Receiver) (a : Replies) (status : GIOStatus) (error : Option GConvertError) :
    Except Fault (Bool × Receiver) :=
  if status = .eof then .ok (false, { s with called := s.called ++ [.hangup] })
  else if status ≠ .again then
    match error with
    | none => .error .null
    | some .illegalSequence => .ok (true, { s with called := s.called ++ [.charsetError] })
    | some .other => .ok (a.error, { s with called := s.called ++ [.error] })
  else .ok (true, s)

/-- The loop of `handle_transport_receive`, from its `i`-th turn on. -/
def receiveLoop (a : Replies) : ℕ → ℕ → Receiver → Except Fault (Bool × Receiver)
  | 0, _, _ => .error .diverges
  | fuel + 1, i, s =>
      match ircRecvLine s.unread s.incomingIconv with
      | (.normal, _, l, rest) =>
          let s := { s with unread := rest, called := s.called ++ [.recv l] }
          if a.recv i then receiveLoop a fuel (i + 1) s else .ok (false, s)
      | (status, error, _, rest) => handleRecvStatus { s with unread := rest } a status error

/-- `handle_transport_receive`. -/
def handleTransportReceive (s : Receiver) (cond : GIOCondition) (a : Replies) :
    Except Fault (Bool × Receiver) :=
  if cond.err then .ok (false, { s with called := s.called ++ [.error] })
  else if cond.inn then receiveLoop a (s.unread.length + 1) 0 s
  else if cond.hup then .ok (false, { s with called := s.called ++ [.hangup] })
  else .ok (true, s)

/-- `irc_transport_new_iochannel`, for a channel that holds something already. -/
def ircTransportNewIochannel (unread : List Arrival) : Receiver := ⟨none, unread, false, []⟩

/-- `irc_transport_iochannel_activate`: what the handler returns is ignored.  `inn` is whether the
channel has read something already. -/
def activate (s : Receiver) (inn : Bool) (a : Replies) : Except Fault Receiver := do
  let (_, s) ← { s with watched := true }.handleTransportReceive ⟨inn, false, false⟩ a
  pure s

/-- The main loop calls the handler. -/
def dispatch (s : Receiver) (cond : GIOCondition) (a : Replies) : Except Fault Receiver := do
  let (ret, s) ← s.handleTransportReceive cond a
  pure (if ret then s else { s with watched := false })

end Receiver

/-! ### Runs -/

/-- A transport, all that its peer has sent, and the charsets it has had. -/
structure Inbound where
  receiver : Receiver
  arrived : List Arrival
  charsets : List GIConv

namespace Inbound

/-- What happens to it. -/
inductive Event where
  | arrive (piece : List Arrival)
  | setCharset (iconv : GIConv)
  | activate (inn : Bool) (a : Replies)
  | dispatch (cond : GIOCondition) (a : Replies)

def start (unread : List Arrival) : Inbound := ⟨.ircTransportNewIochannel unread, unread, [none]⟩

/-- `setCharset` is what `irc_transport_iochannel_set_charset` does for lines that are received. -/
def step (s : Inbound) : Event → Except Fault Inbound
  | .arrive piece =>
      .ok { s with
        receiver := { s.receiver with unread := s.receiver.unread ++ piece }
        arrived := s.arrived ++ piece }
  | .setCharset iconv =>
      .ok { s with
        receiver := { s.receiver with incomingIconv := iconv }
        charsets := s.charsets ++ [iconv] }
  | .activate inn a => do
      let r ← s.receiver.activate inn a
      pure { s with receiver := r }
  | .dispatch cond a => do
      let r ← s.receiver.dispatch cond a
      pure { s with receiver := r }

/-- The watch is for `G_IO_IN` and `G_IO_HUP`, and the second comes alone when the peer has closed
the connection and nothing else is to be read. -/
def Admits (s : Inbound) : Event → Prop
  | .arrive _ => True
  | .setCharset _ => True
  | .activate _ _ => True
  | .dispatch cond _ => s.receiver.watched = true ∧ cond.err = false ∧
      (cond.hup = true → cond.inn = false → s.receiver.unread.head? = some .closed)

instance (s : Inbound) (e : Event) : Decidable (s.Admits e) :=
  match e with
  | .arrive _ => .isTrue trivial
  | .setCharset _ => .isTrue trivial
  | .activate _ _ => .isTrue trivial
  | .dispatch _ _ => inferInstanceAs (Decidable (_ ∧ _ ∧ (_ → _ → _)))

end Inbound

/-! ### Order -/

/-- The call for a line. -/
def Callback.ofLine (iconv : GIConv) (raw : Str) : Callback :=
  match iconv with
  | none => .recv (ircParseLine raw)
  | some convert =>
      match convert raw with
      | .ok cvrt => .recv (ircParseLine cvrt)
      | .error .illegalSequence => .charsetError
      | .error .other => .error

/-- Behind the end of the file nothing is read. -/
theorem next_closed {c : List Arrival} (h : c.head? = some .closed) : lineReader.next c = none := by
  cases c with
  | nil => cases h
  | cons a c =>
      cases h
      rfl

theorem takes_closed {c r : List Arrival} {raws : List Str} (h : lineReader.Takes c raws r)
    (hc : c.head? = some .closed) : raws = [] ∧ r = c := by
  cases h with
  | refl => exact ⟨rfl, rfl⟩
  | next hn _ =>
      rw [next_closed hc] at hn
      cases hn

/-- `irc_recv_line`, by what is to be read. -/
theorem ircRecvLine_cases (c : List Arrival) (iconv : GIConv) :
    (lineReader.next c = none ∧ (ircRecvLine c iconv = (.eof, none, none, c) ∧ c.head? = some .closed ∨
      ircRecvLine c iconv = (.again, none, none, c))) ∨
    ∃ raw rest, lineReader.next c = some (raw, rest) ∧
      ((∃ l, Callback.ofLine iconv raw = .recv l ∧ ircRecvLine c iconv = (.normal, none, l, rest)) ∨
      ∃ e l, Callback.ofLine iconv raw = (if e = .illegalSequence then .charsetError else .error) ∧
        ircRecvLine c iconv = (.error, some e, l, rest)) := by
  unfold ircRecvLine gIoChannelReadLine
  cases hn : lineReader.next c with
  | none =>
      have hs : scanLine [] c = none := hn
      refine .inl ⟨rfl, ?_⟩
      simp only [hs]
      by_cases hc : c.head? = some .closed
      · exact .inl ⟨by simp [hc], hc⟩
      · exact .inr (by simp [hc])
  | some p =>
      obtain ⟨raw, rest⟩ := p
      have hs : scanLine [] c = some (raw, rest) := hn
      refine .inr ⟨raw, rest, rfl, ?_⟩
      simp only [hs, Callback.ofLine]
      cases iconv with
      | none => exact .inl ⟨_, rfl, rfl⟩
      | some convert =>
          dsimp only
          cases convert raw with
          | ok cvrt => exact .inl ⟨_, rfl, rfl⟩
          | error e => cases e <;> exact .inr ⟨_, _, rfl, rfl⟩

namespace Receiver

/-- From `s` to `s'` the lines `raws` were read and their calls made; then the end of the file was
reported, if `hangups` is not zero. -/
structure Reads (s s' : Receiver) (raws : List Str) (hangups : ℕ) : Prop where
  takes : lineReader.Takes s.unread raws s'.unread
  called : s'.called = s.called ++ raws.map (Callback.ofLine s.incomingIconv) ++
    List.replicate hangups .hangup
  closed : hangups ≠ 0 → s'.unread.head? = some .closed
  iconv : s'.incomingIconv = s.incomingIconv
  watched : s'.watched = s.watched

variable {s s₁ s' : Receiver} {a : Replies}

theorem Reads.refl (s : Receiver) : Reads s s [] 0 where
  takes := .refl _
  called := by simp
  closed h := absurd rfl h
  iconv := rfl
  watched := rfl

/-- One line, and then others. -/
theorem Reads.cons {raw : Str} {raws : List Str} {rest : List Arrival} {n : ℕ}
    (hn : lineReader.next s.unread = some (raw, rest))
    (h : Reads { s with unread := rest, called := s.called ++ [Callback.ofLine s.incomingIconv raw] } s'
      raws n) : Reads s s' (raw :: raws) n where
  takes := .next hn h.takes
  called := by simp [h.called]
  closed := h.closed
  iconv := h.iconv
  watched := h.watched

theorem Reads.hangup (hc : s.unread.head? = some .closed) :
    Reads s { s with called := s.called ++ [.hangup] } [] 1 where
  takes := .refl _
  called := by simp
  closed _ := hc
  iconv := rfl
  watched := rfl

/-- The loop reads lines, and one at least if there is one. -/
theorem receiveLoop_reads {fuel : ℕ} (i : ℕ) (hfuel : s.unread.length < fuel) :
    Total (receiveLoop a fuel i s) fun r => ∃ raws n, Reads s r.2 raws n ∧
      (raws = [] → lineReader.next s.unread = none) ∧ (a.Keeps → r.1 = true ∨ n ≠ 0) := by
  induction fuel generalizing s i with
  | zero => cases hfuel
  | succ fuel ih =>
      rw [receiveLoop]
      rcases ircRecvLine_cases s.unread s.incomingIconv with
        ⟨hn, ⟨hr, hc⟩ | hr⟩ | ⟨raw, rest, hn, ⟨l, hl, hr⟩ | ⟨e, l, hl, hr⟩⟩
      · rw [hr]
        exact ⟨[], 1, .hangup hc, fun _ => hn, fun _ => .inr Nat.one_ne_zero⟩
      · rw [hr]
        exact ⟨[], 0, .refl s, fun _ => hn, fun _ => .inl rfl⟩
      · rw [hr]
        dsimp only
        rw [← hl]
        split
        · have hshort : rest.length < s.unread.length := lineReader.shorter hn
          refine (ih (s := { s with unread := rest, called := _ }) (i + 1)
            (Nat.lt_of_lt_of_le hshort (Nat.lt_succ_iff.mp hfuel))).imp ?_
          rintro r ⟨raws, n, h, -, hk⟩
          exact ⟨raw :: raws, n, .cons hn h, nofun, hk⟩
        · next hf => exact ⟨[raw], 0, .cons hn (.refl _), nofun, fun ha => absurd (ha.recv i) hf⟩
      · rw [hr]
        dsimp only
        cases e with
        | illegalSequence =>
            exact ⟨[raw], 0, .cons hn (hl ▸ .refl _), nofun, fun _ => .inl rfl⟩
        | other => exact ⟨[raw], 0, .cons hn (hl ▸ .refl _), nofun, fun ha => .inl ha.error⟩

/-- `handle_transport_receive` for the conditions of the watch. -/
theorem handleTransportReceive_reads {cond : GIOCondition} (herr : cond.err = false)
    (hhup : cond.hup = true → cond.inn = false → s.unread.head? = some .closed) :
    Total (s.handleTransportReceive cond a) fun r => ∃ raws n, Reads s r.2 raws n ∧
      (cond.inn = true → raws = [] → lineReader.next s.unread = none) ∧
      (cond.inn = true → a.Keeps → r.1 = true ∨ n ≠ 0) := by
  unfold handleTransportReceive
  rw [herr, if_neg Bool.false_ne_true]
  cases hin : cond.inn with
  | true =>
      refine (receiveLoop_reads 0 (Nat.lt_succ_self _)).imp ?_
      rintro r ⟨raws, n, h, hnil, hk⟩
      exact ⟨raws, n, h, fun _ => hnil, fun _ => hk⟩
  | false =>
      rw [if_neg Bool.false_ne_true]
      split
      · next hh => exact ⟨[], 1, .hangup (hhup hh hin), nofun, nofun⟩
      · exact ⟨[], 0, .refl s, nofun, nofun⟩

end Receiver

namespace Inbound

/-- The calls for lines, each with the charset it was read in. -/
def callsOf (lines : List (GIConv × Str)) : List Callback :=
  lines.map fun p => Callback.ofLine p.1 p.2

/-- Lines were read off what arrived, and their calls made; the end of the file was reported after
the last. -/
structure Ordered (s : Inbound) (lines : List (GIConv × Str)) (hangups : ℕ) : Prop where
  takes : lineReader.Takes s.arrived (lines.map Prod.snd) s.receiver.unread
  called : s.receiver.called = callsOf lines ++ List.replicate hangups .hangup
  closed : hangups ≠ 0 → s.receiver.unread.head? = some .closed
  charsets : ∀ p ∈ lines, p.1 ∈ s.charsets
  iconv : s.receiver.incomingIconv ∈ s.charsets

variable {unread : List Arrival} {s : Inbound} {r : Receiver} {a : Replies}
  {lines : List (GIConv × Str)} {n : ℕ}

theorem start_ordered : (start unread).Ordered [] 0 where
  takes := .refl _
  called := rfl
  closed h := absurd rfl h
  charsets := nofun
  iconv := List.mem_singleton_self _

theorem Ordered.arrive (h : s.Ordered lines n) (piece : List Arrival) :
    Ordered { s with
      receiver := { s.receiver with unread := s.receiver.unread ++ piece }
      arrived := s.arrived ++ piece } lines n where
  takes := h.takes.arrive piece
  called := h.called
  closed hn := by
    rw [List.head?_append, h.closed hn]
    rfl
  charsets := h.charsets
  iconv := h.iconv

theorem Ordered.setCharset (h : s.Ordered lines n) (iconv : GIConv) :
    Ordered { s with
      receiver := { s.receiver with incomingIconv := iconv }
      charsets := s.charsets ++ [iconv] } lines n where
  takes := h.takes
  called := h.called
  closed := h.closed
  charsets p hp := List.mem_append_left _ (h.charsets p hp)
  iconv := List.mem_append_right _ (List.mem_singleton_self _)

/-- The lines a handler reads are read with the charset there is. -/
theorem Ordered.reads (h : s.Ordered lines n) {raws : List Str} {k : ℕ}
    (hr : s.receiver.Reads r raws k) :
    Ordered { s with receiver := r } (lines ++ raws.map fun raw => (s.receiver.incomingIconv, raw))
      (n + k) where
  takes := by
    have hraws : (raws.map fun raw => (s.receiver.incomingIconv, raw)).map Prod.snd = raws := by simp
    rw [List.map_append, hraws]
    exact h.takes.trans hr.takes
  called := by
    rw [hr.called, h.called]
    by_cases hn : n = 0
    · subst hn
      simp [callsOf]
    · -- behind the end of the file there is only the end of the file
      obtain ⟨rfl, -⟩ := takes_closed hr.takes (h.closed hn)
      simp only [callsOf, List.map_nil, List.append_nil, List.append_assoc, List.replicate_add]
  closed hne := by
    by_cases hn : n = 0
    · exact hr.closed (by simpa [hn] using hne)
    · obtain ⟨-, hu⟩ := takes_closed hr.takes (h.closed hn)
      exact hu ▸ h.closed hn
  charsets p hp := by
    rcases List.mem_append.mp hp with hp | hp
    · exact h.charsets p hp
    · obtain ⟨raw, -, rfl⟩ := List.mem_map.mp hp
      exact h.iconv
  iconv := hr.iconv ▸ h.iconv

/-- What the transport reads when it is activated. -/
theorem activate_ordered (inn : Bool) :
    Total ((Receiver.ircTransportNewIochannel unread).activate inn a) fun r =>
      ∃ lines n, Ordered ⟨r, unread, [none]⟩ lines n := by
  refine Ensures.bind (Receiver.handleTransportReceive_reads rfl nofun) ?_
  rintro r ⟨raws, k, hr, -⟩
  have hw : Ordered ⟨{ Receiver.ircTransportNewIochannel unread with watched := true }, unread, [none]⟩
      [] 0 := ⟨.refl _, rfl, fun h => absurd rfl h, nofun, List.mem_singleton_self _⟩
  exact ⟨_, _, hw.reads hr⟩

/-- Whether the main loop has the watch does not matter. -/
theorem Ordered.watch (h : Ordered { s with receiver := r } lines n) (w : Bool) :
    Ordered { s with receiver := { r with watched := w } } lines n :=
  ⟨h.takes, h.called, h.closed, h.charsets, h.iconv⟩

/-- The main loop calls the handler of a transport. -/
theorem dispatch_ordered {cond : GIOCondition} (herr : cond.err = false)
    (hhup : cond.hup = true → cond.inn = false → r.unread.head? = some .closed) :
    Total (r.dispatch cond a) fun t => ∀ arrived,
      (∃ charsets lines n, Ordered ⟨r, arrived, charsets⟩ lines n) →
        ∃ charsets lines n, Ordered ⟨t, arrived, charsets⟩ lines n := by
  refine Ensures.bind (Receiver.handleTransportReceive_reads herr hhup) ?_
  rintro ⟨ret, t⟩ ⟨raws, k, hr, -⟩
  cases ret with
  | true =>
      rintro arrived ⟨charsets, lines, n, ho⟩
      exact ⟨charsets, _, _, ho.reads hr⟩
  | false =>
      rintro arrived ⟨charsets, lines, n, ho⟩
      exact ⟨charsets, _, _, (ho.reads hr).watch false⟩

theorem step_ordered {e : Event} (h : ∃ lines n, s.Ordered lines n) (hok : s.Admits e) :
    Total (s.step e) fun s' => ∃ lines n, s'.Ordered lines n := by
  obtain ⟨lines, n, h⟩ := h
  cases e with
  | arrive piece => exact ⟨lines, n, h.arrive piece⟩
  | setCharset iconv => exact ⟨lines, n, h.setCharset iconv⟩
  | activate inn a =>
      have hw := Ordered.watch (r := s.receiver) h true
      refine Ensures.bind (Q := fun r => ∃ lines n, Ordered { s with receiver := r } lines n) ?_
        fun r hr => hr
      refine Ensures.bind (Receiver.handleTransportReceive_reads rfl nofun) ?_
      rintro r ⟨raws, k, hr, -⟩
      exact ⟨_, _, hw.reads hr⟩
  | dispatch cond a =>
      obtain ⟨-, herr, hhup⟩ := hok
      refine Ensures.bind (Q := fun r => ∃ lines n, Ordered { s with receiver := r } lines n) ?_
        fun r hr => hr
      refine Ensures.bind (Receiver.handleTransportReceive_reads herr hhup) ?_
      rintro ⟨ret, r⟩ ⟨raws, k, hr, -⟩
      cases ret with
      | true => exact ⟨_, _, h.reads hr⟩
      | false => exact ⟨_, _, (h.reads hr).watch false⟩

/-- However the stream arrives and whenever the handler is called, the callbacks are called for its
lines in order, for all of them before the end of the file is reported, and for all of them once no
line is left to read. -/
theorem reachable_called (h : Reach step Admits (start unread) s) :
    ∃ lines n, s.receiver.called = callsOf lines ++ List.replicate n .hangup ∧
      lines.map Prod.snd <+: lineReader.items s.arrived ∧
      (∀ p ∈ lines, p.1 ∈ s.charsets) ∧
      (n ≠ 0 ∨ lineReader.next s.receiver.unread = none →
        lines.map Prod.snd = lineReader.items s.arrived) := by
  obtain ⟨lines, n, ho⟩ : ∃ lines n, s.Ordered lines n :=
    h.invariant (I := fun s => ∃ lines n, s.Ordered lines n) ⟨[], 0, start_ordered⟩
      fun s e hi hok => (step_ordered hi hok).mono (fun _ h => h) fun _ h => h.elim
  refine ⟨lines, n, ho.called, ?_, ho.charsets, fun hn => ?_⟩
  · rw [ho.takes.items_eq]
    exact List.prefix_append _ _
  · exact (ho.takes.items_of_none (hn.elim (fun h => next_closed (ho.closed h)) id)).symm

/-- The two bytes of a `\r\n` arrive apart. -/
theorem reachable_called_split : ∃ s : Inbound,
    s.receiver.called = [.recv (ircParseLine (str "QUIT")), .recv (ircParseLine (str "PING"))] ∧
    ∃ lines n, s.receiver.called = callsOf lines ++ List.replicate n .hangup ∧
      lines.map Prod.snd <+: lineReader.items s.arrived ∧
      (∀ p ∈ lines, p.1 ∈ s.charsets) ∧
      (n ≠ 0 ∨ lineReader.next s.receiver.unread = none →
        lines.map Prod.snd = lineReader.items s.arrived) := by
  let a : Replies := ⟨fun _ => true, false⟩
  let cond : GIOCondition := ⟨true, false, false⟩
  have run : (admittedRun step Admits (start []) [.activate false a,
      .arrive (arrivals (str "QUIT\r")), .dispatch cond a, .arrive (arrivals (str "\nPING\n")),
      .dispatch cond a]).map (fun s => s.receiver.called) =
        some [.recv (ircParseLine (str "QUIT")), .recv (ircParseLine (str "PING"))] := by
    decide +kernel
  obtain ⟨s, hs, hcalled⟩ := Option.map_eq_some_iff.mp run
  have hr := Reach.of_admittedRun .refl hs
  exact ⟨s, hcalled, reachable_called hr⟩

/-! ### No line stays behind -/

/-- There is something to read, and the callbacks want more. -/
def Event.Reading (a : Replies) (e : Event) : Prop := e = .dispatch ⟨true, false, false⟩ a ∧ a.Keeps

/-- A dispatch leaves no line, or fewer than there were. -/
theorem dispatch_progress (hw : s.receiver.watched = true) (ha : a.Keeps) :
    ∃ s', s.step (.dispatch ⟨true, false, false⟩ a) = .ok s' ∧ s'.arrived = s.arrived ∧
      (lineReader.next s'.receiver.unread = none ∨ s'.receiver.watched = true ∧
        (lineReader.items s'.receiver.unread).length < (lineReader.items s.receiver.unread).length) := by
  have hread : Total (s.receiver.handleTransportReceive ⟨true, false, false⟩ a) fun r => ∃ raws n,
      s.receiver.Reads r.2 raws n ∧
      (true = true → raws = [] → lineReader.next s.receiver.unread = none) ∧
      (true = true → a.Keeps → r.1 = true ∨ n ≠ 0) :=
    Receiver.handleTransportReceive_reads rfl nofun
  obtain ⟨⟨ret, r⟩, hr, raws, n, hreads, hnil, hkeep⟩ := hread.exists_ok
  refine ⟨{ s with receiver := if ret then r else { r with watched := false } }, ?_, rfl, ?_⟩
  · simp only [step, Receiver.dispatch, hr, ok_bind, pure_eq_ok]
  · cases raws with
    | nil =>
        have hu : r.unread = s.receiver.unread := hreads.takes.eq_of_nil.symm
        left
        split <;> exact hu ▸ hnil rfl rfl
    | cons raw raws =>
        rcases hkeep rfl ha with hret | hn
        · right
          have hret : ret = true := hret
          rw [hret, if_pos rfl]
          refine ⟨hreads.watched.trans hw, ?_⟩
          have hitems : lineReader.items s.receiver.unread = raw :: raws ++ lineReader.items r.unread :=
            hreads.takes.items_eq
          rw [hitems, List.length_append, List.length_cons]
          exact Nat.lt_add_of_pos_left (Nat.succ_pos _)
        · left
          split <;> exact next_closed (hreads.closed hn)

/-- Dispatches alone get to the end of what has arrived. -/
theorem catch_up (hw : s.receiver.watched = true) (ha : a.Keeps) :
    ∃ s', Reach step (fun s e => s.Admits e ∧ e.Reading a) s s' ∧ s'.arrived = s.arrived ∧
      lineReader.next s'.receiver.unread = none := by
  induction hl : (lineReader.items s.receiver.unread).length using Nat.strong_induction_on
    generalizing s with
  | h n ih =>
    obtain ⟨s₁, hs, harr, hless⟩ := dispatch_progress hw ha
    have hok : s.Admits (.dispatch ⟨true, false, false⟩ a) := ⟨hw, rfl, nofun⟩
    have h₁ : Reach step (fun s e => s.Admits e ∧ e.Reading a) s s₁ := .step .refl ⟨hok, rfl, ha⟩ hs
    rcases hless with hdone | ⟨hw₁, hless⟩
    · exact ⟨s₁, h₁, harr, hdone⟩
    · obtain ⟨s₂, h₂, harr₂, hdone⟩ := ih _ (hl ▸ hless) hw₁ rfl
      exact ⟨s₂, h₁.trans h₂, harr₂.trans harr, hdone⟩

/-- While the main loop has the watch and the callbacks want more, nothing that has arrived stays
behind: dispatches alone get to where the calls for all lines were made, whatever lines could not be
converted. -/
theorem reachable_catch_up (h : Reach step Admits (start unread) s)
    (hw : s.receiver.watched = true) (ha : a.Keeps) :
    ∃ s' lines n, Reach step (fun s e => s.Admits e ∧ e.Reading a) s s' ∧ s'.arrived = s.arrived ∧
      s'.receiver.called = callsOf lines ++ List.replicate n .hangup ∧
      lines.map Prod.snd = lineReader.items s.arrived := by
  obtain ⟨s', hr, harr, hdone⟩ := catch_up hw ha
  obtain ⟨lines, n, hc, -, -, hall⟩ := reachable_called (h.trans (hr.weaken fun _ _ h => h.1))
  exact ⟨s', lines, n, hr, harr, hc, harr ▸ hall (.inr hdone)⟩

/-- The second of three lines cannot be converted. -/
theorem reachable_catch_up_unconvertible : ∃ s : Inbound,
    s.receiver.called = [.recv (ircParseLine (str "QUIT")), .charsetError] ∧
    ∃ s' lines n, Reach step (fun s e => s.Admits e ∧ e.Reading ⟨fun _ => true, true⟩) s s' ∧
      s'.arrived = s.arrived ∧
      s'.receiver.called = callsOf lines ++ List.replicate n .hangup ∧
      lines.map Prod.snd = lineReader.items s.arrived := by
  let iconv : GIConv := some fun raw => if chr '?' ∈ raw then .error .illegalSequence else .ok raw
  let a : Replies := ⟨fun _ => true, true⟩
  have run : (admittedRun step Admits (start (arrivals (str "QUIT\n?\nPING\n")))
      [.activate false a, .setCharset iconv, .dispatch ⟨true, false, false⟩ a]).map
      (fun s => (s.receiver.called, s.receiver.watched)) =
        some ([.recv (ircParseLine (str "QUIT")), .charsetError], true) := by decide +kernel
  obtain ⟨s, hs, hcalled⟩ := Option.map_eq_some_iff.mp run
  obtain ⟨hcalled, hw⟩ := Prod.mk.inj hcalled
  exact ⟨s, hcalled, reachable_catch_up (Reach.of_admittedRun .refl hs) hw ⟨fun _ => rfl, rfl⟩⟩

end Inbound

end Ctrlproxy.Transport
