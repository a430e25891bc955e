import Ctrlproxy.Connection.Server

/-!
# Connection — the states of a connection

`Consistent` says what the timers, the watch, the names and the network state are in each of the
six states.  Two things break it: `connect_network` opening a connection while the reconnect timer
runs, since nothing stops the timer, and `ssl_wrap_iochannel` failing, since the names are set
before the state is `CONNECTING`.  `reachable_consistent` is that every run without these keeps
`Consistent` and fails no assertion, and that one of these breaks it at once.
-/

namespace Ctrlproxy.Connection
open Outcome

/-! ### Runs -/

/-- What happens to a connection. -/
inductive Event where
  | connect (a : Attempt)
  | disconnect
  | selectNextServer
  | delayedConnect (timer : ℕ) (a : Attempt)
  | finishConnect (watch : ℕ) (cond : Condition) (a : Attempt)
  | hangup
  | error (message : Str)
  | ping (timer : ℕ) (silentTime : ℤ) (again : Bool)
  | endOfMotd

namespace Network

/-- A source whose callback returned `FALSE` is dropped.  What `ping_server` returns is not
defined: `again` is what the main loop reads. -/
def step (s : Network) : Event → Except Fault Network
  | .connect a => do
      let (_, s) ← s.connectNetwork a
      pure s
  | .disconnect => do
      let (_, s) ← s.disconnectNetwork
      pure s
  | .selectNextServer => .ok s.ircNetworkSelectNextServer
  | .delayedConnect timer a => do
      let (again, s) ← s.delayedConnectServer a
      pure (if again then s else { s with reconnects := s.reconnects.erase timer })
  | .finishConnect watch cond a => do
      let s ← s.serverFinishConnect cond a
      pure { s with connects := s.connects.erase watch }
  | .hangup => s.onTransportHup
  | .error message => s.onTransportError message
  | .ping timer silentTime again => do
      let s ← s.pingServer silentTime
      pure (if again then s else { s with pings := s.pings.erase timer })
  | .endOfMotd => .ok s.processEndOfMotd

/-- `connect_network` is called when its assertion allows, a callback while its source is
registered, and the callbacks of the transport while there is one. -/
def Admits (s : Network) : Event → Prop
  | .connect _ => s.state = .notConnected ∨ s.state = .reconnectPending
  | .disconnect => True
  | .selectNextServer => True
  | .delayedConnect timer _ => timer ∈ s.reconnects
  | .finishConnect watch _ _ => watch ∈ s.connects
  | .hangup => s.transport = true
  | .error _ => s.transport = true
  | .ping timer _ _ => timer ∈ s.pings
  | .endOfMotd => s.transport = true

/-- The server an attempt opens a connection to: there is one, its name is found, and one of its
addresses is connected to. -/
def opens (s : Network) (a : Attempt) : Option TcpServerConfig :=
  match s.pickServer.current, a.addresses.bind dial with
  | some cs, some _ => some cs
  | _, _ => none

/-- A connection is opened and cannot be wrapped. -/
def SslFails (s : Network) (a : Attempt) : Prop :=
  ∃ cs, s.opens a = some cs ∧ cs.ssl = true ∧ a.sslWraps = false

/-- A connection is opened that cannot be wrapped, or while the reconnect timer runs. -/
def Slips (s : Network) : Event → Prop
  | .connect a => s.SslFails a ∨ s.state = .reconnectPending ∧ (s.opens a).isSome
  | .delayedConnect _ a => s.SslFails a
  | _ => False

/-- What there is in which state. -/
structure Consistent (s : Network) : Prop where
  timer : s.reconnects ≠ [] ↔ s.state = .reconnectPending
  watch : s.connects ≠ [] → s.state = .connecting
  names : s.state = .notConnected ∨ s.state = .reconnectPending →
    s.localName = none ∧ s.remoteName = none
  external : s.externalState = true ↔ s.state = .loginSent ∨ s.state = .motdRecvd

/-! ### The invariant -/

/-- What holds but for the reconnect timer. -/
structure Core (s : Network) : Prop where
  connects : s.connects = [] ∨ s.state = .connecting ∧ s.connects = [s.connectId]
  pings : s.pings = [] ∨ s.transport = true ∧ s.pings = [s.pingId] ∧ 0 < s.pingId
  names : s.state = .notConnected ∨ s.state = .reconnectPending →
    s.localName = none ∧ s.remoteName = none
  external : s.externalState = true ↔ s.state = .loginSent ∨ s.state = .motdRecvd
  transport : s.transport = s.externalState
  ids : 0 < s.nextId

/-- The timer that is registered, as `reconnect_id` has it. -/
def pendingTimer (s : Network) : List ℕ :=
  if s.state = .reconnectPending then [s.reconnectId] else []

structure Sound (s : Network) : Prop where
  core : s.Core
  reconnects : s.reconnects = s.pendingTimer

variable {s : Network} {a : Attempt}

theorem Sound.consistent (h : s.Sound) : s.Consistent where
  timer := by
    rw [h.reconnects, pendingTimer]
    split <;> simp [*]
  watch := fun hne => (h.core.connects.resolve_left hne).1
  names := h.core.names
  external := h.core.external

theorem ircNetworkNew_sound (servers : List TcpServerConfig) (autoconnect : Bool) :
    (ircNetworkNew servers autoconnect).Sound :=
  ⟨⟨.inl rfl, .inl rfl, fun _ => ⟨rfl, rfl⟩, by simp [ircNetworkNew], rfl, Nat.one_pos⟩, rfl⟩

/-- What has no bearing on the invariant. -/
theorem Sound.networkReportDisconnect (h : s.Sound) (reason : Str) :
    (s.networkReportDisconnect reason).Sound :=
  ⟨⟨h.core.connects, h.core.pings, h.core.names, h.core.external, h.core.transport, h.core.ids⟩,
    h.reconnects⟩

theorem Sound.select (h : s.Sound) (i : Option ℕ) (auto : Bool) :
    Sound { s with currentServer := i, autoconnect := auto } :=
  ⟨⟨h.core.connects, h.core.pings, h.core.names, h.core.external, h.core.transport, h.core.ids⟩,
    h.reconnects⟩

theorem Sound.unwatch (h : s.Sound) : Sound { s with connects := [] } :=
  ⟨⟨.inl rfl, h.core.pings, h.core.names, h.core.external, h.core.transport, h.core.ids⟩,
    h.reconnects⟩

theorem Sound.unping (h : s.Sound) : Sound { s with pings := [] } :=
  ⟨⟨h.core.connects, .inl rfl, h.core.names, h.core.external, h.core.transport, h.core.ids⟩,
    h.reconnects⟩

theorem Core.not_external (h : s.Core) (h₁ : s.state ≠ .loginSent) (h₂ : s.state ≠ .motdRecvd) :
    s.externalState = false := by
  by_contra hext
  rcases h.external.mp (Bool.not_eq_false _ ▸ hext) with h' | h'
  · exact h₁ h'
  · exact h₂ h'

theorem Core.no_pings (h : s.Core) (h₁ : s.state ≠ .loginSent) (h₂ : s.state ≠ .motdRecvd) :
    s.pings = [] := by
  rcases h.pings with hp | ⟨ht, -⟩
  · exact hp
  · rw [h.transport, h.not_external h₁ h₂] at ht
    cases ht

/-! ### Closing -/

/-- After `close_server`. -/
structure Closed (s : Network) : Prop where
  state : s.state = .notConnected
  reconnects : s.reconnects = []
  connects : s.connects = []
  pings : s.pings = []
  names : s.localName = none ∧ s.remoteName = none
  external : s.externalState = false
  transport : s.transport = false
  ids : 0 < s.nextId

theorem Closed.sound (h : s.Closed) : s.Sound where
  core := ⟨.inl h.connects, .inl h.pings, fun _ => h.names, by simp [h.external, h.state],
    h.transport.trans h.external.symm, h.ids⟩
  reconnects := by rw [h.reconnects, pendingTimer, h.state]; rfl

/-- What closing drops once the connection is open. -/
theorem Core.drop (h : s.Core) (hr : s.reconnects = []) (hc : s.connects = []) :
    Closed
      { (if 0 < s.pingId then { s with pings := s.pings.erase s.pingId, pingId := 0 } else s).freeTcpNames
        with externalState := false, transport := false, state := .notConnected } := by
  rcases h.pings with hp | ⟨-, hp, hid⟩
  · split
    · exact ⟨rfl, hr, hc, by simp [freeTcpNames, hp], ⟨rfl, rfl⟩, rfl, rfl, h.ids⟩
    · exact ⟨rfl, hr, hc, hp, ⟨rfl, rfl⟩, rfl, rfl, h.ids⟩
  · rw [if_pos hid]
    exact ⟨rfl, hr, hc, by simp [freeTcpNames, hp], ⟨rfl, rfl⟩, rfl, rfl, h.ids⟩

/-- Closing ends in `NOT_CONNECTED`, unless there is no transport to close. -/
theorem Sound.closeServer (h : s.Sound) :
    Ensures s.closeServer (fun r => r.2.Closed) (· = .null) := by
  have hr := h.reconnects
  unfold Network.closeServer
  by_cases hopen : s.state = .loginSent ∨ s.state = .motdRecvd ∨ s.state = .connected
  · have h₁ : s.state ≠ .reconnectPending := by rcases hopen with h | h | h <;> simp [h]
    have h₂ : s.state ≠ .connecting := by rcases hopen with h | h | h <;> simp [h]
    have h₃ : s.state ≠ .notConnected := by rcases hopen with h | h | h <;> simp [h]
    have hc : s.connects = [] := h.core.connects.resolve_right fun hc => h₂ hc.1
    dsimp only
    rw [if_neg h₁, if_neg h₂, if_neg h₃]
    by_cases ht : s.transport = true
    · rw [if_pos ht]
      have hd := h.core.drop (by rw [hr, pendingTimer, if_neg h₁]) hc
      split
      · simpa [*, freeTcpNames] using hd
      · simpa [*, freeTcpNames] using hd
    · rw [if_neg ht]
      rfl
  · obtain ⟨hl, hm, hco⟩ : s.state ≠ .loginSent ∧ s.state ≠ .motdRecvd ∧ s.state ≠ .connected :=
      ⟨fun h => hopen (.inl h), fun h => hopen (.inr (.inl h)), fun h => hopen (.inr (.inr h))⟩
    have he := h.core.not_external hl hm
    have ht := h.core.transport.trans he
    have hp := h.core.no_pings hl hm
    cases hst : s.state with
    | notConnected =>
        have hc : s.connects = [] := h.core.connects.resolve_right (by simp [hst])
        simp only [hst, reduceCtorEq, if_false, if_true]
        exact ⟨hst, by rw [hr, pendingTimer, hst]; rfl, hc, hp, h.core.names (.inl hst), he, ht,
          h.core.ids⟩
    | reconnectPending =>
        have hc : s.connects = [] := h.core.connects.resolve_right (by simp [hst])
        simp only [reduceCtorEq, if_false, if_true]
        exact ⟨rfl, by simp [hr, pendingTimer, hst], hc, hp, h.core.names (.inr hst), he, ht,
          h.core.ids⟩
    | connecting =>
        simp only [hst, reduceCtorEq, if_false, if_true, freeTcpNames]
        refine ⟨rfl, by rw [hr, pendingTimer, hst]; rfl, ?_, hp, ⟨rfl, rfl⟩, he, ht, h.core.ids⟩
        rcases h.core.connects with hc | ⟨-, hc⟩ <;> simp [hc]
    | connected => exact absurd hst hco
    | loginSent => exact absurd hst hl
    | motdRecvd => exact absurd hst hm

theorem Sound.reconnect (h : s.Sound) (hst : s.state ≠ .reconnectPending) :
    Ensures s.reconnect (fun t => t.Sound ∧ t.connects = [] ∧ t.pings = []) (· = .null) := by
  unfold Network.reconnect
  rw [if_neg hst]
  refine h.closeServer.bind fun r hc => ?_
  exact ⟨⟨⟨.inl hc.connects, .inl hc.pings, fun _ => hc.names, by simp [hc.external],
    hc.transport.trans hc.external.symm, Nat.succ_pos _⟩, by simp [hc.reconnects, pendingTimer]⟩,
    hc.connects, hc.pings⟩

/-! ### Finishing a connect -/

/-- A connect that went well: the channel is set and the login is sent, or it could not be set. -/
def finished (s : Network) (a : Attempt) : Network :=
  if a.channelSets then
    { s with
      state := .loginSent, connectId := 0, transport := true, externalState := true
      pingId := s.nextId, pings := s.pings ++ [s.nextId], nextId := s.nextId + 1 }
  else { s with state := .connected, connectId := 0 }

theorem serverFinishConnect_out {cond : Condition} (he : cond.err = false) (ho : cond.out = true)
    (a : Attempt) : s.serverFinishConnect cond a = .ok (s.finished a) := by
  unfold Network.serverFinishConnect Network.networkSetIochannel finished
  rw [he, ho]
  cases a.channelSets <;> rfl

theorem finished_connects (a : Attempt) : (s.finished a).connects = s.connects := by
  unfold finished; split <;> rfl

theorem finished_reconnects (a : Attempt) : (s.finished a).reconnects = s.reconnects := by
  unfold finished; split <;> rfl

theorem finished_state (a : Attempt) :
    (s.finished a).state = .loginSent ∨ (s.finished a).state = .connected := by
  unfold finished; split <;> simp

theorem finished_unwatch (a : Attempt) :
    { s.finished a with connects := [] } = { s with connects := [] }.finished a := by
  unfold finished; split <;> rfl

theorem Core.finished (h : s.Core) (hst : s.state = .connecting) (hc : s.connects = [])
    (a : Attempt) : (s.finished a).Core := by
  have he := h.not_external (by simp [hst]) (by simp [hst])
  have hp := h.no_pings (by simp [hst]) (by simp [hst])
  unfold Network.finished
  split
  · exact ⟨.inl hc, .inr ⟨rfl, by simp [hp], h.ids⟩, by simp, by simp, rfl, Nat.succ_pos _⟩
  · exact ⟨.inl hc, .inl hp, by simp, by simp [he], h.transport, h.ids⟩

/-- The callback of the connect watch. -/
theorem Sound.serverFinishConnect (h : s.Sound) {watch : ℕ} (hw : watch ∈ s.connects)
    (cond : Condition) (a : Attempt) :
    Ensures (s.serverFinishConnect cond a)
      (fun t => Sound { t with connects := t.connects.erase watch }) (· = .null) := by
  obtain ⟨hst, hc⟩ := h.core.connects.resolve_left (List.ne_nil_of_mem hw)
  have hid : s.connects.erase watch = [] := by
    rw [hc] at hw ⊢
    simp [List.mem_singleton.mp hw]
  have hreport : ∀ reason, Ensures (s.networkReportDisconnect reason).reconnect
      (fun t => Sound { t with connects := t.connects.erase watch }) (· = .null) := by
    intro reason
    refine ((h.networkReportDisconnect reason).reconnect
      (show s.state ≠ _ by simp [hst])).imp fun t ht => ?_
    show Sound { t with connects := t.connects.erase watch }
    rw [ht.2.1]
    exact ht.1.unwatch
  by_cases he : cond.err = true
  · unfold Network.serverFinishConnect
    rw [if_pos he]
    exact hreport _
  · by_cases ho : cond.out = true
    · rw [serverFinishConnect_out (Bool.not_eq_true _ ▸ he) ho]
      have hcore := h.unwatch.core.finished hst rfl a
      have hne : (s.finished a).state ≠ .reconnectPending := by
        rcases finished_state (s := s) a with h | h <;> simp [h]
      show Sound { s.finished a with connects := (s.finished a).connects.erase watch }
      rw [finished_connects, hid]
      refine ⟨finished_unwatch a ▸ hcore, ?_⟩
      rw [pendingTimer, if_neg hne]
      show (s.finished a).reconnects = []
      rw [finished_reconnects, h.reconnects, pendingTimer, hst]
      rfl
    · unfold Network.serverFinishConnect
      rw [if_neg he, if_neg ho]
      split
      · exact hreport _
      · show Sound { s with connects := s.connects.erase watch }
        rw [hid]
        exact h.unwatch

/-! ### Connecting -/

theorem pickServer_eq : s.pickServer = { s with currentServer := s.pickServer.currentServer } := by
  unfold pickServer
  cases s.currentServer <;> rfl

/-- An attempt that opens no connection changes no more than the server that is next. -/
theorem connect_unopened (ho : s.opens a = none) (hn : s.localName = none ∧ s.remoteName = none) :
    ∃ i auto, s.connectCurrentTcpServer a =
      .ok (false, { s with currentServer := i, autoconnect := auto }) := by
  have hpick := pickServer_eq (s := s)
  unfold Network.opens at ho
  unfold Network.connectCurrentTcpServer
  dsimp only
  generalize s.pickServer.current = cs at ho ⊢
  generalize s.pickServer.currentServer = i at hpick
  rw [hpick]
  cases cs with
  | none => exact ⟨i, false, rfl⟩
  | some cs =>
      cases haddr : a.addresses with
      | none => exact ⟨i, s.autoconnect, rfl⟩
      | some addresses =>
          rw [haddr, Option.bind_some] at ho
          cases hd : dial addresses with
          | none =>
              refine ⟨i, s.autoconnect, ?_⟩
              dsimp only
              rw [if_neg (by simp [hn]), hd]
          | some found => rw [hd] at ho; cases ho

theorem connect_opened {cs : TcpServerConfig} (ho : s.opens a = some cs)
    (hn : s.localName = none ∧ s.remoteName = none) :
    ∃ i addr finished, s.connectCurrentTcpServer a =
      { s with currentServer := i }.connectOpened cs a addr finished := by
  have hpick := pickServer_eq (s := s)
  unfold Network.opens at ho
  unfold Network.connectCurrentTcpServer
  dsimp only
  generalize s.pickServer.current = cs' at ho ⊢
  generalize s.pickServer.currentServer = i at hpick
  rw [hpick]
  cases cs' with
  | none => cases ho
  | some cs' =>
      cases haddr : a.addresses with
      | none => rw [haddr] at ho; cases ho
      | some addresses =>
          rw [haddr, Option.bind_some] at ho
          cases hd : dial addresses with
          | none => rw [hd] at ho; cases ho
          | some found =>
              rw [hd] at ho
              cases ho
              refine ⟨i, found.1, found.2, ?_⟩
              dsimp only
              rw [if_neg (by simp [hn]), hd]

/-- A connection that is opened, and wrapped where it has to be. -/
theorem Core.connectOpened (h : s.Core) (hst : s.state = .notConnected ∨ s.state = .reconnectPending)
    {cs : TcpServerConfig} (hssl : ¬ (cs.ssl = true ∧ a.sslWraps = false)) (addr : Str)
    (finished : Bool) :
    Total (s.connectOpened cs a addr finished) fun r =>
      r.2.Core ∧ r.2.reconnects = s.reconnects ∧ r.2.state ≠ .reconnectPending := by
  have h₁ : s.state ≠ .loginSent := by rcases hst with h | h <;> simp [h]
  have h₂ : s.state ≠ .motdRecvd := by rcases hst with h | h <;> simp [h]
  have hc : s.connects = [] :=
    h.connects.resolve_right fun hc => by rcases hst with h | h <;> simp [h] at hc
  have he := h.not_external h₁ h₂
  have hcore : Core
      { s with remoteName := some addr, localName := some a.localName, state := .connecting } :=
    ⟨.inl hc, .inl (h.no_pings h₁ h₂), by simp, by simp [he], h.transport, h.ids⟩
  unfold Network.connectOpened
  dsimp only
  rw [if_neg hssl]
  cases finished with
  | true =>
      rw [if_pos rfl, serverFinishConnect_out rfl rfl]
      refine ⟨hcore.finished rfl hc a, finished_reconnects a, ?_⟩
      rcases finished_state (s := { s with
        remoteName := some addr, localName := some a.localName, state := .connecting }) a with h | h
      · exact fun hp => by cases h.symm.trans hp
      · exact fun hp => by cases h.symm.trans hp
  | false =>
      exact ⟨⟨.inr ⟨rfl, by simp [hc]⟩, hcore.pings, hcore.names, hcore.external, hcore.transport,
        Nat.succ_pos _⟩, rfl, by simp⟩

/-- A connection that cannot be wrapped, while the reconnect timer runs. -/
theorem connectOpened_asserts (hst : s.state = .reconnectPending) {cs : TcpServerConfig}
    (hssl : cs.ssl = true ∧ a.sslWraps = false) (addr : Str) (finished : Bool) :
    s.connectOpened cs a addr finished = .error .assertion := by
  unfold Network.connectOpened Network.reconnect Network.networkReportDisconnect
  dsimp only
  rw [if_pos hssl, if_pos hst]
  rfl

/-- A connection that cannot be wrapped leaves its names behind. -/
theorem connectOpened_leaves_names (hst : s.state = .notConnected) {cs : TcpServerConfig}
    (hssl : cs.ssl = true ∧ a.sslWraps = false) (addr : Str) (finished : Bool) :
    Total (s.connectOpened cs a addr finished) fun r => ¬ r.2.Consistent := by
  unfold Network.connectOpened Network.reconnect Network.closeServer networkReportDisconnect
  dsimp only
  rw [if_pos hssl]
  simp only [hst, reduceCtorEq, if_false, if_true]
  intro hcons
  cases (hcons.names (.inr rfl)).1

/-! ### Steps -/

theorem step_connect (ha : s.Admits (.connect a)) :
    s.step (.connect a) = s.connectCurrentTcpServer a >>= fun r => .ok r.2 := by
  have hst : s.state = .notConnected ∨ s.state = .reconnectPending := ha
  simp only [Network.step, Network.connectNetwork, if_pos hst]
  cases s.connectCurrentTcpServer a <;> rfl

theorem step_delayedConnect (timer : ℕ) :
    s.step (.delayedConnect timer a) = s.connectCurrentTcpServer a >>= fun r =>
      .ok (if decide (r.2.state = .reconnectPending) then r.2
        else { r.2 with reconnects := r.2.reconnects.erase timer }) := by
  simp only [Network.step, Network.delayedConnectServer]
  cases s.connectCurrentTcpServer a <;> rfl

/-- An attempt whose connection, if it opens one, can be wrapped. -/
theorem Sound.connectCurrentTcpServer (h : s.Sound)
    (hst : s.state = .notConnected ∨ s.state = .reconnectPending) (hssl : ¬ s.SslFails a) :
    Total (s.connectCurrentTcpServer a) fun r =>
      s.opens a = none ∧ r.2.Sound ∧ r.2.state = s.state ∨
      (s.opens a).isSome ∧ r.2.Core ∧ r.2.reconnects = s.reconnects ∧
        r.2.state ≠ .reconnectPending := by
  have hn := h.core.names hst
  cases ho : s.opens a with
  | none =>
      obtain ⟨i, auto, heq⟩ := connect_unopened ho hn
      rw [heq]
      exact .inl ⟨rfl, h.select i auto, rfl⟩
  | some cs =>
      obtain ⟨i, addr, finished, heq⟩ := connect_opened ho hn
      rw [heq]
      have hno : ¬ (cs.ssl = true ∧ a.sslWraps = false) := fun hf => hssl ⟨cs, ho, hf⟩
      exact ((h.select i s.autoconnect).core.connectOpened hst hno addr finished).imp
        fun r hr => .inr ⟨rfl, hr⟩

theorem Core.sound (h : s.Core) (hr : s.reconnects = []) (hst : s.state ≠ .reconnectPending) :
    s.Sound :=
  ⟨h, by rw [hr, pendingTimer, if_neg hst]⟩

theorem Sound.state_of_transport (h : s.Sound) (ht : s.transport = true) :
    s.state ≠ .reconnectPending := by
  rcases h.core.external.mp (h.core.transport ▸ ht) with h | h <;> simp [h]

theorem Sound.connect (h : s.Sound) (ha : s.Admits (.connect a)) (hno : ¬ s.Slips (.connect a)) :
    Total (s.step (.connect a)) Sound := by
  rw [step_connect ha]
  refine (h.connectCurrentTcpServer ha fun hf => hno (.inl hf)).bind ?_
  rintro r (⟨-, hs, -⟩ | ⟨ho, hc, hr, hst⟩)
  · exact hs
  · have hidle : s.state ≠ .reconnectPending := fun hp => hno (.inr ⟨hp, ho⟩)
    exact hc.sound (by rw [hr, h.reconnects, pendingTimer, if_neg hidle]) hst

/-- The timer that is registered is `reconnect_id`, and the state is `RECONNECT_PENDING`. -/
theorem Sound.timer (h : s.Sound) {timer : ℕ} (hm : timer ∈ s.reconnects) :
    s.state = .reconnectPending ∧ s.reconnects.erase timer = [] := by
  rw [h.reconnects, pendingTimer] at hm ⊢
  split at hm
  · next hst =>
    rw [if_pos hst, List.mem_singleton.mp hm]
    exact ⟨hst, List.erase_cons_head _ _⟩
  · cases hm

theorem Sound.delayedConnect (h : s.Sound) {timer : ℕ} (ha : s.Admits (.delayedConnect timer a))
    (hno : ¬ s.Slips (.delayedConnect timer a)) :
    Total (s.step (.delayedConnect timer a)) Sound := by
  obtain ⟨hst, htimer⟩ := h.timer ha
  rw [step_delayedConnect]
  refine (h.connectCurrentTcpServer (.inr hst) hno).bind ?_
  rintro r (⟨-, hs, hst'⟩ | ⟨-, hc, hr, hst'⟩)
  · rw [decide_eq_true (hst'.trans hst)]
    exact hs
  · rw [decide_eq_false hst', ensures_ok, if_neg Bool.false_ne_true, hr, htimer]
    exact Core.sound ⟨hc.connects, hc.pings, hc.names, hc.external, hc.transport, hc.ids⟩ rfl hst'

theorem Sound.pingServer (h : s.Sound) {timer : ℕ} (hm : timer ∈ s.pings) (silentTime : ℤ) :
    Ensures (s.pingServer silentTime)
      (fun t => t.Sound ∧ Sound { t with pings := t.pings.erase timer }) (· = .null) := by
  obtain ⟨ht, hp, -⟩ := h.core.pings.resolve_left (List.ne_nil_of_mem hm)
  unfold Network.pingServer
  split
  · refine ((h.networkReportDisconnect _).reconnect (h.state_of_transport ht)).imp fun t ht => ?_
    rw [ht.2.2]
    exact ⟨ht.1, ht.1.unping⟩
  · have herase : s.pings.erase timer = [] := by
      rw [hp] at hm ⊢
      rw [List.mem_singleton.mp hm]
      exact List.erase_cons_head _ _
    refine ⟨h, ?_⟩
    rw [herase]
    exact h.unping

theorem Sound.endOfMotd (h : s.Sound) (ht : s.transport = true) : s.processEndOfMotd.Sound := by
  have he : s.externalState = true := h.core.transport ▸ ht
  have hst := h.core.external.mp he
  have hc : s.connects = [] :=
    h.core.connects.resolve_right fun hc => by rcases hst with h | h <;> simp [h] at hc
  have hr : s.reconnects = [] := by
    rw [h.reconnects, pendingTimer, if_neg (h.state_of_transport ht)]
  unfold Network.processEndOfMotd
  rw [if_pos he]
  exact Core.sound ⟨.inl hc, h.core.pings, by simp, by simp [he], h.core.transport, h.core.ids⟩ hr
    (by simp)

theorem Sound.step (h : s.Sound) {e : Event} (ha : s.Admits e) (hno : ¬ s.Slips e) :
    Ensures (s.step e) Sound (· = .null) := by
  have hmono : ∀ {x : Except Fault Network} {Q : Network → Prop}, Total x Q →
      Ensures x Q (· = .null) := fun hx => hx.mono (fun _ h => h) fun _ h => h.elim
  cases e with
  | connect a => exact hmono (h.connect ha hno)
  | disconnect =>
      unfold Network.step Network.disconnectNetwork
      dsimp only
      split
      · exact h
      · exact h.closeServer.bind fun r hr => hr.sound
  | selectNextServer => exact h.select _ s.autoconnect
  | delayedConnect timer a => exact hmono (h.delayedConnect ha hno)
  | finishConnect watch cond a => exact (h.serverFinishConnect ha cond a).bind fun t ht => ht
  | hangup =>
      exact ((h.networkReportDisconnect _).reconnect (h.state_of_transport ha)).imp fun t ht => ht.1
  | error message =>
      exact ((h.networkReportDisconnect _).reconnect (h.state_of_transport ha)).imp fun t ht => ht.1
  | ping timer silentTime again =>
      refine (h.pingServer ha silentTime).bind fun t ht => ?_
      cases again with
      | true => exact ht.1
      | false => exact ht.2
  | endOfMotd => exact h.endOfMotd ha

/-- A step that slips fails an assertion or ends in an inconsistent state. -/
theorem Sound.slip (h : s.Sound) {e : Event} (ha : s.Admits e) (hs : s.Slips e) :
    Ensures (s.step e) (fun t => ¬ t.Consistent) (· = .assertion) := by
  cases e with
  | connect a =>
      rw [step_connect ha]
      by_cases hssl : s.SslFails a
      · obtain ⟨cs, ho, hf⟩ := hssl
        obtain ⟨i, addr, finished, heq⟩ := connect_opened ho (h.core.names ha)
        rw [heq]
        rcases ha with hst | hst
        · have hleaves : Total ({ s with currentServer := i }.connectOpened cs a addr finished)
              fun r => ¬ r.2.Consistent :=
            connectOpened_leaves_names (s := { s with currentServer := i }) hst hf addr finished
          refine (hleaves.mono (fun _ h => h) fun _ h => h.elim).bind fun r hr => ?_
          exact hr
        · have herr : { s with currentServer := i }.connectOpened cs a addr finished =
              .error .assertion :=
            connectOpened_asserts (s := { s with currentServer := i }) hst hf addr finished
          rw [herr]
          rfl
      · obtain ⟨hst, ho⟩ := hs.resolve_left hssl
        refine ((h.connectCurrentTcpServer ha hssl).mono (fun _ h => h) fun _ h => h.elim).bind ?_
        rintro r (⟨hnone, -⟩ | ⟨-, -, hr, hst'⟩)
        · rw [hnone] at ho
          cases ho
        · -- the timer still runs
          intro hcons
          refine hst' (hcons.timer.mp ?_)
          rw [hr, h.reconnects, pendingTimer, if_pos hst]
          exact List.cons_ne_nil _ _
  | delayedConnect timer a =>
      obtain ⟨hst, -⟩ := h.timer ha
      obtain ⟨cs, ho, hf⟩ := hs
      obtain ⟨i, addr, finished, heq⟩ := connect_opened ho (h.core.names (.inr hst))
      have herr : { s with currentServer := i }.connectOpened cs a addr finished =
          .error .assertion :=
        connectOpened_asserts (s := { s with currentServer := i }) hst hf addr finished
      rw [step_delayedConnect, heq, herr]
      rfl
  | disconnect => exact hs.elim
  | selectNextServer => exact hs.elim
  | finishConnect watch cond a => exact hs.elim
  | hangup => exact hs.elim
  | error message => exact hs.elim
  | ping timer silentTime again => exact hs.elim
  | endOfMotd => exact hs.elim

/-- **The state of a connection is consistent.** In every run in which every connection that is
opened can be wrapped, and none is opened by hand while the reconnect timer runs: the timer is
registered exactly in `RECONNECT_PENDING`, a connect watch only in `CONNECTING`, there are names
only from `CONNECTING` on, and a network state exactly from the login on.  The next step fails no
assertion and keeps this exactly when it does not slip. -/
theorem reachable_consistent {servers : List TcpServerConfig} {autoconnect : Bool}
    (hr : Reach step (fun s e => s.Admits e ∧ ¬ s.Slips e) (ircNetworkNew servers autoconnect) s) :
    s.Consistent ∧ ∀ e, s.Admits e →
      (Ensures (s.step e) Consistent (· ≠ .assertion) ↔ ¬ s.Slips e) := by
  have hs : s.Sound := hr.invariant (ircNetworkNew_sound servers autoconnect) fun s e hs he =>
    (hs.step he.1 he.2).mono (fun _ h => h) fun _ _ => trivial
  refine ⟨hs.consistent, fun e ha => ⟨fun hen hslip => ?_, fun hno => ?_⟩⟩
  · have hbad := hs.slip ha hslip
    cases hx : s.step e with
    | ok t => rw [hx] at hen hbad; exact hbad hen
    | error f => rw [hx] at hen hbad; exact hen hbad
  · exact (hs.step ha hno).mono (fun t ht => ht.consistent) fun f hf => by rw [hf]; simp

/-- A connect that has to wait and is refused, and the reconnect the timer does. -/
theorem reachable_consistent_reconnected : ∃ s,
    Reach step (fun s e => s.Admits e ∧ ¬ s.Slips e)
      (ircNetworkNew [⟨str "irc", str "6667", false⟩] true) s ∧
    s.state = .loginSent ∧ s.reconnects = [] ∧ s.Consistent := by
  let waits : Attempt := ⟨some [(str "a", .inProgress)], str "b", true, true⟩
  let opens : Attempt := ⟨some [(str "a", .connected)], str "b", true, true⟩
  let refused : Condition := ⟨true, false, false, str "Connection refused"⟩
  have wrapped : ∀ s : Network, ¬ s.SslFails waits ∧ ¬ s.SslFails opens := fun s =>
    ⟨fun ⟨_, _, _, hf⟩ => (by cases hf), fun ⟨_, _, _, hf⟩ => (by cases hf)⟩
  have h₁ : Reach step (fun s e => s.Admits e ∧ ¬ s.Slips e)
      (ircNetworkNew [⟨str "irc", str "6667", false⟩] true) _ :=
    .step .refl (show Admits _ (.connect waits) ∧ ¬ Slips _ (.connect waits) from
      ⟨.inl rfl, fun h => h.elim (wrapped _).1 fun h => by cases h.1⟩) rfl
  have h₂ := h₁.step (show Admits _ (.finishConnect 1 refused waits) ∧
    ¬ Slips _ (.finishConnect 1 refused waits) from ⟨List.mem_singleton_self _, id⟩) rfl
  have h₃ := h₂.step (show Admits _ (.delayedConnect 2 opens) ∧
    ¬ Slips _ (.delayedConnect 2 opens) from ⟨List.mem_singleton_self _, (wrapped _).2⟩) rfl
  exact ⟨_, h₃, rfl, rfl, (reachable_consistent h₃).1⟩

/-- A connection that cannot be wrapped leaves its names behind: the timer that is armed fails the
assertion that there are none. -/
theorem names_outlive_connection :
    ¬ ∀ s, Reach step Admits (ircNetworkNew [⟨str "irc", str "6697", true⟩] true) s →
      s.Consistent ∧ ∀ e, s.Admits e → s.step e ≠ .error .assertion := by
  intro h
  let a : Attempt := ⟨some [(str "a", .connected)], str "b", false, true⟩
  have h₁ : Reach step Admits (ircNetworkNew [⟨str "irc", str "6697", true⟩] true) _ :=
    .step .refl (show Admits _ (.connect a) from .inl rfl) rfl
  exact (h _ h₁).2 (.delayedConnect 1 a) (List.mem_singleton_self _) rfl

end Network

end Ctrlproxy.Connection
