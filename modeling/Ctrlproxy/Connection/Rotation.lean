import Ctrlproxy.Connection.Lifecycle

/-!
# Connection — which server is tried

The servers of a network are tried in their order, round and round, but not one an attempt: the next
has its turn when a connection is lost, when it cannot be wrapped, or when it is asked for by hand
(`Asks`).  An attempt that opens no connection leaves the turn where it is, and the timer tries the
same server again (`reachable_rotation`).
-/

namespace Ctrlproxy.Connection
open Outcome

/-- A connection, how often a server had its turn after the first, and for each attempt the turn it was
made in and the server that was tried. -/
structure Rotation where
  net : Network
  turns : ℕ
  attempts : List (ℕ × Option TcpServerConfig)

namespace Network

instance (s : Network) (a : Attempt) : Decidable (s.SslFails a) :=
  match h : s.opens a with
  | none => .isFalse fun ⟨_, hcs, _⟩ => Option.some_ne_none _ (hcs.symm.trans h)
  | some cs => decidable_of_iff (cs.ssl = true ∧ a.sslWraps = false)
      ⟨fun hf => ⟨cs, h, hf⟩, fun ⟨_, hcs, hf⟩ => Option.some.inj (h.symm.trans hcs) ▸ hf⟩

/-- The next server is asked for. -/
def Asks (s : Network) : Event → Prop
  | .connect a | .delayedConnect _ a => s.SslFails a
  | .finishConnect _ cond _ => cond.err = true ∨ cond.out = false ∧ cond.hup = true
  | .ping _ silentTime _ => MAX_SILENT_TIME < silentTime
  | .selectNextServer | .hangup | .error _ => True
  | .disconnect | .endOfMotd => False

instance (s : Network) : ∀ e, Decidable (s.Asks e)
  | .connect _ | .delayedConnect _ _ => inferInstanceAs (Decidable (s.SslFails _))
  | .finishConnect _ _ _ => inferInstanceAs (Decidable (_ ∨ _))
  | .ping _ _ _ => inferInstanceAs (Decidable (_ < _))
  | .selectNextServer | .hangup | .error _ => .isTrue trivial
  | .disconnect | .endOfMotd => .isFalse id

/-- The connection as an attempt finds it. -/
def picked (s : Network) : Event → Network
  | .connect _ | .delayedConnect _ _ => s.pickServer
  | _ => s

/-- A server is tried. -/
def attempted (s : Network) : Event → List (Option TcpServerConfig)
  | .connect _ | .delayedConnect _ _ => [s.pickServer.current]
  | _ => []

/-- With the same server. -/
structure Stays (s t : Network) : Prop where
  servers : t.servers = s.servers
  current : t.currentServer = s.currentServer

/-- With the next server. -/
structure Turns (s t : Network) : Prop where
  servers : t.servers = s.servers
  current : t.currentServer = s.networkGetNextTcpServer

section
variable {s t u : Network} {a : Attempt}

theorem Stays.refl (s : Network) : Stays s s := ⟨rfl, rfl⟩

theorem Stays.trans (h : Stays s t) (h' : Stays t u) : Stays s u :=
  ⟨h'.servers.trans h.servers, h'.current.trans h.current⟩

theorem Stays.next_eq (h : Stays s t) : t.networkGetNextTcpServer = s.networkGetNextTcpServer := by
  rw [networkGetNextTcpServer, networkGetNextTcpServer, h.servers, h.current]

theorem Stays.turns (h : Stays s t) (h' : Turns t u) : Turns s u :=
  ⟨h'.servers.trans h.servers, h'.current.trans h.next_eq⟩

theorem Turns.stays (h : Turns s t) (h' : Stays t u) : Turns s u :=
  ⟨h'.servers.trans h.servers, h'.current.trans h.current⟩

theorem closeServer_stays (s : Network) : Ensures s.closeServer (fun r => Stays s r.2) fun _ => True := by
  unfold Network.closeServer freeTcpNames
  dsimp only
  split_ifs
  all_goals first | trivial | exact ⟨rfl, rfl⟩

theorem reconnect_turns (s : Network) : Ensures s.reconnect (Turns s) fun _ => True := by
  unfold Network.reconnect
  split
  · trivial
  · refine (closeServer_stays s).bind fun r hr => ?_
    exact ⟨hr.servers, hr.next_eq⟩

/-- A loss that is reported. -/
theorem report_reconnect_turns (s : Network) (reason : Str) :
    Ensures (s.networkReportDisconnect reason).reconnect (Turns s) fun _ => True :=
  (reconnect_turns _).imp fun _ h => (⟨rfl, rfl⟩ : Stays s (s.networkReportDisconnect reason)).turns h

/-- From `s` to `t` with the next server if one is asked for, and with the same one else. -/
def Goes (asks : Prop) (s t : Network) : Prop := (asks → Turns s t) ∧ (¬ asks → Stays s t)

theorem Goes.turned {asks : Prop} (h : asks) (ht : Turns s t) : Goes asks s t :=
  ⟨fun _ => ht, fun hn => absurd h hn⟩

theorem Goes.stayed {asks : Prop} (h : ¬ asks) (ht : Stays s t) : Goes asks s t :=
  ⟨fun ha => absurd ha h, fun _ => ht⟩

theorem Goes.trans {asks : Prop} (h : Goes asks s t) (ht : Stays t u) : Goes asks s u :=
  ⟨fun ha => (h.1 ha).stays ht, fun hn => (h.2 hn).trans ht⟩

theorem finished_stays (s : Network) (a : Attempt) : Stays s (s.finished a) := by
  unfold Network.finished
  split
  · exact ⟨rfl, rfl⟩
  · exact ⟨rfl, rfl⟩

theorem serverFinishConnect_goes (s : Network) (cond : Condition) (a : Attempt) :
    Ensures (s.serverFinishConnect cond a)
      (Goes (cond.err = true ∨ cond.out = false ∧ cond.hup = true) s) fun _ => True := by
  by_cases he : cond.err = true
  · unfold Network.serverFinishConnect
    rw [if_pos he]
    exact (report_reconnect_turns s _).imp fun _ h => .turned (.inl he) h
  · have he' : cond.err = false := Bool.not_eq_true _ ▸ he
    by_cases ho : cond.out = true
    · rw [serverFinishConnect_out he' ho]
      refine .stayed ?_ (finished_stays s a)
      rintro (h | ⟨h, -⟩)
      · exact he h
      · rw [ho] at h
        cases h
    · have ho' : cond.out = false := Bool.not_eq_true _ ▸ ho
      unfold Network.serverFinishConnect
      rw [if_neg he, if_neg ho]
      by_cases hh : cond.hup = true
      · rw [if_pos hh]
        exact (report_reconnect_turns s _).imp fun _ h => .turned (.inr ⟨ho', hh⟩) h
      · rw [if_neg hh]
        exact .stayed (fun h => h.elim he fun h => hh h.2) (.refl s)

/-- An attempt takes the turn where it is, unless the connection cannot be wrapped. -/
theorem connectCurrentTcpServer_goes (s : Network) (a : Attempt) :
    Ensures (s.connectCurrentTcpServer a) (fun r => Goes (s.SslFails a) s.pickServer r.2) fun _ => True := by
  unfold Network.connectCurrentTcpServer
  dsimp only
  have stays : ∀ {t}, ¬ s.SslFails a → Stays s.pickServer t → Goes (s.SslFails a) s.pickServer t :=
    fun hn ht => .stayed hn ht
  have unopened : s.pickServer.current = none ∨ a.addresses.bind dial = none → ¬ s.SslFails a := by
    rintro h ⟨cs, hcs, -⟩
    rw [Network.opens] at hcs
    rcases h with h | h
    · rw [h] at hcs
      cases hcs
    · rw [h] at hcs
      split at hcs
      · next hd => cases hd
      · cases hcs
  split
  · next hc => exact stays (unopened (.inl hc)) ⟨rfl, rfl⟩
  · next hc ha => exact stays (unopened (.inr (by rw [ha]; rfl))) (.refl _)
  · next cs addresses hc ha =>
    split
    · trivial
    · split
      · next hd => exact stays (unopened (.inr (by rw [ha]; exact hd))) (.refl _)
      · next addr finished hd =>
        have hopens : s.opens a = some cs := by
          rw [Network.opens, hc, ha]
          dsimp only [Option.bind_some]
          rw [hd]
        have hfails : s.SslFails a ↔ cs.ssl = true ∧ a.sslWraps = false := by
          refine ⟨?_, fun h => ⟨cs, hopens, h⟩⟩
          rintro ⟨cs', hcs', h⟩
          rw [hopens] at hcs'
          cases hcs'
          exact h
        unfold Network.connectOpened
        dsimp only
        split
        · next hssl =>
          refine (report_reconnect_turns _ _).bind fun t ht => ?_
          exact Goes.turned (hfails.mpr hssl) ⟨ht.servers, ht.current⟩
        · next hssl =>
          split
          · refine (serverFinishConnect_goes _ _ a).bind fun t ht => ?_
            have hstays := ht.2 (by simp)
            exact stays (hfails.not.mpr hssl) ⟨hstays.servers, hstays.current⟩
          · exact stays (hfails.not.mpr hssl) ⟨rfl, rfl⟩

/-- One event. -/
theorem step_goes (s : Network) (e : Event) :
    Ensures (s.step e) (Goes (s.Asks e) (s.picked e)) fun _ => True := by
  cases e with
  | connect a =>
      refine Ensures.bind ?_ fun r hr => hr
      unfold Network.connectNetwork
      split
      · exact connectCurrentTcpServer_goes s a
      · trivial
  | disconnect =>
      have hclose : Ensures s.disconnectNetwork (fun r => Stays s r.2) fun _ => True := by
        unfold Network.disconnectNetwork
        split
        · exact .refl s
        · exact closeServer_stays s
      exact hclose.bind fun r hr => Goes.stayed (s := s) id hr
  | selectNextServer => exact .turned trivial ⟨rfl, rfl⟩
  | delayedConnect timer a =>
      rw [step_delayedConnect]
      refine (connectCurrentTcpServer_goes s a).bind fun r hr => ?_
      show Goes _ _ (if _ then _ else _)
      split
      · exact hr
      · exact hr.trans ⟨rfl, rfl⟩
  | finishConnect watch cond a =>
      exact (serverFinishConnect_goes s cond a).bind fun t ht => ht.trans ⟨rfl, rfl⟩
  | hangup => exact (report_reconnect_turns s _).imp fun _ h => .turned trivial h
  | error message => exact (report_reconnect_turns s _).imp fun _ h => .turned trivial h
  | ping timer silentTime again =>
      have hping : Ensures (s.pingServer silentTime) (Goes (MAX_SILENT_TIME < silentTime) s)
          fun _ => True := by
        unfold Network.pingServer
        split
        · next hlt => exact (report_reconnect_turns s _).imp fun _ h => .turned hlt h
        · next hle => exact .stayed hle (.refl s)
      refine hping.bind fun t ht => ?_
      cases again with
      | true => exact ht
      | false => exact ht.trans ⟨rfl, rfl⟩
  | endOfMotd =>
      refine .stayed id ?_
      unfold Network.processEndOfMotd
      split
      · exact ⟨rfl, rfl⟩
      · exact .refl s

end

end Network

/-! ### Every run -/

namespace Rotation
open Network

/-- Before the first attempt. -/
def start (servers : List TcpServerConfig) (autoconnect : Bool) : Rotation :=
  ⟨ircNetworkNew servers autoconnect, 0, []⟩

/-- The first server that is chosen has its turn without being asked for. -/
def step (r : Rotation) (e : Event) : Except Fault Rotation := do
  let net ← r.net.step e
  pure
    { net := net
      turns := if r.net.Asks e ∧ (r.net.picked e).currentServer ≠ none then r.turns + 1 else r.turns
      attempts := r.attempts ++ (r.net.attempted e).map fun cs => (r.turns, cs) }

def Admits (r : Rotation) (e : Event) : Prop := r.net.Admits e

/-- The server whose turn it is, once one was chosen. -/
structure At (servers : List TcpServerConfig) (turns : ℕ) (s : Network) : Prop where
  listed : s.servers = servers
  current : ∀ i, s.currentServer = some i → i < servers.length ∧ i = turns % servers.length
  first : s.currentServer = none → turns = 0

/-- Where the turn is, and what was tried in which. -/
structure Good (servers : List TcpServerConfig) (r : Rotation) : Prop where
  now : At servers r.turns r.net
  tried : ∀ x ∈ r.attempts, x.1 ≤ r.turns ∧ x.2 = servers[x.1 % servers.length]?
  ordered : (r.attempts.map Prod.fst).Pairwise (· ≤ ·)

section
variable {servers : List TcpServerConfig} {autoconnect : Bool} {r : Rotation} {s t : Network} {k : ℕ}

/-- The next server of a list, round and round. -/
theorem next_mod {n t : ℕ} (hn : t % n < n) :
    (if t % n + 1 < n then t % n + 1 else 0) = (t + 1) % n := by
  rw [Nat.add_mod]
  split
  · next h =>
    have h1 : 1 % n = 1 := Nat.mod_eq_of_lt (Nat.lt_of_le_of_lt (Nat.le_add_left 1 _) h)
    rw [h1, Nat.mod_eq_of_lt h]
  · next h =>
    rcases Nat.lt_or_ge 1 n with h1 | h1
    · rw [Nat.mod_eq_of_lt h1, show t % n + 1 = n by omega, Nat.mod_self]
    · obtain rfl : n = 1 := by omega
      rw [Nat.mod_one]

theorem At.stays (h : At servers k s) (ht : Stays s t) : At servers k t :=
  ⟨ht.servers.trans h.listed, fun i hi => h.current i (ht.current.symm.trans hi),
    fun hn => h.first (ht.current.symm.trans hn)⟩

theorem At.turns (h : At servers k s) (ht : Turns s t) :
    At servers (if s.currentServer ≠ none then k + 1 else k) t := by
  have hnext := ht.current
  rw [networkGetNextTcpServer, h.listed] at hnext
  refine ⟨ht.servers.trans h.listed, fun i hi => ?_, fun hn => ?_⟩
  · cases hs : s.currentServer with
    | none =>
        rw [hs] at hnext
        dsimp only at hnext
        rw [if_neg (by simp), h.first hs, Nat.zero_mod]
        split at hnext
        · rw [hnext] at hi
          cases hi
        · next hne =>
          rw [hnext] at hi
          cases hi
          exact ⟨Nat.pos_of_ne_zero hne, rfl⟩
    | some j =>
        obtain ⟨hj, hjt⟩ := h.current j hs
        have hpos : servers.length ≠ 0 := Nat.ne_zero_of_lt hj
        rw [hs] at hnext
        dsimp only at hnext
        rw [if_neg hpos, ← apply_ite some, hi, hjt, next_mod (hjt ▸ hj)] at hnext
        rw [if_pos (by simp), Option.some.inj hnext]
        exact ⟨Nat.mod_lt _ (Nat.pos_of_ne_zero hpos), rfl⟩
  · cases hs : s.currentServer with
    | none =>
        rw [if_neg (by simp)]
        exact h.first hs
    | some j =>
        have hpos : servers.length ≠ 0 := Nat.ne_zero_of_lt (h.current j hs).1
        rw [hs, hn] at hnext
        dsimp only at hnext
        rw [if_neg hpos, ← apply_ite some] at hnext
        cases hnext

/-- Choosing a server takes no turn. -/
theorem At.pickServer (h : At servers k s) : At servers k s.pickServer := by
  unfold Network.pickServer
  cases hs : s.currentServer with
  | some i => exact h
  | none =>
      have ht := h.turns (⟨rfl, rfl⟩ : Turns s { s with currentServer := s.networkGetNextTcpServer })
      rwa [if_neg (not_not.mpr hs)] at ht

theorem At.picked (h : At servers k s) (e : Event) : At servers k (s.picked e) := by
  cases e with
  | connect a => exact h.pickServer
  | delayedConnect timer a => exact h.pickServer
  | _ => exact h

/-- The server that is tried. -/
theorem At.pickServer_current (h : At servers k s) :
    s.pickServer.current = servers[k % servers.length]? := by
  have hpick := h.pickServer
  rw [Network.current, hpick.listed]
  cases hs : s.pickServer.currentServer with
  | some i =>
      rw [(hpick.current i hs).2]
      rfl
  | none =>
      -- there is no server
      have hnil : servers.length = 0 := by
        unfold Network.pickServer at hs
        cases hc : s.currentServer with
        | some i =>
            rw [hc] at hs
            simp [hc] at hs
        | none =>
            rw [hc] at hs
            dsimp only at hs
            rw [networkGetNextTcpServer, hc, h.listed] at hs
            by_contra hne
            simp [hne] at hs
      rw [List.length_eq_zero_iff.mp hnil]
      rfl

theorem Good.start : Good servers (start servers autoconnect) where
  now := ⟨rfl, fun _ h => (by cases h), fun _ => rfl⟩
  tried := fun _ h => by cases h
  ordered := .nil

/-- One event. -/
theorem Good.step (hr : r.Good servers) (e : Event) :
    Ensures (r.step e) (Good servers) fun _ => True := by
  refine (step_goes r.net e).bind fun net hgo => ?_
  have hpicked := hr.now.picked e
  have hnow : At servers
      (if r.net.Asks e ∧ (r.net.picked e).currentServer ≠ none then r.turns + 1 else r.turns) net := by
    by_cases ha : r.net.Asks e
    · have ht := hpicked.turns (hgo.1 ha)
      by_cases hc : (r.net.picked e).currentServer ≠ none
      · rw [if_pos hc] at ht
        rwa [if_pos ⟨ha, hc⟩]
      · rw [if_neg hc] at ht
        rwa [if_neg fun h => hc h.2]
    · rw [if_neg fun h => ha h.1]
      exact hpicked.stays (hgo.2 ha)
  have hle : r.turns ≤
      if r.net.Asks e ∧ (r.net.picked e).currentServer ≠ none then r.turns + 1 else r.turns := by
    split
    · exact Nat.le_succ _
    · exact le_rfl
  have htried : ∀ cs ∈ r.net.attempted e, cs = servers[r.turns % servers.length]? := by
    intro cs hcs
    cases e with
    | connect a => exact (List.mem_singleton.mp hcs).trans hr.now.pickServer_current
    | delayedConnect timer a => exact (List.mem_singleton.mp hcs).trans hr.now.pickServer_current
    | _ => cases hcs
  refine ⟨hnow, fun x hx => ?_, ?_⟩
  · rcases List.mem_append.mp hx with hx | hx
    · exact ⟨(hr.tried x hx).1.trans hle, (hr.tried x hx).2⟩
    · obtain ⟨cs, hcs, rfl⟩ := List.mem_map.mp hx
      exact ⟨hle, htried cs hcs⟩
  · rw [List.map_append, List.map_map]
    refine List.pairwise_append.mpr ⟨hr.ordered, ?_, ?_⟩
    · exact List.pairwise_map.mpr (List.pairwise_of_forall fun _ _ => le_rfl)
    · intro k hk k' hk'
      obtain ⟨x, hx, rfl⟩ := List.mem_map.mp hk
      obtain ⟨cs, -, rfl⟩ := List.mem_map.mp hk'
      exact (hr.tried x hx).1

/-- **Which server is tried.** In every run of a connection the `k`-th turn is that of the `k`-th server,
round and round; every attempt tries the server whose turn it is; and the turn goes on only when the next
server is asked for, by hand or by a connection that was opened and lost or could not be wrapped. -/
theorem reachable_rotation (h : Reach step Admits (start servers autoconnect) r) :
    (∀ x ∈ r.attempts, x.1 ≤ r.turns ∧ x.2 = servers[x.1 % servers.length]?) ∧
    (r.attempts.map Prod.fst).Pairwise (· ≤ ·) ∧
    ∀ i, r.net.currentServer = some i → i = r.turns % servers.length := by
  have hr : r.Good servers := h.invariant .start fun r e hr _ => hr.step e
  exact ⟨hr.tried, hr.ordered, fun i hi => (hr.now.current i hi).2⟩

end

/-- Three servers: the first is lost, the second has no address, and is tried again and again. -/
def unknownHost : List Event :=
  let opens : Attempt := ⟨some [(str "a", .connected)], str "me", true, true⟩
  let unknown : Attempt := ⟨none, str "me", true, true⟩
  [.connect opens, .hangup, .delayedConnect 2 unknown, .delayedConnect 2 unknown,
    .delayedConnect 2 unknown]

/-- The events are admitted, which is decided for these. -/
def SmallAdmits (r : Rotation) : Event → Prop
  | .connect _ => r.net.state = .notConnected ∨ r.net.state = .reconnectPending
  | .delayedConnect timer _ => timer ∈ r.net.reconnects
  | .hangup => r.net.transport = true
  | _ => False

instance (r : Rotation) : ∀ e, Decidable (SmallAdmits r e)
  | .connect _ => inferInstanceAs (Decidable (_ ∨ _))
  | .delayedConnect _ _ => inferInstanceAs (Decidable (_ ∈ _))
  | .hangup => inferInstanceAs (Decidable (_ = _))
  | .disconnect | .selectNextServer | .finishConnect _ _ _ | .error _ | .ping _ _ _ | .endOfMotd =>
      .isFalse id

theorem SmallAdmits.admits {r : Rotation} {e : Event} (h : SmallAdmits r e) : r.Admits e := by
  cases e with
  | connect a => exact h
  | delayedConnect timer a => exact h
  | hangup => exact h
  | _ => exact h.elim

theorem reachable_rotation_unknown :
    let servers : List TcpServerConfig :=
      [⟨str "a", str "1", false⟩, ⟨str "b", str "2", false⟩, ⟨str "c", str "3", false⟩]
    ∃ r, Reach step Admits (start servers true) r ∧
      r.attempts = [(0, servers[0]?), (1, servers[1]?), (1, servers[1]?), (1, servers[1]?)] ∧
      (∀ x ∈ r.attempts, x.1 ≤ r.turns ∧ x.2 = servers[x.1 % servers.length]?) ∧
      (r.attempts.map Prod.fst).Pairwise (· ≤ ·) ∧
      ∀ i, r.net.currentServer = some i → i = r.turns % servers.length := by
  intro servers
  have run : (admittedRun step SmallAdmits (start servers true) unknownHost).map attempts =
      some [(0, servers[0]?), (1, servers[1]?), (1, servers[1]?), (1, servers[1]?)] := by
    decide +kernel
  obtain ⟨r, hr, hattempts⟩ := Option.map_eq_some_iff.mp run
  have hreach := (Reach.of_admittedRun .refl hr).weaken fun _ _ h => SmallAdmits.admits h
  exact ⟨r, hreach, hattempts, reachable_rotation hreach⟩

end Rotation

end Ctrlproxy.Connection
