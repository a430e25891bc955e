import Ctrlproxy.Base.Str
import Ctrlproxy.Lib.Outcome

/-!
# Proxy — auto-away

`src/auto_away.c` sets the user away when nobody is there, and back when somebody is.  A hook runs when a
client joins a network, one when a client leaves it, and `check_time` runs every second.  All three
compare the number of clients of the network with `client_limit`.

The hooks run in the middle of the event they are about: `welcome_client` puts the client into the list
and then runs the first one, `handle_client_disconnect` runs the second one and then takes the client out.
`wanted` is what the events ask for, in terms of the clients that are there when they are over.  The hooks
are off by one where that number is the limit (`agrees_iff`).

Left out: other hooks, and the lines that other code gives to the server.
-/

namespace Ctrlproxy.AutoAway
open Outcome

/-! ### Data -/

/-- `struct auto_away_config`. -/
structure AutoAwayConfig where
  message : Option Str
  nick : Option Str
  clientLimit : ℤ
  maxIdleTime : ℤ

/-- What is read of `external_state`. -/
structure External where
  isAway : Bool
  hostmask : Option Str

/-- What is read of `struct irc_network`, and the lines that were given to its server: `motdRecvd` is
`NETWORK_CONNECTION_STATE_MOTD_RECVD`. -/
structure Network where
  clients : List ℕ
  motdRecvd : Bool
  external : Option External
  sent : List (List Str)

/-- `struct auto_away_data`, with `d->global->networks`.  A pointer to a network is its position. -/
structure AutoAwayData where
  config : AutoAwayConfig
  maxIdleTime : ℤ
  lastMessage : ℤ
  networks : List Network

/-- Lines are given to the server. -/
def Network.say (n : Network) (lines : List (List Str)) : Network := { n with sent := n.sent ++ lines }

/-- `d->config->message`, or what is there instead. -/
def AutoAwayConfig.awayMessage (c : AutoAwayConfig) : Str := c.message.getD (str "Auto Away")

/-! ### The filter, the hooks and the check -/

/-- `network_send_args`.  A line with an origin goes through `log_data`, which notes an `AWAY`. -/
def networkSendArgs (now : ℤ) (d : AutoAwayData) (i : ℕ) (cmd : Str) (args : List Str) : AutoAwayData :=
  let origin := (d.networks[i]?.bind (·.external)).bind (·.hostmask)
  { d with
    lastMessage := if origin.isSome ∧ baseEq (some cmd) (str "AWAY") then now else d.lastMessage
    networks := d.networks.modify i (·.say [cmd :: args]) }

/-- A loop over `d->global->networks`. -/
def forNetworks (f : AutoAwayData → ℕ → Network → AutoAwayData) (d : AutoAwayData) : AutoAwayData :=
  (List.range d.networks.length).foldl (fun d i =>
    match d.networks[i]? with
    | some n => f d i n
    | none => d) d

/-- `log_data` for a line to the server that is no line of auto-away. -/
def logData (now : ℤ) (d : AutoAwayData) (cmd : Str) : AutoAwayData :=
  let d := if baseEq (some cmd) (str "AWAY") then { d with lastMessage := now } else d
  if baseEq (some cmd) (str "PRIVMSG") ∨ baseEq (some cmd) (str "NOTICE") then
    forNetworks (fun d i s =>
      if s.motdRecvd ∧ s.external.any (·.isAway) then networkSendArgs now d i (str "AWAY") [] else d)
      { d with lastMessage := now }
  else d

/-- `check_time`. -/
def checkTime (now : ℤ) (d : AutoAwayData) : AutoAwayData :=
  if now - d.lastMessage > d.maxIdleTime then
    forNetworks (fun d i s =>
      if s.motdRecvd ∧ s.external.any (!·.isAway) ∧
          (d.config.clientLimit < 0 ∨ (s.clients.length : ℤ) ≤ d.config.clientLimit) then
        let d := networkSendArgs now d i (str "AWAY") [d.config.awayMessage]
        match d.config.nick with
        | some nick => networkSendArgs now d i (str "NICK") [nick]
        | none => d
      else d) d
  else d

/-- `new_client`. -/
def newClient (now : ℤ) (d : AutoAwayData) (i : ℕ) (s : Network) : AutoAwayData :=
  if d.config.clientLimit ≥ 0 ∧ d.config.clientLimit < s.clients.length + 1 then
    networkSendArgs now d i (str "AWAY") []
  else d

/-- `lose_client`. -/
def loseClient (now : ℤ) (d : AutoAwayData) (i : ℕ) (s : Network) : AutoAwayData :=
  if d.config.clientLimit ≥ 0 ∧ d.config.clientLimit ≥ s.clients.length then
    networkSendArgs now d i (str "AWAY") [d.config.awayMessage]
  else d

/-- Follow a pointer to a network. -/
def AutoAwayData.network (d : AutoAwayData) (i : ℕ) : Except Fault Network :=
  match d.networks[i]? with
  | some n => .ok n
  | none => .error .dangling

/-- `welcome_client`: the client is appended, and then the hook runs. -/
def welcomeClient (now : ℤ) (d : AutoAwayData) (i c : ℕ) : Except Fault AutoAwayData := do
  let d := { d with networks := d.networks.modify i fun s => { s with clients := s.clients ++ [c] } }
  let s ← d.network i
  pure (newClient now d i s)

/-- `handle_client_disconnect`: the hook runs, and then the client is removed.  A client that has chosen
no network has `NULL`, which `lose_client` follows if there is a limit. -/
def handleClientDisconnect (now : ℤ) (d : AutoAwayData) (network : Option ℕ) (c : ℕ) :
    Except Fault AutoAwayData :=
  match network with
  | none => if d.config.clientLimit ≥ 0 then .error .null else .ok d
  | some i => do
      let s ← d.network i
      let d := loseClient now d i s
      pure { d with networks := d.networks.modify i fun s => { s with clients := s.clients.erase c } }

/-! ### Runs -/

/-- What happens: a client joins or leaves, a line goes to a server, a server says something that changes
what is known of its network, a second passes. -/
inductive Event where
  | join (i c : ℕ)
  | leave (network : Option ℕ) (c : ℕ)
  | line (cmd : Str)
  | server (i : ℕ) (motdRecvd : Bool) (external : Option External)
  | second

/-- What is done at a time. -/
def step (d : AutoAwayData) (e : ℤ × Event) : Except Fault AutoAwayData :=
  match e.2 with
  | .join i c => welcomeClient e.1 d i c
  | .leave network c => handleClientDisconnect e.1 d network c
  | .line cmd => .ok (logData e.1 d cmd)
  | .server i motdRecvd external => .ok { d with
      networks := d.networks.modify i fun s => { s with motdRecvd := motdRecvd, external := external } }
  | .second => .ok (checkTime e.1 d)

/-- The lines that network `i` is to be sent with an event, where `s` is the network after it: it is set
back when there are more clients than the limit, and away when there are not. -/
def wanted (limit : ℕ) (d : AutoAwayData) (e : ℤ × Event) (i : ℕ) (s : Network) : List (List Str) :=
  match e.2 with
  | .join j _ => if i = j ∧ limit < s.clients.length then [[str "AWAY"]] else []
  | .leave network _ =>
      if network = some i ∧ s.clients.length ≤ limit then [[str "AWAY", d.config.awayMessage]] else []
  | .line cmd =>
      if (baseEq (some cmd) (str "PRIVMSG") ∨ baseEq (some cmd) (str "NOTICE")) ∧ s.motdRecvd ∧
          s.external.any (·.isAway) then [[str "AWAY"]] else []
  | .server .. => []
  | .second =>
      if e.1 - d.lastMessage > d.maxIdleTime ∧ s.motdRecvd ∧ s.external.any (!·.isAway) ∧
          s.clients.length ≤ limit then
        [str "AWAY", d.config.awayMessage] :: (d.config.nick.map fun nick => [str "NICK", nick]).toList
      else []

/-- Every network is sent the lines it is to be sent. -/
def Obeyed (limit : ℕ) (d : AutoAwayData) (e : ℤ × Event) : Prop :=
  ∀ d', step d e = .ok d' → ∀ i s s', d.networks[i]? = some s → d'.networks[i]? = some s' →
    s'.sent = s.sent ++ wanted limit d e i s'

/-- The number of clients that are there after a join or a leave is not the limit. -/
def OffLimit (limit : ℕ) (d : AutoAwayData) (e : ℤ × Event) : Prop :=
  match e.2 with
  | .join i _ => ∀ s, d.networks[i]? = some s → s.clients.length + 1 ≠ limit
  | .leave (some i) c => ∀ s, d.networks[i]? = some s → c ∈ s.clients → s.clients.length ≠ limit + 1
  | _ => True

theorem wanted_second (limit : ℕ) (d : AutoAwayData) (now : ℤ) (i : ℕ) (s : Network) :
    wanted limit d (now, .second) i s =
      if now - d.lastMessage > d.maxIdleTime ∧ s.motdRecvd ∧ s.external.any (!·.isAway) ∧
          s.clients.length ≤ limit then
        [str "AWAY", d.config.awayMessage] :: (d.config.nick.map fun nick => [str "NICK", nick]).toList
      else [] := rfl

theorem wanted_line (limit : ℕ) (d : AutoAwayData) (now : ℤ) (cmd : Str) (i : ℕ) (s : Network) :
    wanted limit d (now, .line cmd) i s =
      if (baseEq (some cmd) (str "PRIVMSG") ∨ baseEq (some cmd) (str "NOTICE")) ∧ s.motdRecvd ∧
          s.external.any (·.isAway) then [[str "AWAY"]] else [] := rfl

@[simp] theorem networkSendArgs_config (now : ℤ) (d : AutoAwayData) (i : ℕ) (cmd : Str)
    (args : List Str) : (networkSendArgs now d i cmd args).config = d.config := rfl

@[simp] theorem say_nil (n : Network) : n.say [] = n := by rw [Network.say, List.append_nil]

@[simp] theorem say_say (n : Network) (a b : List (List Str)) : (n.say a).say b = n.say (a ++ b) := by
  rw [Network.say, Network.say, Network.say, List.append_assoc]

/-! ### What is done to each network -/

/-- Every network became what `f` makes of it. -/
structure Becomes (d d' : AutoAwayData) (f : ℕ → Network → Network) : Prop where
  config : d'.config = d.config
  networks : ∀ i, d'.networks[i]? = d.networks[i]?.map (f i)

section
variable {d d' d'' : AutoAwayData} {f g : ℕ → Network → Network} {i : ℕ} {now : ℤ} {s : Network}

theorem Becomes.refl : Becomes d d fun _ s => s :=
  ⟨rfl, fun _ => Option.map_id'.symm⟩

theorem Becomes.congr (h : Becomes d d' f) (hfg : ∀ i s, d.networks[i]? = some s → f i s = g i s) :
    Becomes d d' g where
  config := h.config
  networks := by
    intro i
    rw [h.networks i]
    cases hs : d.networks[i]? with
    | none => rfl
    | some s => rw [Option.map_some, Option.map_some, hfg i s hs]

theorem Becomes.trans (h : Becomes d d' f) (h' : Becomes d' d'' g) :
    Becomes d d'' fun i s => g i (f i s) :=
  ⟨h'.config.trans h.config, fun i => by rw [h'.networks, h.networks, Option.map_map]; rfl⟩

theorem Becomes.modify (f : Network → Network) :
    Becomes d { d with networks := d.networks.modify i f } fun j s => if j = i then f s else s where
  config := rfl
  networks := by
    intro j
    rw [List.getElem?_modify]
    by_cases h : i = j
    · simp [h]
    · simp [h, Ne.symm h]

theorem becomes_sendArgs (cmd : Str) (args : List Str) :
    Becomes d (networkSendArgs now d i cmd args) fun j s => if j = i then s.say [cmd :: args] else s :=
  ⟨rfl, Becomes.modify (i := i) (Network.say · [cmd :: args]) |>.networks⟩

/-- A loop says to each network what its round does. -/
theorem becomes_forNetworks {f : AutoAwayData → ℕ → Network → AutoAwayData}
    (lines : Network → List (List Str)) (hf : ∀ d' i s, d'.config = d.config → d'.networks[i]? = some s →
      Becomes d' (f d' i s) fun j u => if j = i then u.say (lines s) else u) :
    Becomes d (forNetworks f d) fun _ s => s.say (lines s) := by
  have hrun : ∀ k ≤ d.networks.length, Becomes d ((List.range k).foldl (fun d i =>
      match d.networks[i]? with
      | some n => f d i n
      | none => d) d) fun j s => if j < k then s.say (lines s) else s := by
    intro k
    induction k with
    | zero => exact fun _ => Becomes.refl
    | succ k ih =>
        intro hk
        have hbefore := ih (Nat.le_of_succ_le hk)
        rw [List.range_succ, List.foldl_concat]
        obtain ⟨s, hs⟩ : ∃ s, d.networks[k]? = some s := ⟨_, List.getElem?_eq_getElem hk⟩
        have hs' := hbefore.networks k
        rw [hs, Option.map_some, if_neg (Nat.lt_irrefl k)] at hs'
        simp only [hs']
        refine (hbefore.trans (hf _ k s hbefore.config hs')).congr fun j u hu => ?_
        rcases Nat.lt_trichotomy j k with hlt | rfl | hgt
        · rw [if_neg hlt.ne, if_pos hlt, if_pos (Nat.lt_succ_of_lt hlt)]
        · obtain rfl := Option.some_inj.mp (hs.symm.trans hu)
          rw [if_pos rfl, if_neg (Nat.lt_irrefl _), if_pos (Nat.lt_succ_self _)]
        · rw [if_neg hgt.ne', if_neg hgt.asymm, if_neg (Nat.not_lt_of_le hgt)]
  exact (hrun _ le_rfl).congr fun j s hs => if_pos (List.getElem?_eq_some_iff.mp hs).1

/-! ### Events -/

/-- What an event makes of network `i`. -/
def outcome (limit : ℕ) (d : AutoAwayData) (e : ℤ × Event) (i : ℕ) (s : Network) : Network :=
  match e.2 with
  | .join j c =>
      if i = j then { s with clients := s.clients ++ [c] }.say
        (if limit ≤ s.clients.length + 1 then [[str "AWAY"]] else [])
      else s
  | .leave network c =>
      if network = some i then { s with clients := s.clients.erase c }.say
        (if s.clients.length ≤ limit then [[str "AWAY", d.config.awayMessage]] else [])
      else s
  | .server j motdRecvd external =>
      if i = j then { s with motdRecvd := motdRecvd, external := external } else s
  | _ => s.say (wanted limit d e i s)

theorem newClient_becomes {limit : ℕ} (h : d.config.clientLimit = limit) :
    Becomes d (newClient now d i s) fun j u =>
      if j = i then u.say (if limit < s.clients.length + 1 then [[str "AWAY"]] else []) else u := by
  rw [newClient, h]
  by_cases hl : limit < s.clients.length + 1
  · rw [if_pos ⟨Int.natCast_nonneg _, by exact_mod_cast hl⟩, if_pos hl]
    exact becomes_sendArgs _ _
  · rw [if_neg (fun hc => hl (by exact_mod_cast hc.2)), if_neg hl]
    simpa using Becomes.refl

theorem loseClient_becomes {limit : ℕ} (h : d.config.clientLimit = limit) :
    Becomes d (loseClient now d i s) fun j u => if j = i then
      u.say (if s.clients.length ≤ limit then [[str "AWAY", d.config.awayMessage]] else []) else u := by
  rw [loseClient, h]
  by_cases hl : s.clients.length ≤ limit
  · rw [if_pos ⟨Int.natCast_nonneg _, by exact_mod_cast hl⟩, if_pos hl]
    exact becomes_sendArgs _ _
  · rw [if_neg (fun hc => hl (by exact_mod_cast hc.2)), if_neg hl]
    simpa using Becomes.refl

theorem checkTime_becomes {limit : ℕ} (h : d.config.clientLimit = limit) :
    Becomes d (checkTime now d) fun i s => s.say (wanted limit d (now, .second) i s) := by
  have hlimit : ∀ s : Network, ((limit : ℤ) < 0 ∨ (s.clients.length : ℤ) ≤ limit) ↔
      s.clients.length ≤ limit := by
    intro s
    omega
  rw [checkTime]
  split_ifs with hidle
  · refine becomes_forNetworks (wanted limit d (now, .second) 0) fun d' i s hc _ => ?_
    simp only [hc, h, hlimit, networkSendArgs_config]
    by_cases hcond : s.motdRecvd ∧ s.external.any (!·.isAway) ∧ s.clients.length ≤ limit
    · rw [if_pos hcond, wanted_second, if_pos ⟨hidle, hcond⟩]
      cases d.config.nick with
      | none => exact becomes_sendArgs _ _
      | some nick =>
          refine ((becomes_sendArgs _ _).trans (becomes_sendArgs _ _)).congr fun j u _ => ?_
          split_ifs
          · rw [say_say]
            rfl
          · rfl
    · rw [if_neg hcond, wanted_second, if_neg fun hw => hcond hw.2]
      simpa using Becomes.refl
  · refine Becomes.refl.congr fun i s _ => ?_
    rw [wanted_second, if_neg fun hw => hidle hw.1, say_nil]

theorem logData_becomes {limit : ℕ} (cmd : Str) :
    Becomes d (logData now d cmd) fun i s => s.say (wanted limit d (now, .line cmd) i s) := by
  have hnoted : ∀ t, Becomes d { d with lastMessage := t } fun _ s => s := fun t =>
    ⟨rfl, fun _ => Option.map_id'.symm⟩
  have haway : Becomes d (if baseEq (some cmd) (str "AWAY") then { d with lastMessage := now } else d)
      fun _ s => s := by
    split_ifs
    · exact hnoted now
    · exact Becomes.refl
  rw [logData]
  by_cases htext : baseEq (some cmd) (str "PRIVMSG") ∨ baseEq (some cmd) (str "NOTICE")
  · have hloop := becomes_forNetworks (d := { d with lastMessage := now })
      (f := fun d i s => if s.motdRecvd ∧ s.external.any (·.isAway) then
        networkSendArgs now d i (str "AWAY") [] else d)
      (wanted limit d (now, .line cmd) 0) fun d' i s _ _ => ?_
    · have hnote : { (if baseEq (some cmd) (str "AWAY") then { d with lastMessage := now } else d) with
          lastMessage := now } = { d with lastMessage := now } := by split_ifs <;> rfl
      simp only [if_pos htext, hnote]
      exact ⟨hloop.config, hloop.networks⟩
    · rw [wanted_line]
      by_cases hcond : s.motdRecvd ∧ s.external.any (·.isAway)
      · rw [if_pos hcond, if_pos ⟨htext, hcond⟩]
        exact becomes_sendArgs _ _
      · rw [if_neg hcond, if_neg fun hw => hcond hw.2]
        simpa using Becomes.refl
  · simp only [if_neg htext]
    refine haway.congr fun i s _ => ?_
    · rw [wanted_line, if_neg fun hw => htext hw.1, say_nil]

theorem network_eq_ok (h : d.network i = .ok s) : d.networks[i]? = some s := by
  rw [AutoAwayData.network] at h
  cases hs : d.networks[i]? with
  | none => rw [hs] at h; cases h
  | some u => rw [hs] at h; cases h; rfl

/-- **What an event does.** -/
theorem step_becomes {limit : ℕ} (h : d.config.clientLimit = limit) {e : ℤ × Event}
    (hstep : step d e = .ok d') : Becomes d d' (outcome limit d e) := by
  obtain ⟨now, e⟩ := e
  cases e with
  | join i c =>
      obtain ⟨s, hs, hd'⟩ := bind_eq_ok hstep
      cases hd'
      have happend := Becomes.modify (d := d) (i := i) fun s => { s with clients := s.clients ++ [c] }
      have hlist := happend.networks i
      rw [network_eq_ok hs] at hlist
      obtain ⟨u, hu, e⟩ := Option.map_eq_some_iff.mp hlist.symm
      rw [if_pos rfl] at e
      refine (happend.trans (newClient_becomes (s := s) h)).congr fun j v hv => ?_
      by_cases hj : j = i
      · subst hj
        obtain rfl := Option.some_inj.mp (hu.symm.trans hv)
        simp only [outcome, if_true, ← e, List.length_append, List.length_singleton, Nat.lt_succ_iff]
      · simp only [outcome, if_neg hj]
  | leave network c =>
      cases network with
      | none =>
          simp only [step, handleClientDisconnect] at hstep
          split_ifs at hstep
          cases hstep
          exact Becomes.refl
      | some i =>
          obtain ⟨s, hs, hd'⟩ := bind_eq_ok hstep
          cases hd'
          refine ((loseClient_becomes (s := s) (i := i) h).trans (Becomes.modify fun s =>
            { s with clients := s.clients.erase c })).congr fun j u hu => ?_
          by_cases hj : j = i
          · subst hj
            obtain rfl := Option.some_inj.mp ((network_eq_ok hs).symm.trans hu)
            simp only [outcome, if_true]
            rfl
          · simp only [outcome, if_neg hj, Option.some_inj, if_neg (Ne.symm hj)]
  | line cmd =>
      cases hstep
      exact logData_becomes cmd
  | server i motdRecvd external =>
      cases hstep
      exact Becomes.modify _
  | second =>
      cases hstep
      exact checkTime_becomes h

/-- A client can join and leave where the network is. -/
theorem step_ok (now : ℤ) {e : Event} (hs : d.networks[i]? = some s)
    (he : (∃ c, e = .join i c) ∨ ∃ c, e = .leave (some i) c) : ∃ d', step d (now, e) = .ok d' := by
  rcases he with ⟨c, rfl⟩ | ⟨c, rfl⟩
  · simp [step, welcomeClient, AutoAwayData.network, hs]
  · simp [step, handleClientDisconnect, AutoAwayData.network, hs]

/-- An event is obeyed where every network is sent what it is to be sent. -/
theorem obeyed_of_outcome {limit : ℕ} (h : d.config.clientLimit = limit) {e : ℤ × Event}
    (hall : ∀ i s, d.networks[i]? = some s → (outcome limit d e i s).sent =
      s.sent ++ wanted limit d e i (outcome limit d e i s)) : Obeyed limit d e := by
  intro d' hstep i s s' hs hs'
  rw [(step_becomes h hstep).networks i, hs, Option.map_some, Option.some_inj] at hs'
  rw [← hs']
  exact hall i s hs

theorem Obeyed.outcome {limit : ℕ} (h : d.config.clientLimit = limit) {e : ℤ × Event}
    (hobeyed : Obeyed limit d e) (hstep : step d e = .ok d') (hs : d.networks[i]? = some s) :
    (outcome limit d e i s).sent = s.sent ++ wanted limit d e i (outcome limit d e i s) := by
  refine hobeyed d' hstep i s _ hs ?_
  rw [(step_becomes h hstep).networks i, hs, Option.map_some]

/-- Two comparisons with the limit send the same only if they answer the same. -/
theorem lines_iff {p q : Prop} [Decidable p] [Decidable q] {a : List (List Str)} {l : List Str} :
    (a ++ if p then [l] else []) = (a ++ if q then [l] else []) ↔ (p ↔ q) := by
  rw [List.append_right_inj]
  by_cases hp : p <;> by_cases hq : q <;> simp [hp, hq]

theorem length_erase_le {l : List ℕ} {c : ℕ} {limit : ℕ} :
    (l.length ≤ limit ↔ (l.erase c).length ≤ limit) ↔ (c ∈ l → l.length ≠ limit + 1) := by
  by_cases hc : c ∈ l
  · have hpos := List.length_pos_of_mem hc
    rw [List.length_erase_of_mem hc]
    simp only [hc, true_imp_iff]
    omega
  · simp [hc, List.erase_of_not_mem hc]

/-- **An event is obeyed off the limit.** -/
theorem obeyed_iff {limit : ℕ} (h : d.config.clientLimit = limit) (e : ℤ × Event) :
    Obeyed limit d e ↔ OffLimit limit d e := by
  obtain ⟨now, e⟩ := e
  cases e with
  | join j c =>
      have key : ∀ s : Network, (outcome limit d (now, .join j c) j s).sent =
          s.sent ++ wanted limit d (now, .join j c) j (outcome limit d (now, .join j c) j s) ↔
          s.clients.length + 1 ≠ limit := by
        intro s
        simp only [outcome, wanted, if_true, Network.say, lines_iff, List.length_append,
          List.length_singleton, true_and]
        omega
      constructor
      · intro hobeyed s hs
        obtain ⟨d', hstep⟩ := step_ok now hs (.inl ⟨c, rfl⟩)
        exact (key s).mp (hobeyed.outcome h hstep hs)
      · refine fun hoff => obeyed_of_outcome h fun i s hs => ?_
        by_cases hi : i = j
        · subst hi
          exact (key s).mpr (hoff s hs)
        · simp [outcome, wanted, hi]
  | leave network c =>
      cases network with
      | none =>
          refine iff_of_true (obeyed_of_outcome h fun i s _ => ?_) trivial
          simp [outcome, wanted]
      | some j =>
          have key : ∀ s : Network, (outcome limit d (now, .leave (some j) c) j s).sent =
              s.sent ++ wanted limit d (now, .leave (some j) c) j
                (outcome limit d (now, .leave (some j) c) j s) ↔
              (c ∈ s.clients → s.clients.length ≠ limit + 1) := by
            intro s
            simp only [outcome, wanted, if_true, Network.say, lines_iff, true_and]
            exact length_erase_le
          constructor
          · intro hobeyed s hs
            obtain ⟨d', hstep⟩ := step_ok now hs (.inr ⟨c, rfl⟩)
            exact (key s).mp (hobeyed.outcome h hstep hs)
          · refine fun hoff => obeyed_of_outcome h fun i s hs => ?_
            by_cases hi : j = i
            · subst hi
              exact (key s).mpr (hoff s hs)
            · simp [outcome, wanted, hi]
  | line cmd => exact iff_of_true (obeyed_of_outcome h fun _ _ _ => rfl) trivial
  | server j motdRecvd external =>
      refine iff_of_true (obeyed_of_outcome h fun i s _ => ?_) trivial
      simp only [outcome, wanted, List.append_nil]
      split_ifs <;> rfl
  | second => exact iff_of_true (obeyed_of_outcome h fun _ _ _ => rfl) trivial

/-- **Auto-away goes by the number of clients that are there, off the limit.**  In a run every event is
obeyed if and only if, at every join and leave, the number of clients that are there afterwards is not
the limit. -/
theorem run_obeyed_iff {limit : ℕ} (h : d.config.clientLimit = limit) (es : List (ℤ × Event)) :
    Along step (Obeyed limit) d es ↔ Along step (OffLimit limit) d es := by
  induction es generalizing d with
  | nil => exact Iff.rfl
  | cons e es ih =>
      rw [Along, Along, obeyed_iff h e]
      refine and_congr_right fun _ => forall_congr' fun d' => forall_congr' fun hstep => ?_
      exact ih ((congrArg _ (step_becomes h hstep).config).trans h)

end

/-- A network without clients, and a limit. -/
def quiet (limit : ℕ) : AutoAwayData where
  config := ⟨none, none, limit, -1⟩
  maxIdleTime := 600
  lastMessage := 0
  networks := [⟨[], true, some ⟨false, none⟩, []⟩]

/-- Two clients join and one leaves, where away is for nobody. -/
theorem run_obeyed_two : Along step (Obeyed 0) (quiet 0)
    [(0, .join 0 7), (1, .join 0 8), (2, .leave (some 0) 7)] := by
  refine (run_obeyed_iff rfl _).mpr ⟨fun s _ => Nat.succ_ne_zero _, fun d hd => ?_⟩
  cases hd
  refine ⟨fun s _ => Nat.succ_ne_zero _, fun d hd => ?_⟩
  cases hd
  refine ⟨?_, fun _ _ => trivial⟩
  rintro s ⟨⟩ -
  decide

/-- One client may be there, one comes, and the user is set back. -/
theorem first_client_set_back :
    (∃ d, step (quiet 1) (0, .join 0 7) = .ok d ∧ d.networks.map (·.clients.length) = [1] ∧
      d.networks.map (·.sent) = [[[str "AWAY"]]]) ∧
    ¬ ∀ (limit : ℕ) (d : AutoAwayData) (es : List (ℤ × Event)), d.config.clientLimit = limit →
      Along step (Obeyed limit) d es := by
  refine ⟨⟨_, rfl, rfl, rfl⟩, fun hall => ?_⟩
  have hjoin := (hall 1 (quiet 1) [(0, .join 0 7)] rfl).1 _ rfl 0 _ _ rfl rfl
  exact absurd hjoin (by decide)

end Ctrlproxy.AutoAway
