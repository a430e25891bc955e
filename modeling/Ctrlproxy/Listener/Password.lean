import Ctrlproxy.Base.Print
import Ctrlproxy.Connection.Server
import Ctrlproxy.Lib.Outcome

/-!
# Listener — the password of a plain client

`src/listener.c` for a client that speaks IRC: `handle_client_line` reads the lines of a client that
has not given its password, and `find_network_by_hostname` of `src/network.c` finds the network it
asked for behind the password.

`strcmp` and `strchr` fault when they are handed `NULL`.  Networks are known by their position in
the list, so that two of one name stay two.  Left out: the log, what connecting to a network does
(`Connection`), the transport of the client that is made, and who is told of a new network.
-/

namespace Ctrlproxy.Listener
open Outcome
open Connection (ConnectionState TcpServerConfig)

/-- `strcmp(a, b) == 0`. -/
def strcmpEq (a b : Option Str) : Except Fault Bool :=
  match a, b with
  | some a, some b => .ok (a = b)
  | _, _ => .error .null

/-- `!strcasecmp(a, b)`: no locale is set. -/
def strcasecmpEq (a b : Str) : Bool := a.map Byte.lower == b.map Byte.lower

/-- `struct allow_rule`. -/
structure AllowRule where
  username : Option Str
  password : Option Str
  deriving DecidableEq

/-- `struct listener_config`: who may connect. -/
structure ListenerConfig where
  password : Option Str
  allowRules : List AllowRule

/-- `struct irc_network`.  `servers` is empty for a network of another type than TCP. -/
structure IrcNetwork where
  name : Option Str
  servers : List TcpServerConfig
  state : ConnectionState

/-- `struct global`, with the fields of its configuration that are read here. -/
structure Global where
  password : Option Str
  createImplicit : Bool
  networks : List IrcNetwork

/-- `struct irc_listener` for the clients that speak IRC; `network` is a position in the list of
networks. -/
structure LineListener where
  config : Option ListenerConfig
  network : Option ℕ
  global : Global

/-- What is outside: the name of the host, the port `getservbyname` knows a service under, whether
connecting to a network succeeds, and whether a write is `NORMAL`. -/
structure Surroundings where
  myHostname : Str
  services : Str → Option ℕ
  connects : Bool
  writes : Bool

/-- What `handle_client_line` returns, the lines it writes, and the network it makes a client of, if
it makes one. -/
structure Reply where
  keep : Bool
  sent : List IrcLine
  client : Option (Option ℕ)
  deriving DecidableEq

def ERR_NOTREGISTERED : ℤ := 451

def ERR_PASSWDMISMATCH : ℤ := 464

/-! ### The check of a password -/

/-- The loop over `allow_rules`. -/
def allowedByRule (username password : Option Str) : List AllowRule → Except Fault Bool
  | [] => .ok false
  | r :: rules =>
      if r.password = none ∨ r.username = none then allowedByRule username password rules
      else do
        if ← strcmpEq r.username username then
          if ← strcmpEq r.password password then .ok true
          else allowedByRule username password rules
        else allowedByRule username password rules

/-- The rules of a listener that was configured. -/
def LineListener.allowed (l : LineListener) (username password : Option Str) : Except Fault Bool :=
  match l.config with
  | some c => allowedByRule username password c.allowRules
  | none => .ok false

/-- The password of the listener, or else the global one. -/
def LineListener.checkPassword (l : LineListener) (password : Option Str) : Except Fault Bool :=
  match l.config.bind ListenerConfig.password with
  | some p => strcmpEq (some p) password
  | none => match l.global.password with
      | some p => strcmpEq (some p) password
      | none => .ok true

/-- `listener_check_username_password`. -/
def listenerCheckUsernamePassword (l : LineListener) (username password : Option Str) :
    Except Fault Bool := do
  if ← l.allowed username password then .ok true
  else l.checkPassword password

/-! ### Networks -/

/-- Whether `find_network_by_hostname` takes a network. -/
def IrcNetwork.answersTo (services : Str → Option ℕ) (hostname : Str) (port : ℕ) (n : IrcNetwork) :
    Bool :=
  (n.name.any fun name => strcasecmpEq name hostname) ||
    n.servers.any fun server => strcasecmpEq server.host hostname &&
      (strcasecmpEq server.port (decimal port) || services server.port == some port)

/-- `find_network_by_hostname`: the network, and the list of networks. -/
def findNetworkByHostname (services : Str → Option ℕ) (global : Global) (hostname : Str) (port : ℕ)
    (create : Bool) : Option ℕ × List IrcNetwork :=
  match global.networks.findIdx? (IrcNetwork.answersTo services hostname port) with
  | some i => (some i, global.networks)
  | none =>
      if create then
        (some global.networks.length, global.networks ++
          [⟨some hostname, [⟨hostname, decimal port, false⟩], .notConnected⟩])
      else (none, global.networks)

/-! ### Lines -/

/-- `irc_sendf`, to the line it sends. -/
def ircSendf (text : Str) : Except Fault IrcLine :=
  match ircParseLine text with
  | some l => .ok l
  | none => .error .assertion

/-- `":%s %d %s :…"` with the name of the host and `"*"`. -/
def numericText (a : Surroundings) (code : ℤ) (text : Str) : Str :=
  chr ':' :: a.myHostname ++ chr ' ' :: (decimalInt code ++ str " * :" ++ text)

/-- The password and the name of the network in the argument of PASS. -/
def splitPass (arg : Str) : Str × Option Str :=
  if chr ':' ∈ arg then
    (arg.takeWhile (· ≠ chr ':'), some ((arg.dropWhile (· ≠ chr ':')).drop 1))
  else (arg, none)

/-- The network a client that gave its password is attached to: the lines that are written, and the
network unless the client is turned away. -/
def selectNetwork (a : Surroundings) (l : LineListener) (networkname : Option Str) :
    Except Fault (List IrcLine × Option (Option ℕ)) :=
  match networkname with
  | none => .ok ([], some l.network)
  | some name =>
      let (n, networks) := findNetworkByHostname a.services l.global name 6667 l.global.createImplicit
      match n with
      | none => do
          let e ← ircSendf (numericText a ERR_PASSWDMISMATCH (str "Password error: unable to find network"))
          .ok ([e], none)
      | some i =>
          if networks[i]?.any (·.state = .notConnected) ∧ ¬ a.connects then do
            let e ← ircSendf (numericText a ERR_PASSWDMISMATCH (str "Password error: unable to connect"))
            .ok ([e], none)
          else .ok ([], some (some i))

/-- What follows an accepted password. -/
def passAccepted (a : Surroundings) (listener : LineListener) (networkname : Option Str) :
    Except Fault Reply := do
  let (sent, selected) ← selectNetwork a listener networkname
  match selected with
  | none => .ok ⟨false, sent, none⟩
  | some n =>
      let ok ← ircSendf (str "NOTICE AUTH :PASS OK")
      .ok ⟨false, sent ++ [ok], some n⟩

/-- What follows a wrong password. -/
def passRefused (a : Surroundings) : Except Fault Reply := do
  let e ← ircSendf (numericText a ERR_PASSWDMISMATCH (str "Password mismatch"))
  .ok ⟨a.writes, [e], none⟩

/-- `handle_client_line`. -/
def handleClientLine (a : Surroundings) (listener : LineListener) (line : Option IrcLine) :
    Except Fault Reply :=
  match line with
  | none => .ok ⟨true, [], none⟩
  | some l =>
      if l.args[0]? = none then .ok ⟨true, [], none⟩
      else if baseEq l.args[0]? (str "PASS") then do
        let arg ← l.argStr 1
        let (actualPassword, networkname) := splitPass arg
        if ← listenerCheckUsernamePassword listener none (some actualPassword) then
          passAccepted a listener networkname
        else passRefused a
      else do
        let e ← ircSendf (numericText a ERR_NOTREGISTERED
          (str "You are not registered. Did you specify a password?"))
        .ok ⟨true, [e], none⟩

/-! ### The check -/

section
variable {a : Surroundings} {listener : LineListener}

/-- A rule that names a user and a password. -/
def AllowRule.isComplete (r : AllowRule) : Bool := r.username.isSome && r.password.isSome

/-- A listener with a rule that names a user and a password. -/
def LineListener.hasCompleteRule (l : LineListener) : Bool :=
  l.config.any fun c => c.allowRules.any AllowRule.isComplete

/-- The password of a listener: its own, or else the global one. -/
def LineListener.effectivePassword (l : LineListener) : Option Str :=
  (l.config.bind ListenerConfig.password).or l.global.password

theorem allowedByRule_known (u p : Str) (rules : List AllowRule) :
    Total (allowedByRule (some u) (some p) rules) fun _ => True := by
  induction rules with
  | nil => trivial
  | cons r rules ih =>
      obtain ⟨username, password⟩ := r
      rw [allowedByRule]
      split
      · exact ih
      cases username with
      | none => simp_all
      | some u' =>
          cases password with
          | none => simp_all
          | some p' =>
              refine Ensures.bind (Q := fun _ => True) trivial fun b _ => ?_
              split
              · refine Ensures.bind (Q := fun _ => True) trivial fun b _ => ?_
                split
                · trivial
                · exact ih
              · exact ih

/-- Without a user name the first complete rule is compared with `NULL`. -/
theorem allowedByRule_unknown (p : Option Str) (rules : List AllowRule) :
    allowedByRule none p rules =
      if rules.any AllowRule.isComplete then .error .null else .ok false := by
  induction rules with
  | nil => rfl
  | cons r rules ih =>
      obtain ⟨username, password⟩ := r
      rw [allowedByRule, List.any_cons]
      cases username with
      | none => simpa [AllowRule.isComplete] using ih
      | some u =>
          cases password with
          | none => simpa [AllowRule.isComplete] using ih
          | some q => rfl

/-- A password is compared with the one of the listener, if it has one. -/
def LineListener.accepts (l : LineListener) (p : Str) : Bool :=
  l.effectivePassword.all fun q => q = p

theorem checkPassword_eq (p : Str) :
    listener.checkPassword (some p) = .ok (listener.accepts p) := by
  unfold LineListener.checkPassword LineListener.accepts LineListener.effectivePassword
  cases listener.config.bind ListenerConfig.password with
  | some q => rfl
  | none =>
      cases listener.global.password with
      | some q => rfl
      | none => rfl

/-- The check of a known user returns. -/
theorem listenerCheck_known (u p : Str) :
    Total (listenerCheckUsernamePassword listener (some u) (some p)) fun _ => True := by
  have rules : Total (listener.allowed (some u) (some p)) fun _ => True := by
    unfold LineListener.allowed
    cases listener.config with
    | none => trivial
    | some c => exact allowedByRule_known u p _
  refine rules.bind fun allowed _ => ?_
  split
  · trivial
  · rw [checkPassword_eq]
    trivial

/-- The check of an unknown user is the comparison with the password of the listener, unless a
complete rule is met. -/
theorem listenerCheck_unknown (p : Str) :
    listenerCheckUsernamePassword listener none (some p) =
      if listener.hasCompleteRule then .error .null else .ok (listener.accepts p) := by
  have rules : listener.allowed none (some p) =
      if listener.hasCompleteRule then .error .null else .ok false := by
    unfold LineListener.allowed LineListener.hasCompleteRule
    cases listener.config with
    | none => rfl
    | some c => exact allowedByRule_unknown _ _
  rw [listenerCheckUsernamePassword, rules]
  split
  · rfl
  · rw [ok_bind, if_neg Bool.false_ne_true, checkPassword_eq]

/-! ### The answers -/

theorem ircSendf_numericText (code : ℤ) (text : Str) :
    ∃ e, ircSendf (numericText a code text) = .ok e := by
  have hsep : ∀ o t : Str, ∃ e, ircParseLine (chr ':' :: o ++ chr ' ' :: t) = some e := by
    intro o t
    rw [List.cons_append, ircParseLine, if_pos rfl]
    split
    · next h =>
      have hmem : chr ' ' ∈ o ++ chr ' ' :: t :=
        List.mem_append_right _ List.mem_cons_self
      have hne := List.dropWhile_eq_nil_iff.mp h _ hmem
      simp at hne
    · exact ⟨_, rfl⟩
  obtain ⟨e, he⟩ := hsep a.myHostname (decimalInt code ++ str " * :" ++ text)
  exact ⟨e, by rw [ircSendf, numericText, he]⟩

theorem selectNetwork_returns (networkname : Option Str) :
    Total (selectNetwork a listener networkname) fun _ => True := by
  unfold selectNetwork
  cases networkname with
  | none => trivial
  | some name =>
      dsimp only
      split
      · obtain ⟨e, he⟩ := ircSendf_numericText (a := a) ERR_PASSWDMISMATCH
          (str "Password error: unable to find network")
        rw [he]
        trivial
      · split
        · obtain ⟨e, he⟩ := ircSendf_numericText (a := a) ERR_PASSWDMISMATCH
            (str "Password error: unable to connect")
          rw [he]
          trivial
        · trivial

theorem passAccepted_returns (networkname : Option Str) :
    Total (passAccepted a listener networkname) fun _ => True := by
  refine (selectNetwork_returns networkname).bind ?_
  rintro ⟨sent, selected⟩ -
  cases selected with
  | none => trivial
  | some n => trivial

theorem passRefused_returns : Total (passRefused a) fun _ => True := by
  obtain ⟨e, he⟩ := ircSendf_numericText (a := a) ERR_PASSWDMISMATCH (str "Password mismatch")
  rw [passRefused, he]
  trivial

/-! ### Lines that kill the proxy -/

/-- A line that is a PASS. -/
def IrcLine.isPass (l : IrcLine) : Bool := l.args ≠ [] && baseEq l.args[0]? (str "PASS")

/-- A PASS without an argument, or any PASS where a complete rule is met. -/
def PassFaults (listener : LineListener) (line : Option IrcLine) : Prop :=
  ∃ l, line = some l ∧ IrcLine.isPass l = true ∧ (l.argc < 2 ∨ listener.hasCompleteRule = true)

theorem argStr_one {l : IrcLine} (h : 2 ≤ l.argc) : ∃ arg, l.args[1]? = some arg ∧
    l.argStr 1 = .ok arg := by
  have h1 : 1 < l.args.length := h
  refine ⟨l.args[1], List.getElem?_eq_getElem h1, ?_⟩
  rw [IrcLine.argStr, if_pos (by omega), List.getElem?_eq_getElem h1]

theorem argStr_one_short {l : IrcLine} (hne : l.args ≠ []) (h : l.argc < 2) :
    l.argStr 1 = .error .null := by
  have h1 : 1 ≤ l.argc := List.length_pos_iff.mpr hne
  rw [IrcLine.argStr, if_pos h1, List.getElem?_eq_none (by rw [IrcLine.argc] at h; omega)]

/-- **Only PASS kills the proxy before the password.** For every listener, every answer of the
system and every line: `handle_client_line` returns if and only if the line is not a PASS without
an argument, nor a PASS to a listener with a rule that names both a user and a password; and the
check behind it returns for every known user. -/
theorem handleClientLine_returns (line : Option IrcLine) :
    (∀ u p, ∃ b, listenerCheckUsernamePassword listener (some u) (some p) = .ok b) ∧
    ((∃ r, handleClientLine a listener line = .ok r) ↔ ¬ PassFaults listener line) := by
  refine ⟨fun u p => ?_, ?_⟩
  · have known : Total (listenerCheckUsernamePassword listener (some u) (some p)) fun _ => True :=
      listenerCheck_known u p
    obtain ⟨b, hb, -⟩ := known.exists_ok
    exact ⟨b, hb⟩
  cases line with
  | none => exact ⟨fun _ ⟨_, h, _⟩ => (nomatch h), fun _ => ⟨_, rfl⟩⟩
  | some l =>
      have faults : PassFaults listener (some l) ↔
          IrcLine.isPass l = true ∧ (l.argc < 2 ∨ listener.hasCompleteRule = true) :=
        ⟨fun ⟨_, h, hp⟩ => by cases h; exact hp, fun h => ⟨l, rfl, h⟩⟩
      rw [faults]
      by_cases hnil : l.args = []
      · have hq : ¬ IrcLine.isPass l = true := by simp [IrcLine.isPass, hnil]
        refine ⟨fun _ h => hq h.1, fun _ => ⟨⟨true, [], none⟩, ?_⟩⟩
        simp [handleClientLine, hnil]
      have h0 : l.args[0]? ≠ none := by simpa using hnil
      by_cases hpass : baseEq l.args[0]? (str "PASS") = true
      · have hp : IrcLine.isPass l = true := by simp [IrcLine.isPass, hnil, hpass]
        simp only [handleClientLine, if_neg h0, if_pos hpass, hp, true_and]
        by_cases hargc : l.argc < 2
        · rw [argStr_one_short hnil hargc]
          exact ⟨fun ⟨_, h⟩ => (nomatch h), fun h => absurd (.inl hargc) h⟩
        obtain ⟨arg, -, harg⟩ := argStr_one (by omega : 2 ≤ l.argc)
        rw [harg, ok_bind, listenerCheck_unknown]
        cases hrule : listener.hasCompleteRule with
        | true => exact ⟨fun ⟨_, h⟩ => (nomatch h), fun h => absurd (.inr rfl) h⟩
        | false =>
            refine ⟨fun _ => by simp [hargc], fun _ => ?_⟩
            have answer : Total (if listener.accepts (splitPass arg).1 then
                passAccepted a listener (splitPass arg).2 else passRefused a) fun _ => True := by
              split
              · exact passAccepted_returns _
              · exact passRefused_returns
            obtain ⟨r, hr, -⟩ := answer.exists_ok
            exact ⟨r, hr⟩
      · have hq : ¬ IrcLine.isPass l = true := by simp [IrcLine.isPass, hpass]
        refine ⟨fun _ h => hq h.1, fun _ => ?_⟩
        obtain ⟨e, he⟩ := ircSendf_numericText (a := a) ERR_NOTREGISTERED
          (str "You are not registered. Did you specify a password?")
        exact ⟨⟨true, [e], none⟩, by simp only [handleClientLine, if_neg h0, if_neg hpass, he, ok_bind]⟩

end

/-- A bare PASS to a listener with a password, and a PASS with an argument to a listener with a rule
for one user. -/
theorem pass_faults :
    handleClientLine ⟨str "h", fun _ => none, true, true⟩
      ⟨some ⟨some (str "secret"), []⟩, none, ⟨none, false, []⟩⟩
      (ircParseLine (str "PASS\r\n")) = .error .null ∧
    handleClientLine ⟨str "h", fun _ => none, true, true⟩
      ⟨some ⟨none, [⟨some (str "u"), some (str "p")⟩]⟩, none, ⟨none, false, []⟩⟩
      (ircParseLine (str "PASS x\r\n")) = .error .null := by
  decide +kernel

/-! ### Passwords and network names -/

/-- A line that a client ends a PASS with, as it is parsed. -/
theorem ircParseLine_pass {t : Str} (ht : NoEol t) :
    ircParseLine (str "PASS :" ++ t) = some ⟨none, [str "PASS", t], .withColon⟩ := by
  have hw : Word (str "PASS") := by unfold Word; decide
  have hargs : parseArgs true [] (str "PASS :" ++ t) = ([str "PASS", t], .withColon) := by
    have hsplit : str "PASS :" ++ t = str "PASS" ++ chr ' ' :: chr ':' :: t := rfl
    have hfree := parseArgs_free [] t [] ht
    rw [List.append_nil, List.nil_append, parseArgs_nil] at hfree
    rw [hsplit, parseArgs_word [] _ _ hw, List.nil_append, parseArgs_space_colon, hfree]
  have hhead : (str "PASS :" ++ t).head? ≠ some (chr ':') := by
    rw [List.head?_append]
    exact show some (chr 'P') ≠ some (chr ':') by decide
  rw [ircParseLine_args hhead, hargs]

theorem splitPass_none {p : Str} (hp : chr ':' ∉ p) : splitPass p = (p, none) := if_neg hp

theorem splitPass_name {p : Str} (hp : chr ':' ∉ p) (name : Str) :
    splitPass (p ++ chr ':' :: name) = (p, some name) := by
  have hw : ∀ b ∈ p, decide (b ≠ chr ':') = true := fun b hb =>
    decide_eq_true fun e => hp (e ▸ hb)
  rw [splitPass, if_pos (List.mem_append_right _ List.mem_cons_self),
    List.takeWhile_append_of_pos hw, List.dropWhile_append_of_pos hw]
  simp

/-- What stands before the first colon holds none. -/
theorem colon_notMem_splitPass (arg : Str) : chr ':' ∉ (splitPass arg).1 := by
  unfold splitPass
  split
  · intro h
    simpa using List.mem_takeWhile_imp h
  · assumption

/-- The argument is its password, or its password and a name. -/
theorem splitPass_cases (arg : Str) :
    arg = (splitPass arg).1 ∨ ∃ name, arg = (splitPass arg).1 ++ chr ':' :: name := by
  unfold splitPass
  split
  · next h =>
    right
    have hne : arg.dropWhile (· ≠ chr ':') ≠ [] := by
      intro hnil
      have hall := List.dropWhile_eq_nil_iff.mp hnil _ h
      simp at hall
    have hhead : (arg.dropWhile (· ≠ chr ':')).head hne = chr ':' := by
      simpa using List.head_dropWhile_not (fun b => decide (b ≠ chr ':')) hne
    refine ⟨(arg.dropWhile (· ≠ chr ':')).drop 1, ?_⟩
    calc arg = arg.takeWhile (· ≠ chr ':') ++ arg.dropWhile (· ≠ chr ':') :=
          List.takeWhile_append_dropWhile.symm
      _ = arg.takeWhile (· ≠ chr ':') ++
            chr ':' :: (arg.dropWhile (· ≠ chr ':')).drop 1 := by
          rw [List.drop_one]
          conv_lhs => rw [← List.cons_head_tail hne, hhead]
  · exact .inl rfl

section
variable {a : Surroundings} {listener : LineListener} {p : Str}

/-- `handle_client_line` on a PASS with an argument, where no rule is met. -/
theorem handleClientLine_pass {l : IrcLine} {arg : Str} (hl : IrcLine.isPass l = true)
    (harg : l.args[1]? = some arg) (hr : listener.hasCompleteRule = false) :
    handleClientLine a listener (some l) =
      if listener.accepts (splitPass arg).1 then passAccepted a listener (splitPass arg).2
      else passRefused a := by
  have h1 : 1 < l.args.length := (List.getElem?_eq_some_iff.mp harg).1
  have hne : l.args ≠ [] := by
    rintro h
    rw [h] at h1
    cases h1
  have h0 : l.args[0]? ≠ none := by simpa using hne
  have hpass : baseEq l.args[0]? (str "PASS") = true := by
    simpa [IrcLine.isPass, hne] using hl
  have hstr : l.argStr 1 = .ok arg := by
    rw [IrcLine.argStr, if_pos (by rw [IrcLine.argc]; omega), harg]
  simp only [handleClientLine, if_neg h0, if_pos hpass, hstr, ok_bind, listenerCheck_unknown, hr,
    Bool.false_eq_true, if_false]

/-- The answer to a password that is accepted. -/
def passOk : IrcLine := ⟨none, [str "NOTICE", str "AUTH", str "PASS OK"], .withColon⟩

/-- The client is let in, on a network. -/
def LetIn (a : Surroundings) (listener : LineListener) (n : Option ℕ) (line : Option IrcLine) :
    Prop :=
  handleClientLine a listener line = .ok ⟨false, [passOk], some n⟩

/-- The client is told that the password is wrong, and gets no further. -/
def Refused (a : Surroundings) (listener : LineListener) (line : Option IrcLine) : Prop :=
  ∃ e, ircSendf (numericText a ERR_PASSWDMISMATCH (str "Password mismatch")) = .ok e ∧
    handleClientLine a listener line = .ok ⟨a.writes, [e], none⟩

/-- A network with a connection to its server. -/
def IrcNetwork.isConnected (n : IrcNetwork) : Bool :=
  n.state = .connected || n.state = .loginSent || n.state = .motdRecvd

/-- Network `i` is connected, and goes by a name that a line can hold. -/
def LineListener.HasNetwork (l : LineListener) (i : ℕ) (name : Str) : Prop :=
  ∃ n, l.global.networks[i]? = some n ∧ n.isConnected = true ∧ n.name = some name ∧ NoEol name

/-- The password `p` lets in, also with the name of a connected network behind it, and no other
argument of PASS does. -/
structure AcceptsExactly (a : Surroundings) (listener : LineListener) (p : Str) : Prop where
  password : LetIn a listener listener.network (ircParseLine (str "PASS :" ++ p))
  network : ∀ i name, listener.HasNetwork i name →
    LetIn a listener (some i) (ircParseLine (str "PASS :" ++ p ++ chr ':' :: name))
  others : ∀ l arg, IrcLine.isPass l = true → l.args[1]? = some arg → arg ≠ p →
    (∀ name, arg ≠ p ++ chr ':' :: name) → Refused a listener (some l)

/-- No network before a connected one goes by its name, or has a server of that name on port
6667. -/
def LineListener.NamesResolve (l : LineListener) (services : Str → Option ℕ) : Prop :=
  ∀ i name, l.HasNetwork i name → ∀ j < i, ∀ n, l.global.networks[j]? = some n →
    n.answersTo services name 6667 = false

theorem passOk_sent : ircSendf (str "NOTICE AUTH :PASS OK") = .ok passOk := by
  simp [ircSendf, passOk, ircParseLine, parseArgs, str, chr]

theorem accepts_effective (h : listener.effectivePassword = some p) (q : Str) :
    listener.accepts q = decide (p = q) := by
  rw [LineListener.accepts, h, Option.all_some]

/-- A wrong password is refused. -/
theorem refused_of_password {l : IrcLine} {arg : Str} (hl : IrcLine.isPass l = true)
    (harg : l.args[1]? = some arg) (hr : listener.hasCompleteRule = false)
    (he : listener.effectivePassword = some p) (hne : (splitPass arg).1 ≠ p) :
    Refused a listener (some l) := by
  obtain ⟨e, hsent⟩ := ircSendf_numericText (a := a) ERR_PASSWDMISMATCH (str "Password mismatch")
  refine ⟨e, hsent, ?_⟩
  have hacc : ¬ listener.accepts (splitPass arg).1 = true := by
    rw [accepts_effective he, decide_eq_true_iff]
    exact fun h => hne h.symm
  rw [handleClientLine_pass hl harg hr, if_neg hacc, passRefused, hsent]
  rfl

theorem not_letIn_of_refused {n : Option ℕ} {line : Option IrcLine} (h : Refused a listener line) :
    ¬ LetIn a listener n line := by
  rintro hin
  obtain ⟨e, -, h⟩ := h
  rw [LetIn, h] at hin
  have hclient := (Reply.mk.inj (Except.ok.inj hin)).2.2
  cases hclient

/-- Without a name the client is let in on the network of the listener. -/
theorem passAccepted_none :
    passAccepted a listener none = .ok ⟨false, [passOk], some listener.network⟩ := by
  unfold passAccepted selectNetwork
  simp only [ok_bind, passOk_sent, List.nil_append]

/-- With a name that is found the client is let in there, unless the network has to be connected and
is not. -/
theorem passAccepted_found {name : Str} {k : ℕ}
    (hk : listener.global.networks.findIdx? (IrcNetwork.answersTo a.services name 6667) = some k)
    (i : ℕ) : passAccepted a listener (some name) = .ok ⟨false, [passOk], some (some i)⟩ ↔
      k = i ∧ ¬ (listener.global.networks[k]?.any (·.state = .notConnected) ∧ ¬ a.connects) := by
  have hfind : findNetworkByHostname a.services listener.global name 6667
      listener.global.createImplicit = (some k, listener.global.networks) := by
    rw [findNetworkByHostname, hk]
  unfold passAccepted selectNetwork
  simp only [hfind]
  split
  · next hoff =>
    obtain ⟨e, he⟩ := ircSendf_numericText (a := a) ERR_PASSWDMISMATCH
      (str "Password error: unable to connect")
    rw [he]
    exact ⟨fun h => (nomatch h), fun h => absurd hoff h.2⟩
  · next hon =>
    simp only [ok_bind, passOk_sent, List.nil_append, Except.ok.injEq, Reply.mk.injEq, true_and,
      Option.some.injEq, hon, not_false_eq_true, and_true]

/-- The right password with the name of a network lets in where the name leads. -/
theorem letIn_name_iff {i : ℕ} {name : Str} (hp : NoEol p) (hc : chr ':' ∉ p)
    (hr : listener.hasCompleteRule = false) (he : listener.effectivePassword = some p)
    (hn : listener.HasNetwork i name) :
    LetIn a listener (some i) (ircParseLine (str "PASS :" ++ p ++ chr ':' :: name)) ↔
      ∀ j < i, ∀ n, listener.global.networks[j]? = some n →
        n.answersTo a.services name 6667 = false := by
  obtain ⟨n, hi, hconn, hname, hne⟩ := hn
  have hcolon : NoEol (p ++ chr ':' :: name) := by
    refine hp.append fun b hb => ?_
    rcases List.mem_cons.mp hb with rfl | hb
    · decide
    · exact hne b hb
  have hans : n.answersTo a.services name 6667 = true := by
    rw [IrcNetwork.answersTo, hname, Option.any_some, strcasecmpEq, beq_self_eq_true, Bool.true_or]
  have hstate : n.state ≠ .notConnected := by
    intro h
    rw [IrcNetwork.isConnected, h] at hconn
    cases hconn
  obtain ⟨hlt, hget⟩ := List.getElem?_eq_some_iff.mp hi
  obtain ⟨k, hk⟩ : ∃ k, listener.global.networks.findIdx?
      (IrcNetwork.answersTo a.services name 6667) = some k := by
    refine Option.isSome_iff_exists.mp ?_
    rw [List.findIdx?_isSome]
    exact List.any_eq_true.mpr ⟨n, List.mem_of_getElem? hi, hans⟩
  obtain ⟨hklt, hkans, hkmin⟩ := List.findIdx?_eq_some_iff_getElem.mp hk
  rw [LetIn, List.append_assoc, ircParseLine_pass hcolon,
    handleClientLine_pass rfl rfl hr, splitPass_name hc,
    if_pos (by rw [accepts_effective he]; exact decide_eq_true rfl), passAccepted_found hk]
  constructor
  · rintro ⟨rfl, -⟩ j hj m hm
    obtain ⟨hjlt, rfl⟩ := List.getElem?_eq_some_iff.mp hm
    simpa using hkmin j hj
  · intro hfirst
    have hki : k = i := by
      rcases Nat.lt_trichotomy k i with h | h | h
      · rw [hfirst k h _ (List.getElem?_eq_getElem hklt)] at hkans
        cases hkans
      · exact h
      · have hno := hkmin i h
        rw [hget] at hno
        exact absurd hans hno
    refine ⟨hki, fun h => hstate ?_⟩
    rw [hki, hi] at h
    simpa using h.1

/-- **A password with a colon is never accepted.** A PASS with the password of a listener without
rules lets in, also with the name of a connected network behind it, and any other is refused, if and
only if the password holds no colon and the names of connected networks lead to them. -/
theorem handleClientLine_password (hp : NoEol p)
    (hrules : ∀ c ∈ listener.config, c.allowRules = [])
    (he : listener.effectivePassword = some p) :
    AcceptsExactly a listener p ↔ chr ':' ∉ p ∧ listener.NamesResolve a.services := by
  have hr : listener.hasCompleteRule = false := by
    rw [LineListener.hasCompleteRule]
    cases hc : listener.config with
    | none => rfl
    | some c => rw [Option.any_some, hrules c hc, List.any_nil]
  constructor
  · intro h
    have hcolon : chr ':' ∉ p := by
      intro hmem
      refine not_letIn_of_refused ?_ h.password
      rw [ircParseLine_pass hp]
      refine refused_of_password rfl rfl hr he fun heq => ?_
      have hno := colon_notMem_splitPass p
      rw [heq] at hno
      exact hno hmem
    exact ⟨hcolon, fun i name hn => (letIn_name_iff hp hcolon hr he hn).mp (h.network i name hn)⟩
  · rintro ⟨hcolon, hnames⟩
    refine ⟨?_, fun i name hn => (letIn_name_iff hp hcolon hr he hn).mpr (hnames i name hn), ?_⟩
    · rw [LetIn, ircParseLine_pass hp, handleClientLine_pass rfl rfl hr, splitPass_none hcolon,
        if_pos (by rw [accepts_effective he]; exact decide_eq_true rfl), passAccepted_none]
    · intro l arg hl harg hne hname
      refine refused_of_password hl harg hr he fun heq => ?_
      rcases splitPass_cases arg with h | ⟨name, h⟩
      · exact hne (h.trans heq)
      · exact hname name (by rw [← heq]; exact h)

end

/-- A listener with a password of its own, in front of one connected network. -/
def guardedListener (p : Str) : LineListener :=
  ⟨some ⟨some p, []⟩, none, ⟨none, false, [⟨some (str "oftc"), [], .motdRecvd⟩]⟩⟩

/-- A password without a colon. -/
theorem handleClientLine_password_secret :
    AcceptsExactly ⟨str "h", fun _ => none, true, true⟩ (guardedListener (str "secret"))
      (str "secret") := by
  have hp : NoEol (str "secret") := by unfold NoEol; decide
  refine (handleClientLine_password hp ?_ rfl).mpr ⟨by decide, ?_⟩
  · rintro c ⟨⟩
    rfl
  · rintro i name ⟨n, hi, -⟩ j hj
    have hlt : i < 1 := (List.getElem?_eq_some_iff.mp hi).1
    omega

/-- A password with a colon is refused, though the check accepts it from a client that speaks
SOCKS. -/
theorem password_colon_refused :
    ¬ AcceptsExactly ⟨str "h", fun _ => none, true, true⟩ (guardedListener (str "a:b")) (str "a:b") ∧
    handleClientLine ⟨str "h", fun _ => none, true, true⟩ (guardedListener (str "a:b"))
      (ircParseLine (str "PASS :a:b")) =
        .ok ⟨true, [⟨some (str "h"), [str "464", str "*", str "Password mismatch"], .withColon⟩],
          none⟩ ∧
    listenerCheckUsernamePassword (guardedListener (str "a:b")) (some (str "u")) (some (str "a:b")) =
      .ok true := by
  have refused : handleClientLine ⟨str "h", fun _ => none, true, true⟩ (guardedListener (str "a:b"))
      (ircParseLine (str "PASS :a:b")) =
        .ok ⟨true, [⟨some (str "h"), [str "464", str "*", str "Password mismatch"], .withColon⟩],
          none⟩ := by decide +kernel
  refine ⟨fun h => ?_, refused, by decide⟩
  have hin : handleClientLine _ _ (ircParseLine (str "PASS :a:b")) = _ := h.password
  rw [refused] at hin
  have hclient := (Reply.mk.inj (Except.ok.inj hin)).2.2
  cases hclient

end Ctrlproxy.Listener
