import Ctrlproxy.Base.Casemap
import Ctrlproxy.Client.Send
import Ctrlproxy.Linestack.Store

/-!
# Proxy — the NickServ filter

`src/nickserv.c`: a filter that sees every line to and from a server, learns the passwords clients
give to NickServ, and gives them to NickServ itself when a nick needs it.  What it keeps between
lines is shared by all networks: the list of passwords, `global->nickserv_nicks`, and the last nick
a client tried, a static variable of `log_data`.

The lines the filter sends go through the filter on their way (`network_send_line`).  `log_data`
sends lines only when it sees one from the server, so the filter is nested at most once.

Left out: the messages that are logged, and the other filters, which look at the command of a line
and let every line pass.
-/

namespace Ctrlproxy
open Outcome

/-! ### Data -/

/-- `struct keyfile_entry`.  An entry without a network holds a password; one for a network may have
learnt `NULL`. -/
inductive KeyfileEntry where
  | everywhere (nick pass : Str)
  | on (network nick : Str) (pass : Option Str)
  deriving DecidableEq

def KeyfileEntry.nick : KeyfileEntry → Str
  | everywhere nick _ => nick
  | on _ nick _ => nick

/-- What is read of `struct irc_network`: `nick` and `identified` are `external_state->me.nick` and
`external_state->me.modes['R']`. -/
structure IrcNetwork where
  name : Str
  info : NetworkInfo
  externalInfo : NetworkInfo
  nick : Str
  identified : Bool

/-- What is kept between lines, and what is done meanwhile.  `sent` are the lines given to the
server the filter works for.  `nullGiven` says whether `NULL` was given to a function that goes on
with it. -/
structure Proxy where
  nickservNicks : List KeyfileEntry
  nickattempt : Option Str
  sent : List IrcLine
  nullGiven : Bool

/-- A string is handed to a function that does not stop at `NULL`. -/
def Proxy.given (p : Proxy) (a : Option Str) : Proxy :=
  { p with nullGiven := p.nullGiven || a.isNone }

/-- `!strcasecmp(a, b)`. -/
def strcasecmpEq (a b : Str) : Bool := baseEq (some a) b

/-- `!ircncmp(n, a, b, len)`. -/
def ircncmpEq (n : NetworkInfo) (a : Option Str) (b : Str) (len : ℕ) : Except Fault Bool :=
  match a with
  | none => .error .assertion
  | some a => .ok (match n.casemapping with
      | .unknown | .rfc1459 => strCmphelper 97 65 126 94 (some len) a b = 0
      | .ascii => strCmphelper 97 65 122 90 (some len) a b = 0
      | .strictRfc1459 => strCmphelper 97 65 125 93 (some len) a b = 0)

/-! ### Passwords -/

/-- `nickserv_find_nick`. -/
def nickservFindNick (n : IrcNetwork) (nick : Option Str) :
    List KeyfileEntry → Except Fault (Option Str)
  | [] => .ok none
  | e :: es => do
      if ← ircEq (some n.info) (some e.nick) nick then
        match e with
        | .everywhere _ pass => pure (some pass)
        | .on network _ pass =>
            if strcasecmpEq network n.name then pure pass else nickservFindNick n nick es
      else nickservFindNick n nick es

/-- `nickserv_nick`. -/
def nickservNick : Str := str "NickServ"

/-- `!strcmp(a, b)` on strings that may be `NULL`. -/
def strcmpEq (a b : Option Str) : Except Fault Bool :=
  match a, b with
  | some a, some b => .ok (decide (a = b))
  | _, _ => .error .null

/-- An entry for every network has this nick and this password. -/
def sameEntry (n : IrcNetwork) (newpass : Option Str) (nick pass : Str) : Except Fault Bool := do
  if ← ircEq (some n.externalInfo) (some nick) (some n.nick) then strcmpEq (some pass) newpass
  else pure false

/-- The loop of `cache_nickserv_pass`: the list with the password at the entry it stops at. -/
def cacheAt (n : IrcNetwork) (newpass : Option Str) :
    List KeyfileEntry → Except Fault (Option (List KeyfileEntry))
  | [] => .ok none
  | .on network nick pass :: es =>
      if strcasecmpEq network n.name ∧ strcasecmpEq nick n.nick then
        match pass with
        | none => .ok (some (.on network nick newpass :: es))
        | some _ => do
            let same ← strcmpEq pass newpass
            pure (some ((if same then .on network nick pass else .on network nick newpass) :: es))
      else do
        let es' ← cacheAt n newpass es
        pure (es'.map (.on network nick pass :: ·))
  | .everywhere nick pass :: es => do
      if ← sameEntry n newpass nick pass then pure (some (.everywhere nick pass :: es))
      else do
        let es' ← cacheAt n newpass es
        pure (es'.map (.everywhere nick pass :: ·))

/-- `cache_nickserv_pass`; `learn` is `config->learn_nickserv`. -/
def cacheNickservPass (learn : Bool) (n : IrcNetwork) (newpass : Option Str) (p : Proxy) :
    Except Fault Proxy :=
  let p := p.given newpass
  if learn = false then .ok p
  else do
    match ← cacheAt n newpass p.nickservNicks with
    | some nicks => pure { p with nickservNicks := nicks }
    | none => pure { p with nickservNicks := .on n.name n.nick newpass :: p.nickservNicks }

/-! ### The filter -/

section
variable (send : IrcLine → Proxy → Except Fault Proxy) (learn : Bool) (n : IrcNetwork) (l : IrcLine)

/-- `nickserv_identify_me`. -/
def nickservIdentifyMe (nick : Option Str) (p : Proxy) : Except Fault Proxy :=
  if n.identified then .ok p
  else do
    match ← nickservFindNick n nick p.nickservNicks with
    | none => pure (p.given nick)
    | some pass =>
        send (vircParseLine none [some (str "PRIVMSG"), some nickservNick,
          some (str "IDENTIFY " ++ pass)]) (p.given nick)

/-- `!irccmp(n->info, l->args[0], w)`. -/
def commandIs (w : Str) : Except Fault Bool := do
  let cmd ← l.arg 0
  ircEq (some n.info) cmd (some w)

/-- A line from the server: the nick that was tried last is taken. -/
def logRenamed (p : Proxy) : Except Fault Proxy := do
  if ← commandIs n l (str "NICK") then
    match p.nickattempt with
    | none => pure p
    | some attempt => do
        let nick ← l.arg 1
        if ← ircEq (some n.info) (some attempt) nick then nickservIdentifyMe send n nick p
        else pure p
  else pure p

/-- A line to the server: the nick that is tried. -/
def logAttempt (p : Proxy) : Except Fault Proxy := do
  if ← commandIs n l (str "NICK") then do
    let nick ← l.arg 1
    pure { p with nickattempt := nick }
  else pure p

/-- The line is a message. -/
def isTalk : Except Fault Bool := do
  if ← commandIs n l (str "PRIVMSG") then pure true else commandIs n l (str "NOTICE")

/-- A line to the server: `IDENTIFY` as a message. -/
def logMessage (p : Proxy) : Except Fault Proxy := do
  if ← isTalk n l then do
    let target ← l.arg 1
    if ← ircEq (some n.info) target (some nickservNick) then do
      let text ← l.arg 2
      if ← ircncmpEq n.info text (str "IDENTIFY ") (str "IDENTIFY ").length then
        cacheNickservPass learn n (text.map (·.drop (str "IDENTIFY ").length)) p
      else pure p
    else pure p
  else pure p

/-- A line to the server: `IDENTIFY` as a command. -/
def logNs (p : Proxy) : Except Fault Proxy := do
  if ← commandIs n l (str "NS") then do
    let sub ← l.arg 1
    if ← ircEq (some n.info) sub (some (str "IDENTIFY")) then do
      let pass ← l.arg 2
      cacheNickservPass learn n pass p
    else pure p
  else pure p

def ERR_NICKNAMEINUSE : ℤ := 433

/-- A line from the server: the nick that was tried last is in use. -/
def logInUse (p : Proxy) : Except Fault Proxy := do
  let cmd ← l.argStr 0
  if (atol cmd).1 = ERR_NICKNAMEINUSE then do
    let pass ← nickservFindNick n p.nickattempt p.nickservNicks
    let p := p.given p.nickattempt
    match p.nickattempt, pass with
    | some attempt, some pass => do
        let p ← send (vircParseLine none [some (str "PRIVMSG"), some nickservNick,
          some (str "GHOST " ++ attempt ++ chr ' ' :: pass)]) p
        send (vircParseLine none [some (str "NICK"), p.nickattempt]) p
    | _, _ => pure p
  else pure p

/-- `log_data`, with the function it sends lines with. -/
def logDataBody (dir : DataDirection) (p : Proxy) : Except Fault Proxy :=
  match dir with
  | .fromServer => do
      let p ← logRenamed send n l p
      logInUse send n l p
  | .toServer => do
      let p ← logAttempt n l p
      let p ← logMessage learn n l p
      logNs learn n l p

end

/-- `network_send_line`: the filter sees the line first. -/
def networkSendLine (learn : Bool) (n : IrcNetwork) (l : IrcLine) (p : Proxy) :
    Except Fault Proxy := do
  let p ← logDataBody (fun _ p => .ok p) learn n l .toServer p
  pure { p with sent := p.sent ++ [l] }

/-- `network_send_args`. -/
def networkSendArgs (learn : Bool) (n : IrcNetwork) (ap : List (Option Str)) (p : Proxy) :
    Except Fault Proxy :=
  networkSendLine learn n (vircParseLine none ap) p

/-- `log_data`. -/
def logData (learn : Bool) (n : IrcNetwork) (l : IrcLine) (dir : DataDirection) (p : Proxy) :
    Except Fault Proxy :=
  logDataBody (networkSendLine learn n) learn n l dir p

/-! ### Lines to the server -/

/-- `!irccmp(n->info, a, b)` on two strings. -/
def sameWord (n : IrcNetwork) (a b : Str) : Bool := decide (irccmpStr n.info.casemapping a b = 0)

/-- The text of a message is one that `log_data` takes for `IDENTIFY`. -/
def isIdentify (n : IrcNetwork) (text : Str) : Bool :=
  match ircncmpEq n.info (some text) (str "IDENTIFY ") (str "IDENTIFY ").length with
  | .ok b => b
  | .error _ => false

section
variable {send : IrcLine → Proxy → Except Fault Proxy} {learn : Bool} {n : IrcNetwork} {l : IrcLine}
  {cmd : Str} {args : List Str} {p r : Proxy}

theorem ircncmpEq_eq (n : NetworkInfo) (a : Option Str) (b : Str) (len : ℕ) :
    ircncmpEq n a b len = (ircncmp (some n) a (some b) len).map (decide <| · = 0) := by
  cases a with
  | none => rfl
  | some a => cases h : n.casemapping <;> simp only [ircncmpEq, ircncmp, casemapOf, h] <;> rfl

/-- Only `IDENTIFY` without a password is taken for it. -/
theorem isIdentify_iff (n : IrcNetwork) (text : Str) : isIdentify n text = true ↔
    n.info.casemapping.fold text = n.info.casemapping.fold (str "IDENTIFY ") := by
  have hcmp : isIdentify n text = true ↔
      ircncmp (some n.info) (some text) (some (str "IDENTIFY ")) (str "IDENTIFY ").length = .ok 0 := by
    rw [isIdentify, ircncmpEq_eq]
    cases ircncmp (some n.info) (some text) (some (str "IDENTIFY ")) (str "IDENTIFY ").length <;>
      simp [Except.map]
  rw [hcmp, ircncmp_eq_zero_iff, List.take_length, List.getElem?_eq_none le_rfl,
    List.getElem?_eq_none_iff, casemapOf]
  constructor
  · rintro ⟨hfold, hlen⟩
    rwa [List.take_of_length_le hlen] at hfold
  · intro hfold
    have hlen : text.length = (str "IDENTIFY ").length := by
      simpa [Casemapping.fold] using congrArg List.length hfold
    exact ⟨by rw [List.take_of_length_le hlen.le, hfold], hlen.le⟩

theorem commandIs_eq (h : l.args = cmd :: args) (w : Str) :
    commandIs n l w = .ok (sameWord n cmd w) := by
  rw [commandIs, IrcLine.arg, if_pos (Nat.zero_le _), h]
  rfl

theorem commandIs_nil (h : l.args = []) (w : Str) : commandIs n l w = .error .assertion := by
  rw [commandIs, IrcLine.arg, if_pos (Nat.zero_le _), h]
  rfl

theorem arg_one (h : l.args = cmd :: args) : l.arg 1 = .ok args.head? := by
  rw [IrcLine.arg, if_pos (by rw [IrcLine.argc, h]; simp), h]
  cases args <;> rfl

theorem logAttempt_eq (h : l.args = cmd :: args) : logAttempt n l p =
    .ok (if sameWord n cmd (str "NICK") then { p with nickattempt := args.head? } else p) := by
  rw [logAttempt, commandIs_eq h, ok_bind, arg_one h]
  split <;> rfl

theorem isTalk_eq (h : l.args = cmd :: args) :
    isTalk n l = .ok (sameWord n cmd (str "PRIVMSG") || sameWord n cmd (str "NOTICE")) := by
  rw [isTalk, commandIs_eq h, ok_bind, commandIs_eq h]
  cases sameWord n cmd (str "PRIVMSG") <;> rfl

theorem logMessage_eq (o : Option Str) (e : HasEndcolon) :
    logMessage learn n ⟨o, cmd :: args, e⟩ p =
      if sameWord n cmd (str "PRIVMSG") || sameWord n cmd (str "NOTICE") then
        match args with
        | [] => .error .assertion
        | target :: rest =>
            if sameWord n target nickservNick then
              match rest with
              | [] => .error .assertion
              | text :: _ =>
                  if isIdentify n text then
                    cacheNickservPass learn n (some (text.drop (str "IDENTIFY ").length)) p
                  else .ok p
            else .ok p
      else .ok p := by
  rw [logMessage, isTalk_eq rfl, ok_bind]
  split
  · cases args with
    | nil => rfl
    | cons target rest =>
        cases rest with
        | nil => rfl
        | cons text rest => rfl
  · rfl

theorem logNs_eq (o : Option Str) (e : HasEndcolon) :
    logNs learn n ⟨o, cmd :: args, e⟩ p =
      if sameWord n cmd (str "NS") then
        match args with
        | [] => .error .assertion
        | sub :: rest =>
            if sameWord n sub (str "IDENTIFY") then cacheNickservPass learn n rest.head? p else .ok p
      else .ok p := by
  rw [logNs, commandIs_eq rfl, ok_bind]
  split
  · cases args with
    | nil => rfl
    | cons sub rest =>
        cases rest with
        | nil => rfl
        | cons pass rest => rfl
  · rfl

/-! ### What the filter leaves -/

/-- The nick that is tried after a line to the server. -/
def attemptAfter (n : IrcNetwork) (l : IrcLine) (attempt : Option Str) : Option Str :=
  match l.args with
  | [] => attempt
  | cmd :: args => if sameWord n cmd (str "NICK") then args.head? else attempt

/-- A password is learnt: nothing is sent, and the nick that is tried stays. -/
structure Learns (p r : Proxy) : Prop where
  sent : r.sent = p.sent
  nickattempt : r.nickattempt = p.nickattempt
  nullGiven : p.nullGiven = true → r.nullGiven = true

theorem Learns.refl (p : Proxy) : Learns p p := ⟨rfl, rfl, id⟩

theorem Learns.trans {q : Proxy} (h : Learns p q) (h' : Learns q r) : Learns p r :=
  ⟨h'.sent.trans h.sent, h'.nickattempt.trans h.nickattempt, h'.nullGiven ∘ h.nullGiven⟩

theorem learns_given (p : Proxy) (a : Option Str) : Learns p (p.given a) :=
  ⟨rfl, rfl, fun h => by simp [Proxy.given, h]⟩

theorem cacheNickservPass_learns (pass : Option Str) :
    Ensures (cacheNickservPass learn n pass p)
      (fun r => Learns p r ∧ r.nullGiven = (p.nullGiven || pass.isNone)) fun _ => True := by
  have h := learns_given p pass
  unfold cacheNickservPass
  dsimp only
  split
  · exact ⟨h, rfl⟩
  · refine Ensures.bind (Q := fun _ => True) ?_ fun nicks _ => ?_
    · cases cacheAt n pass (p.given pass).nickservNicks <;> trivial
    · cases nicks with
      | none => exact ⟨⟨h.sent, h.nickattempt, h.nullGiven⟩, rfl⟩
      | some nicks => exact ⟨⟨h.sent, h.nickattempt, h.nullGiven⟩, rfl⟩

theorem logMessage_learns : Ensures (logMessage learn n l p) (Learns p) fun _ => True := by
  obtain ⟨o, _ | ⟨cmd, args⟩, e⟩ := l
  · rw [logMessage, isTalk, commandIs_nil rfl]
    trivial
  rw [logMessage_eq]
  have learnt (x : Str) : Ensures (cacheNickservPass learn n (some x) p) (Learns p) fun _ => True :=
    (cacheNickservPass_learns (some x)).imp fun _ h => h.1
  split
  · match args with
    | [] => trivial
    | [target] =>
        dsimp only
        split
        · trivial
        · exact .refl p
    | target :: text :: _ =>
        dsimp only
        split
        · split
          · exact learnt _
          · exact .refl p
        · exact .refl p
  · exact .refl p

theorem logNs_learns : Ensures (logNs learn n l p) (Learns p) fun _ => True := by
  obtain ⟨o, _ | ⟨cmd, args⟩, e⟩ := l
  · rw [logNs, commandIs_nil rfl]
    trivial
  rw [logNs_eq]
  split
  · match args with
    | [] => trivial
    | sub :: rest =>
        dsimp only
        split
        · exact (cacheNickservPass_learns rest.head?).imp fun _ h => h.1
        · exact .refl p
  · exact .refl p

/-- What a line to the server leaves: nothing is sent for it. -/
structure ToServerStep (n : IrcNetwork) (l : IrcLine) (p r : Proxy) : Prop where
  sent : r.sent = p.sent
  nickattempt : r.nickattempt = attemptAfter n l p.nickattempt
  nullGiven : p.nullGiven = true → r.nullGiven = true

theorem logDataBody_toServer :
    Ensures (logDataBody send learn n l .toServer p) (ToServerStep n l p) fun _ => True := by
  have attempt : Ensures (logAttempt n l p) (ToServerStep n l p) fun _ => True := by
    obtain ⟨o, _ | ⟨cmd, args⟩, e⟩ := l
    · rw [logAttempt, commandIs_nil rfl]
      trivial
    · rw [logAttempt_eq rfl]
      refine ⟨?_, ?_, ?_⟩
      · split <;> rfl
      · simp only [attemptAfter]
        split <;> rfl
      · split <;> exact id
  refine attempt.bind fun p₁ h₁ => (logMessage_learns.bind fun p₂ h₂ => ?_)
  refine logNs_learns.imp fun r hr => ?_
  have h := h₂.trans hr
  exact ⟨h.sent.trans h₁.sent, h.nickattempt.trans h₁.nickattempt, h.nullGiven ∘ h₁.nullGiven⟩

/-- A line that is sent is filtered first. -/
theorem networkSendLine_step : Ensures (networkSendLine learn n l p) (fun r =>
    r.sent = p.sent ++ [l] ∧ r.nickattempt = attemptAfter n l p.nickattempt) fun _ => True :=
  logDataBody_toServer.bind fun r hr => ⟨by rw [← hr.sent], hr.nickattempt⟩

end

section
variable {learn : Bool} {n : IrcNetwork} {l : IrcLine} {p : Proxy} {I : Proxy → Prop}

/-- What the parts of the filter keep, the filter keeps. -/
theorem logDataBody_keeps {send : IrcLine → Proxy → Except Fault Proxy} (dir : DataDirection)
    (hgiven : ∀ p a, I p → I (p.given a)) (hattempt : ∀ p a, I p → I { p with nickattempt := a })
    (hsend : ∀ l p, I p → Ensures (send l p) I fun _ => True)
    (hcache : ∀ pass p, I p → Ensures (cacheNickservPass learn n pass p) I fun _ => True) (h : I p) :
    Ensures (logDataBody send learn n l dir p) I fun _ => True := by
  obtain ⟨o, _ | ⟨cmd, args⟩, e⟩ := l
  · cases dir with
    | toServer =>
        rw [logDataBody, logAttempt, commandIs_nil rfl]
        trivial
    | fromServer =>
        rw [logDataBody, logRenamed, commandIs_nil rfl]
        trivial
  cases dir with
  | toServer =>
      rw [logDataBody, logAttempt_eq rfl, ok_bind]
      have h₁ : I (if sameWord n cmd (str "NICK") then { p with nickattempt := args.head? } else p) := by
        split
        · exact hattempt p _ h
        · exact h
      rw [logMessage_eq]
      refine Ensures.bind (Q := I) ?_ fun p₂ h₂ => ?_
      · split
        · match args with
          | [] => trivial
          | [target] =>
              dsimp only
              split
              · trivial
              · exact h₁
          | target :: text :: _ =>
              dsimp only
              split
              · split
                · exact hcache _ _ h₁
                · exact h₁
              · exact h₁
        · exact h₁
      · rw [logNs_eq]
        split
        · match args with
          | [] => trivial
          | sub :: rest =>
              dsimp only
              split
              · exact hcache _ _ h₂
              · exact h₂
        · exact h₂
  | fromServer =>
      refine Ensures.bind (Q := I) ?_ fun p₁ h₁ => ?_
      · rw [logRenamed, commandIs_eq rfl, ok_bind]
        split
        · split
          · exact h
          · refine Ensures.bind (Q := fun _ => True) ?_ fun nick _ => ?_
            · cases IrcLine.arg _ 1 <;> trivial
            refine Ensures.bind (Q := fun _ => True) (by cases ircEq _ _ nick <;> trivial) ?_
            intro same _
            split
            · unfold nickservIdentifyMe
              split
              · exact h
              · refine Ensures.bind (Q := fun _ => True) ?_ fun pass _ => ?_
                · cases nickservFindNick n nick p.nickservNicks <;> trivial
                · cases pass with
                  | none => exact hgiven p nick h
                  | some pass => exact hsend _ _ (hgiven p nick h)
            · exact h
        · exact h
      · unfold logInUse
        refine Ensures.bind (Q := fun _ => True) (by cases IrcLine.argStr _ 0 <;> trivial) ?_
        intro cmd _
        split
        · refine Ensures.bind (Q := fun _ => True) ?_ fun pass _ => ?_
          · cases nickservFindNick n p₁.nickattempt p₁.nickservNicks <;> trivial
          · have h₂ := hgiven p₁ p₁.nickattempt h₁
            dsimp only
            split
            · exact (hsend _ _ h₂).bind fun p₃ h₃ => hsend _ _ h₃
            · exact h₂
        · exact h₁

theorem networkSendLine_keeps (hgiven : ∀ p a, I p → I (p.given a))
    (hattempt : ∀ p a, I p → I { p with nickattempt := a })
    (hsent : ∀ p l, I p → I { p with sent := p.sent ++ [l] })
    (hcache : ∀ pass p, I p → Ensures (cacheNickservPass learn n pass p) I fun _ => True) (h : I p) :
    Ensures (networkSendLine learn n l p) I fun _ => True :=
  Ensures.bind (logDataBody_keeps (I := I) .toServer hgiven hattempt (fun _ _ hp => hp) hcache h)
    fun r hr => hsent r l hr

end

end Ctrlproxy
