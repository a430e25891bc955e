import Mathlib.Data.List.Induction
import Ctrlproxy.Proxy.Nickserv

/-!
# Proxy — the NickServ filter serves several networks

The lines of all networks pass the filter in the order they come (`filterRun`).  The nick that was
tried last is kept in one place for all of them, so a nick tried on one network is remembered when a
line of another is looked at.

What the filter sends to a network is what it would send if it saw the lines of that network alone,
as long as the nick it looks up is one that was tried there (`Unmixed`).
-/

namespace Ctrlproxy
open Outcome

variable {ι : Type} [DecidableEq ι]

/-- A line at the filter: the network it belongs to, with what is known of it, and its direction. -/
structure FilterEvent (ι : Type) where
  on : ι
  network : IrcNetwork
  line : IrcLine
  dir : DataDirection

/-- The filter, and what it sent to each network. -/
structure FilterState (ι : Type) where
  nickservNicks : List KeyfileEntry
  nickattempt : Option Str
  sent : ι → List IrcLine

/-- The filter looks at a line. -/
def filterStep (learn : Bool) (s : FilterState ι) (e : FilterEvent ι) :
    Except Fault (FilterState ι) := do
  let p ← logData learn e.network e.line e.dir
    { nickservNicks := s.nickservNicks, nickattempt := s.nickattempt, sent := s.sent e.on,
      nullGiven := false }
  pure { nickservNicks := p.nickservNicks, nickattempt := p.nickattempt,
         sent := Function.update s.sent e.on p.sent }

/-- The filter looks at the lines of a run. -/
def filterRun (learn : Bool) (s : FilterState ι) (es : List (FilterEvent ι)) :
    Except Fault (FilterState ι) :=
  es.foldlM (filterStep learn) s

/-- Nothing was tried and nothing was sent. -/
def FilterState.fresh (nicks : List KeyfileEntry) : FilterState ι where
  nickservNicks := nicks
  nickattempt := none
  sent := fun _ => []

/-- The lines of one network. -/
def ofNetwork (a : ι) (es : List (FilterEvent ι)) : List (FilterEvent ι) :=
  es.filter fun e => decide (e.on = a)

/-- The nick that was tried last. -/
def attempted (es : List (FilterEvent ι)) : Option Str :=
  es.foldl (fun attempt e => match e.dir with
    | .toServer => attemptAfter e.network e.line attempt
    | .fromServer => attempt) none

/-- The filter looks up the nick that was tried last: at a NICK line from the server, and when the
server says that a nick is in use. -/
def Consults (e : FilterEvent ι) : Prop :=
  e.dir = .fromServer ∧ ∃ cmd ∈ e.line.args.head?,
    sameWord e.network cmd (str "NICK") = true ∨ (atol cmd).1 = ERR_NICKNAMEINUSE

/-- The passwords stay what they are. -/
def PasswordsFixed (learn : Bool) (nicks : List KeyfileEntry) (es : List (FilterEvent ι)) : Prop :=
  ∀ pre post s, es = pre ++ post → filterRun learn (.fresh nicks) pre = .ok s →
    s.nickservNicks = nicks

/-- Whenever the filter looks up the last nick for a network, it is the last nick that was tried
there. -/
def Unmixed (a : ι) (es : List (FilterEvent ι)) : Prop :=
  ∀ pre e post, es = pre ++ e :: post → e.on = a → Consults e →
    attempted pre = attempted (ofNetwork a pre)

/-! ### One line -/

section
variable {learn : Bool} {n : IrcNetwork} {l : IrcLine} {p q : Proxy}

/-- Words that differ for every case mapping. -/
theorem sameWord_message_nick (n : IrcNetwork) : sameWord n (str "PRIVMSG") (str "NICK") = false := by
  unfold sameWord
  cases n.info.casemapping <;> decide

theorem sameWord_refl (n : IrcNetwork) (w : Str) : sameWord n w w = true :=
  decide_eq_true ((irccmpStr_eq_zero_iff _ w w).mpr rfl)

/-- A message is sent: no nick is tried. -/
theorem send_message_attempt (target text : Str) : Ensures (networkSendLine learn n
    (vircParseLine none [some (str "PRIVMSG"), some target, some text]) p)
    (fun r => r.nickattempt = p.nickattempt) fun _ => True :=
  networkSendLine_step.imp fun r hr => hr.2.trans (if_neg (by simp [sameWord_message_nick]))

theorem nickservIdentifyMe_attempt (nick : Option Str) :
    Ensures (nickservIdentifyMe (networkSendLine learn n) n nick p)
      (fun r => r.nickattempt = p.nickattempt) fun _ => True := by
  unfold nickservIdentifyMe
  split
  · rfl
  · refine Ensures.bind (Q := fun _ => True) ?_ fun pass _ => ?_
    · cases nickservFindNick n nick p.nickservNicks <;> trivial
    · cases pass with
      | none => rfl
      | some pass => exact send_message_attempt _ _

/-- A line from the server leaves the nick that was tried. -/
theorem logData_fromServer_attempt : Ensures (logData learn n l .fromServer p)
    (fun r => r.nickattempt = p.nickattempt) fun _ => True := by
  have renamed : Ensures (logRenamed (networkSendLine learn n) n l p)
      (fun r => r.nickattempt = p.nickattempt) fun _ => True := by
    unfold logRenamed
    refine Ensures.bind (Q := fun _ => True) (by cases commandIs n l (str "NICK") <;> trivial) ?_
    intro isNick _
    split
    · split
      · rfl
      · refine Ensures.bind (Q := fun _ => True) (by cases l.arg 1 <;> trivial) fun nick _ => ?_
        refine Ensures.bind (Q := fun _ => True) (by cases ircEq _ _ nick <;> trivial) fun same _ => ?_
        split
        · exact nickservIdentifyMe_attempt nick
        · rfl
    · rfl
  refine renamed.bind fun p₁ h₁ => ?_
  unfold logInUse
  refine Ensures.bind (Q := fun _ => True) (by cases l.argStr 0 <;> trivial) fun cmd _ => ?_
  split
  · refine Ensures.bind (Q := fun _ => True) ?_ fun pass _ => ?_
    · cases nickservFindNick n p₁.nickattempt p₁.nickservNicks <;> trivial
    · dsimp only
      split
      · next _ _ attempt pass hattempt =>
        refine (send_message_attempt _ _).bind fun p₂ h₂ => ?_
        have same : p₂.nickattempt = some attempt := h₂.trans hattempt
        rw [same]
        -- the nick is tried once more
        refine networkSendLine_step.imp fun r hr => ?_
        rw [hr.2, same]
        exact ((if_pos (sameWord_refl n _)).trans hattempt.symm).trans h₁
      · exact h₁
  · exact h₁

theorem logData_fromServer_nil (h : l.args = []) :
    logData learn n l .fromServer p = .error .assertion := by
  rw [logData, logDataBody, logRenamed, commandIs_nil h]
  rfl

/-- A line from the server for which nothing is looked up does nothing. -/
theorem logData_fromServer_quiet {cmd : Str} {args : List Str} (h : l.args = cmd :: args)
    (hnick : sameWord n cmd (str "NICK") = false) (huse : (atol cmd).1 ≠ ERR_NICKNAMEINUSE) :
    logData learn n l .fromServer p = .ok p := by
  have hcmd : l.argStr 0 = .ok cmd := by rw [IrcLine.argStr, if_pos (Nat.zero_le _), h]; rfl
  rw [logData, logDataBody, logRenamed, commandIs_eq h, ok_bind, hnick, if_neg (by decide),
    pure_eq_ok, ok_bind, logInUse, hcmd, ok_bind, if_neg huse]
  rfl

/-- Learning a password depends on the passwords alone. -/
theorem cacheNickservPass_same (pass : Option Str) (h : q.nickservNicks = p.nickservNicks) :
    Follows (cacheNickservPass learn n pass p) (cacheNickservPass learn n pass q)
      (fun r r' => r'.nickservNicks = r.nickservNicks) := by
  unfold cacheNickservPass
  dsimp only
  split
  · exact follows_ok h
  · have same : (q.given pass).nickservNicks = (p.given pass).nickservNicks := h
    rw [same]
    cases cacheAt n pass (p.given pass).nickservNicks with
    | error e => exact follows_error
    | ok nicks =>
        cases nicks with
        | none => exact follows_ok rfl
        | some nicks => exact follows_ok rfl

theorem logAttempt_same (h : q.nickservNicks = p.nickservNicks) :
    Follows (logAttempt n l p) (logAttempt n l q)
      (fun r r' => r'.nickservNicks = r.nickservNicks) := by
  obtain ⟨o, _ | ⟨cmd, args⟩, e⟩ := l
  · rw [logAttempt, commandIs_nil rfl]
    exact follows_error
  · rw [logAttempt_eq rfl, logAttempt_eq rfl]
    refine follows_ok ?_
    split <;> exact h

theorem logMessage_same (h : q.nickservNicks = p.nickservNicks) :
    Follows (logMessage learn n l p) (logMessage learn n l q)
      (fun r r' => r'.nickservNicks = r.nickservNicks) := by
  obtain ⟨o, _ | ⟨cmd, args⟩, e⟩ := l
  · rw [logMessage, isTalk, commandIs_nil rfl]
    exact follows_error
  · rw [logMessage_eq, logMessage_eq]
    split
    · rcases args with _ | ⟨target, _ | ⟨text, rest⟩⟩
      · exact follows_error
      · dsimp only
        split
        · exact follows_error
        · exact follows_ok h
      · dsimp only
        split
        · split
          · exact cacheNickservPass_same _ h
          · exact follows_ok h
        · exact follows_ok h
    · exact follows_ok h

theorem logNs_same (h : q.nickservNicks = p.nickservNicks) :
    Follows (logNs learn n l p) (logNs learn n l q)
      (fun r r' => r'.nickservNicks = r.nickservNicks) := by
  obtain ⟨o, _ | ⟨cmd, args⟩, e⟩ := l
  · rw [logNs, commandIs_nil rfl]
    exact follows_error
  · rw [logNs_eq, logNs_eq]
    split
    · rcases args with _ | ⟨sub, rest⟩
      · exact follows_error
      · dsimp only
        split
        · exact cacheNickservPass_same _ h
        · exact follows_ok h
    · exact follows_ok h

/-- What is learnt from a line to the server does not depend on the nick that was tried. -/
theorem logData_toServer_same (h : q.nickservNicks = p.nickservNicks) :
    Follows (logData learn n l .toServer p) (logData learn n l .toServer q)
      (fun r r' => r'.nickservNicks = r.nickservNicks) :=
  (logAttempt_same h).bind fun _ _ h₁ => (logMessage_same h₁).bind fun _ _ h₂ => logNs_same h₂

end

/-! ### Without learning -/

section
variable {n : IrcNetwork} {l : IrcLine} {p : Proxy}

/-- No password is learnt unless the user wants it. -/
theorem logData_passwords (dir : DataDirection) : Ensures (logData false n l dir p)
    (fun r => r.nickservNicks = p.nickservNicks) fun _ => True := by
  have cache : ∀ (pass : Option Str) (q : Proxy), q.nickservNicks = p.nickservNicks →
      Ensures (cacheNickservPass false n pass q) (fun r => r.nickservNicks = p.nickservNicks)
        fun _ => True := fun _ _ hq => hq
  refine logDataBody_keeps (I := fun r => r.nickservNicks = p.nickservNicks) dir (fun _ _ hq => hq)
    (fun _ _ hq => hq) (fun l q hq => ?_) cache rfl
  exact networkSendLine_keeps (I := fun r => r.nickservNicks = p.nickservNicks) (fun _ _ hq => hq)
    (fun _ _ hq => hq) (fun _ _ hq => hq) cache hq

end

/-! ### Runs -/

section
variable {learn : Bool} {nicks : List KeyfileEntry} {a : ι} {es : List (FilterEvent ι)}
  {e : FilterEvent ι} {s s' t : FilterState ι}

theorem filterRun_snoc : filterRun learn s (es ++ [e]) =
    filterRun learn s es >>= fun t => filterStep learn t e := by
  rw [filterRun, List.foldlM_append]
  simp only [List.foldlM_cons, List.foldlM_nil, bind_pure]
  rfl

omit [DecidableEq ι] in
theorem attempted_snoc : attempted (es ++ [e]) = match e.dir with
    | .toServer => attemptAfter e.network e.line (attempted es)
    | .fromServer => attempted es := by
  rw [attempted, List.foldl_append]
  rfl

theorem ofNetwork_snoc_self (h : e.on = a) : ofNetwork a (es ++ [e]) = ofNetwork a es ++ [e] := by
  simp [ofNetwork, List.filter_append, h]

theorem ofNetwork_snoc_other (h : e.on ≠ a) : ofNetwork a (es ++ [e]) = ofNetwork a es := by
  simp [ofNetwork, List.filter_append, h]

theorem PasswordsFixed.init (h : PasswordsFixed learn nicks (es ++ [e])) :
    PasswordsFixed learn nicks es :=
  fun pre post s he hs => h pre (post ++ [e]) s (by rw [he, List.append_assoc]) hs

theorem Unmixed.init (h : Unmixed a (es ++ [e])) : Unmixed a es :=
  fun pre x post he hx hc => h pre x (post ++ [e]) (by rw [he]; simp) hx hc

/-- A run over all networks, and one over the lines of `a`, which knows as much and sent the same. -/
structure Agrees (a : ι) (nicks : List KeyfileEntry) (es : List (FilterEvent ι))
    (s s' : FilterState ι) : Prop where
  fixed : s.nickservNicks = nicks
  fixed' : s'.nickservNicks = nicks
  attempt : s.nickattempt = attempted es
  attempt' : s'.nickattempt = attempted (ofNetwork a es)
  sent : s'.sent a = s.sent a

/-- What a step remembers. -/
theorem filterStep_attempt (hs : s.nickattempt = attempted es) (h : filterStep learn s e = .ok t) :
    t.nickattempt = attempted (es ++ [e]) := by
  obtain ⟨p, hp, ht⟩ := bind_eq_ok h
  cases ht
  rw [attempted_snoc]
  cases hdir : e.dir with
  | toServer =>
      rw [hdir] at hp
      exact (Ensures.of_ok logDataBody_toServer hp).nickattempt.trans (congrArg _ hs)
  | fromServer =>
      rw [hdir] at hp
      exact (Ensures.of_ok logData_fromServer_attempt hp).trans hs

theorem filterStep_sent_other (h : filterStep learn s e = .ok t) (ha : e.on ≠ a) :
    t.sent a = s.sent a := by
  obtain ⟨p, hp, ht⟩ := bind_eq_ok h
  cases ht
  exact Function.update_of_ne ha.symm _ _

/-- A line of `a` is looked at alike in both runs. -/
theorem Agrees.step (h : Agrees a nicks es s s') (ha : e.on = a)
    (hun : Consults e → attempted es = attempted (ofNetwork a es))
    (ht : filterStep learn s e = .ok t) : ∃ t', filterStep learn s' e = .ok t' ∧
      t'.nickservNicks = t.nickservNicks ∧ t'.sent a = t.sent a := by
  subst ha
  have same : s'.nickservNicks = s.nickservNicks := h.fixed'.trans h.fixed.symm
  obtain ⟨p, hp, hpt⟩ := bind_eq_ok ht
  cases hpt
  have found : ∀ p', logData learn e.network e.line e.dir
      ⟨s'.nickservNicks, s'.nickattempt, s'.sent e.on, false⟩ = .ok p' →
      p'.nickservNicks = p.nickservNicks → p'.sent = p.sent →
      ∃ t', filterStep learn s' e = .ok t' ∧ t'.nickservNicks = p.nickservNicks ∧
        t'.sent e.on = Function.update s.sent e.on p.sent e.on := by
    intro p' hp' hn hsent
    refine ⟨⟨p'.nickservNicks, p'.nickattempt, Function.update s'.sent e.on p'.sent⟩, ?_, hn, ?_⟩
    · rw [filterStep, hp', ok_bind]
      rfl
    · simp only [Function.update_self, hsent]
  cases hdir : e.dir with
  | toServer =>
      rw [hdir] at hp found
      obtain ⟨p', hp', hn⟩ := logData_toServer_same (q := ⟨s'.nickservNicks, s'.nickattempt,
        s'.sent e.on, false⟩) same p hp
      have hsent := (Ensures.of_ok logDataBody_toServer hp).sent
      have hsent' := (Ensures.of_ok logDataBody_toServer hp').sent
      exact found p' hp' hn (hsent'.trans (h.sent.trans hsent.symm))
  | fromServer =>
      rw [hdir] at hp found
      cases hargs : e.line.args with
      | nil =>
          rw [logData_fromServer_nil hargs] at hp
          cases hp
      | cons cmd args =>
          by_cases hc : sameWord e.network cmd (str "NICK") = true ∨ (atol cmd).1 = ERR_NICKNAMEINUSE
          · have consults : Consults e := ⟨hdir, cmd, by rw [hargs]; rfl, hc⟩
            have attempts : s'.nickattempt = s.nickattempt := by
              rw [h.attempt, h.attempt', hun consults]
            rw [← same, ← attempts, ← h.sent] at hp
            exact found p hp rfl rfl
          · obtain ⟨hnick, huse⟩ := not_or.mp hc
            rw [Bool.not_eq_true] at hnick
            rw [logData_fromServer_quiet hargs hnick huse] at hp
            cases hp
            exact found _ (logData_fromServer_quiet hargs hnick huse) same h.sent

/-- Both runs agree after every line, if the nick that is looked up is always one of `a`. -/
theorem filterRun_agrees (hfixed : PasswordsFixed learn nicks es) (hun : Unmixed a es)
    (hs : filterRun learn (.fresh nicks) es = .ok s) :
    ∃ s', filterRun learn (.fresh nicks) (ofNetwork a es) = .ok s' ∧ Agrees a nicks es s s' := by
  induction es using List.reverseRecOn generalizing s with
  | nil =>
      cases hs
      exact ⟨_, rfl, rfl, rfl, rfl, rfl, rfl⟩
  | append_singleton es e ih =>
      have hs₀ := hs
      rw [filterRun_snoc] at hs
      obtain ⟨s₁, hs₁, hstep⟩ := bind_eq_ok hs
      obtain ⟨s', hs', hag⟩ := ih hfixed.init hun.init hs₁
      have fixed : s.nickservNicks = nicks := hfixed (es ++ [e]) [] s (List.append_nil _).symm hs₀
      have attempt := filterStep_attempt hag.attempt hstep
      by_cases ha : e.on = a
      · obtain ⟨t', ht', hn, hsent⟩ := hag.step ha (hun es e [] rfl ha) hstep
        refine ⟨t', ?_, fixed, hn.trans fixed, attempt, ?_, hsent⟩
        · rw [ofNetwork_snoc_self ha, filterRun_snoc, hs', ok_bind, ht']
        · rw [ofNetwork_snoc_self ha]
          exact filterStep_attempt hag.attempt' ht'
      · refine ⟨s', ?_, fixed, hag.fixed', attempt, ?_, ?_⟩
        · rw [ofNetwork_snoc_other ha, hs']
        · rw [ofNetwork_snoc_other ha, hag.attempt']
        · rw [filterStep_sent_other hstep ha, hag.sent]

/-- **The filter keeps networks apart, where the nicks that are tried are not mixed up.** For every
interleaving of the lines of any networks during which the passwords stay what they are: if every
nick that is looked up for `a` is the last one tried on `a`, the filter sends to `a` what it sends
when it sees the lines of `a` alone. -/
theorem filterRun_isolated (hfixed : PasswordsFixed learn nicks es) (hun : Unmixed a es)
    (hs : filterRun learn (.fresh nicks) es = .ok s) :
    ∃ s', filterRun learn (.fresh nicks) (ofNetwork a es) = .ok s' ∧ s'.sent a = s.sent a := by
  obtain ⟨s', hs', hag⟩ := filterRun_agrees hfixed hun hs
  exact ⟨s', hs', hag.sent⟩


theorem passwordsFixed_of_not_learn (nicks : List KeyfileEntry) (es : List (FilterEvent ι)) :
    PasswordsFixed false nicks es := by
  intro pre post s _ hs
  have step : ∀ (t : FilterState ι) (e : FilterEvent ι), t.nickservNicks = nicks →
      Ensures (filterStep false t e) (fun t => t.nickservNicks = nicks) fun _ => True :=
    fun t e ht => (logData_passwords e.dir).bind fun p hp => Eq.trans hp ht
  have kept : Ensures (filterRun false (.fresh nicks) pre)
      (fun t : FilterState ι => t.nickservNicks = nicks) fun _ => True :=
    Ensures.foldlM (I := fun t : FilterState ι => t.nickservNicks = nicks)
      (fun t e _ ht => step t e ht) rfl
  exact kept.of_ok hs

end

/-! ### Two networks -/

/-- A network with no more than a name and the user's nick. -/
def namedNetwork (name nick : String) : IrcNetwork where
  name := str name
  info := networkInfoInit
  externalInfo := networkInfoInit
  nick := str nick
  identified := false

/-- A line of one of two networks. -/
def twoNetworks (on : Bool) (dir : DataDirection) (w : String) : FilterEvent Bool where
  on := on
  network := if on then namedNetwork "b" "me" else namedNetwork "a" "me"
  line := (ircParseLine (str w)).getD ⟨none, [], .colonUnknown⟩
  dir := dir

/-- A run in which the user's nick is tried where the server confirms it, with a line of the other
network before. -/
def ownNick : List (FilterEvent Bool) :=
  [twoNetworks true .fromServer "PING x", twoNetworks false .toServer "NICK bob",
    twoNetworks false .fromServer ":me!u@h NICK bob"]

theorem ownNick_unmixed : Unmixed false ownNick := by
  intro pre e post he ha hc
  obtain _ | ⟨e₁, _ | ⟨e₂, _ | ⟨e₃, pre⟩⟩⟩ := pre
  · cases he
    cases ha
  · cases he
    cases hc.1
  · cases he
    decide +kernel
  · have hlen := congrArg List.length he
    simp [ownNick] at hlen

theorem filterRun_isolated_own : ∃ s s' : FilterState Bool,
    filterRun false (.fresh [.everywhere (str "bob") (str "secret")]) ownNick = .ok s ∧
    (s.sent false).map (·.args) = [[str "PRIVMSG", str "NickServ", str "IDENTIFY secret"]] ∧
    filterRun false (.fresh [.everywhere (str "bob") (str "secret")]) (ofNetwork false ownNick) =
      .ok s' ∧ s'.sent false = s.sent false := by
  have run : (filterRun false (.fresh [.everywhere (str "bob") (str "secret")]) ownNick).map
      (fun s => (s.sent false).map (·.args)) =
      .ok [[str "PRIVMSG", str "NickServ", str "IDENTIFY secret"]] := by decide +kernel
  obtain ⟨s, hs, hsent⟩ := map_eq_ok run
  obtain ⟨s', hs', hsame⟩ := @filterRun_isolated Bool _ false
    [.everywhere (str "bob") (str "secret")] false ownNick s
    (passwordsFixed_of_not_learn _ _) ownNick_unmixed hs
  exact ⟨s, s', hs, hsent, hs', hsame⟩

/-- A run that sends something else to a network than its own lines do. -/
theorem not_isolated_of_runs {nicks : List KeyfileEntry} {a : Bool} {es : List (FilterEvent Bool)}
    {x y : List (List Str)}
    (full : (filterRun false (.fresh nicks) es).map (fun s => (s.sent a).map (·.args)) = .ok x)
    (own : (filterRun false (.fresh nicks) (ofNetwork a es)).map
      (fun s => (s.sent a).map (·.args)) = .ok y) (hne : y ≠ x) :
    ¬ ∀ (nicks : List KeyfileEntry) (a : Bool) (es : List (FilterEvent Bool))
      (s : FilterState Bool), PasswordsFixed false nicks es →
        filterRun false (.fresh nicks) es = .ok s →
          ∃ s', filterRun false (.fresh nicks) (ofNetwork a es) = .ok s' ∧ s'.sent a = s.sent a := by
  intro claim
  obtain ⟨s, hs, hx⟩ := map_eq_ok full
  obtain ⟨t, ht, hy⟩ := map_eq_ok own
  obtain ⟨s', hs', hsent⟩ := claim nicks a es s (passwordsFixed_of_not_learn nicks es) hs
  cases ht.symm.trans hs'
  rw [hsent, hx] at hy
  exact hne hy.symm

/-- A nick that a client tries on one network makes the filter give a password to the other. -/
theorem filter_mixes_networks : ¬ ∀ (nicks : List KeyfileEntry) (a : Bool)
    (es : List (FilterEvent Bool)) (s : FilterState Bool), PasswordsFixed false nicks es →
      filterRun false (.fresh nicks) es = .ok s →
        ∃ s', filterRun false (.fresh nicks) (ofNetwork a es) = .ok s' ∧ s'.sent a = s.sent a :=
  @not_isolated_of_runs [.everywhere (str "bob") (str "secret")] false
    [twoNetworks true .toServer "NICK bob", twoNetworks false .fromServer ":me!u@h NICK bob"]
    [[str "PRIVMSG", str "NickServ", str "IDENTIFY secret"]] [] (by decide +kernel)
    (by decide +kernel) nofun

end Ctrlproxy
