import Ctrlproxy.Client.Cache
import Ctrlproxy.Connection.Server
import Ctrlproxy.Linestack.Log
import Ctrlproxy.Proxy.Isolation

/-!
# Proxy — lines on their way between server and clients

`process_from_server` of `src/network.c` for a server that has sent its MOTD, `process_from_client`
of `src/client.c` and `network_forward_line`, as far as they hand strings to functions that must not
be given `NULL`.  A call that stops at `NULL` is a fault; one that goes on is remembered in
`Proxy.nullGiven`.  A line *respects* these functions when it causes neither (`Respects`).

`n` is the network after `state_handle_data` has seen the line, which is `State`.  Left out: what the
clients are sent, the stack of queries, the log, and the administration commands.
-/

namespace Ctrlproxy
open Outcome

/-! ### Settings -/

/-- `config->report_time`. -/
inductive ReportTime where
  | always
  | never
  | replication
  deriving DecidableEq

/-- What is read of `struct ctrlproxy_config`. -/
structure ProxyConfig where
  learnNickserv : Bool
  reportTime : ReportTime
  adminUser : Option Str

/-- What is read of `struct network_config`: the channels are those with `autojoin`, with their
keys. -/
structure NetworkConfig where
  autocmd : List Str
  autojoin : List (Str × Option Str)
  disableCache : Bool

/-! ### Lines -/

def RPL_ENDOFMOTD : ℤ := 376

def ERR_NOMOTD : ℤ := 422

/-- A text with the time in front, behind `ACTION` if it is one. -/
def prefixedText (stime text : Str) : Str :=
  if text.head? = some ⟨1, byte_one⟩ then
    if text.tail.take 6 = str "ACTION" then
      ⟨1, byte_one⟩ :: str "ACTION [" ++ stime ++ chr ']' :: text.drop 7
    else text
  else chr '[' :: stime ++ str "] " ++ text

/-- `line_prefix_time`; `stime` is the time as `strftime` writes it. -/
def linePrefixTime (stime : Str) (l : IrcLine) : Except Fault IrcLine := do
  let text ← l.argStr 2
  pure { l with args := l.args.set 2 (prefixedText stime text) }

/-- `network_update_isupport`. -/
def networkUpdateIsupport (net remote : NetworkInfo) : NetworkInfo :=
  { net with
    prefixes := remote.prefixes
    casemapping := if remote.casemapping = .unknown then net.casemapping else remote.casemapping
    supportedUserModes := remote.supportedUserModes <|> net.supportedUserModes
    supportedChannelModes := remote.supportedChannelModes <|> net.supportedChannelModes
    text := fun t => if t = .name ∨ t = .chantypes then remote.text t <|> net.text t else net.text t }

/-! ### From the server -/

section
variable (stime : Str) (cfg : ProxyConfig) (nc : NetworkConfig) (n : IrcNetwork)

/-- A command the user wants to be sent to the server. -/
def sendAutocmd (p : Proxy) (w : Str) : Except Fault Proxy :=
  match ircParseLine w with
  | none => .error .assertion
  | some l => networkSendLine cfg.learnNickserv n l p

/-- What `process_from_server` does at the end of the MOTD. -/
def endOfMotd (p : Proxy) : Except Fault Proxy := do
  let n := { n with info := networkUpdateIsupport n.info n.externalInfo }
  let p ← nickservIdentifyMe (networkSendLine cfg.learnNickserv n) n (some n.nick) p
  let p ← networkSendArgs cfg.learnNickserv n [some (str "USERHOST"), some n.nick] p
  let p ← nc.autocmd.foldlM (sendAutocmd cfg n) p
  nc.autojoin.foldlM
    (fun p c => networkSendArgs cfg.learnNickserv n [some (str "JOIN"), some c.1, c.2] p) p

/-- The end of the MOTD is recognised by its number. -/
def checkMotd (cmd : Str) (p : Proxy) : Except Fault Proxy :=
  if baseEq (some cmd) (str "ERROR") = false ∧ (atoi cmd = RPL_ENDOFMOTD ∨ atoi cmd = ERR_NOMOTD) then
    endOfMotd cfg nc n p
  else .ok p

/-- `process_from_server` in the state `MOTD_RECVD`.  `ctcp` is what `ctcp_process_request` answers to a
request, if it answers: the nick it came from and the text. -/
def processFromServer (ctcp : IrcLine → Option (Str × Str)) (hasClients : Bool) (l : IrcLine)
    (p : Proxy) : Except Fault Proxy :=
  match l.args with
  | [] => .ok p
  | cmd :: args =>
      if baseEq (some cmd) (str "PING") then
        networkSendArgs cfg.learnNickserv n [some (str "PONG"), args.head?] p
      else if baseEq (some cmd) (str "PONG") then .ok p
      else do
        let p ← checkMotd cfg nc n cmd p
        -- the response to a query is redirected
        if atoi cmd ≠ 0 then pure p
        else if hasClients = false then
          if IsCtcp l ∧ baseEq (some cmd) (str "PRIVMSG") then
            match ctcp l with
            | none => pure p
            | some (nick, text) =>
                networkSendArgs cfg.learnNickserv n [some (str "NOTICE"), some nick, some text] p
          else pure p
        else do
          let p ← logData cfg.learnNickserv n l .fromServer p
          if cmd = str "PRIVMSG" ∧ cfg.reportTime = .always then do
            let _ ← linePrefixTime stime l
            pure p
          else pure p

/-! ### From a client -/

/-- `network_forward_line`. -/
def networkForwardLine (l : IrcLine) (isPrivate : Bool) (p : Proxy) : Except Fault Proxy := do
  if isPrivate = false ∧ IsMessage l ∧ cfg.reportTime = .always then do
    let _ ← linePrefixTime stime l
    networkSendLine cfg.learnNickserv n l p
  else networkSendLine cfg.learnNickserv n l p

/-- The message is for the administration user. -/
def isAdminMessage (l : IrcLine) : Bool :=
  match cfg.adminUser with
  | none => false
  | some u => baseEq l.args[0]? (str "PRIVMSG") && baseEq l.args[1]? u

/-- The queries the cache may answer. -/
def CacheCommand (l : IrcLine) : Prop :=
  ∃ w ∈ [str "MODE", str "NAMES", str "TOPIC", str "WHO"], baseEq l.args[0]? w = true

/-- Which queries `client_try_cache` answers. -/
structure CacheAnswers where
  answers : IrcLine → Bool
  command : ∀ l, answers l = true → CacheCommand l

/-- No other command is answered. -/
theorem clientTryCache_other {now : Long} {c : Client} {net : NetworkState} {maxWhoAge : ℤ} {l : IrcLine}
    (hargc : l.argc ≠ 0) (h : ¬ CacheCommand l) :
    clientTryCache now c net l maxWhoAge = .ok (false, c) := by
  have other : ∀ w ∈ [str "MODE", str "NAMES", str "TOPIC", str "WHO"], ¬ baseEq l.args[0]? w = true :=
    fun w hw he => h ⟨w, hw, he⟩
  rw [clientTryCache, if_neg hargc, if_neg (other _ (by decide)),
    if_neg (other _ (by decide)), if_neg (other _ (by decide)),
    if_neg (other _ (by decide))]
  exact ite_self _

/-- `client_try_cache` for a client, with the state of its network. -/
def cacheAnswers (now : Long) (c : Client) (net : NetworkState) (maxWhoAge : ℤ) : CacheAnswers where
  answers l := decide (l.argc ≠ 0) &&
    match clientTryCache now c net l maxWhoAge with
    | .ok (answered, _) => answered
    | .error _ => false
  command := by
    intro l h
    obtain ⟨hargc, h⟩ := Bool.and_eq_true_iff.mp h
    by_contra hother
    rw [clientTryCache_other (of_decide_eq_true hargc) hother] at h
    cases h

/-- `process_from_client`, for a line that is not empty. -/
def processFromClient (cache : CacheAnswers) (connection : Connection.ConnectionState) (l : IrcLine)
    (p : Proxy) : Except Fault Proxy :=
  match l.args with
  | [] => .error .assertion
  | cmd :: args =>
      if ∃ w ∈ [str "QUIT", str "PING", str "PONG", str "USER", str "PASS", str "CTRLPROXY"],
          baseEq (some cmd) w = true then .ok p
      else
        let p := if cfg.adminUser.isSome ∧ baseEq (some cmd) (str "PRIVMSG") then p.given args.head?
          else p
        if isAdminMessage cfg l then .ok p
        else if IsCtcp l ∧ baseEq (some cmd) (str "PRIVMSG") then
          networkForwardLine stime cfg n l true p
        else if baseEq (some cmd) (str "NOTICE") ∧ (∃ a ∈ l.args[2]?, a.head? = some ⟨1, byte_one⟩) then
          networkForwardLine stime cfg n l true p
        else if cmd = [] then .ok p
        else if connection = .motdRecvd then
          if nc.disableCache = false ∧ cache.answers l then .ok p
          else networkForwardLine stime cfg n l false p
        -- `handle_offline_command`, or nothing
        else .ok p

/-- `on_transport_receive_line` for a client that is logged in. -/
def onTransportReceiveLine (cache : CacheAnswers) (connection : Connection.ConnectionState) (l : IrcLine)
    (p : Proxy) : Except Fault Proxy :=
  if l.argc = 0 then .ok p else processFromClient stime cfg nc n cache connection l p

end

/-! ### Lines the filter is ready for -/

/-- Neither a fault nor a `NULL` that a function goes on with. -/
def Respects (x : Except Fault Proxy) : Prop := ∃ r, x = .ok r ∧ r.nullGiven = false

/-- A line to the server that has the arguments the filter reads: a message says to whom it goes,
and one to NickServ what it says; `NS` has a command, and `IDENTIFY` a password. -/
def FilterReady (n : IrcNetwork) : List Str → Prop
  | [] => False
  | cmd :: args =>
      ((sameWord n cmd (str "PRIVMSG") || sameWord n cmd (str "NOTICE")) = true →
        ∃ target rest, args = target :: rest ∧ (sameWord n target nickservNick = true → rest ≠ [])) ∧
      (sameWord n cmd (str "NS") = true →
        ∃ sub rest, args = sub :: rest ∧ (sameWord n sub (str "IDENTIFY") = true → rest ≠ []))

/-- A function that does not forget that `NULL` was given. -/
def Sticky (f : Proxy → Except Fault Proxy) : Prop :=
  ∀ p, p.nullGiven = true → Ensures (f p) (fun r => r.nullGiven = true) fun _ => True

section
variable {x : Except Fault Proxy} {f : Proxy → Except Fault Proxy} {P : Prop} {p : Proxy}
  {learn : Bool} {n : IrcNetwork} {l : IrcLine} {cmd : Str} {args : List Str}

theorem respects_ok : Respects (.ok p) ↔ p.nullGiven = false :=
  ⟨fun ⟨_, h, hr⟩ => by cases h; exact hr, fun h => ⟨p, rfl, h⟩⟩

theorem not_respects_error {e : Fault} : ¬ Respects (.error e) := fun ⟨_, h, _⟩ => by cases h

theorem not_respects_of_given (h : Ensures x (fun r => r.nullGiven = true) fun _ => True) :
    ¬ Respects x := by
  rintro ⟨r, hr, hfalse⟩
  rw [h.of_ok hr] at hfalse
  cases hfalse

theorem Sticky.bind {g : Proxy → Except Fault Proxy} (hf : Sticky f) (hg : Sticky g) :
    Sticky fun p => f p >>= g :=
  fun p hp => (hf p hp).bind hg

/-- Two stages respect what both do. -/
theorem respects_bind (hs : Sticky f) (hf : ∀ r, r.nullGiven = false → (Respects (f r) ↔ P)) :
    Respects (x >>= f) ↔ Respects x ∧ P := by
  cases x with
  | error e => exact iff_of_false not_respects_error fun h => not_respects_error h.1
  | ok r =>
      rw [ok_bind]
      cases hr : r.nullGiven with
      | false => rw [hf r hr, respects_ok, hr, eq_self_iff_true, true_and]
      | true =>
          refine iff_of_false (not_respects_of_given (hs r hr)) fun h => ?_
          rw [respects_ok, hr] at h
          cases h.1

/-- A loop respects what every pass does. -/
theorem respects_foldlM {ι : Type} {f : Proxy → ι → Except Fault Proxy} {ok : ι → Prop} {is : List ι}
    (hs : ∀ i, Sticky fun p => f p i)
    (hf : ∀ p i, p.nullGiven = false → (Respects (f p i) ↔ ok i)) (hp : p.nullGiven = false) :
    Respects (is.foldlM f p) ↔ ∀ i ∈ is, ok i := by
  have sticky : ∀ is : List ι, Sticky fun p => is.foldlM f p := fun is p hp =>
    Ensures.foldlM (I := fun r => r.nullGiven = true) (fun r i _ hr => hs i r hr) hp
  induction is generalizing p with
  | nil => exact iff_of_true (respects_ok.mpr hp) fun _ h => by cases h
  | cons i is ih =>
      rw [List.foldlM_cons, respects_bind (sticky is) fun r hr => ih hr, hf p i hp,
        List.forall_mem_cons]


/-! ### The filter -/

theorem cacheAt_total (x : Str) (es : List KeyfileEntry) :
    Total (cacheAt n (some x) es) fun _ => True := by
  induction es with
  | nil => trivial
  | cons e es ih =>
      cases e with
      | everywhere nick pass =>
          have found : Total (sameEntry n (some x) nick pass) fun _ => True := by
            refine (ircEq_total (some n.externalInfo) nick n.nick).bind fun b _ => ?_
            split <;> trivial
          refine found.bind fun b _ => ?_
          split
          · trivial
          · exact ih.bind fun _ _ => trivial
      | on network nick pass =>
          unfold cacheAt
          split
          · cases pass with
            | none => trivial
            | some y => exact trivial
          · exact ih.bind fun _ _ => trivial

/-- A password that is learnt must be one. -/
theorem cacheNickservPass_respects (pass : Option Str) (hp : p.nullGiven = false) :
    Respects (cacheNickservPass learn n pass p) ↔ pass ≠ none := by
  have given := @cacheNickservPass_learns learn n p pass
  cases pass with
  | none =>
      refine iff_of_false (not_respects_of_given (given.imp fun r hr => ?_)) (not_not.mpr rfl)
      rw [hr.2]
      simp
  | some x =>
      have total : Total (cacheNickservPass learn n (some x) p) fun _ => True := by
        unfold cacheNickservPass
        dsimp only
        split
        · trivial
        · refine (cacheAt_total x _).bind fun nicks _ => ?_
          cases nicks <;> trivial
      obtain ⟨r, hr, -⟩ := total.exists_ok
      refine iff_of_true ⟨r, hr, ?_⟩ nofun
      rw [(given.of_ok hr).2, hp]
      rfl

theorem logMessage_respects (o : Option Str) (e : HasEndcolon) (hp : p.nullGiven = false) :
    Respects (logMessage learn n ⟨o, cmd :: args, e⟩ p) ↔
      ((sameWord n cmd (str "PRIVMSG") || sameWord n cmd (str "NOTICE")) = true →
        ∃ target rest, args = target :: rest ∧ (sameWord n target nickservNick = true → rest ≠ [])) := by
  have fine : Respects (.ok p) := respects_ok.mpr hp
  rw [logMessage_eq]
  split
  · next htalk =>
    match args with
    | [] =>
        refine iff_of_false not_respects_error fun h => ?_
        obtain ⟨target, rest, hargs, -⟩ := h htalk
        cases hargs
    | [target] =>
        dsimp only
        split
        · next hserv =>
          refine iff_of_false not_respects_error fun h => ?_
          obtain ⟨target, rest, hargs, hrest⟩ := h htalk
          cases hargs
          exact hrest hserv rfl
        · next hserv => exact iff_of_true fine fun _ => ⟨target, [], rfl, fun h => absurd h hserv⟩
    | target :: text :: rest =>
        have ready : (sameWord n cmd (str "PRIVMSG") || sameWord n cmd (str "NOTICE")) = true →
            ∃ target' rest', target :: text :: rest = target' :: rest' ∧
              (sameWord n target' nickservNick = true → rest' ≠ []) :=
          fun _ => ⟨target, text :: rest, rfl, fun _ => nofun⟩
        dsimp only
        split
        · split
          · exact iff_of_true ((cacheNickservPass_respects _ hp).mpr nofun) ready
          · exact iff_of_true fine ready
        · exact iff_of_true fine ready
  · next htalk => exact iff_of_true fine fun h => absurd h htalk

theorem logNs_respects (o : Option Str) (e : HasEndcolon) (hp : p.nullGiven = false) :
    Respects (logNs learn n ⟨o, cmd :: args, e⟩ p) ↔
      (sameWord n cmd (str "NS") = true →
        ∃ sub rest, args = sub :: rest ∧ (sameWord n sub (str "IDENTIFY") = true → rest ≠ [])) := by
  have fine : Respects (.ok p) := respects_ok.mpr hp
  rw [logNs_eq]
  split
  · next hns =>
    match args with
    | [] =>
        refine iff_of_false not_respects_error fun h => ?_
        obtain ⟨sub, rest, hargs, -⟩ := h hns
        cases hargs
    | sub :: rest =>
        dsimp only
        split
        · next hid =>
          rw [cacheNickservPass_respects _ hp, ne_eq, List.head?_eq_none_iff]
          constructor
          · exact fun h _ => ⟨sub, rest, rfl, fun _ => h⟩
          · intro h
            obtain ⟨sub', rest', hargs, hrest⟩ := h hns
            cases hargs
            exact hrest hid
        · next hid => exact iff_of_true fine fun _ => ⟨sub, rest, rfl, fun h => absurd h hid⟩
  · next hns => exact iff_of_true fine fun h => absurd h hns

theorem logNs_sticky : Sticky (logNs learn n l) := fun _ hp =>
  logNs_learns.imp fun _ h => h.nullGiven hp

theorem given_sticky {q : Proxy} (a : Option Str) (h : q.nullGiven = true) :
    (q.given a).nullGiven = true := by
  simp [Proxy.given, h]

theorem cacheNickservPass_sticky (pass : Option Str) : Sticky (cacheNickservPass learn n pass) :=
  fun _ hp => (cacheNickservPass_learns pass).imp fun _ h => h.1.nullGiven hp

theorem networkSendLine_sticky : Sticky (networkSendLine learn n l) := fun _ hp =>
  networkSendLine_keeps (I := fun r => r.nullGiven = true) (fun _ a h => given_sticky a h)
    (fun _ _ h => h) (fun _ _ h => h) (fun pass q h => cacheNickservPass_sticky pass q h) hp

/-- A line is sent without harm if and only if it has the arguments the filter reads. -/
theorem networkSendLine_respects (hp : p.nullGiven = false) :
    Respects (networkSendLine learn n l p) ↔ FilterReady n l.args := by
  obtain ⟨o, _ | ⟨cmd, args⟩, e⟩ := l
  · refine iff_of_false (fun h => ?_) id
    rw [networkSendLine, logDataBody, logAttempt, commandIs_nil rfl] at h
    exact not_respects_error h
  · let record (r : Proxy) : Except Fault Proxy :=
      .ok { r with sent := r.sent ++ [(⟨o, cmd :: args, e⟩ : IrcLine)] }
    have sticky : Sticky record := fun _ hq => hq
    have sent : ∀ r, r.nullGiven = false → (Respects (record r) ↔ True) :=
      fun r hr => iff_true_intro (respects_ok.mpr hr)
    rw [networkSendLine, logDataBody, logAttempt_eq rfl, ok_bind]
    refine (respects_bind sticky sent).trans ?_
    rw [and_true, respects_bind logNs_sticky fun r hr => logNs_respects o e hr,
      logMessage_respects o e]
    · rfl
    · split
      · exact hp
      · exact hp


/-! ### Words -/

theorem sameWord_iff_fold (n : IrcNetwork) (a b : Str) :
    sameWord n a b = true ↔ n.info.casemapping.fold a = n.info.casemapping.fold b := by
  rw [sameWord, decide_eq_true_iff, irccmpStr_eq_zero_iff]

theorem foldByte_lower (m : Casemapping) (b : Byte) : m.foldByte b.lower = m.foldByte b := by
  have hlast : 90 ≤ m.last := by cases m <;> decide
  have hle := m.last_le
  by_cases h : 65 ≤ b.1 ∧ b.1 ≤ 90
  · have lowered : b.lower.1 = b.1 + 32 := congrArg Subtype.val (dif_pos h)
    have upper : 65 ≤ b.1 ∧ b.1 ≤ m.last := ⟨h.1, h.2.trans hlast⟩
    have lower : ¬ (65 ≤ b.lower.1 ∧ b.lower.1 ≤ m.last) := by omega
    rw [Casemapping.foldByte, Casemapping.foldByte, dif_neg lower, dif_pos upper]
    exact Subtype.ext lowered
  · rw [Byte.lower, dif_neg h]

/-- A command that is `w` but for its case is compared as `w` is. -/
theorem sameWord_of_baseEq {w : Str} (h : baseEq (some cmd) w = true) (w' : Str) :
    sameWord n cmd w' = sameWord n w w' := by
  have lower : ∀ s : Str, n.info.casemapping.fold s = n.info.casemapping.fold (s.map Byte.lower) := by
    intro s
    rw [Casemapping.fold, Casemapping.fold, List.map_map]
    exact List.map_congr_left fun b _ => (foldByte_lower _ b).symm
  have same : cmd.map Byte.lower = w.map Byte.lower := by simpa [baseEq] using h
  have fold : n.info.casemapping.fold cmd = n.info.casemapping.fold w := by
    rw [lower cmd, lower w, same]
  rw [Bool.eq_iff_iff, sameWord_iff_fold, sameWord_iff_fold, fold]

theorem sameWord_false {a b : Str} (h : ∀ m ∈ [Casemapping.unknown, .rfc1459, .ascii, .strictRfc1459],
    irccmpStr m a b ≠ 0) : sameWord n a b = false := by
  refine decide_eq_false (h n.info.casemapping ?_)
  cases n.info.casemapping <;> decide

/-- A command the filter has nothing to learn from. -/
def Unlearned (n : IrcNetwork) (cmd : Str) : Prop :=
  sameWord n cmd (str "PRIVMSG") = false ∧ sameWord n cmd (str "NOTICE") = false ∧
    sameWord n cmd (str "NS") = false

theorem unlearned_of_ne (h : ∀ w ∈ [str "PRIVMSG", str "NOTICE", str "NS"],
    ∀ m ∈ [Casemapping.unknown, .rfc1459, .ascii, .strictRfc1459], irccmpStr m cmd w ≠ 0) :
    Unlearned n cmd :=
  ⟨sameWord_false (h _ (by decide)), sameWord_false (h _ (by decide)),
    sameWord_false (h _ (by decide))⟩

theorem filterReady_of_unlearned (h : Unlearned n cmd) : FilterReady n (cmd :: args) := by
  obtain ⟨h₁, h₂, h₃⟩ := h
  refine ⟨fun htalk => ?_, fun hns => ?_⟩
  · rw [h₁, h₂] at htalk
    cases htalk
  · rw [h₃] at hns
    cases hns

/-- A message with a text. -/
theorem filterReady_message {target text : Str} (h : sameWord n cmd (str "NS") = false) :
    FilterReady n (cmd :: target :: text :: args) := by
  refine ⟨fun _ => ⟨target, text :: args, rfl, fun _ => nofun⟩, fun hns => ?_⟩
  rw [h] at hns
  cases hns

theorem sameWord_privmsg_ns : sameWord n (str "PRIVMSG") (str "NS") = false :=
  sameWord_false (by decide)

theorem sameWord_notice_ns : sameWord n (str "NOTICE") (str "NS") = false :=
  sameWord_false (by decide)

/-! ### The end of the MOTD -/

theorem nickservFindNick_total (nick : Str) (es : List KeyfileEntry) :
    Total (nickservFindNick n (some nick) es) fun _ => True := by
  induction es with
  | nil => trivial
  | cons e es ih =>
      refine (ircEq_total (some n.info) e.nick nick).bind fun b _ => ?_
      split
      · cases e with
        | everywhere nick pass => trivial
        | on network nick pass =>
            dsimp only
            split
            · trivial
            · exact ih
      · exact ih

/-- A known nick is identified without harm. -/
theorem nickservIdentifyMe_respects (nick : Str) (hp : p.nullGiven = false) :
    Respects (nickservIdentifyMe (networkSendLine learn n) n (some nick) p) := by
  have given : (p.given (some nick)).nullGiven = false := by simp [Proxy.given, hp]
  unfold nickservIdentifyMe
  split
  · exact respects_ok.mpr hp
  · obtain ⟨pass, hpass, -⟩ := (nickservFindNick_total (n := n) nick p.nickservNicks).exists_ok
    rw [hpass, ok_bind]
    cases pass with
    | none => exact respects_ok.mpr given
    | some pass => exact (networkSendLine_respects given).mpr (filterReady_message sameWord_privmsg_ns)

/-- A command that is sent at the end of the MOTD. -/
def AutocmdReady (n : IrcNetwork) (w : Str) : Prop :=
  ∃ l, ircParseLine w = some l ∧ FilterReady n l.args

/-- The network after its settings were updated. -/
def IrcNetwork.updated (n : IrcNetwork) : IrcNetwork :=
  { n with info := networkUpdateIsupport n.info n.externalInfo }

theorem sendAutocmd_respects (cfg : ProxyConfig) (w : Str) (hp : p.nullGiven = false) :
    Respects (sendAutocmd cfg n p w) ↔ AutocmdReady n w := by
  unfold sendAutocmd AutocmdReady
  cases ircParseLine w with
  | none => exact iff_of_false not_respects_error fun ⟨_, h, _⟩ => by cases h
  | some l =>
      rw [networkSendLine_respects hp]
      exact ⟨fun h => ⟨l, rfl, h⟩, fun ⟨_, h, hr⟩ => by cases h; exact hr⟩

theorem sendAutocmd_sticky (cfg : ProxyConfig) (w : Str) : Sticky fun p => sendAutocmd cfg n p w := by
  intro p hp
  unfold sendAutocmd
  cases ircParseLine w with
  | none => trivial
  | some l => exact networkSendLine_sticky p hp

theorem endOfMotd_respects (cfg : ProxyConfig) (nc : NetworkConfig) (hp : p.nullGiven = false) :
    Respects (endOfMotd cfg nc n p) ↔ ∀ w ∈ nc.autocmd, AutocmdReady n.updated w := by
  have userhost : Unlearned n.updated (str "USERHOST") := unlearned_of_ne (by decide)
  have join : Unlearned n.updated (str "JOIN") := unlearned_of_ne (by decide)
  let sendJoin (p : Proxy) (c : Str × Option Str) : Except Fault Proxy :=
    networkSendArgs cfg.learnNickserv n.updated [some (str "JOIN"), some c.1, c.2] p
  have joinStep : ∀ p c, p.nullGiven = false → (Respects (sendJoin p c) ↔ True) := fun p c hp =>
    iff_true_intro ((networkSendLine_respects hp).mpr (filterReady_of_unlearned join))
  have joins : ∀ p, p.nullGiven = false → (Respects (nc.autojoin.foldlM sendJoin p) ↔ True) :=
    fun p hp => iff_true_intro ((respects_foldlM (fun _ => networkSendLine_sticky) joinStep hp).mpr
      fun _ _ => trivial)
  have joinsSticky : Sticky fun p => nc.autojoin.foldlM sendJoin p := fun p hp =>
    Ensures.foldlM (I := fun r => r.nullGiven = true) (fun r _ _ hr => networkSendLine_sticky r hr) hp
  let sendAutocmds (p : Proxy) : Except Fault Proxy := nc.autocmd.foldlM (sendAutocmd cfg n.updated) p
  have autocmds : ∀ p, p.nullGiven = false →
      (Respects (sendAutocmds p) ↔ ∀ w ∈ nc.autocmd, AutocmdReady n.updated w) := fun p hp =>
    respects_foldlM (sendAutocmd_sticky cfg) (fun p w hp => sendAutocmd_respects cfg w hp) hp
  have autocmdsSticky : Sticky sendAutocmds := fun p hp =>
    Ensures.foldlM (I := fun r => r.nullGiven = true)
      (fun r w _ hr => sendAutocmd_sticky cfg w r hr) hp
  -- what comes behind the USERHOST line, and with it
  have behind : ∀ p, p.nullGiven = false →
      (Respects (sendAutocmds p >>= fun p => nc.autojoin.foldlM sendJoin p) ↔
        ∀ w ∈ nc.autocmd, AutocmdReady n.updated w) := fun p hp => by
    rw [respects_bind joinsSticky joins, and_true, autocmds p hp]
  let sendUserhost (p : Proxy) : Except Fault Proxy :=
    networkSendArgs cfg.learnNickserv n.updated [some (str "USERHOST"), some n.nick] p
  have withUserhost : ∀ p, p.nullGiven = false →
      (Respects (sendUserhost p >>= fun p => sendAutocmds p >>= fun p =>
        nc.autojoin.foldlM sendJoin p) ↔ ∀ w ∈ nc.autocmd, AutocmdReady n.updated w) := fun p hp => by
    rw [respects_bind (autocmdsSticky.bind joinsSticky) behind]
    exact and_iff_right ((networkSendLine_respects hp).mpr (filterReady_of_unlearned userhost))
  have sticky : Sticky fun p => sendUserhost p >>= fun p => sendAutocmds p >>= fun p =>
      nc.autojoin.foldlM sendJoin p :=
    Sticky.bind networkSendLine_sticky (autocmdsSticky.bind joinsSticky)
  exact (respects_bind sticky withUserhost).trans (and_iff_right (nickservIdentifyMe_respects _ hp))


/-! ### From the server -/

/-- The filter looks at a line from the server that is no response. -/
theorem logData_respects (h : l.args = cmd :: args) (hnum : atoi cmd = 0) (hp : p.nullGiven = false) :
    Respects (logData learn n l .fromServer p) ↔
      (sameWord n cmd (str "NICK") = true → p.nickattempt ≠ none → args ≠ []) := by
  have huse : (atol cmd).1 ≠ ERR_NICKNAMEINUSE := by
    intro e
    rw [atoi, toInt, e] at hnum
    exact absurd hnum (by decide)
  have hcmd : l.argStr 0 = .ok cmd := by rw [IrcLine.argStr, if_pos (Nat.zero_le _), h]; rfl
  have done : (fun q => logInUse (networkSendLine learn n) n l q) = Except.ok := by
    funext q
    rw [logInUse, hcmd, ok_bind, if_neg huse]
    rfl
  have fine : Respects (.ok p) := respects_ok.mpr hp
  have renamed : logData learn n l .fromServer p = logRenamed (networkSendLine learn n) n l p := by
    rw [logData, logDataBody, done]
    cases logRenamed (networkSendLine learn n) n l p <;> rfl
  rw [renamed, logRenamed, commandIs_eq h, ok_bind]
  cases hnick : sameWord n cmd (str "NICK") with
  | false => exact iff_of_true fine fun hno => absurd hno Bool.false_ne_true
  | true =>
      rw [if_pos rfl]
      cases hattempt : p.nickattempt with
      | none => exact iff_of_true fine fun _ h => absurd rfl h
      | some attempt =>
          dsimp only
          rw [arg_one h, ok_bind]
          cases args with
          | nil => exact iff_of_false not_respects_error fun h => h rfl (Option.some_ne_none _) rfl
          | cons nick args =>
              refine iff_of_true ?_ fun _ _ => List.cons_ne_nil _ _
              rw [List.head?_cons, show ircEq (some n.info) (some attempt) (some nick) =
                .ok (decide (irccmpStr (casemapOf (some n.info)) attempt nick = 0)) from rfl, ok_bind]
              split
              · exact nickservIdentifyMe_respects nick hp
              · exact fine

/-- A line from the server that has the arguments that are read, in a state where what the user
wants to be sent at the end of the MOTD has them as well. -/
structure ServerReady (cfg : ProxyConfig) (nc : NetworkConfig) (n : IrcNetwork) (hasClients : Bool)
    (cmd : Str) (args : List Str) (p : Proxy) : Prop where
  /-- The commands for the end of the MOTD. -/
  motd : baseEq (some cmd) (str "ERROR") = false → (atoi cmd = RPL_ENDOFMOTD ∨ atoi cmd = ERR_NOMOTD) →
    ∀ w ∈ nc.autocmd, AutocmdReady n.updated w
  /-- A NICK line has a nick, if a client tried one before. -/
  nick : atoi cmd = 0 → hasClients = true → sameWord n cmd (str "NICK") = true →
    p.nickattempt ≠ none → args ≠ []
  /-- A message has a text, if the time goes in front of it. -/
  text : atoi cmd = 0 → hasClients = true → cmd = str "PRIVMSG" → cfg.reportTime = .always →
    2 ≤ args.length

theorem linePrefixTime_respects (stime : Str) (h : l.args = cmd :: args) (hp : p.nullGiven = false) :
    Respects (linePrefixTime stime l >>= fun _ => .ok p) ↔ 2 ≤ args.length := by
  have argc : l.argc = args.length + 1 := by rw [IrcLine.argc, h, List.length_cons]
  rw [linePrefixTime, IrcLine.argStr]
  rcases args with _ | ⟨a, _ | ⟨b, rest⟩⟩
  · rw [if_neg (by rw [argc]; decide)]
    exact iff_of_false not_respects_error (by decide)
  · rw [if_pos (by rw [argc]; simp), h]
    exact iff_of_false not_respects_error (by simp)
  · rw [if_pos (by rw [argc]; simp), h]
    exact iff_of_true (respects_ok.mpr hp) (by simp)

theorem checkMotd_respects (cfg : ProxyConfig) (nc : NetworkConfig) (hp : p.nullGiven = false) :
    Respects (checkMotd cfg nc n cmd p) ↔ (baseEq (some cmd) (str "ERROR") = false →
      (atoi cmd = RPL_ENDOFMOTD ∨ atoi cmd = ERR_NOMOTD) → ∀ w ∈ nc.autocmd, AutocmdReady n.updated w) := by
  unfold checkMotd
  split
  · next h =>
    rw [endOfMotd_respects cfg nc hp]
    exact ⟨fun hr _ _ => hr, fun hr => hr h.1 h.2⟩
  · next h => exact iff_of_true (respects_ok.mpr hp) fun h₁ h₂ => absurd ⟨h₁, h₂⟩ h

/-- A line from the server is handled without harm if and only if it has the arguments that are
read. -/
theorem processFromServer_respects (stime : Str) (cfg : ProxyConfig) (nc : NetworkConfig)
    (ctcp : IrcLine → Option (Str × Str)) (hasClients : Bool) (hp : p.nullGiven = false) :
    Respects (processFromServer stime cfg nc n ctcp hasClients l p) ↔
      ∀ cmd args, l.args = cmd :: args → baseEq (some cmd) (str "PING") = false →
        baseEq (some cmd) (str "PONG") = false → ServerReady cfg nc n hasClients cmd args p := by
  have fine : Respects (.ok p) := respects_ok.mpr hp
  have pong : Unlearned n (str "PONG") := unlearned_of_ne (by decide)
  obtain ⟨o, _ | ⟨cmd, args⟩, e⟩ := l
  · exact iff_of_true fine nofun
  have only : (∀ cmd' args', cmd :: args = cmd' :: args' → baseEq (some cmd') (str "PING") = false →
      baseEq (some cmd') (str "PONG") = false → ServerReady cfg nc n hasClients cmd' args' p) ↔
      (baseEq (some cmd) (str "PING") = false → baseEq (some cmd) (str "PONG") = false →
        ServerReady cfg nc n hasClients cmd args p) :=
    ⟨fun h => h cmd args rfl, fun h _ _ hl => by cases hl; exact h⟩
  rw [only, processFromServer]
  dsimp only
  split
  · next hping =>
    refine iff_of_true ((networkSendLine_respects hp).mpr (filterReady_of_unlearned pong)) ?_
    intro h
    rw [hping] at h
    cases h
  next hping =>
  split
  · next hpong =>
    refine iff_of_true fine fun _ h => ?_
    rw [hpong] at h
    cases h
  next hpong =>
  rw [Bool.not_eq_true] at hping hpong
  have needed : (baseEq (some cmd) (str "PING") = false → baseEq (some cmd) (str "PONG") = false →
      ServerReady cfg nc n hasClients cmd args p) ↔ ServerReady cfg nc n hasClients cmd args p :=
    ⟨fun h => h hping hpong, fun h _ _ => h⟩
  rw [needed]
  by_cases hnum : atoi cmd = 0
  · have stays : checkMotd cfg nc n cmd p = .ok p := by
      refine if_neg fun h => ?_
      rw [hnum] at h
      exact absurd h.2 (by decide)
    rw [stays, ok_bind, if_neg (not_not.mpr hnum)]
    have motd : ¬ (atoi cmd = RPL_ENDOFMOTD ∨ atoi cmd = ERR_NOMOTD) := by
      rw [hnum]
      decide
    split
    · next halone =>
      refine iff_of_true ?_ ⟨fun _ h => absurd h motd, fun _ h => ?_, fun _ h => ?_⟩
      · split
        · split
          · exact fine
          · exact (networkSendLine_respects hp).mpr (filterReady_message sameWord_notice_ns)
        · exact fine
      · rw [halone] at h
        cases h
      · rw [halone] at h
        cases h
    · next halone =>
      let forward (r : Proxy) : Except Fault Proxy :=
        if cmd = str "PRIVMSG" ∧ cfg.reportTime = .always then do
          let _ ← linePrefixTime stime ⟨o, cmd :: args, e⟩
          pure r
        else pure r
      have forwarded : ∀ r, r.nullGiven = false →
          (Respects (forward r) ↔ (cmd = str "PRIVMSG" → cfg.reportTime = .always → 2 ≤ args.length)) := by
        intro r hr
        dsimp only [forward]
        split
        · next h =>
          exact (linePrefixTime_respects stime rfl hr).trans ⟨fun hr _ _ => hr, fun hr => hr h.1 h.2⟩
        · next h => exact iff_of_true (respects_ok.mpr hr) fun h₁ h₂ => absurd ⟨h₁, h₂⟩ h
      have sticky : Sticky forward := by
        intro r hr
        dsimp only [forward]
        split
        · exact Ensures.bind (Q := fun _ => True) (by cases linePrefixTime stime _ <;> trivial) fun _ _ => hr
        · exact hr
      rw [Bool.not_eq_false] at halone
      refine (respects_bind sticky forwarded).trans ?_
      rw [logData_respects rfl hnum hp]
      constructor
      · rintro ⟨hnick, htext⟩
        exact ⟨fun _ h => absurd h motd, fun _ _ => hnick, fun _ _ => htext⟩
      · intro h
        exact ⟨h.nick hnum halone, h.text hnum halone⟩
  · have rest : ∀ k : Proxy → Except Fault Proxy, (checkMotd cfg nc n cmd p >>= fun r =>
        if atoi cmd ≠ 0 then pure r else k r) = checkMotd cfg nc n cmd p := by
      intro k
      simp only [if_pos hnum]
      cases checkMotd cfg nc n cmd p <;> rfl
    refine (iff_of_eq (congrArg Respects (rest _))).trans ((checkMotd_respects cfg nc hp).trans ?_)
    exact ⟨fun h => ⟨h, fun h => absurd h hnum, fun h => absurd h hnum⟩, fun h => h.motd⟩

/-! ### From a client -/

/-- A line from a client that has the arguments that are read: a message has a target, if there is an
administration user; and what may be forwarded has what the filter reads, and a text if the time goes
in front of it. -/
structure ClientReady (cfg : ProxyConfig) (n : IrcNetwork) (connection : Connection.ConnectionState)
    (l : IrcLine) (cmd : Str) (args : List Str) : Prop where
  target : cfg.adminUser.isSome = true → baseEq (some cmd) (str "PRIVMSG") = true → args ≠ []
  text : connection = .motdRecvd → isAdminMessage cfg l = false → IsMessage l →
    cfg.reportTime = .always → 2 ≤ args.length
  filter : connection = .motdRecvd → isAdminMessage cfg l = false → FilterReady n (cmd :: args)

theorem networkForwardLine_respects (stime : Str) (cfg : ProxyConfig) (isPrivate : Bool)
    (h : l.args = cmd :: args) (hp : p.nullGiven = false) :
    Respects (networkForwardLine stime cfg n l isPrivate p) ↔
      (isPrivate = false → IsMessage l → cfg.reportTime = .always → 2 ≤ args.length) ∧
        FilterReady n l.args := by
  unfold networkForwardLine
  split
  · next hm =>
    have staged : (linePrefixTime stime l >>= fun _ => networkSendLine cfg.learnNickserv n l p) =
        (linePrefixTime stime l >>= fun _ => .ok p) >>= networkSendLine cfg.learnNickserv n l := by
      cases linePrefixTime stime l <;> rfl
    refine (iff_of_eq (congrArg Respects staged)).trans ?_
    rw [respects_bind networkSendLine_sticky fun r hr => networkSendLine_respects hr,
      linePrefixTime_respects stime h hp]
    exact and_congr_left fun _ => ⟨fun hr _ _ _ => hr, fun hr => hr hm.1 hm.2.1 hm.2.2⟩
  · next hm =>
    rw [networkSendLine_respects hp]
    exact (and_iff_right fun h₁ h₂ h₃ => absurd ⟨h₁, h₂, h₃⟩ hm).symm

theorem unlearned_of_baseEq {w : Str} (h : baseEq (some cmd) w = true) (hw : Unlearned n w) :
    Unlearned n cmd := by
  obtain ⟨h₁, h₂, h₃⟩ := hw
  exact ⟨(sameWord_of_baseEq h _).trans h₁, (sameWord_of_baseEq h _).trans h₂,
    (sameWord_of_baseEq h _).trans h₃⟩

/-- A command nothing is read of has what is read. -/
theorem clientReady_of_unread {cfg : ProxyConfig} {connection : Connection.ConnectionState}
    (hl : l.args = cmd :: args) (hmsg : baseEq (some cmd) (str "PRIVMSG") = false)
    (hnotice : baseEq (some cmd) (str "NOTICE") = false) (h : Unlearned n cmd) :
    ClientReady cfg n connection l cmd args := by
  refine ⟨fun _ h => ?_, fun _ _ h => ?_, fun _ _ => filterReady_of_unlearned h⟩
  · rw [hmsg] at h
    cases h
  · rw [IsMessage, hl, List.getElem?_cons_zero, hmsg, hnotice] at h
    rcases h with h | h <;> cases h

theorem clientReady_of_word {cfg : ProxyConfig} {connection : Connection.ConnectionState} {ws : List Str}
    (hl : l.args = cmd :: args) (hw : ∃ w ∈ ws, baseEq (some cmd) w = true)
    (hbase : ∀ w ∈ ws, baseEq (some w) (str "PRIVMSG") = false ∧ baseEq (some w) (str "NOTICE") = false)
    (hws : ∀ w ∈ ws, ∀ w' ∈ [str "PRIVMSG", str "NOTICE", str "NS"],
      ∀ m ∈ [Casemapping.unknown, .rfc1459, .ascii, .strictRfc1459], irccmpStr m w w' ≠ 0) :
    ClientReady cfg n connection l cmd args := by
  obtain ⟨w, hmem, hw⟩ := hw
  exact clientReady_of_unread hl ((baseEq_of_baseEq hw _).trans (hbase w hmem).1)
    ((baseEq_of_baseEq hw _).trans (hbase w hmem).2)
    (unlearned_of_baseEq hw (unlearned_of_ne (hws w hmem)))

/-- What goes from client to client with a text. -/
theorem clientReady_of_text {cfg : ProxyConfig} {connection : Connection.ConnectionState} {w : Str}
    (htext : 2 ≤ args.length) (hw : baseEq (some cmd) w = true)
    (hns : sameWord n w (str "NS") = false) : ClientReady cfg n connection l cmd args := by
  match args, htext with
  | target :: text :: rest, _ =>
      exact ⟨fun _ _ => nofun, fun _ _ _ _ => by simp,
        fun _ _ => filterReady_message ((sameWord_of_baseEq hw _).trans hns)⟩

theorem text_of_getElem? {a : Str} (h : a ∈ (cmd :: args)[2]?) : 2 ≤ args.length := by
  obtain ⟨hlt, -⟩ := List.getElem?_eq_some_iff.mp h
  rw [List.length_cons] at hlt
  omega

/-- A line from a client is handled without harm if and only if it has the arguments that are
read. -/
theorem onTransportReceiveLine_respects (stime : Str) (cfg : ProxyConfig) (nc : NetworkConfig)
    (cache : CacheAnswers) (connection : Connection.ConnectionState) (hp : p.nullGiven = false) :
    Respects (onTransportReceiveLine stime cfg nc n cache connection l p) ↔
      ∀ cmd args, l.args = cmd :: args → ClientReady cfg n connection l cmd args := by
  have fine : Respects (.ok p) := respects_ok.mpr hp
  obtain ⟨o, _ | ⟨cmd, args⟩, e⟩ := l
  · exact iff_of_true fine fun _ _ hno => absurd hno (List.cons_ne_nil _ _).symm
  have only : (∀ cmd' args', cmd :: args = cmd' :: args' →
      ClientReady cfg n connection ⟨o, cmd :: args, e⟩ cmd' args') ↔
      ClientReady cfg n connection ⟨o, cmd :: args, e⟩ cmd args :=
    ⟨fun h => h cmd args rfl, fun h _ _ hl => by cases hl; exact h⟩
  rw [only, onTransportReceiveLine, if_neg (by simp [IrcLine.argc]), processFromClient]
  dsimp only
  split
  · next hword =>
    exact iff_of_true fine (clientReady_of_word rfl hword (by decide) (by decide))
  next hword =>
  by_cases htarget : cfg.adminUser.isSome = true → baseEq (some cmd) (str "PRIVMSG") = true → args ≠ []
  · have given : (if cfg.adminUser.isSome = true ∧ baseEq (some cmd) (str "PRIVMSG") = true then
        p.given args.head? else p) = p := by
      split
      · next h =>
        cases args with
        | nil => exact absurd rfl (htarget h.1 h.2)
        | cons a args => simp [Proxy.given]
      · rfl
    rw [given]
    split
    · next hadmin =>
      refine iff_of_true fine ⟨htarget, fun _ h => ?_, fun _ h => ?_⟩
      · rw [hadmin] at h
        cases h
      · rw [hadmin] at h
        cases h
    next hadmin =>
    split
    · next hctcp =>
      obtain ⟨⟨-, a, ha, -⟩, hmsg⟩ := hctcp
      have ready : ClientReady cfg n .motdRecvd ⟨o, cmd :: args, e⟩ cmd args :=
        clientReady_of_text (text_of_getElem? ha) hmsg sameWord_privmsg_ns
      refine iff_of_true ((networkForwardLine_respects stime cfg true rfl hp).mpr
          ⟨fun hno => absurd hno.symm Bool.false_ne_true, ?_⟩)
        (clientReady_of_text (text_of_getElem? ha) hmsg sameWord_privmsg_ns)
      exact ready.filter rfl (Bool.eq_false_of_not_eq_true hadmin)
    next hctcp =>
    split
    · next hnotice =>
      obtain ⟨hnotice, a, ha, -⟩ := hnotice
      have ready : ClientReady cfg n .motdRecvd ⟨o, cmd :: args, e⟩ cmd args :=
        clientReady_of_text (text_of_getElem? ha) hnotice sameWord_notice_ns
      refine iff_of_true ((networkForwardLine_respects stime cfg true rfl hp).mpr
          ⟨fun hno => absurd hno.symm Bool.false_ne_true, ?_⟩)
        (clientReady_of_text (text_of_getElem? ha) hnotice sameWord_notice_ns)
      exact ready.filter rfl (Bool.eq_false_of_not_eq_true hadmin)
    split
    · next hempty =>
      subst hempty
      exact iff_of_true fine (clientReady_of_unread rfl (by decide) (by decide)
        (unlearned_of_ne (by decide)))
    split
    · next hmotd =>
      split
      · next hcache =>
        exact iff_of_true fine (clientReady_of_word rfl (cache.command _ hcache.2)
          (by decide) (by decide))
      · rw [networkForwardLine_respects stime cfg false rfl hp]
        constructor
        · exact fun h => ⟨htarget, fun _ _ => h.1 rfl, fun _ _ => h.2⟩
        · exact fun h => ⟨fun _ => h.text hmotd (Bool.eq_false_of_not_eq_true hadmin),
            h.filter hmotd (Bool.eq_false_of_not_eq_true hadmin)⟩
    · next hmotd =>
      exact iff_of_true fine ⟨htarget, fun h => absurd h hmotd, fun h => absurd h hmotd⟩
  · -- the name of the administration user is compared with the missing target
    refine iff_of_false ?_ fun h => htarget h.target
    obtain ⟨hadmin, hmsg, hargs⟩ : cfg.adminUser.isSome = true ∧
        baseEq (some cmd) (str "PRIVMSG") = true ∧ args = [] := by
      push Not at htarget
      exact htarget
    subst hargs
    obtain ⟨u, hu⟩ := Option.isSome_iff_exists.mp hadmin
    have admin : isAdminMessage cfg ⟨o, [cmd], e⟩ = true := by
      rw [isAdminMessage, hu]
      exact Bool.and_eq_true_iff.mpr ⟨hmsg, rfl⟩
    rw [if_pos admin, if_pos ⟨hadmin, hmsg⟩, respects_ok]
    simp [Proxy.given]

end

/-! ### Both directions -/

/-- What is given to the functions that need a string, or a line with the argument they index, is
one, if and only if the line has the arguments that are read of it. -/
theorem pipeline_respects_iff {p : Proxy} (stime : Str) (cfg : ProxyConfig) (nc : NetworkConfig)
    (n : IrcNetwork) (ctcp : IrcLine → Option (Str × Str)) (hasClients : Bool) (cache : CacheAnswers)
    (connection : Connection.ConnectionState) (l : IrcLine) (hp : p.nullGiven = false) :
    (Respects (processFromServer stime cfg nc n ctcp hasClients l p) ↔
      ∀ cmd args, l.args = cmd :: args → baseEq (some cmd) (str "PING") = false →
        baseEq (some cmd) (str "PONG") = false → ServerReady cfg nc n hasClients cmd args p) ∧
    (Respects (onTransportReceiveLine stime cfg nc n cache connection l p) ↔
      ∀ cmd args, l.args = cmd :: args → ClientReady cfg n connection l cmd args) :=
  ⟨processFromServer_respects stime cfg nc ctcp hasClients hp,
    onTransportReceiveLine_respects stime cfg nc cache connection hp⟩

/-- The time in front of every message, and an administration user. -/
def timedConfig : ProxyConfig where
  learnNickserv := true
  reportTime := .always
  adminUser := some (str "ctrlproxy")

/-- Nothing to send at the end of the MOTD. -/
def plainNetworkConfig : NetworkConfig where
  autocmd := []
  autojoin := []
  disableCache := false

/-- A line as it was read. -/
def lineOf (w : String) : IrcLine := (ircParseLine (str w)).getD ⟨none, [], .colonUnknown⟩

/-- The filter before any line. -/
def freshProxy : Proxy where
  nickservNicks := []
  nickattempt := none
  sent := []
  nullGiven := false

theorem pipeline_respects_iff_message :
    Respects (processFromServer (str "12:00:00") timedConfig plainNetworkConfig
      (namedNetwork "net" "me") (fun _ => none) true (lineOf ":al!u@h PRIVMSG #c :hello") freshProxy) ∧
    Respects (onTransportReceiveLine (str "12:00:00") timedConfig plainNetworkConfig
      (namedNetwork "net" "me") ⟨fun _ => false, nofun⟩ .motdRecvd (lineOf ":al!u@h PRIVMSG #c :hello")
      freshProxy) := by
  have line : (lineOf ":al!u@h PRIVMSG #c :hello").args = [str "PRIVMSG", str "#c", str "hello"] := by
    decide +kernel
  obtain ⟨server, client⟩ := pipeline_respects_iff (p := freshProxy) (str "12:00:00") timedConfig
    plainNetworkConfig (namedNetwork "net" "me") (fun _ => none) true ⟨fun _ => false, nofun⟩
    .motdRecvd (lineOf ":al!u@h PRIVMSG #c :hello") rfl
  refine ⟨server.mpr fun cmd args h _ _ => ?_, client.mpr fun cmd args h => ?_⟩
  · obtain ⟨rfl, rfl⟩ := List.cons.inj (line.symm.trans h)
    exact ⟨fun _ _ _ hw => absurd hw List.not_mem_nil, fun _ _ _ ha => absurd rfl ha,
      fun _ _ _ _ => le_rfl⟩
  · obtain ⟨rfl, rfl⟩ := List.cons.inj (line.symm.trans h)
    exact clientReady_of_text (w := str "PRIVMSG") le_rfl (by decide +kernel) sameWord_privmsg_ns

/-- What a run leaves says that `NULL` was given. -/
theorem not_respects_of_run {x : Except Fault Proxy} {v : Except Fault Bool}
    (run : x.map (·.nullGiven) = v) (hv : v ≠ .ok false) : ¬ Respects x := by
  rintro ⟨r, rfl, hr⟩
  refine hv (run.symm.trans ?_)
  rw [← hr]
  rfl

/-- A message without a text from the server, when the time goes in front, and one without a target
from a client. -/
theorem short_messages_given :
    (¬ ∀ (stime : Str) (cfg : ProxyConfig) (nc : NetworkConfig) (n : IrcNetwork)
      (ctcp : IrcLine → Option (Str × Str)) (hasClients : Bool) (l : IrcLine) (p : Proxy),
      p.nullGiven = false → Respects (processFromServer stime cfg nc n ctcp hasClients l p)) ∧
    ¬ ∀ (stime : Str) (cfg : ProxyConfig) (nc : NetworkConfig) (n : IrcNetwork) (cache : CacheAnswers)
      (connection : Connection.ConnectionState) (l : IrcLine) (p : Proxy),
      p.nullGiven = false → Respects (onTransportReceiveLine stime cfg nc n cache connection l p) := by
  refine ⟨fun claim => ?_, fun claim => ?_⟩
  · refine @not_respects_of_run (processFromServer [] timedConfig plainNetworkConfig
      (namedNetwork "net" "me") (fun _ => none) true (lineOf ":al!u@h PRIVMSG #c") freshProxy)
      (.error .null) (by decide +kernel) (by decide) ?_
    exact claim [] timedConfig plainNetworkConfig (namedNetwork "net" "me") (fun _ => none) true
      (lineOf ":al!u@h PRIVMSG #c") freshProxy rfl
  · refine @not_respects_of_run (onTransportReceiveLine [] timedConfig plainNetworkConfig
      (namedNetwork "net" "me") ⟨fun _ => false, nofun⟩ .motdRecvd (lineOf "PRIVMSG") freshProxy)
      (.ok true) (by decide +kernel) (by decide) ?_
    exact claim [] timedConfig plainNetworkConfig (namedNetwork "net" "me") ⟨fun _ => false, nofun⟩
      .motdRecvd (lineOf "PRIVMSG") freshProxy rfl

end Ctrlproxy
