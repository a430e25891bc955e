import Ctrlproxy.Client.Replace
import Ctrlproxy.Proxy.Backlog
import Ctrlproxy.Redirect.Stack

/-!
# Proxy — one server, many clients

What a network that has received its MOTD hands to its clients: the lines of the server
(`process_from_server`, and `redirect_response` of `src/redirect.c`), the messages of each client for
the others (`network_forward_line`), and what the proxy tells a client of its own.  Clients come and
go.

What this is for is one list of posts, each for all clients, for all but one or for one of them
(`Post`).  `reachable_streams` says that every client is sent the posts for it, from the first after it
came, in their order and once each, whatever happens in between.  A line may be shown with the
client's own hostmask in the place of the network's (`Shown`).

Left out: the filters and the log, which see a line and let it pass, what is sent to the server, and
lines whose vector does not have the length it says (`Client/Replace.lean`).
-/

namespace Ctrlproxy.Hub
open Outcome Redirect

/-! ### The network -/

/-- A network with its clients, by number; the objects of clients that left are still there, since the
query stack may know them. -/
structure Network where
  clients : List ℕ
  objects : ℕ → Client
  count : ℕ
  queries : QueryStack ℕ
  info : NetworkInfo
  externalState : NetworkState

def Network.setClient (n : Network) (i : ℕ) (c : Client) : Network :=
  { n with objects := Function.update n.objects i c }

/-- The handlers of `response_handler`: they write to the log. -/
def responseHandler : List ℤ := [464, 462, 463, 451, 465]

/-- `response_all`. -/
def responseAll : List ℤ :=
  [306, 305, 487, 396, 477, 221, 8, 251, 252, 253, 254, 255, 487, 265, 266, 353, 366, 332, 333, 328, 329,
    901]

/-- `response_none`. -/
def responseNone : List ℤ := [422, 375, 372, 376]

section
variable (now : Long)

/-- `client_forward_from_server`: the line as it is then, and the client. -/
def clientForwardFromServer (n : Network) (c : Client) (l : IrcLine) :
    Except Fault (IrcLine × Client) := do
  let me ← n.externalState.nick meRef
  match c.state with
  | none => .error .null
  | some s => do
      let own ← s.nick meRef
      let (l, nl) ← ircLineReplaceHostmask l (some n.info) me own
      match nl with
      | some nl =>
          if nl.argc = nl.line.args.length then do
            let (_, c) ← clientSendLine now c nl.line
            pure (l, c)
          else .error .overread
      | none => do
          let (ret, c) ← clientSendLine now c l
          pure (if ret then strippedLine l else l, c)

/-- `clients_send` from the clients `is` on. -/
def clientsSend (except : Option ℕ) : List ℕ → IrcLine → Network → Except Fault Network
  | [], _, n => .ok n
  | i :: is, l, n =>
      if except = some i then clientsSend except is l n
      else do
        let (l, c) ← clientForwardFromServer now n (n.objects i) l
        clientsSend except is l (n.setClient i c)

/-- `clients_send_state` from the clients `is` on. -/
def clientsSendState : List ℕ → Network → Except Fault (Bool × Network)
  | [], n => .ok (true, n)
  | i :: is, n => do
      let (ret, c) ← clientSendState now (n.objects i) n.externalState
      let n := n.setClient i c
      if ret then clientsSendState is n else pure (false, n)

/-- `redirect_response`. -/
def redirectResponse (n : Network) (l : IrcLine) : Except Fault (Bool × Network) := do
  let (c, queries) ← queryStackMatchResponse n.queries l
  let n := { n with queries := queries }
  match c with
  | some i => do
      let (_, c) ← clientSendLine now (n.objects i) l
      pure (true, n.setClient i c)
  | none =>
      let response := ircLineRespcode l
      if response ∈ responseAll then do
        let n ← clientsSend now none n.clients l n
        pure (false, n)
      else if response ∈ responseNone then pure (true, n)
      else if response ∈ responseHandler then pure (true, n)
      else do
        let n ← clientsSend now none n.clients l n
        pure (false, n)

/-- The end of the MOTD is recognised by its number. -/
def EndsMotd (l : IrcLine) : Prop :=
  baseEq l.args[0]? (str "ERROR") = false ∧ (ircLineRespcode l = 376 ∨ ircLineRespcode l = 422)

instance (l : IrcLine) : Decidable (EndsMotd l) := inferInstanceAs (Decidable (_ ∧ _))

/-- What `process_from_server` does for the clients at the end of the MOTD. -/
def endOfMotd (n : Network) (l : IrcLine) : Except Fault Network :=
  if EndsMotd l then do
    let n := { n with info := networkUpdateIsupport n.info n.externalState.info }
    let (_, n) ← clientsSendState now n.clients n
    pure n
  else .ok n

/-- Lines the server and the proxy keep their connection alive with. -/
def KeepsAlive (l : IrcLine) : Prop :=
  baseEq l.args[0]? (str "PING") = true ∨ baseEq l.args[0]? (str "PONG") = true

instance (l : IrcLine) : Decidable (KeepsAlive l) := inferInstanceAs (Decidable (_ ∨ _))

/-- The line is a message that is shown with its time. -/
def Timed (reportTime : ReportTime) (l : IrcLine) : Prop :=
  l.args[0]? = some (str "PRIVMSG") ∧ reportTime = .always

instance (reportTime : ReportTime) (l : IrcLine) : Decidable (Timed reportTime l) :=
  inferInstanceAs (Decidable (_ ∧ _))

/-- `process_from_server`; `stime` is the time as `strftime` writes it. -/
def processFromServer (stime : Str) (reportTime : ReportTime) (n : Network) (l : IrcLine) :
    Except Fault Network :=
  if l.argc = 0 then .ok n
  else do
    let (_, externalState) ← stateHandleData now n.externalState l
    let n := { n with externalState := externalState }
    let l := strippedLine l
    if KeepsAlive l then pure n
    else do
      let n ← endOfMotd now n l
      if ircLineRespcode l ≠ 0 then do
        let (_, n) ← redirectResponse now n l
        pure n
      -- the proxy answers CTCP requests itself
      else if n.clients = [] then pure n
      else if Timed reportTime l then do
        let nl ← linePrefixTime stime l
        clientsSend now none n.clients nl n
      else clientsSend now none n.clients l n

/-- The copy of a message that `network_forward_line` makes for the other clients. -/
def forwardedCopy (stime : Str) (reportTime : ReportTime) (n : Network) (l : IrcLine) :
    Except Fault IrcLine := do
  let me ← n.externalState.nick meRef
  let nl := { l with origin := me.hostmask }
  if reportTime = .always then linePrefixTime stime nl else pure nl

/-- The other clients see a message of a client. -/
def showOthers (stime : Str) (reportTime : ReportTime) (n : Network) (c : ℕ) (l : IrcLine)
    (isPrivate : Bool) : Except Fault Network :=
  if isPrivate = false ∧ IsMessage l then do
    let nl ← forwardedCopy stime reportTime n l
    clientsSend now (some c) n.clients nl n
  else .ok n

/-- `network_forward_line` for a line of the client `c`. -/
def networkForwardLine (stime : Str) (reportTime : ReportTime) (n : Network) (c : ℕ) (l : IrcLine)
    (isPrivate : Bool) : Except Fault Network := do
  let n ← showOthers now stime reportTime n c l isPrivate
  let (_, queries) ← queryStackRecord n.queries c l
  pure { n with queries := queries }

/-- `client_send_line`, for lines of the proxy's own. -/
def sendOwn (c : Client) (ls : List IrcLine) : Except Fault Client :=
  ls.foldlM (fun c l => (clientSendLine now c l).map Prod.snd) c

end

/-! ### Posts -/

/-- Whom a line is for. -/
inductive Audience where
  | all
  | allBut (c : ℕ)
  | only (c : ℕ)
  | nobody
  deriving DecidableEq

def Audience.has : Audience → ℕ → Bool
  | .all, _ => true
  | .allBut c, i => decide (i ≠ c)
  | .only c, i => decide (i = c)
  | .nobody, _ => false

/-- A line for some clients. -/
structure Post where
  audience : Audience
  line : IrcLine

/-- Numerics that tell the host of a user. -/
def TellsHost (l : IrcLine) : Prop := ircLineRespcode l ∈ [(302 : ℤ), 352, 311, 314]

/-- A line as it is shown to a client: with its arguments as they are, but for a user and a host in
the numerics that tell them. -/
structure Shown (l l' : IrcLine) : Prop where
  command : l'.args.head? = l.args.head?
  args : l'.args = l.args ∨ TellsHost l

/-- The posts for a client. -/
def postsFor (i : ℕ) (posts : List Post) : List IrcLine :=
  (posts.filter fun p => p.audience.has i).map Post.line

/-- Whom a numeric is for: who asked for it, or everybody, unless the proxy keeps it. -/
def audienceOf (queries : QueryStack ℕ) (l : IrcLine) : Audience :=
  match queries.entries.find? fun e => e.query.lists (ircLineRespcode l) with
  | some e => .only e.userdata
  | none =>
      if ircLineRespcode l ∈ responseNone ∨ ircLineRespcode l ∈ responseHandler then .nobody else .all

/-! ### Runs -/

inductive Event where
  /-- a client is welcomed -/
  | attach (c : Client)
  /-- a client leaves, or is lost -/
  | detach (i : ℕ)
  /-- a line comes from the server -/
  | fromServer (now : Long) (stime : Str) (reportTime : ReportTime) (l : IrcLine)
  /-- a line of a client goes to the server -/
  | forward (now : Long) (stime : Str) (reportTime : ReportTime) (i : ℕ) (l : IrcLine) (isPrivate : Bool)
  /-- the proxy tells a client something of its own -/
  | told (now : Long) (i : ℕ) (ls : List IrcLine)

/-- A network, the posts so far, how many there were when a client came, and how many lines it had been
sent then. -/
structure Run where
  network : Network
  posts : List Post
  since : ℕ → ℕ
  before : ℕ → ℕ

namespace Run

/-- No client. -/
def start (info : NetworkInfo) (externalState : NetworkState) : Run where
  network := ⟨[], fun _ => ⟨false, none, none, []⟩, 0, newQueryStack ℕ, info, externalState⟩
  posts := []
  since := fun _ => 0
  before := fun _ => 0

/-- What a client was told by the proxy itself. -/
def ownPosts (before after : Client) (i : ℕ) : List Post :=
  (after.sent.drop before.sent.length).map fun l => ⟨.only i, l.2⟩

/-- The posts that a line of the server makes; at the end of the MOTD every client is told the
state before. -/
def postsOfLine (now : Long) (stime : Str) (reportTime : ReportTime) (n : Network) (l : IrcLine) :
    Except Fault (List Post) :=
  if l.argc = 0 then .ok []
  else do
    let (_, externalState) ← stateHandleData now n.externalState l
    let n := { n with externalState := externalState }
    let l := strippedLine l
    if KeepsAlive l then pure []
    else do
      let n' ← endOfMotd now n l
      let own := n.clients.flatMap fun i => ownPosts (n.objects i) (n'.objects i) i
      if ircLineRespcode l ≠ 0 then pure (own ++ [⟨audienceOf n'.queries l, l⟩])
      else if n'.clients = [] then pure own
      else if Timed reportTime l then do
        let nl ← linePrefixTime stime l
        pure (own ++ [⟨.all, nl⟩])
      else pure (own ++ [⟨.all, l⟩])

/-- The post that a line of a client makes: a message is for the others. -/
def postsOfForward (stime : Str) (reportTime : ReportTime) (n : Network) (i : ℕ) (l : IrcLine)
    (isPrivate : Bool) : Except Fault (List Post) :=
  if isPrivate = false ∧ IsMessage l then do
    let nl ← forwardedCopy stime reportTime n l
    pure [⟨.allBut i, nl⟩]
  else .ok []

def step (r : Run) : Event → Except Fault Run
  | .attach c => .ok
      { network :=
          { r.network with
            clients := r.network.clients ++ [r.network.count]
            objects := Function.update r.network.objects r.network.count c
            count := r.network.count + 1 }
        posts := r.posts
        since := Function.update r.since r.network.count r.posts.length
        before := Function.update r.before r.network.count c.sent.length }
  | .detach i => .ok { r with
      network := { r.network.setClient i { r.network.objects i with connected := false } with
        clients := r.network.clients.erase i } }
  | .fromServer now stime reportTime l => do
      let posts ← postsOfLine now stime reportTime r.network l
      let n ← processFromServer now stime reportTime r.network l
      pure { r with network := n, posts := r.posts ++ posts }
  | .forward now stime reportTime i l isPrivate => do
      let posts ← postsOfForward stime reportTime r.network i l isPrivate
      let n ← networkForwardLine now stime reportTime r.network i l isPrivate
      pure { r with network := n, posts := r.posts ++ posts }
  | .told now i ls => do
      let c ← sendOwn now (r.network.objects i) ls
      pure { r with
        network := r.network.setClient i c
        posts := r.posts ++ ownPosts (r.network.objects i) c i }

/-- A client that is welcomed takes lines; lines come from a client that is there. -/
def Admits (r : Run) : Event → Prop
  | .attach c => c.Attached
  | .forward _ _ _ i _ _ | .told _ i _ => i ∈ r.network.clients
  | _ => True

/-- What a client was sent since it came. -/
def stream (r : Run) (i : ℕ) : List IrcLine :=
  ((r.network.objects i).sent.drop (r.before i)).map Prod.snd

/-- The posts there were for a client since it came. -/
def letters (r : Run) (i : ℕ) : List IrcLine := postsFor i (r.posts.drop (r.since i))

end Run

/-! ### Lines as they are shown -/

section
variable {l l' l'' : IrcLine}

theorem Shown.refl (l : IrcLine) : Shown l l := ⟨rfl, .inl rfl⟩

/-- The number of a line is in its command. -/
theorem respcode_congr (h : l'.args.head? = l.args.head?) : ircLineRespcode l' = ircLineRespcode l := by
  cases hl : l.args with
  | nil =>
      rw [hl, List.head?_nil, List.head?_eq_none_iff] at h
      rw [ircLineRespcode, ircLineRespcode, hl, h]
  | cons a as =>
      rw [hl, List.head?_cons] at h
      obtain ⟨as', h⟩ := List.head?_eq_some_iff.mp h
      rw [ircLineRespcode, ircLineRespcode, hl, h]

theorem Shown.trans (h : Shown l l') (h' : Shown l' l'') : Shown l l'' := by
  refine ⟨h'.command.trans h.command, ?_⟩
  rcases h'.args with h' | h'
  · rcases h.args with h | h
    · exact .inl (h'.trans h)
    · exact .inr h
  · rw [TellsHost, respcode_congr h.command] at h'
    exact .inr h'

theorem TellsHost.args_ne_nil (h : TellsHost l) : l.args ≠ [] := by
  intro hl
  rw [TellsHost, ircLineRespcode, hl] at h
  simp at h

/-- An argument behind the command, in a numeric that tells a host. -/
theorem DupLine.shown_setArg {d : DupLine} {i : ℕ} {v : Option Str} (hl : TellsHost l)
    (h : Shown l d.line) (hi : i ≠ 0) : Shown l (d.setArg i v).line := by
  refine ⟨Eq.trans ?_ h.command, .inr hl⟩
  obtain ⟨k, rfl⟩ := Nat.exists_eq_succ_of_ne_zero hi
  obtain ⟨a, as, hargs⟩ : ∃ a as, d.line.args = a :: as := by
    cases hd : d.line.args with
    | nil =>
        have hnil := h.command
        rw [hd, List.head?_nil, eq_comm, List.head?_eq_none_iff] at hnil
        exact absurd hnil hl.args_ne_nil
    | cons a as => exact ⟨a, as, rfl⟩
  unfold DupLine.setArg
  dsimp only
  rw [hargs]
  cases v <;> rfl

theorem shown_set {i : ℕ} {w : Str} (hl : TellsHost l) (hi : i ≠ 0) :
    Shown l { l with args := l.args.set i w } := by
  refine ⟨?_, .inr hl⟩
  obtain ⟨k, rfl⟩ := Nat.exists_eq_succ_of_ne_zero hi
  cases l.args <;> rfl

/-- A line with another origin is shown as it is. -/
theorem shown_origin (o : Option Str) : Shown l { l with origin := o } := ⟨rfl, .inl rfl⟩

/-- A word without letters has one spelling. -/
theorem baseEq_digits {cmd w : Str} (hw : ∀ d ∈ w, d.1 < 65) (h : baseEq (some cmd) w = true) :
    cmd = w := by
  have hmap : cmd.map Byte.lower = w.map Byte.lower := by simpa [baseEq] using h
  have hlower : ∀ b d : Byte, d.1 < 65 → b.lower = d.lower → b = d := by
    intro b d hd he
    have hd' : d.lower = d := dif_neg (by omega)
    rw [hd', Byte.lower] at he
    split at he
    · have := congrArg Subtype.val he
      dsimp only at this
      omega
    · exact he
  induction w generalizing cmd with
  | nil => exact List.map_eq_nil_iff.mp hmap
  | cons d w ih =>
      cases cmd with
      | nil => cases hmap
      | cons b cmd =>
          rw [List.map_cons, List.map_cons, List.cons.injEq] at hmap
          have hrest : cmd = w := ih (fun d hd => hw d (List.mem_cons_of_mem _ hd))
            (by simpa [baseEq] using hmap.2) hmap.2
          rw [hlower b d (hw d List.mem_cons_self) hmap.1, hrest]

/-- The command of a 302 reply. -/
theorem respcode_c302 (h : commandOf l = some .c302) : ircLineRespcode l = 302 := by
  have hrow : ∀ e ∈ ircCommands, e.2.2 = .c302 → e.1 = str "302" := by decide
  have hdigits : ∀ d ∈ str "302", d.1 < 65 := by decide
  have hcode : atoi (str "302") = 302 := by decide
  rw [commandOf] at h
  split at h
  · cases h
  next cmd args hargs =>
  split at h
  · cases h
  next name minArgs k hfind =>
  split at h
  · have he := hrow _ (List.mem_of_find?_eq_some hfind) (Option.some.inj h)
    have hcmd := List.find?_some hfind
    dsimp only at he hcmd
    rw [he] at hcmd
    rw [ircLineRespcode, hargs, baseEq_digits hdigits hcmd]
    exact hcode
  · cases h

/-- Only a 302 is stripped. -/
theorem shown_strippedLine (l : IrcLine) : Shown l (strippedLine l) := by
  rw [strippedLine]
  split
  · next hk =>
    refine ⟨?_, .inr (by rw [TellsHost, respcode_c302 hk]; simp)⟩
    dsimp only
    cases l.args <;> rfl
  · exact .refl l

/-- What is made of a line shows the line. -/
theorem ircLineReplaceHostmask_shown {info : Option NetworkInfo} {old new : NetworkNick}
    {r : IrcLine × Option DupLine} (h : ircLineReplaceHostmask l info old new = .ok r) :
    Shown l r.1 ∧ ∀ d ∈ r.2, Shown l d.line := by
  have same : ∀ r : IrcLine × Option DupLine, (pure (l, none) : Except Fault _) = .ok r →
      Shown l r.1 ∧ ∀ d ∈ r.2, Shown l d.line := by
    intro r hr
    cases hr
    exact ⟨.refl l, fun d hd => by cases hd⟩
  obtain ⟨eq, -, h⟩ := bind_eq_ok h
  split at h
  · exact same r h
  obtain ⟨own, -, h⟩ := bind_eq_ok h
  split at h
  · cases h
    exact ⟨.refl l, fun d hd => by cases hd; exact shown_origin _⟩
  split at h
  · next h302 =>
    have ht : TellsHost l := by rw [TellsHost, h302]; simp
    obtain ⟨list, -, h⟩ := bind_eq_ok h
    dsimp only at h
    split at h
    · cases h
    split at h
    · obtain ⟨users, -, h⟩ := bind_eq_ok h
      cases h
      have hstrip : Shown l { l with args := l.args.set 2 (gStrstrip list) } := shown_set ht (by simp)
      refine ⟨hstrip, fun d hd => ?_⟩
      cases hd
      exact DupLine.shown_setArg ht hstrip (by simp)
    · exact same r h
  have named : ∀ (hin : TellsHost l) (r : IrcLine × Option DupLine),
      (pure (l, some (((linedup l).setArg 4 new.hostname).setArg 3 new.username)) : Except Fault _) =
        .ok r → Shown l r.1 ∧ ∀ d ∈ r.2, Shown l d.line := by
    intro hin r hr
    cases hr
    refine ⟨.refl l, fun d hd => ?_⟩
    cases hd
    exact DupLine.shown_setArg hin (DupLine.shown_setArg hin (.refl l) (by simp)) (by simp)
  split at h
  · next h352 =>
    split at h
    · obtain ⟨nick, -, h⟩ := bind_eq_ok h
      obtain ⟨eq, -, h⟩ := bind_eq_ok h
      split at h
      · exact named (by rw [TellsHost, h352]; simp) r h
      · exact same r h
    · exact same r h
  split at h
  · next h311 =>
    split at h
    · obtain ⟨nick, -, h⟩ := bind_eq_ok h
      obtain ⟨eq, -, h⟩ := bind_eq_ok h
      split at h
      · refine named ?_ r h
        rcases h311 with h311 | h311
        · rw [TellsHost, h311]; simp
        · rw [TellsHost, h311]; simp
      · exact same r h
    · exact same r h
  · exact same r h

end

/-! ### What the clients are sent -/

/-- From `n` to `n'` the clients are sent what the posts say, and go on taking lines. -/
structure Posted (n n' : Network) (posts : List Post) : Prop where
  clients : n'.clients = n.clients
  count : n'.count = n.count
  sent : ∀ i ∈ n.clients, (n'.objects i).Attached ∧ ∃ more, (n'.objects i).sent =
    (n.objects i).sent ++ more ∧ List.Forall₂ Shown (postsFor i posts) (more.map Prod.snd)

section
variable {n n' n'' : Network} {posts posts' : List Post} {now : Long} {l : IrcLine} {i : ℕ}

theorem postsFor_append (i : ℕ) (posts posts' : List Post) :
    postsFor i (posts ++ posts') = postsFor i posts ++ postsFor i posts' := by
  rw [postsFor, List.filter_append, List.map_append]
  rfl

theorem Posted.nothing (h : ∀ i ∈ n.clients, (n.objects i).Attached) : Posted n n [] :=
  ⟨rfl, rfl, fun i hi => ⟨h i hi, [], (List.append_nil _).symm, .nil⟩⟩

theorem Posted.trans (h : Posted n n' posts) (h' : Posted n' n'' posts') :
    Posted n n'' (posts ++ posts') := by
  refine ⟨h'.clients.trans h.clients, h'.count.trans h.count, fun i hi => ?_⟩
  obtain ⟨-, more, hmore, hposts⟩ := h.sent i hi
  obtain ⟨hatt, more', hmore', hposts'⟩ := h'.sent i (h.clients ▸ hi)
  refine ⟨hatt, more ++ more', ?_, ?_⟩
  · rw [hmore', hmore, List.append_assoc]
  · rw [postsFor_append, List.map_append]
    exact List.rel_append hposts hposts'

/-- What the clients are sent does not depend on the rest of the network. -/
theorem Posted.congr (h : Posted n n' posts) {m m' : Network} (hc : m.clients = n.clients)
    (hk : m.count = n.count) (ho : m.objects = n.objects) (hc' : m'.clients = n'.clients)
    (hk' : m'.count = n'.count) (ho' : m'.objects = n'.objects) : Posted m m' posts := by
  refine ⟨by rw [hc', hc, h.clients], by rw [hk', hk, h.count], fun i hi => ?_⟩
  rw [ho', ho]
  exact h.sent i (hc ▸ hi)

/-- A client that is there is sent a line. -/
theorem clientSendLine_shown {c c' : Client} {ret : Bool} (hc : c.Attached)
    (h : clientSendLine now c l = .ok (ret, c')) :
    ret = true ∧ c'.Attached ∧ c'.sent = c.sent ++ [(now, strippedLine l)] := by
  obtain ⟨s, hs⟩ := Option.ne_none_iff_exists'.mp hc.state
  obtain ⟨s', -, rfl, rfl⟩ := clientSendLine_inv hc.connected hs h
  exact ⟨rfl, ⟨hc.connected, Option.some_ne_none s'⟩, rfl⟩

/-- `client_forward_from_server`: the client is shown the line, and what it leaves of the line shows
it. -/
theorem clientForwardFromServer_shown {c c' : Client} {l' : IrcLine} (hc : c.Attached)
    (h : clientForwardFromServer now n c l = .ok (l', c')) :
    Shown l l' ∧ c'.Attached ∧ ∃ x, c'.sent = c.sent ++ [(now, x)] ∧ Shown l x := by
  obtain ⟨me, -, h⟩ := bind_eq_ok h
  split at h
  · cases h
  obtain ⟨own, -, h⟩ := bind_eq_ok h
  obtain ⟨⟨l₁, nl⟩, hrep, h⟩ := bind_eq_ok h
  obtain ⟨hl₁, hnl⟩ := ircLineReplaceHostmask_shown hrep
  dsimp only at h hl₁ hnl
  split at h
  · next nl =>
    split at h
    · obtain ⟨⟨ret, c₁⟩, hsend, h⟩ := bind_eq_ok h
      cases h
      obtain ⟨-, hatt, hsent⟩ := clientSendLine_shown hc hsend
      exact ⟨hl₁, hatt, _, hsent, (hnl nl rfl).trans (shown_strippedLine _)⟩
    · cases h
  · obtain ⟨⟨ret, c₁⟩, hsend, h⟩ := bind_eq_ok h
    cases h
    obtain ⟨rfl, hatt, hsent⟩ := clientSendLine_shown hc hsend
    exact ⟨hl₁.trans (shown_strippedLine _), hatt, _, hsent, hl₁.trans (shown_strippedLine _)⟩

theorem setClient_of_ne {j : ℕ} {c : Client} (h : j ≠ i) : (n.setClient i c).objects j = n.objects j :=
  Function.update_of_ne h _ _

theorem setClient_same {c : Client} : (n.setClient i c).objects i = c := Function.update_self ..

/-- `clients_send`, to each client at most once. -/
theorem clientsSend_sent {except : Option ℕ} {is : List ℕ} (hnd : is.Nodup)
    (hatt : ∀ i ∈ is, (n.objects i).Attached) (h : clientsSend now except is l n = .ok n') :
    n'.clients = n.clients ∧ n'.count = n.count ∧
      (∀ i, i ∉ is ∨ except = some i → n'.objects i = n.objects i) ∧
      ∀ i ∈ is, except ≠ some i → (n'.objects i).Attached ∧
        ∃ x, (n'.objects i).sent = (n.objects i).sent ++ [(now, x)] ∧ Shown l x := by
  induction is generalizing l n with
  | nil =>
      cases h
      exact ⟨rfl, rfl, fun _ _ => rfl, fun _ hi => by cases hi⟩
  | cons j is ih =>
      obtain ⟨hj, hnd⟩ := List.nodup_cons.mp hnd
      rw [clientsSend] at h
      split at h
      · next hex =>
        obtain ⟨hc, hk, hkept, hsent⟩ := ih hnd (fun i hi => hatt i (List.mem_cons_of_mem _ hi)) h
        refine ⟨hc, hk, fun i hi => hkept i ?_, fun i hi hne => ?_⟩
        · exact hi.imp_left fun hi hmem => hi (List.mem_cons_of_mem _ hmem)
        · rcases List.mem_cons.mp hi with rfl | hi
          · exact absurd hex hne
          · exact hsent i hi hne
      · next hex =>
        obtain ⟨⟨l₁, c⟩, hfwd, h⟩ := bind_eq_ok h
        obtain ⟨hl₁, hcatt, x, hx, hshown⟩ :=
          clientForwardFromServer_shown (hatt j List.mem_cons_self) hfwd
        have hother : ∀ i ∈ is, (n.setClient j c).objects i = n.objects i := fun i hi =>
          setClient_of_ne fun he => hj (he ▸ hi)
        obtain ⟨hc, hk, hkept, hsent⟩ := ih hnd (fun i hi => by
          rw [hother i hi]
          exact hatt i (List.mem_cons_of_mem _ hi)) h
        refine ⟨hc, hk, fun i hi => ?_, fun i hi hne => ?_⟩
        · have hij : i ≠ j := by
            rintro rfl
            rcases hi with hi | hi
            · exact hi List.mem_cons_self
            · exact hex hi
          rw [hkept i (hi.imp_left fun hi hmem => hi (List.mem_cons_of_mem _ hmem)),
            setClient_of_ne hij]
        · rcases List.mem_cons.mp hi with rfl | hi
          · rw [hkept i (.inl hj), setClient_same]
            exact ⟨hcatt, x, hx, hshown⟩
          · obtain ⟨hatt', y, hy, hshown'⟩ := hsent i hi hne
            rw [hother i hi] at hy
            exact ⟨hatt', y, hy, hl₁.trans hshown'⟩

/-- A line for all clients but one. -/
theorem clientsSend_posted {a : Audience} {except : Option ℕ} (hnd : n.clients.Nodup)
    (hatt : ∀ i ∈ n.clients, (n.objects i).Attached)
    (haud : ∀ i, a.has i = decide (except ≠ some i))
    (h : clientsSend now except n.clients l n = .ok n') : Posted n n' [⟨a, l⟩] := by
  obtain ⟨hc, hk, hkept, hsent⟩ := clientsSend_sent hnd hatt h
  refine ⟨hc, hk, fun i hi => ?_⟩
  have hposts : postsFor i [⟨a, l⟩] = if except ≠ some i then [l] else [] := by
    rw [postsFor, List.filter_cons, haud]
    by_cases he : except = some i
    · simp [he]
    · simp [he]
  rw [hposts]
  by_cases he : except = some i
  · rw [if_neg (not_not.mpr he), hkept i (.inr he)]
    exact ⟨hatt i hi, [], (List.append_nil _).symm, .nil⟩
  · rw [if_pos he]
    obtain ⟨hatt', x, hx, hshown⟩ := hsent i hi he
    exact ⟨hatt', _, hx, .cons hshown .nil⟩

/-- A change of one client. -/
theorem posted_one {c : Client} (hatt : ∀ i ∈ n.clients, (n.objects i).Attached)
    (honly : ∀ j, j ≠ i → postsFor j posts = [])
    (hc : i ∈ n.clients → c.Attached ∧ ∃ more, c.sent = (n.objects i).sent ++ more ∧
      List.Forall₂ Shown (postsFor i posts) (more.map Prod.snd)) :
    Posted n (n.setClient i c) posts := by
  refine ⟨rfl, rfl, fun j hj => ?_⟩
  by_cases hji : j = i
  · subst hji
    rw [setClient_same]
    exact hc hj
  · rw [setClient_of_ne hji, honly j hji]
    exact ⟨hatt j hj, [], (List.append_nil _).symm, .nil⟩

/-- A line for one client. -/
theorem clientSendLine_posted {c : Client} {ret : Bool}
    (hatt : ∀ i ∈ n.clients, (n.objects i).Attached)
    (h : clientSendLine now (n.objects i) l = .ok (ret, c)) :
    Posted n (n.setClient i c) [⟨.only i, l⟩] := by
  refine posted_one hatt (fun j hj => ?_) fun hi => ?_
  · simp [postsFor, Audience.has, hj]
  · obtain ⟨-, hatt', hsent⟩ := clientSendLine_shown (hatt i hi) h
    refine ⟨hatt', _, hsent, ?_⟩
    simpa [postsFor, Audience.has] using shown_strippedLine l

theorem postsFor_only (j : ℕ) (sent : List (Long × IrcLine)) :
    postsFor j (sent.map fun l => ⟨.only i, l.2⟩) = if j = i then sent.map Prod.snd else [] := by
  induction sent with
  | nil => simp [postsFor]
  | cons x sent ih =>
      rw [List.map_cons, ← List.singleton_append, postsFor_append, ih]
      by_cases hj : j = i
      · simp [postsFor, Audience.has, hj]
      · simp [postsFor, Audience.has, hj]

theorem postsFor_ownPosts (j : ℕ) (c c' : Client) :
    postsFor j (Run.ownPosts c c' i) =
      if j = i then (c'.sent.drop c.sent.length).map Prod.snd else [] :=
  postsFor_only j _

theorem forall₂_shown_refl (ls : List IrcLine) : List.Forall₂ Shown ls ls :=
  List.forall₂_same.mpr fun l _ => .refl l

/-- Lines of the proxy's own, for one client. -/
theorem ownPosts_posted {c : Client} (hatt : ∀ i ∈ n.clients, (n.objects i).Attached)
    (hc : i ∈ n.clients → c.Attached ∧ (n.objects i).sent <+: c.sent) :
    Posted n (n.setClient i c) (Run.ownPosts (n.objects i) c i) := by
  refine posted_one hatt (fun j hj => ?_) fun hi => ?_
  · rw [postsFor_ownPosts, if_neg hj]
  · obtain ⟨hcatt, more, hmore⟩ := hc hi
    refine ⟨hcatt, more, hmore.symm, ?_⟩
    rw [postsFor_ownPosts, if_pos rfl, ← hmore, List.drop_left]
    exact forall₂_shown_refl _

theorem ownPosts_same (c : Client) (i : ℕ) : Run.ownPosts c c i = [] := by
  rw [Run.ownPosts, List.drop_length, List.map_nil]

/-- `clients_send_state`. -/
theorem clientsSendState_posted {is : List ℕ} {ret : Bool} (hnd : is.Nodup)
    (hin : ∀ i ∈ is, i ∈ n.clients) (hatt : ∀ i ∈ n.clients, (n.objects i).Attached)
    (h : clientsSendState now is n = .ok (ret, n')) :
    (∀ i, i ∉ is → n'.objects i = n.objects i) ∧
      n' = { n with objects := n'.objects } ∧
      Posted n n' (is.flatMap fun i => Run.ownPosts (n.objects i) (n'.objects i) i) := by
  induction is generalizing n with
  | nil =>
      cases h
      exact ⟨fun _ _ => rfl, rfl, .nothing hatt⟩
  | cons j is ih =>
      obtain ⟨hj, hnd⟩ := List.nodup_cons.mp hnd
      obtain ⟨⟨ret₁, c⟩, hsend, h⟩ := bind_eq_ok h
      have hjn : j ∈ n.clients := hin j List.mem_cons_self
      obtain ⟨hcatt, hpre⟩ := (clientSendState_tells (hatt j hjn) : Ensures _ _ _).of_ok hsend
      have hfirst : Posted n (n.setClient j c) (Run.ownPosts (n.objects j) c j) :=
        ownPosts_posted hatt fun _ => ⟨hcatt, hpre⟩
      have hother : ∀ i ∈ is, (n.setClient j c).objects i = n.objects i := fun i hi =>
        setClient_of_ne fun he => hj (he ▸ hi)
      dsimp only at h
      split at h
      · obtain ⟨hkept, hobj, hposted⟩ := ih (n := n.setClient j c) hnd
          (fun i hi => hin i (List.mem_cons_of_mem _ hi)) (fun i hi => (hfirst.sent i hi).1) h
        refine ⟨fun i hi => ?_, hobj, ?_⟩
        · rw [hkept i fun hmem => hi (List.mem_cons_of_mem _ hmem),
            setClient_of_ne fun he => hi (List.mem_cons.mpr (.inl he))]
        · rw [List.flatMap_cons, hkept j hj, setClient_same]
          have hrest : (is.flatMap fun i => Run.ownPosts (n.objects i) (n'.objects i) i) =
              is.flatMap fun i =>
                Run.ownPosts ((n.setClient j c).objects i) (n'.objects i) i :=
            List.flatMap_congr fun i hi => by rw [hother i hi]
          rw [hrest]
          exact hfirst.trans hposted
      · -- a sender that was refused
        cases h
        refine ⟨fun i hi => setClient_of_ne fun he => hi (List.mem_cons.mpr (.inl he)), rfl, ?_⟩
        have hrest : (is.flatMap fun i =>
            Run.ownPosts (n.objects i) ((n.setClient j c).objects i) i) = [] := by
          refine List.flatMap_eq_nil_iff.mpr fun i hi => ?_
          rw [hother i hi, ownPosts_same]
        rw [List.flatMap_cons, setClient_same, hrest, List.append_nil]
        exact hfirst

/-- `redirect_response`. -/
theorem redirectResponse_posted {ret : Bool} (hnd : n.clients.Nodup)
    (hatt : ∀ i ∈ n.clients, (n.objects i).Attached)
    (h : redirectResponse now n l = .ok (ret, n')) :
    Posted n n' [⟨audienceOf n.queries l, l⟩] := by
  obtain ⟨⟨c, queries⟩, hmatch, h⟩ := bind_eq_ok h
  have hwho : c = (n.queries.entries.find? fun e => e.query.lists (ircLineRespcode l)).map
      Entry.userdata := by
    rw [queryStackMatchResponse] at hmatch
    split at hmatch
    · cases hmatch
    dsimp only at hmatch
    split at hmatch
    · next hfind =>
      cases hmatch
      rw [hfind]
      rfl
    · next e hfind =>
      rw [hfind]
      split at hmatch
      · cases hmatch
        rfl
      · cases hmatch
        rfl
  have hall : ∀ {r : Network}, clientsSend now none n.clients l { n with queries := queries } = .ok r →
      Posted n r [⟨.all, l⟩] := fun {r} hsend => by
    refine (clientsSend_posted (a := .all) (n := { n with queries := queries }) hnd hatt
      (fun i => ?_) hsend).congr rfl rfl rfl rfl rfl rfl
    simp [Audience.has]
  have hnobody : Posted n { n with queries := queries } [⟨.nobody, l⟩] := by
    refine ⟨rfl, rfl, fun i hi => ⟨hatt i hi, [], (List.append_nil _).symm, ?_⟩⟩
    simp [postsFor, Audience.has]
  dsimp only at h
  rw [audienceOf]
  cases hfind : n.queries.entries.find? fun e => e.query.lists (ircLineRespcode l) with
  | some e =>
      rw [hwho, hfind] at h
      obtain ⟨⟨ret₁, c₁⟩, hsend, h⟩ := bind_eq_ok h
      cases h
      exact (clientSendLine_posted hatt hsend).congr rfl rfl rfl rfl rfl rfl
  | none =>
      rw [hwho, hfind] at h
      dsimp only [Option.map_none] at h ⊢
      have hdisjoint : ∀ r ∈ responseAll, ¬ (r ∈ responseNone ∨ r ∈ responseHandler) := by decide
      by_cases hra : ircLineRespcode l ∈ responseAll
      · rw [if_pos hra] at h
        obtain ⟨r, hsend, h⟩ := bind_eq_ok h
        cases h
        rw [if_neg (hdisjoint _ hra)]
        exact hall hsend
      · rw [if_neg hra] at h
        by_cases hrn : ircLineRespcode l ∈ responseNone
        · rw [if_pos hrn] at h
          cases h
          rw [if_pos (.inl hrn)]
          exact hnobody
        · rw [if_neg hrn] at h
          by_cases hrh : ircLineRespcode l ∈ responseHandler
          · rw [if_pos hrh] at h
            cases h
            rw [if_pos (.inr hrh)]
            exact hnobody
          · rw [if_neg hrh] at h
            obtain ⟨r, hsend, h⟩ := bind_eq_ok h
            cases h
            rw [if_neg (not_or.mpr ⟨hrn, hrh⟩)]
            exact hall hsend

/-- The end of the MOTD, if it is. -/
theorem endOfMotd_posted (hnd : n.clients.Nodup) (hatt : ∀ i ∈ n.clients, (n.objects i).Attached)
    (h : endOfMotd now n l = .ok n') :
    n'.queries = n.queries ∧ n'.externalState = n.externalState ∧
      Posted n n' (n.clients.flatMap fun i => Run.ownPosts (n.objects i) (n'.objects i) i) := by
  rw [endOfMotd] at h
  split at h
  · obtain ⟨⟨ret, m⟩, hsend, h⟩ := bind_eq_ok h
    cases h
    obtain ⟨-, hobj, hposted⟩ := clientsSendState_posted
      (n := { n with info := networkUpdateIsupport n.info n.externalState.info }) hnd
      (fun i hi => hi) hatt hsend
    refine ⟨by rw [hobj], by rw [hobj], hposted.congr rfl rfl rfl rfl rfl rfl⟩
  · cases h
    refine ⟨rfl, rfl, ?_⟩
    rw [List.flatMap_eq_nil_iff.mpr fun i _ => ownPosts_same _ i]
    exact .nothing hatt

/-- `process_from_server`. -/
theorem processFromServer_posted {stime : Str} {reportTime : ReportTime} (hnd : n.clients.Nodup)
    (hatt : ∀ i ∈ n.clients, (n.objects i).Attached)
    (hp : Run.postsOfLine now stime reportTime n l = .ok posts)
    (h : processFromServer now stime reportTime n l = .ok n') : Posted n n' posts := by
  rw [Run.postsOfLine] at hp
  rw [processFromServer] at h
  split at h
  · next h0 =>
    rw [if_pos h0] at hp
    cases h
    cases hp
    exact .nothing hatt
  next h0 =>
  rw [if_neg h0] at hp
  obtain ⟨⟨ret, ext⟩, hstate, h⟩ := bind_eq_ok h
  rw [hstate, ok_bind] at hp
  dsimp only at h hp
  split at h
  · next hka =>
    rw [if_pos hka] at hp
    cases h
    cases hp
    exact (Posted.nothing hatt).congr rfl rfl rfl rfl rfl rfl
  next hka =>
  rw [if_neg hka] at hp
  obtain ⟨m, hmotd, h⟩ := bind_eq_ok h
  rw [hmotd, ok_bind] at hp
  obtain ⟨hqueries, -, hown⟩ := endOfMotd_posted (n := { n with externalState := ext }) hnd hatt hmotd
  have hmatt : ∀ i ∈ m.clients, (m.objects i).Attached := fun i hi =>
    (hown.sent i (hown.clients ▸ hi)).1
  have hmnd : m.clients.Nodup := hown.clients ▸ hnd
  have hall : ∀ {nl : IrcLine} {r : Network}, clientsSend now none m.clients nl m = .ok r →
      Posted m r [⟨.all, nl⟩] := fun hsend =>
    clientsSend_posted hmnd hmatt (fun i => by simp [Audience.has]) hsend
  have together : ∀ {more : List Post}, Posted m n' more → Posted n n' (n.clients.flatMap (fun i =>
      Run.ownPosts (n.objects i) (m.objects i) i) ++ more) := fun hmore =>
    (hown.congr rfl rfl rfl rfl rfl rfl : Posted n m _).trans hmore
  split at h
  · next hnum =>
    rw [if_pos hnum] at hp
    obtain ⟨⟨ret, r⟩, hredirect, h⟩ := bind_eq_ok h
    cases h
    cases hp
    exact together (redirectResponse_posted hmnd hmatt hredirect)
  next hnum =>
  rw [if_neg hnum] at hp
  split at h
  · next hnone =>
    rw [if_pos hnone] at hp
    cases h
    cases hp
    exact hown.congr rfl rfl rfl rfl rfl rfl
  next hnone =>
  rw [if_neg hnone] at hp
  split at h
  · next htimed =>
    rw [if_pos htimed] at hp
    obtain ⟨nl, htime, h⟩ := bind_eq_ok h
    rw [htime, ok_bind] at hp
    cases hp
    exact together (hall h)
  · next htimed =>
    rw [if_neg htimed] at hp
    cases hp
    exact together (hall h)

/-- `network_forward_line`. -/
theorem networkForwardLine_posted {stime : Str} {reportTime : ReportTime} {isPrivate : Bool}
    (hnd : n.clients.Nodup) (hatt : ∀ i ∈ n.clients, (n.objects i).Attached)
    (hp : Run.postsOfForward stime reportTime n i l isPrivate = .ok posts)
    (h : networkForwardLine now stime reportTime n i l isPrivate = .ok n') : Posted n n' posts := by
  obtain ⟨m, hfirst, h⟩ := bind_eq_ok h
  obtain ⟨⟨ret, queries⟩, -, h⟩ := bind_eq_ok h
  cases h
  rw [Run.postsOfForward] at hp
  rw [showOthers] at hfirst
  split at hfirst
  · next hmsg =>
    rw [if_pos hmsg] at hp
    obtain ⟨nl, hcopy, hsend⟩ := bind_eq_ok hfirst
    rw [hcopy, ok_bind] at hp
    cases hp
    refine (clientsSend_posted hnd hatt (fun j => ?_) hsend).congr rfl rfl rfl rfl rfl rfl
    simp [Audience.has, eq_comm]
  · next hmsg =>
    rw [if_neg hmsg] at hp
    cases hfirst
    cases hp
    exact (Posted.nothing hatt).congr rfl rfl rfl rfl rfl rfl

/-- Lines of the proxy's own go behind what the client was sent. -/
theorem sendOwn_sent {c c' : Client} {ls : List IrcLine} (hc : c.Attached)
    (h : sendOwn now c ls = .ok c') : c'.Attached ∧ c.sent <+: c'.sent := by
  induction ls generalizing c with
  | nil =>
      cases h
      exact ⟨hc, List.prefix_rfl⟩
  | cons l ls ih =>
      rw [sendOwn, List.foldlM_cons] at h
      obtain ⟨c₁, hfirst, h⟩ := bind_eq_ok h
      obtain ⟨⟨ret, c₁⟩, hsend, rfl⟩ := map_eq_ok hfirst
      obtain ⟨-, hatt, hsent⟩ := clientSendLine_shown hc hsend
      obtain ⟨hatt', hpre⟩ := ih hatt h
      exact ⟨hatt', (hsent ▸ List.prefix_append _ _).trans hpre⟩

end

/-! ### Every run -/

/-- The clients that are there take lines, and each was sent the posts for it. -/
structure Run.Good (r : Run) : Prop where
  nodup : r.network.clients.Nodup
  numbered : ∀ i ∈ r.network.clients, i < r.network.count
  attached : ∀ i ∈ r.network.clients, (r.network.objects i).Attached
  since : ∀ i ∈ r.network.clients, r.since i ≤ r.posts.length
  before : ∀ i ∈ r.network.clients, r.before i ≤ (r.network.objects i).sent.length
  streams : ∀ i ∈ r.network.clients, List.Forall₂ Shown (r.letters i) (r.stream i)

section
variable {r r' : Run} {info : NetworkInfo} {externalState : NetworkState}

theorem Run.Good.start : (Run.start info externalState).Good where
  nodup := List.nodup_nil
  numbered := fun _ hi => by cases hi
  attached := fun _ hi => by cases hi
  since := fun _ hi => by cases hi
  before := fun _ hi => by cases hi
  streams := fun _ hi => by cases hi

/-- Posts that the clients are sent. -/
theorem Run.Good.posted (hr : r.Good) {n : Network} {posts : List Post} (h : Posted r.network n posts) :
    Run.Good { r with network := n, posts := r.posts ++ posts } where
  nodup := by
    show n.clients.Nodup
    rw [h.clients]
    exact hr.nodup
  numbered := fun i hi => by
    show i < n.count
    rw [h.count]
    exact hr.numbered i (h.clients ▸ hi)
  attached := fun i hi => (h.sent i (h.clients ▸ hi)).1
  since := fun i hi => by
    show r.since i ≤ (r.posts ++ posts).length
    rw [List.length_append]
    exact Nat.le_add_right_of_le (hr.since i (h.clients ▸ hi))
  before := fun i hi => by
    have hi : i ∈ r.network.clients := h.clients ▸ hi
    obtain ⟨-, more, hmore, -⟩ := h.sent i hi
    show r.before i ≤ (n.objects i).sent.length
    rw [hmore, List.length_append]
    exact Nat.le_add_right_of_le (hr.before i hi)
  streams := fun i hi => by
    have hi : i ∈ r.network.clients := h.clients ▸ hi
    obtain ⟨-, more, hmore, hposts⟩ := h.sent i hi
    show List.Forall₂ Shown (postsFor i ((r.posts ++ posts).drop (r.since i)))
      (((n.objects i).sent.drop (r.before i)).map Prod.snd)
    rw [hmore, List.drop_append_of_le_length (hr.since i hi),
      List.drop_append_of_le_length (hr.before i hi), postsFor_append, List.map_append]
    exact List.rel_append (hr.streams i hi) hposts

theorem Run.Good.attach (hr : r.Good) {c : Client} (hc : c.Attached)
    (h : r.step (.attach c) = .ok r') : r'.Good := by
  cases h
  have hnew : r.network.count ∉ r.network.clients := fun hmem =>
    Nat.lt_irrefl _ (hr.numbered _ hmem)
  -- what is known of the others is known of them as before
  have hcases : ∀ {i}, i ∈ r.network.clients ++ [r.network.count] →
      i = r.network.count ∨ i ∈ r.network.clients ∧ i ≠ r.network.count := by
    intro i hi
    rcases List.mem_append.mp hi with hi | hi
    · exact .inr ⟨hi, fun he => hnew (he ▸ hi)⟩
    · exact .inl (List.mem_singleton.mp hi)
  refine ⟨?_, fun i hi => ?_, fun i hi => ?_, fun i hi => ?_, fun i hi => ?_, fun i hi => ?_⟩
  · exact List.nodup_append'.mpr ⟨hr.nodup, List.nodup_singleton _, List.disjoint_singleton.mpr hnew⟩
  · rcases hcases hi with rfl | ⟨hi, -⟩
    · exact Nat.lt_succ_self _
    · exact Nat.lt_succ_of_lt (hr.numbered i hi)
  · show (Function.update r.network.objects r.network.count c i).Attached
    rcases hcases hi with rfl | ⟨hi, hne⟩
    · rw [Function.update_self]
      exact hc
    · rw [Function.update_of_ne hne]
      exact hr.attached i hi
  · show Function.update r.since r.network.count r.posts.length i ≤ r.posts.length
    rcases hcases hi with rfl | ⟨hi, hne⟩
    · rw [Function.update_self]
    · rw [Function.update_of_ne hne]
      exact hr.since i hi
  · show Function.update r.before r.network.count c.sent.length i ≤
      (Function.update r.network.objects r.network.count c i).sent.length
    rcases hcases hi with rfl | ⟨hi, hne⟩
    · rw [Function.update_self, Function.update_self]
    · rw [Function.update_of_ne hne, Function.update_of_ne hne]
      exact hr.before i hi
  · show List.Forall₂ Shown
      (postsFor i (r.posts.drop (Function.update r.since r.network.count r.posts.length i)))
      (((Function.update r.network.objects r.network.count c i).sent.drop
        (Function.update r.before r.network.count c.sent.length i)).map Prod.snd)
    rcases hcases hi with rfl | ⟨hi, hne⟩
    · rw [Function.update_self, Function.update_self, Function.update_self, List.drop_length,
        List.drop_length]
      exact .nil
    · rw [Function.update_of_ne hne, Function.update_of_ne hne, Function.update_of_ne hne]
      exact hr.streams i hi

theorem Run.Good.detach (hr : r.Good) {i : ℕ} (h : r.step (.detach i) = .ok r') : r'.Good := by
  cases h
  have hstay : ∀ {j}, j ∈ r.network.clients.erase i → j ∈ r.network.clients ∧ j ≠ i := fun hj =>
    ⟨List.mem_of_mem_erase hj, fun he => hr.nodup.not_mem_erase (he ▸ hj)⟩
  refine ⟨hr.nodup.erase i, fun j hj => hr.numbered j (hstay hj).1, fun j hj => ?_,
    fun j hj => hr.since j (hstay hj).1, fun j hj => ?_, fun j hj => ?_⟩
  · rw [show (_ : Network).objects j = r.network.objects j from setClient_of_ne (hstay hj).2]
    exact hr.attached j (hstay hj).1
  · rw [show (_ : Network).objects j = r.network.objects j from setClient_of_ne (hstay hj).2]
    exact hr.before j (hstay hj).1
  · rw [Run.stream, show (_ : Network).objects j = r.network.objects j from
      setClient_of_ne (hstay hj).2]
    exact hr.streams j (hstay hj).1

/-- One event. -/
theorem Run.Good.step (hr : r.Good) {e : Event} (he : Run.Admits r e) :
    Ensures (r.step e) Run.Good fun _ => True := by
  cases hstep : r.step e with
  | error f => trivial
  | ok r' =>
      show r'.Good
      cases e with
      | attach c => exact hr.attach he hstep
      | detach i => exact hr.detach hstep
      | fromServer now stime reportTime l =>
          obtain ⟨posts, hposts, h⟩ := bind_eq_ok hstep
          obtain ⟨n, hn, h⟩ := bind_eq_ok h
          cases h
          exact hr.posted (processFromServer_posted hr.nodup hr.attached hposts hn)
      | forward now stime reportTime i l isPrivate =>
          obtain ⟨posts, hposts, h⟩ := bind_eq_ok hstep
          obtain ⟨n, hn, h⟩ := bind_eq_ok h
          cases h
          exact hr.posted (networkForwardLine_posted hr.nodup hr.attached hposts hn)
      | told now i ls =>
          obtain ⟨c, hc, h⟩ := bind_eq_ok hstep
          cases h
          exact hr.posted (ownPosts_posted hr.attached fun hi => sendOwn_sent (hr.attached i hi) hc)

end

/-! ### Two clients -/

def line (w : String) : IrcLine := (ircParseLine (str w)).getD ⟨none, [], .colonUnknown⟩

/-- The events of these clients are admitted, which is decided. -/
def SmallAdmits (r : Run) : Event → Prop
  | .attach c => c.connected = true ∧ c.state.isSome = true
  | .forward _ _ _ i _ _ | .told _ i _ => i ∈ r.network.clients
  | .fromServer _ _ _ _ | .detach _ => True

instance (r : Run) : ∀ e, Decidable (SmallAdmits r e)
  | .attach _ => inferInstanceAs (Decidable (_ ∧ _))
  | .forward _ _ _ _ _ _ => inferInstanceAs (Decidable (_ ∈ _))
  | .told _ _ _ => inferInstanceAs (Decidable (_ ∈ _))
  | .fromServer _ _ _ _ | .detach _ => .isTrue trivial

theorem SmallAdmits.admits {r : Run} {e : Event} (h : SmallAdmits r e) : r.Admits e := by
  cases e with
  | attach c => exact ⟨h.1, fun hn => by rw [SmallAdmits, hn] at h; cases h.2⟩
  | forward now stime reportTime i l isPrivate => exact h
  | told now i ls => exact h
  | fromServer now stime reportTime l => trivial
  | detach i => trivial

end Ctrlproxy.Hub
